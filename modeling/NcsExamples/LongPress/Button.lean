import NcsExamples.Lib.Machine
import Mathlib.Data.BitVec

/-! # Long press button: the handler and its timer

A press of button 1 starts a timer, and its release asks the timer whether it has expired: if so, it
was a long press. The timer can expire at any time while it runs, also between two statements of the
handler, so each statement is a step of its own. -/

namespace NcsExamples.LongPress

/-! ## The timer -/

/-- `struct k_timer`, for a timer that is started without a period. -/
structure KTimer where
  running : Bool
  /-- The expiries since the timer was started or its status was read. -/
  status : ℕ
  deriving DecidableEq, Repr

/-- `k_timer_start`. -/
def kTimerStart (_ : KTimer) : KTimer := ⟨true, 0⟩

/-- `k_timer_status_get`: the status that was read, and the timer after it. -/
def kTimerStatusGet (timer : KTimer) : ℕ × KTimer := (timer.status, { timer with status := 0 })

/-- `k_timer_stop`. -/
def kTimerStop (timer : KTimer) : KTimer := { timer with running := false }

/-- The timer expires, and does not start again. -/
def KTimer.expire (timer : KTimer) : KTimer := ⟨false, timer.status + 1⟩

/-! ## The handler -/

/-- `DK_BTN1_MSK`. -/
def dkBtn1Msk : BitVec 32 := 1

/-- Where `button_handler` stands. -/
inductive Handler
  /-- It has returned, or has not been called. -/
  | idle
  /-- Before `k_timer_start`. -/
  | start
  /-- Before `k_timer_status_get`. -/
  | statusGet
  /-- Before `LOG_INF`, in the branch of a long press or in the other one. -/
  | log (long : Bool)
  /-- Before `k_timer_stop`. -/
  | stop
  deriving DecidableEq, Repr

/-- `button_handler`, up to its first call. -/
def buttonHandler (buttonState hasChanged : BitVec 32) : Handler :=
  if dkBtn1Msk &&& hasChanged ≠ 0 then
    if dkBtn1Msk &&& buttonState ≠ 0 then .start else .statusGet
  else .idle

/-- The line of each branch. -/
def lineText (long : Bool) : String := if long then "Long press" else "Short press"

/-- The timer, the handler and what has been logged. -/
structure State where
  timer : KTimer
  handler : Handler
  log : List String
  deriving DecidableEq, Repr

/-- What happens next. -/
inductive Input
  /-- The buttons library calls `button_handler`. -/
  | call (buttonState hasChanged : BitVec 32)
  /-- The handler calls `k_timer_start`. -/
  | kTimerStart
  /-- The handler calls `k_timer_status_get`. -/
  | kTimerStatusGet
  /-- The handler calls `LOG_INF`. -/
  | logInf
  /-- The handler calls `k_timer_stop`. -/
  | kTimerStop
  /-- The timer expires. -/
  | expiry
  deriving DecidableEq, Repr

/-- One step of the handler or of the timer. -/
def step (s : State) : Input → Option State
  | .call buttonState hasChanged =>
      if s.handler = .idle then some { s with handler := buttonHandler buttonState hasChanged }
      else none
  | .kTimerStart =>
      if s.handler = .start then some { s with timer := kTimerStart s.timer, handler := .idle }
      else none
  | .kTimerStatusGet =>
      if s.handler = .statusGet then
        let (status, timer) := kTimerStatusGet s.timer
        some { s with timer, handler := .log (status > 0) }
      else none
  | .logInf => match s.handler with
    | .log long =>
        some { s with
          log := s.log ++ [lineText long]
          -- a timer that has expired is not stopped
          handler := if long then .idle else .stop }
    | _ => none
  | .kTimerStop =>
      if s.handler = .stop then some { s with timer := kTimerStop s.timer, handler := .idle }
      else none
  | .expiry => if s.timer.running then some { s with timer := s.timer.expire } else none

/-- The button as a machine: the timer has not been started. -/
def longPress : Machine State Input := ⟨⟨⟨false, 0⟩, .idle, []⟩, step⟩

variable {s t : State} {i : Input}

/-- The steps, with what each one finds. -/
inductive Step (s : State) : Input → State → Prop
  | call (buttonState hasChanged : BitVec 32) (hat : s.handler = .idle) :
      Step s (.call buttonState hasChanged)
        { s with handler := buttonHandler buttonState hasChanged }
  | kTimerStart (hat : s.handler = .start) :
      Step s .kTimerStart ⟨kTimerStart s.timer, .idle, s.log⟩
  | kTimerStatusGet (hat : s.handler = .statusGet) :
      Step s .kTimerStatusGet
        ⟨(kTimerStatusGet s.timer).2, .log ((kTimerStatusGet s.timer).1 > 0), s.log⟩
  | logLong (hat : s.handler = .log true) :
      Step s .logInf ⟨s.timer, .idle, s.log ++ [lineText true]⟩
  | logShort (hat : s.handler = .log false) :
      Step s .logInf ⟨s.timer, .stop, s.log ++ [lineText false]⟩
  | kTimerStop (hat : s.handler = .stop) : Step s .kTimerStop ⟨kTimerStop s.timer, .idle, s.log⟩
  | expiry (hrunning : s.timer.running = true) : Step s .expiry { s with timer := s.timer.expire }

/-- Every step of the machine is one of these. -/
theorem step_of_eq_some (hs : longPress.step s i = some t) : Step s i t := by
  cases i with
  | call buttonState hasChanged =>
    obtain ⟨hat, rfl⟩ := Machine.guarded_eq_some.mp hs
    exact .call buttonState hasChanged hat
  | kTimerStart =>
    obtain ⟨hat, rfl⟩ := Machine.guarded_eq_some.mp hs
    exact .kTimerStart hat
  | kTimerStatusGet =>
    obtain ⟨hat, rfl⟩ := Machine.guarded_eq_some.mp hs
    exact .kTimerStatusGet hat
  | logInf =>
    simp only [longPress, step] at hs
    split at hs
    · next long hat =>
      obtain rfl := Option.some.inj hs
      cases long with
      | true => exact .logLong hat
      | false => exact .logShort hat
    · cases hs
  | kTimerStop =>
    obtain ⟨hat, rfl⟩ := Machine.guarded_eq_some.mp hs
    exact .kTimerStop hat
  | expiry =>
    obtain ⟨hrunning, rfl⟩ := Machine.guarded_eq_some.mp hs
    exact .expiry hrunning

end NcsExamples.LongPress
