import NcsExamples.LongPress.Button
import Mathlib.Data.List.Chain

/-! # Long press button: the classification of a release

A release is a long press if the timer has expired since the press before it, whatever was pressed
before that and whatever the other buttons do. What is left of an earlier press, a timer that runs
on or an expiry that has not been read, is gone with the start of the timer. -/

namespace NcsExamples.LongPress

/-! ## Presses and releases -/

/-- What an input does to button 1: a press, a release or nothing. -/
def btn1Event : Input → Option Bool
  | .call buttonState hasChanged =>
      if dkBtn1Msk &&& hasChanged ≠ 0 then some (dkBtn1Msk &&& buttonState ≠ 0) else none
  | _ => none

/-- An input is a call of `button_handler`. -/
def IsCall (i : Input) : Prop := ∃ buttonState hasChanged, i = .call buttonState hasChanged

/-- Button 1 is pressed and released in turn, and pressed first. -/
def Alternates (is : List Input) : Prop := (false :: is.filterMap btn1Event).IsChain (· ≠ ·)

instance : DecidablePred Alternates := fun _ => inferInstanceAs (Decidable (List.IsChain _ _))

/-- Button 1 is down after the inputs. -/
def down (is : List Input) : Bool :=
  (false :: is.filterMap btn1Event).getLast (List.cons_ne_nil _ _)

/-- The timer has been started by a press of button 1, and `since` has come since the start, without
a release. -/
def Held (is since : List Input) : Prop :=
  ∃ js press opening, is = js ++ press :: (opening ++ .kTimerStart :: since) ∧
    btn1Event press = some true ∧ (∀ i ∈ opening, i = .expiry) ∧ ∀ i ∈ since, btn1Event i = none

/-- In the run `is` there is a call, made after `js` in the state `u`, during which `inner` comes,
and in the state `t` it has returned. -/
structure Returns (is js : List Input) (call : Input) (inner : List Input) (u t : State) :
    Prop where
  among : js ++ call :: inner <+: is
  isCall : IsCall call
  noCall : ∀ i ∈ inner, ¬ IsCall i
  before : longPress.run js = some u
  after : longPress.runFrom u (call :: inner) = some t
  returned : t.handler = .idle

variable {s t u : State} {i : Input} {is js ks since : List Input} {b : Bool}

/-- The handler goes where the event sends it. -/
theorem buttonHandler_eq (buttonState hasChanged : BitVec 32) :
    buttonHandler buttonState hasChanged =
      match btn1Event (.call buttonState hasChanged) with
      | some true => .start
      | some false => .statusGet
      | none => .idle := by
  rw [buttonHandler, btn1Event]
  by_cases hchanged : dkBtn1Msk &&& hasChanged ≠ 0
  · rw [if_pos hchanged, if_pos hchanged]
    by_cases hdown : dkBtn1Msk &&& buttonState ≠ 0
    · rw [if_pos hdown, decide_eq_true hdown]
    · rw [if_neg hdown, decide_eq_false hdown]
  · rw [if_neg hchanged, if_neg hchanged]

theorem Alternates.of_append (h : Alternates (is ++ js)) : Alternates is := by
  rw [Alternates, List.filterMap_append, ← List.cons_append] at h
  exact h.left_of_append

@[simp] theorem down_append_of_event (h : btn1Event i = some b) : down (is ++ [i]) = b := by
  simp [down, List.filterMap_append, h]

@[simp] theorem down_append_of_none (h : btn1Event i = none) : down (is ++ [i]) = down is := by
  simp [down, List.filterMap_append, h]

/-- The next event of button 1 is not the same as the last one. -/
theorem Alternates.event_ne (h : Alternates (is ++ [i])) (hi : btn1Event i = some b) :
    down is ≠ b := by
  rw [Alternates, List.filterMap_append, List.filterMap_cons_some hi, ← List.cons_append,
    List.isChain_append] at h
  obtain ⟨-, -, hne⟩ := h
  apply hne
  · exact List.getLast_mem_getLast? _
  · exact rfl

/-! ## The timer while button 1 is down -/

theorem Held.append_singleton (h : Held is since) (hi : btn1Event i = none) :
    Held (is ++ [i]) (since ++ [i]) := by
  obtain ⟨js, press, opening, rfl, hpress, hopening, hsince⟩ := h
  refine ⟨js, press, opening, by simp, hpress, hopening, ?_⟩
  intro j hj
  rcases List.mem_append.mp hj with hj | hj
  · exact hsince j hj
  · rw [List.mem_singleton.mp hj]
    exact hi

/-- What the state tells of the inputs so far. -/
structure Tracks (is : List Input) (s : State) : Prop where
  held : s.handler = .idle → down is = true →
    ∃ since, Held is since ∧ (0 < s.timer.status ↔ .expiry ∈ since)
  pressed : s.handler = .start → ∃ js press opening, is = js ++ press :: opening ∧
    btn1Event press = some true ∧ ∀ i ∈ opening, i = .expiry
  released : s.handler ≠ .idle → s.handler ≠ .start → down is = false

/-- An expiry is counted, and moves nothing else. -/
theorem Tracks.expiry (h : Tracks is s) :
    Tracks (is ++ [.expiry]) { s with timer := s.timer.expire } where
  held hat hdown := by
    rw [down_append_of_none rfl] at hdown
    obtain ⟨since, hheld, -⟩ := h.held hat hdown
    refine ⟨since ++ [.expiry], hheld.append_singleton rfl, ?_⟩
    simp [KTimer.expire]
  pressed hat := by
    obtain ⟨js, press, opening, rfl, hpress, hopening⟩ := h.pressed hat
    refine ⟨js, press, opening ++ [.expiry], by simp, hpress, ?_⟩
    intro i hi
    rcases List.mem_append.mp hi with hi | hi
    · exact hopening i hi
    · exact List.mem_singleton.mp hi
  released hidle hstart := by
    rw [down_append_of_none rfl]
    exact h.released hidle hstart

/-- A call finds the handler idle, and tells what it is to do. -/
theorem Tracks.call (h : Tracks is s) (hat : s.handler = .idle)
    (buttonState hasChanged : BitVec 32) :
    Tracks (is ++ [.call buttonState hasChanged])
      { s with handler := buttonHandler buttonState hasChanged } := by
  rw [buttonHandler_eq]
  cases hevent : btn1Event (.call buttonState hasChanged) with
  | none =>
    refine ⟨?_, by simp, by simp⟩
    intro _ hdown
    rw [down_append_of_none hevent] at hdown
    obtain ⟨since, hheld, hstatus⟩ := h.held hat hdown
    exact ⟨_, hheld.append_singleton hevent, by simpa using hstatus⟩
  | some b =>
    cases b with
    | true =>
      refine ⟨by simp, ?_, by simp⟩
      intro _
      exact ⟨is, _, [], rfl, hevent, by simp⟩
    | false =>
      refine ⟨by simp, by simp, ?_⟩
      intro _ _
      exact down_append_of_event hevent

/-- The timer starts from a status of zero. -/
theorem Tracks.kTimerStart (h : Tracks is s) (hat : s.handler = .start) :
    Tracks (is ++ [.kTimerStart]) ⟨LongPress.kTimerStart s.timer, .idle, s.log⟩ := by
  refine ⟨?_, by simp, by simp⟩
  intro _ _
  obtain ⟨js, press, opening, rfl, hpress, hopening⟩ := h.pressed hat
  refine ⟨[], ⟨js, press, opening, by simp, hpress, hopening, by simp⟩, ?_⟩
  simp [LongPress.kTimerStart]

/-- After a release button 1 stays up until the handler has returned. -/
theorem Tracks.up (h : Tracks is s) (hidle : s.handler ≠ .idle) (hstart : s.handler ≠ .start)
    (hi : btn1Event i = none) (ht : t.handler ≠ .start) : Tracks (is ++ [i]) t := by
  -- the next press comes with a call, and that waits for the handler
  have hup : down (is ++ [i]) = false := by
    rw [down_append_of_none hi]
    exact h.released hidle hstart
  refine ⟨?_, fun hat => absurd hat ht, fun _ _ => hup⟩
  intro _ hdown
  rw [hup] at hdown
  cases hdown

theorem Tracks.step (h : Tracks is s) (hs : Step s i t) : Tracks (is ++ [i]) t := by
  cases hs with
  | call buttonState hasChanged hat => exact h.call hat buttonState hasChanged
  | kTimerStart hat => exact h.kTimerStart hat
  | kTimerStatusGet hat | logLong hat | logShort hat | kTimerStop hat =>
    exact h.up (by simp [hat]) (by simp [hat]) rfl (by simp)
  | expiry => exact h.expiry

theorem tracks_run (hrun : longPress.run is = some s) : Tracks is s := by
  have hinit : Tracks [] longPress.init :=
    ⟨by simp [down], by simp [longPress], by simp [longPress]⟩
  refine Machine.invariant_history Tracks ?_ hinit hrun
  intro js s i t h hs
  exact h.step (step_of_eq_some hs)

/-! ## What a call does -/

/-- How far the call for a release has come: it was made in the state `u`, and `ks` came since. -/
inductive Releasing (u : State) (ks : List Input) (s : State) : Prop
  | reading (hat : s.handler = .statusGet) (hlog : s.log = u.log)
      (hstatus : 0 < s.timer.status ↔ 0 < u.timer.status ∨ .expiry ∈ ks)
  | logging (before after : List Input) (long : Bool) (hat : s.handler = .log long)
      (hlog : s.log = u.log) (hks : ks = before ++ .kTimerStatusGet :: after)
      (hlong : long = true ↔ 0 < u.timer.status ∨ .expiry ∈ before)
  | logged (before after : List Input) (long : Bool) (hat : s.handler = .stop ∨ s.handler = .idle)
      (hlog : s.log = u.log ++ [lineText long]) (hks : ks = before ++ .kTimerStatusGet :: after)
      (hlong : long = true ↔ 0 < u.timer.status ∨ .expiry ∈ before)

theorem Releasing.step (h : Releasing u ks s) (hs : Step s i t) (hi : ¬ IsCall i) :
    Releasing u (ks ++ [i]) t := by
  cases h with
  | reading hat hlog hstatus =>
    cases hs with
    | call buttonState hasChanged => exact absurd ⟨_, _, rfl⟩ hi
    | kTimerStatusGet =>
      have hlong : decide ((kTimerStatusGet s.timer).1 > 0) = true ↔
          0 < u.timer.status ∨ .expiry ∈ ks := by
        rw [← hstatus]
        exact decide_eq_true_iff
      exact .logging ks [] _ rfl hlog rfl hlong
    | expiry => exact .reading hat hlog (by simp [KTimer.expire])
    | kTimerStart hat' | logLong hat' | logShort hat' | kTimerStop hat' =>
      cases hat.symm.trans hat'
  | logging before after long hat hlog hks hlong =>
    have hks' : ks ++ [i] = before ++ .kTimerStatusGet :: (after ++ [i]) := by simp [hks]
    cases hs with
    | call buttonState hasChanged => exact absurd ⟨_, _, rfl⟩ hi
    | logLong hat' =>
      obtain rfl := Handler.log.inj (hat.symm.trans hat')
      exact .logged before _ true (.inr rfl) (by rw [hlog]) hks' hlong
    | logShort hat' =>
      obtain rfl := Handler.log.inj (hat.symm.trans hat')
      exact .logged before _ false (.inl rfl) (by rw [hlog]) hks' hlong
    | expiry => exact .logging before _ long hat hlog hks' hlong
    | kTimerStart hat' | kTimerStatusGet hat' | kTimerStop hat' =>
      cases hat.symm.trans hat'
  | logged before after long hat hlog hks hlong =>
    have hks' : ks ++ [i] = before ++ .kTimerStatusGet :: (after ++ [i]) := by simp [hks]
    cases hs with
    | call buttonState hasChanged => exact absurd ⟨_, _, rfl⟩ hi
    | kTimerStop => exact .logged before _ long (.inr rfl) hlog hks' hlong
    | expiry => exact .logged before _ long hat hlog hks' hlong
    | kTimerStart hat' | kTimerStatusGet hat' | logLong hat' | logShort hat' =>
      rw [hat'] at hat
      rcases hat with hat | hat <;> cases hat

/-- A call for a release that has returned has read the status once, and has logged one line by what
it has read. -/
theorem log_of_release (hat : s.handler = .statusGet) (hks : ∀ i ∈ ks, ¬ IsCall i)
    (hrun : longPress.runFrom s ks = some t) (hidle : t.handler = .idle) :
    ∃ before after long, ks = before ++ .kTimerStatusGet :: after ∧
      t.log = s.log ++ [lineText long] ∧
      (long = true ↔ 0 < s.timer.status ∨ .expiry ∈ before) := by
  have hstart : Releasing s [] s := .reading hat rfl (by simp)
  have hend : Releasing s ks t := by
    refine Machine.invariant_history_inputs (Releasing s) ?_ hks hstart hrun
    intro js v i w h hi hs
    exact h.step (step_of_eq_some hs) hi
  cases hend with
  | reading hat' | logging _ _ _ hat' => cases hidle.symm.trans hat'
  | logged before after long _ hlog hsplit hlong =>
    exact ⟨before, after, long, hsplit, hlog, hlong⟩

/-- Outside a call for a release nothing is logged. -/
theorem log_of_quiet (hat : s.handler = .start ∨ s.handler = .idle) (hks : ∀ i ∈ ks, ¬ IsCall i)
    (hrun : longPress.runFrom s ks = some t) : t.log = s.log := by
  have hquiet : (t.handler = .start ∨ t.handler = .idle) ∧ t.log = s.log := by
    refine Machine.invariant_inputs
      (fun v => (v.handler = .start ∨ v.handler = .idle) ∧ v.log = s.log) ?_ hks ⟨hat, rfl⟩ hrun
    rintro v i w ⟨hv, hlog⟩ hi hs
    cases step_of_eq_some hs with
    | call buttonState hasChanged => exact absurd ⟨_, _, rfl⟩ hi
    | kTimerStart => exact ⟨.inr rfl, hlog⟩
    | expiry => exact ⟨hv, hlog⟩
    | kTimerStatusGet hat' | logLong hat' | logShort hat' | kTimerStop hat' =>
      rw [hat'] at hv
      rcases hv with hv | hv <;> cases hv
  exact hquiet.2

/-- The lines that the handler has still to log. -/
def pendingLines : Handler → ℕ
  | .statusGet | .log _ => 1
  | .idle | .start | .stop => 0

/-- **One line for each release.** At any moment of a run there are as many lines as there were
releases of button 1, less the one for a release that is still being handled. -/
theorem log_length_run (hrun : longPress.run is = some s) :
    s.log.length + pendingLines s.handler = (is.filterMap btn1Event).count false := by
  have hinit : longPress.init.log.length + pendingLines longPress.init.handler =
    (([] : List Input).filterMap btn1Event).count false := rfl
  refine Machine.invariant_history
    (fun is s => s.log.length + pendingLines s.handler = (is.filterMap btn1Event).count false)
    ?_ hinit hrun
  intro js s i t hcount hs
  rw [List.filterMap_append, List.count_append, ← hcount]
  cases step_of_eq_some hs with
  | call buttonState hasChanged hat =>
    rw [hat, buttonHandler_eq]
    cases hevent : btn1Event (.call buttonState hasChanged) with
    | none => simp [hevent, pendingLines]
    | some b => cases b <;> simp [hevent, pendingLines]
  | kTimerStart hat | kTimerStatusGet hat | logLong hat | logShort hat | kTimerStop hat =>
    simp [hat, List.filterMap_cons, btn1Event, pendingLines]
  | expiry => simp [List.filterMap_cons, btn1Event]

/-- The handler returns: from every state its own calls, without another one of the buttons library
and without an expiry, lead to its end. -/
theorem exists_returned (s : State) : ∃ is t, (∀ i ∈ is, ¬ IsCall i ∧ i ≠ .expiry) ∧
    longPress.runFrom s is = some t ∧ t.handler = .idle := by
  obtain ⟨timer, handler, log⟩ := s
  cases handler with
  | idle => exact ⟨[], _, by simp, rfl, rfl⟩
  | start => exact ⟨[.kTimerStart], _, by simp [IsCall], rfl, rfl⟩
  | stop => exact ⟨[.kTimerStop], _, by simp [IsCall], rfl, rfl⟩
  | log long =>
    cases long with
    | true => exact ⟨[.logInf], _, by simp [IsCall], rfl, rfl⟩
    | false => exact ⟨[.logInf, .kTimerStop], _, by simp [IsCall], rfl, rfl⟩
  | statusGet =>
    obtain ⟨running, status⟩ := timer
    cases status with
    | zero => exact ⟨[.kTimerStatusGet, .logInf, .kTimerStop], _, by simp [IsCall], rfl, rfl⟩
    | succ n => exact ⟨[.kTimerStatusGet, .logInf], _, by simp [IsCall], rfl, rfl⟩

/-! ## Other buttons -/

/-- A call that reports no change of button 1. -/
def reportsOthers : Input → Bool
  | .call _ hasChanged => dkBtn1Msk &&& hasChanged = 0
  | _ => false

/-- A change of other buttons changes nothing here. -/
theorem eq_of_reportsOthers (hi : reportsOthers i = true) (hs : Step s i t) : t = s := by
  cases hs with
  | call buttonState hasChanged hat =>
    have hunchanged : dkBtn1Msk &&& hasChanged = 0 := of_decide_eq_true hi
    rw [buttonHandler, if_neg (not_not.mpr hunchanged), ← hat]
  | _ => cases hi

/-- A run without the calls for other buttons ends where the run with them does. -/
theorem runFrom_filter (hrun : longPress.runFrom s is = some t) :
    longPress.runFrom s (is.filter fun i => !reportsOthers i) = some t := by
  induction is generalizing s with
  | nil => exact hrun
  | cons i is ih =>
    obtain ⟨u, hs, hrest⟩ := longPress.runFrom_cons_eq_some.mp hrun
    by_cases hi : reportsOthers i = true
    · rw [List.filter_cons_of_neg (by simp [hi]), ← eq_of_reportsOthers hi (step_of_eq_some hs)]
      exact ih hrest
    · rw [List.filter_cons_of_pos (by simp [hi])]
      exact longPress.runFrom_cons_eq_some.mpr ⟨u, hs, ih hrest⟩

/-! ## The classification -/

/-- A call for a release finds the timer as the press before it has left it. -/
theorem held_of_release (halternates : Alternates (js ++ [i])) (hi : btn1Event i = some false)
    (hrun : longPress.run js = some u) (hat : u.handler = .idle) :
    ∃ since, Held js since ∧ (0 < u.timer.status ↔ .expiry ∈ since) := by
  have hdown : down js = true := Bool.eq_true_of_not_eq_false (halternates.event_ne hi)
  exact (tracks_run hrun).held hat hdown

/-- **The classification does not depend on history.** Let button 1 be pressed and released in turn.
A call for its release reads the status once and logs one line, which says whether the timer has
expired between its start, by the press before, and this reading; any other call logs nothing; and
without the calls for other buttons the run ends in the same state, with the same lines. -/
theorem button_classification (is : List Input) (s : State) (halternates : Alternates is)
    (hrun : longPress.run is = some s) :
    (∀ js call inner u t, Returns is js call inner u t →
      (btn1Event call = some false → ∃ since before after long,
        Held js since ∧ inner = before ++ .kTimerStatusGet :: after ∧
        t.log = u.log ++ [lineText long] ∧ (long = true ↔ .expiry ∈ since ++ before)) ∧
      (btn1Event call ≠ some false → t.log = u.log)) ∧
    longPress.run (is.filter fun i => !reportsOthers i) = some s := by
  refine ⟨?_, runFrom_filter hrun⟩
  rintro js call inner u t ⟨⟨ks, rfl⟩, ⟨buttonState, hasChanged, rfl⟩, hinner, hjs, hcall, hidle⟩
  obtain ⟨v, hs, hrest⟩ := longPress.runFrom_cons_eq_some.mp hcall
  obtain ⟨hat, hhandler, hvlog, hvtimer⟩ : u.handler = .idle ∧
      v.handler = buttonHandler buttonState hasChanged ∧ v.log = u.log ∧ v.timer = u.timer := by
    cases step_of_eq_some hs with
    | call _ _ hat => exact ⟨hat, rfl, rfl, rfl⟩
  rw [buttonHandler_eq] at hhandler
  constructor
  · intro hrelease
    have hnext : Alternates (js ++ [.call buttonState hasChanged]) := by
      rw [List.append_cons, List.append_assoc] at halternates
      exact halternates.of_append
    obtain ⟨since, hheld, hstatus⟩ := held_of_release hnext hrelease hjs hat
    rw [hrelease] at hhandler
    obtain ⟨before, after, long, hsplit, hlog, hlong⟩ := log_of_release hhandler hinner hrest hidle
    rw [hvlog] at hlog
    rw [hvtimer, hstatus, ← List.mem_append] at hlong
    exact ⟨since, before, after, long, hheld, hsplit, hlog, hlong⟩
  · intro hother
    have hquiet : v.handler = .start ∨ v.handler = .idle := by
      rw [hhandler]
      cases hevent : btn1Event (.call buttonState hasChanged) with
      | none => exact .inr rfl
      | some b =>
        cases b with
        | true => exact .inl rfl
        | false => exact absurd hevent hother
    rw [log_of_quiet hquiet hinner hrest, hvlog]

/-- A short press and the beginning of a long one. The timer of the first one expires only after its
status has been read, and button 2 is pressed during the second one. -/
def twoPresses : List Input :=
  [.call 1 1, .kTimerStart, .call 0 1, .kTimerStatusGet, .expiry, .logInf, .kTimerStop,
    .call 1 1, .kTimerStart, .expiry, .call 3 2]

/-- What comes during the call for the second release. -/
def secondRelease : List Input := [.kTimerStatusGet, .logInf]

theorem button_classification_twoPresses : ∃ s u : State,
    longPress.run (twoPresses ++ .call 2 1 :: secondRelease) = some s ∧
    s.log = ["Short press", "Long press"] ∧
    (∃ since before after long, Held twoPresses since ∧
      secondRelease = before ++ .kTimerStatusGet :: after ∧ s.log = u.log ++ [lineText long] ∧
      (long = true ↔ .expiry ∈ since ++ before)) ∧
    longPress.run ((twoPresses ++ .call 2 1 :: secondRelease).filter
      fun i => !reportsOthers i) = some s := by
  obtain ⟨s, hs, hlog, hidle⟩ : ∃ s, longPress.run (twoPresses ++ .call 2 1 :: secondRelease) =
      some s ∧ s.log = ["Short press", "Long press"] ∧ s.handler = .idle :=
    ⟨_, rfl, rfl, rfl⟩
  obtain ⟨u, hu, hcall⟩ := longPress.runFrom_append_eq_some.mp hs
  obtain ⟨hreturns, hfilter⟩ :=
    button_classification (twoPresses ++ .call 2 1 :: secondRelease) s (by decide) hs
  refine ⟨s, u, hs, hlog, (hreturns twoPresses (.call 2 1) secondRelease u s ?_).1 rfl, hfilter⟩
  refine ⟨List.prefix_rfl, ⟨2, 1, rfl⟩, ?_, hu, hcall, hidle⟩
  rintro i hi ⟨buttonState, hasChanged, rfl⟩
  simp [secondRelease] at hi

end NcsExamples.LongPress
