import NcsExamples.Lib.Machine
import NcsExamples.Lib.Scheduler
import Mathlib.Data.BitVec

/-! # Identify mode of the Zigbee applications

While a device is in identify mode it blinks: `identify_cb` is told of the start with a buffer, and
queues `toggle_identify_led`, which sets an alarm for itself each time it runs. The end is told
without a buffer, and then the alarm is cancelled and the LED is restored. Light bulb, multi sensor
and network coordinator have the same pair of functions, and differ in what they write to the LED.

After a stop the blinking has ended if neither form of `toggle_identify_led` waits: no alarm, which
the handler sees to, and no queued callback, which it does not. -/

namespace NcsExamples.Zigbee

/-- The functions that the applications hand to the scheduler, with their parameter. -/
inductive Callback
  | toggleIdentifyLed (bufid : BitVec 8)
  | startIdentifying (bufid : BitVec 8)
  | steeringFinished (param : BitVec 8)
  deriving DecidableEq, Repr

/-- The callback is `toggle_identify_led`. -/
def Callback.isToggle : Callback → Bool
  | .toggleIdentifyLed _ => true
  | _ => false

/-- What an application does with its LED; `α` are the attributes that its stop handler reads. -/
structure Blinker (α : Type*) where
  /-- The level written by `toggle_identify_led`, by the new value of `blink_status`. -/
  blink : ℕ → ℕ
  /-- The level written by the stop handler. -/
  restored : α → ℕ

/-- The state that the pair of functions works on. -/
structure IdentifyState where
  /-- The work of the ZBOSS scheduler. -/
  sched : Scheduler Callback
  /-- `blink_status`, which counts the runs of `toggle_identify_led`. -/
  blinkStatus : ℕ
  /-- The level of the LED. -/
  led : ℕ
  deriving DecidableEq, Repr

section Functions

variable {α : Type*} (d : Blinker α) (mode : CancelMode)

/-- `toggle_identify_led`. -/
def toggleIdentifyLed (bufid : BitVec 8) (s : IdentifyState) : IdentifyState :=
  { sched := s.sched.scheduleAlarm (.toggleIdentifyLed bufid)
    blinkStatus := s.blinkStatus + 1
    led := d.blink (s.blinkStatus + 1) }

/-- `identify_cb`; `attrs` are the attributes at that moment. -/
def identifyCb (attrs : α) (bufid : BitVec 8) (s : IdentifyState) : IdentifyState :=
  if bufid ≠ 0 then { s with sched := s.sched.scheduleCallback (.toggleIdentifyLed bufid) }
  else { s with
    sched := s.sched.cancelAlarm mode Callback.isToggle
    led := d.restored attrs }

/-- The run of a callback. -/
def runCallback : Callback → IdentifyState → IdentifyState
  | .toggleIdentifyLed bufid, s => toggleIdentifyLed d bufid s
  -- the stack enters or leaves identify mode, and tells so with a notification of its own
  | .startIdentifying _, s => s
  -- another LED
  | .steeringFinished _, s => s

end Functions

/-! ## The applications -/

/-- The attributes that the stop handler of the light bulb reads. -/
structure BulbAttrs where
  /-- `on_off_attr.on_off`. -/
  onOff : Bool
  /-- `level_control_attr.current_level`. -/
  currentLevel : ℕ
  deriving DecidableEq, Repr

/-- The light bulb writes the brightness of `BULB_LED`. -/
def lightBulb : Blinker BulbAttrs where
  blink n := if n % 2 ≠ 0 then 255 else 0
  restored attrs := if attrs.onOff then attrs.currentLevel else 0

/-- The multi sensor writes `IDENTIFY_LED`. -/
def multiSensor : Blinker Unit where
  blink n := n % 2
  restored _ := 0

/-- The network coordinator writes `IDENTIFY_LED`. -/
def networkCoordinator : Blinker Unit where
  blink n := n % 2
  restored _ := 0

/-! ## Runs -/

/-- What happens next. -/
inductive IdentifyInput (α : Type*)
  /-- The stack calls `identify_cb`. -/
  | identifyCb (attrs : α) (bufid : BitVec 8)
  /-- `button_changed` queues `start_identifying`. -/
  | startIdentifying
  /-- The scheduler takes a turn. -/
  | turn (turn : Turn)
  deriving DecidableEq, Repr

/-- The input is a start notification. -/
def IdentifyInput.isStart {α : Type*} : IdentifyInput α → Bool
  | .identifyCb _ bufid => bufid != 0
  | _ => false

/-- The input is a stop notification. -/
def IdentifyInput.isStop {α : Type*} : IdentifyInput α → Bool
  | .identifyCb _ bufid => bufid == 0
  | _ => false

variable {α : Type*} (d : Blinker α) (mode : CancelMode)

/-- One step of an application. -/
def identifyStep (s : IdentifyState) : IdentifyInput α → Option IdentifyState
  | .identifyCb attrs bufid => some (identifyCb d mode attrs bufid s)
  | .startIdentifying => some { s with sched := s.sched.scheduleCallback (.startIdentifying 0) }
  | .turn turn => (s.sched.pop turn).map fun ⟨c, sched⟩ => runCallback d c { s with sched }

/-- An application at its start. -/
def identify : Machine IdentifyState (IdentifyInput α) :=
  ⟨⟨Scheduler.empty, 0, 0⟩, identifyStep d mode⟩

/-- `toggle_identify_led` does not run in the step, and the LED is written by a stop only. -/
def Rests (s : IdentifyState) (i : IdentifyInput α) (t : IdentifyState) : Prop :=
  t.blinkStatus = s.blinkStatus ∧ (i.isStop = false → t.led = s.led)

/-- A stop restores the LED, and after it `toggle_identify_led` does not run until the next start,
whatever happens. -/
def EndsBlinking (_ : IdentifyState) (i : IdentifyInput α) (t : IdentifyState) : Prop :=
  ∀ attrs, i = .identifyCb attrs 0 → t.led = d.restored attrs ∧
    ∀ js : List (IdentifyInput α), (∀ j ∈ js, j.isStart = false) →
      (identify d mode).Along Rests t js

/-- A stop comes while `toggle_identify_led` is not queued, and while no more of its alarms are
pending than one call cancels. -/
def StopsUnqueued (s : IdentifyState) (i : IdentifyInput α) : Prop :=
  i.isStop = true → s.sched.queued Callback.isToggle = 0 ∧
    mode.leaves (s.sched.pending Callback.isToggle) = 0

/-! ## Quiet states -/

/-- `toggle_identify_led` does not wait in any form. -/
def IdentifyState.Quiet (s : IdentifyState) : Prop :=
  s.sched.queued Callback.isToggle = 0 ∧ s.sched.pending Callback.isToggle = 0

variable {d mode} {s t : IdentifyState}

variable (d mode) in
/-- A turn of the scheduler runs what it takes from the work. -/
theorem identifyStep_turn_eq_some {turn : Turn} :
    identifyStep d mode s (.turn turn) = some t ↔
      ∃ c sched, s.sched.pop turn = some (c, sched) ∧ runCallback d c { s with sched } = t := by
  simp only [identifyStep, Option.map_eq_some_iff, Prod.exists]

/-- A callback other than `toggle_identify_led` changes nothing here. -/
theorem runCallback_of_not_toggle {c : Callback} (hc : c.isToggle = false) (s : IdentifyState) :
    runCallback d c s = s := by
  cases c with
  | toggleIdentifyLed bufid => cases hc
  | startIdentifying bufid => rfl
  | steeringFinished param => rfl

/-- `toggle_identify_led` counts its run. -/
theorem blinkStatus_runCallback {c : Callback} (hc : c.isToggle = true) (s : IdentifyState) :
    (runCallback d c s).blinkStatus = s.blinkStatus + 1 := by
  cases c with
  | toggleIdentifyLed bufid => rfl
  | startIdentifying bufid => cases hc
  | steeringFinished param => cases hc

/-- Without a start a quiet state rests and stays quiet. -/
theorem IdentifyState.Quiet.step (hs : s.Quiet) {j : IdentifyInput α} (hj : j.isStart = false)
    (h : identifyStep d mode s j = some t) : Rests s j t ∧ t.Quiet := by
  cases j with
  | identifyCb attrs bufid =>
    obtain rfl : bufid = 0 := by simpa [IdentifyInput.isStart] using hj
    obtain rfl := Option.some.inj h
    obtain ⟨hqueued, hpending⟩ := hs
    constructor
    · exact ⟨rfl, fun hstop => by cases hstop⟩
    · show Scheduler.queued _ (Scheduler.cancelAlarm _ _ _) = 0 ∧ _
      constructor
      · rw [Scheduler.queued_cancelAlarm, hqueued]
      · show Scheduler.pending _ (Scheduler.cancelAlarm _ _ _) = 0
        rw [Scheduler.pending_cancelAlarm, hpending]
        cases mode <;> rfl
  | startIdentifying =>
    obtain rfl := Option.some.inj h
    exact ⟨⟨rfl, fun _ => rfl⟩, by simpa [IdentifyState.Quiet, Callback.isToggle] using hs⟩
  | turn turn =>
    obtain ⟨c, sched, hpop, rfl⟩ := (identifyStep_turn_eq_some d mode).mp h
    obtain ⟨hc, hquiet⟩ := Scheduler.pop_of_none_waits hs.1 hs.2 hpop
    rw [runCallback_of_not_toggle hc]
    exact ⟨⟨rfl, fun _ => rfl⟩, hquiet⟩

/-- Without a start `toggle_identify_led` does not run from a quiet state. -/
theorem IdentifyState.Quiet.along_rests {js : List (IdentifyInput α)} (hs : s.Quiet)
    (hjs : ∀ j ∈ js, j.isStart = false) : (identify d mode).Along Rests s js := by
  have halong : (identify d mode).Along (fun _ j _ => j.isStart = false) s js :=
    Machine.along_of_forall_mem hjs s
  refine Machine.along_of_invariant IdentifyState.Quiet ?_ ?_ hs halong
  · intro s j t hs hj hstep
    exact (hs.step hj hstep).2
  · intro s j t hs hj hstep
    exact (hs.step hj hstep).1

/-- A turn that runs `toggle_identify_led`. -/
theorem not_along_rests_turn {turn : Turn} {c : Callback} {sched : Scheduler Callback}
    (h : s.sched.pop turn = some (c, sched)) (hc : c.isToggle = true) :
    ¬ (identify d mode).Along Rests s [.turn turn] := by
  intro halong
  have hstep : (identify d mode).step s (.turn turn) = some (runCallback d c { s with sched }) :=
    (identifyStep_turn_eq_some d mode).mpr ⟨c, sched, h, rfl⟩
  obtain ⟨⟨hrests, -⟩, -⟩ := (Machine.along_cons hstep).mp halong
  rw [blinkStatus_runCallback hc] at hrests
  exact absurd hrests (Nat.succ_ne_self _)

/-- The scheduler gets to a queued `toggle_identify_led`. -/
theorem exists_toggle_of_queued {cs : List Callback} (hcs : s.sched.callbacks = cs)
    (h : 0 < cs.countP Callback.isToggle) :
    ∃ turns : List Turn, ¬ (identify d mode).Along Rests s (turns.map .turn) := by
  induction cs generalizing s with
  | nil => cases h
  | cons c cs ih =>
    have hpop : s.sched.pop .callback = some (c, ⟨cs, s.sched.alarms⟩) :=
      Scheduler.pop_callback_eq_some.mpr ⟨hcs, rfl⟩
    cases hc : c.isToggle with
    | true => exact ⟨[.callback], not_along_rests_turn hpop hc⟩
    | false =>
      -- another callback comes first, and leaves the rest of the queue
      have hstep : (identify d mode).step s (.turn .callback) =
          some { s with sched := ⟨cs, s.sched.alarms⟩ } :=
        (identifyStep_turn_eq_some d mode).mpr ⟨c, _, hpop, runCallback_of_not_toggle hc _⟩
      rw [List.countP_cons_of_neg (by rw [hc]; decide)] at h
      have hrest := ih (s := { s with sched := ⟨cs, s.sched.alarms⟩ }) rfl h
      obtain ⟨turns, hturns⟩ := hrest
      refine ⟨.callback :: turns, fun halong => hturns ?_⟩
      exact ((Machine.along_cons hstep).mp halong).2

variable (d mode) in
/-- In a state that is not quiet the scheduler alone gets to `toggle_identify_led`. -/
theorem exists_toggle_of_not_quiet (h : ¬ s.Quiet) :
    ∃ turns : List Turn, ¬ (identify d mode).Along Rests s (turns.map .turn) := by
  rcases Nat.eq_zero_or_pos (s.sched.pending Callback.isToggle) with hpending | hpending
  · refine exists_toggle_of_queued rfl (Nat.pos_of_ne_zero fun hqueued => h ?_)
    exact ⟨hqueued, hpending⟩
  · obtain ⟨i, c, sched, hpop, hc⟩ := Scheduler.exists_pop_of_pending_pos hpending
    exact ⟨[.alarm i], not_along_rests_turn hpop hc⟩

/-! ## Blinking for ever -/

/-- How often `toggle_identify_led` waits. -/
def IdentifyState.toggles (s : IdentifyState) : ℕ :=
  s.sched.queued Callback.isToggle + s.sched.pending Callback.isToggle

theorem IdentifyState.quiet_iff_toggles : s.Quiet ↔ s.toggles = 0 :=
  Nat.add_eq_zero_iff.symm

/-- A run of `toggle_identify_led` is replaced by its next alarm. -/
theorem toggles_runCallback (c : Callback) :
    (runCallback d c s).toggles = s.toggles + if c.isToggle then 1 else 0 := by
  cases c with
  | toggleIdentifyLed bufid =>
    show Scheduler.queued _ (Scheduler.scheduleAlarm _ _) +
      Scheduler.pending _ (Scheduler.scheduleAlarm _ _) = _
    rw [Scheduler.queued_scheduleAlarm, Scheduler.pending_scheduleAlarm, ← Nat.add_assoc]
    rfl
  | startIdentifying bufid => rfl
  | steeringFinished param => rfl

/-- A turn of the scheduler leaves as many as there were. -/
theorem toggles_turn {turn : Turn} (h : identifyStep d mode s (.turn turn) = some t) :
    t.toggles = s.toggles := by
  obtain ⟨c, sched, hpop, rfl⟩ := (identifyStep_turn_eq_some d mode).mp h
  rw [toggles_runCallback]
  simp only [IdentifyState.toggles]
  cases turn with
  | callback =>
    rw [Scheduler.queued_pop_callback hpop, Scheduler.pending_pop_callback hpop]
    omega
  | alarm i =>
    rw [Scheduler.queued_pop_alarm hpop, Scheduler.pending_pop_alarm hpop]
    omega

/-- Turns of the scheduler, as inputs. -/
theorem forall_mem_turns {turns : List Turn} :
    ∀ i ∈ turns.map (IdentifyInput.turn (α := α)), ∃ turn, i = .turn turn := by
  intro i hi
  obtain ⟨turn, -, rfl⟩ := List.mem_map.mp hi
  exact ⟨turn, rfl⟩

/-- The scheduler alone never ends the blinking. -/
theorem toggles_turns {turns : List Turn}
    (h : (identify d mode).runFrom s (turns.map .turn) = some t) : t.toggles = s.toggles := by
  refine Machine.invariant_inputs (fun u => u.toggles = s.toggles) ?_ forall_mem_turns rfl h
  rintro u _ v hu ⟨turn, rfl⟩ hstep
  have hturn : identifyStep d mode u (.turn turn) = some v := hstep
  rw [toggles_turn hturn, hu]

/-! ## Stops -/

/-- A stop leaves a quiet state exactly if nothing waits that it does not cancel. -/
theorem quiet_identifyCb_iff {attrs : α} :
    (identifyCb d mode attrs 0 s).Quiet ↔ StopsUnqueued mode s (.identifyCb attrs 0) := by
  show Scheduler.queued _ (Scheduler.cancelAlarm _ _ _) = 0 ∧
    Scheduler.pending _ (Scheduler.cancelAlarm _ _ _) = 0 ↔ _
  rw [Scheduler.queued_cancelAlarm, Scheduler.pending_cancelAlarm]
  exact ⟨fun h _ => h, fun h => h rfl⟩

/-- A step ends the blinking exactly if it is not a stop that misses a `toggle_identify_led`. -/
theorem endsBlinking_step_iff {i : IdentifyInput α} (h : identifyStep d mode s i = some t) :
    EndsBlinking d mode s i t ↔ StopsUnqueued mode s i := by
  constructor
  · intro hends hstop
    cases i with
    | startIdentifying => cases hstop
    | turn turn => cases hstop
    | identifyCb attrs bufid =>
      obtain rfl : bufid = 0 := by simpa [IdentifyInput.isStop] using hstop
      obtain rfl := Option.some.inj h
      refine (quiet_identifyCb_iff (d := d)).mp ?_ hstop
      by_contra hquiet
      obtain ⟨turns, hturns⟩ := exists_toggle_of_not_quiet d mode hquiet
      refine hturns ((hends attrs rfl).2 _ ?_)
      intro j hj
      obtain ⟨turn, rfl⟩ := forall_mem_turns j hj
      rfl
  · rintro hclear attrs rfl
    obtain rfl := Option.some.inj h
    exact ⟨rfl, fun js hjs => (quiet_identifyCb_iff.mpr hclear).along_rests hjs⟩

variable (d mode)

/-- **Stop ends the blinking.** In the runs from any state, every stop restores the LED and
`toggle_identify_led` does not run again before the next start, exactly if every stop comes while
`toggle_identify_led` is not queued and no more of its alarms are pending than one call cancels. -/
theorem identify_endsBlinking_iff (s : IdentifyState) (is : List (IdentifyInput α)) :
    (identify d mode).Along (EndsBlinking d mode) s is ↔
      (identify d mode).Along (fun s i _ => StopsUnqueued mode s i) s is := by
  apply Machine.along_congr fun _ => True
  · intro s i t _ hstep
    exact endsBlinking_step_iff hstep
  · intro s i t _ _ _
    trivial
  · trivial

/-- A stop that misses a `toggle_identify_led` leaves the scheduler with it for ever. -/
theorem toggles_pos_of_missed {attrs : α}
    (h : ¬ StopsUnqueued mode s (IdentifyInput.identifyCb attrs 0)) {turns : List Turn}
    (hrun : (identify d mode).runFrom (identifyCb d mode attrs 0 s) (turns.map .turn) = some t) :
    0 < t.toggles := by
  rw [toggles_turns hrun]
  apply Nat.pos_of_ne_zero
  intro hzero
  apply h
  exact (quiet_identifyCb_iff (d := d)).mp (IdentifyState.quiet_iff_toggles.mpr hzero)

/-- The light bulb is stopped before its first toggle, which then runs. -/
theorem lightBulb_not_endsBlinking :
    ¬ (identify lightBulb .all).Along (EndsBlinking lightBulb .all) (identify lightBulb .all).init
      [.identifyCb ⟨true, 100⟩ 1, .identifyCb ⟨true, 100⟩ 0] := by
  intro h
  obtain ⟨-, h⟩ := h _ rfl
  obtain ⟨hends, -⟩ := h _ rfl
  obtain ⟨-, hrests⟩ := hends ⟨true, 100⟩ rfl
  -- the queued callback runs after the stop
  obtain ⟨⟨hcount, -⟩, -⟩ := hrests [.turn .callback] (by decide) _ rfl
  exact absurd hcount (by decide)

end NcsExamples.Zigbee
