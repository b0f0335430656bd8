import NcsExamples.Zigbee.Identify

/-! # Network coordinator

The coordinator lights `ZIGBEE_NETWORK_STATE_LED` while its network is open for joining. The stack
tells that steering has begun, and the handler sets an alarm for its end; a new device extends the
window, and a button reopens it. The signal handler recomputes the LED from the pending alarm each
time, and the alarm turns it off. The button handler cancels the alarm and leaves the LED alone. -/

namespace NcsExamples.Zigbee

/-- The callback is `steering_finished`. -/
def Callback.isSteeringFinished : Callback → Bool
  | .steeringFinished _ => true
  | _ => false

/-- The signals of the stack that the handler tells apart. -/
inductive Signal
  /-- `ZB_BDB_SIGNAL_DEVICE_REBOOT`. -/
  | deviceReboot
  /-- `ZB_BDB_SIGNAL_STEERING`. -/
  | steering
  /-- `ZB_ZDO_SIGNAL_DEVICE_ANNCE`. -/
  | deviceAnnce
  /-- Any other signal goes to `zigbee_default_signal_handler`. -/
  | other
  deriving DecidableEq, Repr

/-- `KEY_ZIGBEE_NETWORK_REOPEN`, which is `DK_BTN1_MSK`. -/
def keyZigbeeNetworkReopen : BitVec 32 := 1#32

/-- `IDENTIFY_MODE_BUTTON`, which is `DK_BTN4_MSK`. -/
def identifyModeButton : BitVec 32 := 8#32

/-- The state of the coordinator. -/
structure Coordinator extends IdentifyState where
  /-- `ZIGBEE_NETWORK_STATE_LED` is lit. -/
  networkStateLed : Bool
  /-- History: what `bdb_start_top_level_commissioning` has returned, in order. -/
  commissionings : List Bool
  deriving DecidableEq, Repr

namespace Coordinator

/-- The number of pending alarms for `steering_finished`. -/
def windows (s : Coordinator) : ℕ := s.sched.pending Callback.isSteeringFinished

/-- The alarm for `steering_finished` is set. -/
def scheduleSteeringFinished (s : Coordinator) : Coordinator :=
  { s with sched := s.sched.scheduleAlarm (.steeringFinished 0) }

/-- `ZB_SCHEDULE_APP_ALARM_CANCEL(steering_finished, ZB_ALARM_ANY_PARAM)`. -/
def cancelSteeringFinished (mode : CancelMode) (s : Coordinator) : Coordinator :=
  { s with sched := s.sched.cancelAlarm mode Callback.isSteeringFinished }

/-- `bdb_start_top_level_commissioning(ZB_BDB_NETWORK_STEERING)`, which returns `commStatus`. -/
def bdbStartTopLevelCommissioning (commStatus : Bool) (s : Coordinator) : Coordinator :=
  { s with commissionings := s.commissionings ++ [commStatus] }

/-- `steering_finished`. -/
def steeringFinished (s : Coordinator) : Coordinator := { s with networkStateLed := false }

/-- `button_changed`; the result `commStatus` of the commissioning is logged only. -/
def buttonChanged (mode : CancelMode) (buttonState hasChanged : BitVec 32) (commStatus : Bool)
    (s : Coordinator) : Coordinator :=
  let buttons := buttonState &&& hasChanged
  if buttons &&& keyZigbeeNetworkReopen ≠ 0 then
    (s.cancelSteeringFinished mode).bdbStartTopLevelCommissioning commStatus
  else if buttons &&& identifyModeButton ≠ 0 then
    { s with sched := s.sched.scheduleCallback (.startIdentifying 0) }
  else s

/-- The switch of `zboss_signal_handler`. `ZIGBEE_MANUAL_STEERING` and `ZIGBEE_PERMIT_LEGACY_DEVICES`
are false. -/
def handleSignal (mode : CancelMode) (sig : Signal) (status : ℤ) (commStatus : Bool)
    (s : Coordinator) : Coordinator :=
  match sig with
  | .deviceReboot => if status = 0 then s.bdbStartTopLevelCommissioning commStatus else s
  | .steering => if status = 0 then s.scheduleSteeringFinished else s
  | .deviceAnnce =>
      -- the cancel function returns `RET_OK` if there was an alarm
      if 0 < s.windows then (s.cancelSteeringFinished mode).scheduleSteeringFinished
      else s.cancelSteeringFinished mode
  | .other => s

/-- `zboss_signal_handler`; `joined` is the value of `ZB_JOINED()` after the switch. -/
def zbossSignalHandler (mode : CancelMode) (sig : Signal) (status : ℤ) (commStatus joined : Bool)
    (s : Coordinator) : Coordinator :=
  let s := s.handleSignal mode sig status commStatus
  { s with networkStateLed := joined && decide (0 < s.windows) }

/-- The run of a callback. -/
def runCallback (c : Callback) (s : Coordinator) : Coordinator :=
  match c with
  | .steeringFinished _ => s.steeringFinished
  | c => { s with toIdentifyState := Zigbee.runCallback networkCoordinator c s.toIdentifyState }

/-- What happens next. -/
inductive Input
  /-- The stack calls `zboss_signal_handler`. -/
  | signal (sig : Signal) (status : ℤ) (commStatus joined : Bool)
  /-- The button library calls `button_changed`. -/
  | buttonChanged (buttonState hasChanged : BitVec 32) (commStatus : Bool)
  /-- The stack calls `identify_cb`. -/
  | identifyCb (bufid : BitVec 8)
  /-- The scheduler takes a turn. -/
  | turn (turn : Turn)
  deriving DecidableEq, Repr

/-- One step of the coordinator. -/
def step (mode : CancelMode) (s : Coordinator) : Input → Option Coordinator
  | .signal sig status commStatus joined =>
      some (s.zbossSignalHandler mode sig status commStatus joined)
  | .buttonChanged buttonState hasChanged commStatus =>
      some (s.buttonChanged mode buttonState hasChanged commStatus)
  | .identifyCb bufid => some { s with
      toIdentifyState := identifyCb networkCoordinator mode () bufid s.toIdentifyState }
  | .turn turn => (s.sched.pop turn).map fun ⟨c, sched⟩ => runCallback c { s with sched }

end Coordinator

/-- The coordinator at its start. -/
def coordinator (mode : CancelMode) : Machine Coordinator Coordinator.Input :=
  ⟨⟨⟨Scheduler.empty, 0, 0⟩, false, []⟩, Coordinator.step mode⟩

namespace Coordinator

/-- At most one alarm is pending for the end of the window, and one is while the LED is lit. -/
structure Truthful (s : Coordinator) : Prop where
  windows_le : s.windows ≤ 1
  windows_pos : s.networkStateLed = true → 0 < s.windows

/-- Steering begins while no alarm is pending, and the reopen key goes down while the LED is off. -/
def Timely (s : Coordinator) : Input → Prop
  | .signal .steering status _ _ => status = 0 → s.windows = 0
  | .buttonChanged buttonState hasChanged _ =>
      buttonState &&& hasChanged &&& keyZigbeeNetworkReopen ≠ 0 → s.networkStateLed = false
  | _ => True

variable {mode : CancelMode} {s t : Coordinator}

/-! ## The alarm -/

@[simp] theorem windows_scheduleSteeringFinished :
    s.scheduleSteeringFinished.windows = s.windows + 1 :=
  Scheduler.pending_scheduleAlarm

@[simp] theorem windows_cancelSteeringFinished :
    (s.cancelSteeringFinished mode).windows = mode.leaves s.windows :=
  Scheduler.pending_cancelAlarm mode

@[simp] theorem windows_bdbStartTopLevelCommissioning (commStatus : Bool) :
    (s.bdbStartTopLevelCommissioning commStatus).windows = s.windows := rfl

/-- One call cancels the alarm, if there is only one. -/
theorem leaves_eq_zero {n : ℕ} (h : n ≤ 1) : mode.leaves n = 0 := by
  cases mode with
  | first => exact Nat.sub_eq_zero_of_le h
  | all => rfl

/-- `identify_cb` leaves the alarm alone. -/
theorem windows_identifyCb (bufid : BitVec 8) :
    windows { s with
      toIdentifyState := identifyCb networkCoordinator mode () bufid s.toIdentifyState } =
      s.windows := by
  show Scheduler.pending _ (identifyCb _ _ _ _ _).sched = _
  unfold identifyCb
  split
  · exact Scheduler.pending_scheduleCallback
  · apply Scheduler.pending_cancelAlarm_of_disjoint mode
    intro c hc
    cases c with
    | toggleIdentifyLed bufid => exact Bool.false_ne_true
    | startIdentifying bufid => cases hc
    | steeringFinished param => cases hc

/-- A callback sets no alarm for `steering_finished`. -/
theorem windows_runCallback (c : Callback) : (runCallback c s).windows = s.windows := by
  cases c with
  | toggleIdentifyLed bufid => exact Scheduler.pending_scheduleAlarm
  | startIdentifying bufid => rfl
  | steeringFinished param => rfl

/-! ## Steps -/

/-- After the signal handler the LED is lit only while an alarm is pending. -/
theorem truthful_zbossSignalHandler_iff {sig : Signal} {status : ℤ} {commStatus joined : Bool} :
    (s.zbossSignalHandler mode sig status commStatus joined).Truthful ↔
      (s.handleSignal mode sig status commStatus).windows ≤ 1 := by
  constructor
  · intro h
    exact h.windows_le
  · intro h
    refine ⟨h, fun hled => ?_⟩
    exact of_decide_eq_true (Bool.and_eq_true_iff.mp hled).2

/-- Only the beginning of steering can make the alarms too many. -/
theorem windows_handleSignal_le_iff (hs : s.Truthful) {sig : Signal} {status : ℤ}
    {commStatus joined : Bool} : (s.handleSignal mode sig status commStatus).windows ≤ 1 ↔
      s.Timely (.signal sig status commStatus joined) := by
  have hle := hs.windows_le
  unfold handleSignal
  cases sig with
  | deviceReboot =>
    refine iff_of_true ?_ trivial
    dsimp only
    split <;> exact hle
  | steering =>
    show _ ↔ (status = 0 → s.windows = 0)
    dsimp only
    split
    · next hok =>
      rw [windows_scheduleSteeringFinished]
      constructor
      · intro h _
        omega
      · intro h
        rw [h hok]
    · next hnok => exact iff_of_true hle fun hok => absurd hok hnok
  | deviceAnnce =>
    refine iff_of_true ?_ trivial
    dsimp only
    split
    · rw [windows_scheduleSteeringFinished, windows_cancelSteeringFinished, leaves_eq_zero hle]
    · rw [windows_cancelSteeringFinished, leaves_eq_zero hle]
      exact Nat.zero_le 1
  | other => exact iff_of_true hle trivial

/-- The reopen key takes the alarm away. -/
theorem truthful_buttonChanged_iff (hs : s.Truthful) {buttonState hasChanged : BitVec 32}
    {commStatus : Bool} : (s.buttonChanged mode buttonState hasChanged commStatus).Truthful ↔
      s.Timely (.buttonChanged buttonState hasChanged commStatus) := by
  simp only [buttonChanged, Timely]
  split
  · next hkey =>
    have hnone : ((s.cancelSteeringFinished mode).bdbStartTopLevelCommissioning
        commStatus).windows = 0 := by
      rw [windows_bdbStartTopLevelCommissioning, windows_cancelSteeringFinished,
        leaves_eq_zero hs.windows_le]
    constructor
    · intro h _
      by_contra hled
      have hpos := h.windows_pos (Bool.of_not_eq_false hled)
      omega
    · intro h
      refine ⟨by omega, fun hled => ?_⟩
      have hoff : s.networkStateLed = false := h hkey
      have hon : s.networkStateLed = true := hled
      rw [hoff] at hon
      cases hon
  · next hkey =>
    refine iff_of_true ?_ fun h => absurd h hkey
    split
    · exact ⟨hs.windows_le, hs.windows_pos⟩
    · exact hs

/-- A turn of the scheduler runs what it takes from the work. -/
theorem step_turn_eq_some {turn : Turn} : step mode s (.turn turn) = some t ↔
    ∃ c sched, s.sched.pop turn = some (c, sched) ∧ runCallback c { s with sched } = t := by
  simp only [step, Option.map_eq_some_iff, Prod.exists]

/-- A callback that is not `steering_finished` leaves the LED alone. -/
theorem networkStateLed_runCallback {c : Callback} (hc : c.isSteeringFinished = false) :
    (runCallback c s).networkStateLed = s.networkStateLed := by
  cases c with
  | toggleIdentifyLed bufid => rfl
  | startIdentifying bufid => rfl
  | steeringFinished param => cases hc

/-- `steering_finished` turns the LED off. -/
theorem networkStateLed_steeringFinished {c : Callback} (hc : c.isSteeringFinished = true) :
    (runCallback c s).networkStateLed = false := by
  cases c with
  | toggleIdentifyLed bufid => cases hc
  | startIdentifying bufid => cases hc
  | steeringFinished param => rfl

/-- A turn of the scheduler takes an alarm for `steering_finished` only to run it. -/
theorem windows_pop {turn : Turn} {c : Callback} {sched : Scheduler Callback}
    (h : s.sched.pop turn = some (c, sched)) :
    windows { s with sched } ≤ s.windows ∧
      (c.isSteeringFinished = false → windows { s with sched } = s.windows) := by
  cases turn with
  | callback =>
    have hwindows : s.windows = windows { s with sched } := Scheduler.pending_pop_callback h
    exact ⟨hwindows.ge, fun _ => hwindows.symm⟩
  | alarm i =>
    have hwindows : s.windows = windows { s with sched } +
        if c.isSteeringFinished then 1 else 0 := Scheduler.pending_pop_alarm h
    constructor
    · omega
    · intro hc
      simpa [hc] using hwindows.symm

/-- A turn of the scheduler keeps alarm and LED together. -/
theorem Truthful.turn (hs : s.Truthful) {turn : Turn} (h : step mode s (.turn turn) = some t) :
    t.Truthful := by
  obtain ⟨c, sched, hpop, rfl⟩ := step_turn_eq_some.mp h
  obtain ⟨hle, heq⟩ := windows_pop hpop
  constructor
  · rw [windows_runCallback]
    exact hle.trans hs.windows_le
  · intro hled
    rw [windows_runCallback]
    cases hc : c.isSteeringFinished with
    | true =>
      rw [networkStateLed_steeringFinished hc] at hled
      cases hled
    | false =>
      rw [networkStateLed_runCallback hc] at hled
      rw [heq hc]
      exact hs.windows_pos hled

/-- A step leaves alarm and LED together exactly if it is timely. -/
theorem truthful_step_iff (hs : s.Truthful) {i : Input} (h : step mode s i = some t) :
    t.Truthful ↔ s.Timely i := by
  cases i with
  | signal sig status commStatus joined =>
    obtain rfl := Option.some.inj h
    rw [truthful_zbossSignalHandler_iff, windows_handleSignal_le_iff hs]
  | buttonChanged buttonState hasChanged commStatus =>
    obtain rfl := Option.some.inj h
    exact truthful_buttonChanged_iff hs
  | identifyCb bufid =>
    obtain rfl := Option.some.inj h
    refine iff_of_true ?_ trivial
    constructor
    · rw [windows_identifyCb]
      exact hs.windows_le
    · rw [windows_identifyCb]
      exact hs.windows_pos
  | turn turn => exact iff_of_true (hs.turn h) trivial

/-- A lit LED is turned off by an alarm that is pending, and none is left after it. -/
theorem Truthful.exists_turn_off (hs : s.Truthful) (hled : s.networkStateLed = true) :
    ∃ i t, step mode s (.turn (.alarm i)) = some t ∧ t.networkStateLed = false ∧
      t.windows = 0 := by
  obtain ⟨i, c, sched, hpop, hc⟩ := Scheduler.exists_pop_of_pending_pos (hs.windows_pos hled)
  refine ⟨i, _, step_turn_eq_some.mpr ⟨c, sched, hpop, rfl⟩,
    networkStateLed_steeringFinished hc, ?_⟩
  have hwindows : s.windows = windows { s with sched } +
      if c.isSteeringFinished then 1 else 0 := Scheduler.pending_pop_alarm hpop
  have hle := hs.windows_le
  rw [if_pos hc] at hwindows
  rw [windows_runCallback]
  omega

/-! ## Runs -/

/-- **The LED tells the truth.** After every step of a run at most one alarm is pending, and one is
while the LED is lit, exactly if steering begins only while no alarm is pending and the reopen key
goes down only while the LED is off. -/
theorem coordinator_truthful_iff (mode : CancelMode) (is : List Input) :
    (coordinator mode).Along (fun _ _ t => t.Truthful) (coordinator mode).init is ↔
      (coordinator mode).Meets Timely is := by
  apply Machine.along_congr Truthful
  · intro s i t hs hstep
    exact truthful_step_iff hs hstep
  · intro s i t hs ht hstep
    exact ht
  · exact ⟨Nat.zero_le 1, fun hled => by cases hled⟩

/-- Steering begins, and the key is pressed while the LED is lit; the stack refuses to reopen. -/
theorem coordinator_not_truthful :
    ¬ (coordinator .all).Along (fun _ _ t => t.Truthful) (coordinator .all).init
      [.signal .steering 0 true true, .buttonChanged 1 1 false] := by
  intro h
  obtain ⟨-, h⟩ := h _ rfl
  obtain ⟨htruthful, -⟩ := h _ rfl
  exact absurd (htruthful.windows_pos rfl) (by decide)

/-! ## A window that never ends -/

/-- `steering_finished` does not wait in any form. -/
def Unguarded (s : Coordinator) : Prop :=
  s.sched.queued Callback.isSteeringFinished = 0 ∧ s.windows = 0

/-- The scheduler alone leaves an LED lit that no alarm will turn off. -/
theorem Unguarded.turn (hs : s.Unguarded) {turn : Turn}
    (h : step mode s (.turn turn) = some t) :
    t.Unguarded ∧ t.networkStateLed = s.networkStateLed := by
  obtain ⟨c, sched, hpop, rfl⟩ := step_turn_eq_some.mp h
  obtain ⟨hc, hqueued, hpending⟩ := Scheduler.pop_of_none_waits hs.1 hs.2 hpop
  refine ⟨⟨?_, ?_⟩, networkStateLed_runCallback hc⟩
  · cases c with
    | toggleIdentifyLed bufid =>
      exact (Scheduler.queued_scheduleAlarm).trans hqueued
    | startIdentifying bufid => exact hqueued
    | steeringFinished param => exact hqueued
  · rw [windows_runCallback]
    exact hpending

/-- The LED stays lit for ever, as far as the scheduler goes. -/
theorem Unguarded.turns (hs : s.Unguarded) {turns : List Turn}
    (h : (coordinator mode).runFrom s (turns.map .turn) = some t) :
    t.networkStateLed = s.networkStateLed := by
  have hturns : ∀ i ∈ turns.map Input.turn, ∃ turn, i = .turn turn := by
    intro i hi
    obtain ⟨turn, -, rfl⟩ := List.mem_map.mp hi
    exact ⟨turn, rfl⟩
  have hinv : t.Unguarded ∧ t.networkStateLed = s.networkStateLed := by
    refine Machine.invariant_inputs
      (fun u => u.Unguarded ∧ u.networkStateLed = s.networkStateLed) ?_ hturns ⟨hs, rfl⟩ h
    rintro u _ v ⟨hu, hsame⟩ ⟨turn, rfl⟩ hstep
    have hturn : step mode u (.turn turn) = some v := hstep
    obtain ⟨hunguarded, hled⟩ := hu.turn hturn
    exact ⟨hunguarded, hled.trans hsame⟩
  exact hinv.2

end Coordinator

end NcsExamples.Zigbee
