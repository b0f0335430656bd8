import NcsExamples.Lib.PendingAlarms
import NcsExamples.Zigbee.Coordinator

/-! # Network coordinator: how long the network LED is lit

Every alarm for `steering_finished` is set for the same time, `ZB_ZGP_DEFAULT_COMMISSIONING_WINDOW`
seconds, which the stack fixes. Against a clock of seconds, the LED tells how long ago the network
was opened: steering that begins while an alarm is pending only adds one more, a new device replaces
the first one or all of them, and the reopen key takes them away and leaves the LED as it is. -/

namespace NcsExamples.Zigbee.Coordinator

/-- The reopen key goes down. -/
def Input.Reopens : Input → Prop
  | .buttonChanged buttonState hasChanged _ =>
      buttonState &&& hasChanged &&& keyZigbeeNetworkReopen ≠ 0
  | .signal _ _ _ _ | .identifyCb _ | .turn _ => False

instance : DecidablePred Input.Reopens
  | .buttonChanged _ _ _ => inferInstanceAs (Decidable (_ ≠ _))
  | .signal _ _ _ _ | .identifyCb _ | .turn _ => isFalse id

/-- The input begins a window, or extends one. -/
def Opens (s : Coordinator) : Input → Prop
  | .signal .steering status _ _ => status = 0
  | .signal .deviceAnnce _ _ _ => 0 < s.windows
  | .signal .deviceReboot _ _ _ | .signal .other _ _ _ | .buttonChanged _ _ _ | .identifyCb _
  | .turn _ => False

/-- What an input does to the alarms for `steering_finished`, with a window of `window` seconds. -/
def alarmOps (mode : CancelMode) (window : ℕ) (s : Coordinator) : Input → List AlarmOp
  | .signal .steering status _ _ => if status = 0 then [.set window] else []
  | .signal .deviceAnnce _ _ _ =>
      if 0 < s.windows then [.cancel mode, .set window] else [.cancel mode]
  | .buttonChanged buttonState hasChanged _ =>
      if buttonState &&& hasChanged &&& keyZigbeeNetworkReopen ≠ 0 then [.cancel mode] else []
  | .turn (.alarm i) =>
      -- the alarm that fires is numbered among those for `steering_finished`
      if s.sched.alarms[i]?.any Callback.isSteeringFinished then
        [.fire ((s.sched.alarms.take i).countP Callback.isSteeringFinished)]
      else []
  | .signal .deviceReboot _ _ _ | .signal .other _ _ _ | .identifyCb _ | .turn .callback => []

/-- The coordinator against a clock of seconds: an alarm fires at most `slack` of them late. -/
def timedCoordinator (mode : CancelMode) (window slack : ℕ) :
    Machine (Alarmed Coordinator) (ClockInput Input) :=
  (coordinator mode).alarmed (alarmOps mode window) slack

variable {mode : CancelMode} {window slack : ℕ} {s t : Coordinator} {i : Input}

/-! ## Steps -/

/-- The operations account for the alarms. -/
theorem windows_step (hs : (coordinator mode).step s i = some t) :
    t.windows = (alarmOps mode window s i).foldl AlarmOp.count s.windows := by
  cases i with
  | signal sig status commStatus joined =>
    obtain rfl := Option.some.inj hs
    show (s.handleSignal mode sig status commStatus).windows = _
    cases sig with
    | deviceReboot =>
      simp only [handleSignal, alarmOps]
      split <;> rfl
    | steering =>
      simp only [handleSignal, alarmOps]
      split
      · exact windows_scheduleSteeringFinished
      · rfl
    | deviceAnnce =>
      -- the window is extended: the alarm is canceled, and set anew
      simp only [handleSignal, alarmOps]
      split
      · rw [windows_scheduleSteeringFinished, windows_cancelSteeringFinished]
        rfl
      · exact windows_cancelSteeringFinished
    | other => rfl
  | buttonChanged buttonState hasChanged commStatus =>
    obtain rfl := Option.some.inj hs
    simp only [buttonChanged, alarmOps]
    split
    · rw [windows_bdbStartTopLevelCommissioning, windows_cancelSteeringFinished]
      rfl
    · split <;> rfl
  | identifyCb bufid =>
    obtain rfl := Option.some.inj hs
    exact windows_identifyCb bufid
  | turn turn =>
    have hturn : step mode s (.turn turn) = some t := hs
    obtain ⟨c, sched, hpop, rfl⟩ := step_turn_eq_some.mp hturn
    rw [windows_runCallback]
    cases turn with
    | callback =>
      have hwindows : s.windows = windows { s with sched } := Scheduler.pending_pop_callback hpop
      exact hwindows.symm
    | alarm i =>
      have hwindows : s.windows = windows { s with sched } +
          if c.isSteeringFinished then 1 else 0 := Scheduler.pending_pop_alarm hpop
      obtain ⟨a, ha, heq⟩ := Option.map_eq_some_iff.mp hpop
      obtain ⟨rfl, -⟩ := Prod.mk.inj heq
      simp only [alarmOps, ha, Option.any_some]
      cases hc : a.isSteeringFinished with
      | true =>
        -- only a callback for `steering_finished` counts
        rw [hc, if_pos rfl] at hwindows
        rw [if_pos rfl]
        exact (Nat.sub_eq_of_eq_add hwindows).symm
      | false =>
        rw [hc] at hwindows
        exact hwindows.symm

/-- A LED that is lit after a step has a pending alarm, or was lit before; and then the step opens
nothing, and takes an alarm away only when the reopen key goes down. -/
theorem lit_step (hs : (coordinator mode).step s i = some t) (hlit : t.networkStateLed = true) :
    0 < t.windows ∨ s.networkStateLed = true ∧ ¬ s.Opens i ∧
      (i.Reopens ∨ t.windows = s.windows) := by
  cases i with
  | signal sig status commStatus joined =>
    obtain rfl := Option.some.inj hs
    exact .inl (of_decide_eq_true (Bool.and_eq_true_iff.mp hlit).2)
  | buttonChanged buttonState hasChanged commStatus =>
    obtain rfl := Option.some.inj hs
    -- the reopen key cancels the alarm and leaves the LED to the signals that follow
    by_cases hkey : buttonState &&& hasChanged &&& keyZigbeeNetworkReopen ≠ 0
    · rw [buttonChanged, if_pos hkey] at hlit
      exact .inr ⟨hlit, id, .inl hkey⟩
    · rw [buttonChanged, if_neg hkey] at hlit ⊢
      refine .inr ⟨?_, id, .inr ?_⟩
      · revert hlit
        split <;> exact id
      · split <;> rfl
  | identifyCb bufid =>
    obtain rfl := Option.some.inj hs
    exact .inr ⟨hlit, id, .inr (windows_identifyCb bufid)⟩
  | turn turn =>
    have hturn : step mode s (.turn turn) = some t := hs
    obtain ⟨c, sched, hpop, rfl⟩ := step_turn_eq_some.mp hturn
    cases hc : c.isSteeringFinished with
    | true =>
      -- it switches the LED off
      rw [networkStateLed_steeringFinished hc] at hlit
      cases hlit
    | false =>
      rw [networkStateLed_runCallback hc] at hlit
      refine .inr ⟨hlit, id, .inr ?_⟩
      rw [windows_runCallback]
      exact (windows_pop hpop).2 hc

/-- An alarm is set by what opens the network. -/
theorem opens_of_set {delay : ℕ} (h : .set delay ∈ alarmOps mode window s i) :
    s.Opens i ∧ delay = window := by
  cases i with
  | signal sig status commStatus joined =>
    cases sig with
    | deviceReboot | other => cases h
    | steering =>
      simp only [alarmOps, List.mem_ite_nil_right, List.mem_singleton] at h
      exact ⟨h.1, AlarmOp.set.inj h.2⟩
    | deviceAnnce =>
      simp only [alarmOps] at h
      split at h
      · next hpos =>
        refine ⟨hpos, ?_⟩
        simpa using h
      · simp at h
  | buttonChanged buttonState hasChanged commStatus =>
    simp [alarmOps] at h
  | identifyCb bufid => cases h
  | turn turn =>
    cases turn with
    | callback => cases h
    | alarm j => simp [alarmOps] at h

/-- The clock never stops for good: it ticks, or an alarm for `steering_finished` can fire. -/
theorem timedCoordinator_goesOn {is : List (ClockInput Input)} {w : Alarmed Coordinator}
    (hrun : (timedCoordinator mode window slack).run is = some w) :
    (∃ x, (timedCoordinator mode window slack).step w .tick = some x) ∨
      ∃ i j x, alarmOps mode window w.state i = [.fire j] ∧
        (timedCoordinator mode window slack).step w (.act i) = some x := by
  refine Machine.exists_alarmed_step fun j hj => ?_
  have hlength : w.dues.length = w.state.windows :=
    Machine.length_dues_of_alarmed windows rfl (fun _ _ _ hs => windows_step hs) hrun
  rw [hlength] at hj
  obtain ⟨i, c, hi, hc, hcount⟩ := exists_countP_take_eq hj
  have hsched : w.state.sched.alarms[i]? = some c := hi
  refine ⟨.turn (.alarm i), ?_, ?_⟩
  · simp only [alarmOps, hsched, Option.any_some]
    rw [if_pos hc, hcount]
  · simp [coordinator, step, Scheduler.pop, hsched]

/-! ## How long ago the network was opened -/

/-- The input opens the network. A tick does not. -/
def OpensAt (w : Alarmed Coordinator) : ClockInput Input → Prop
  | .tick => False
  | .act i => w.state.Opens i

/-- The network was opened last by a step, and the inputs after it are as `P` says. -/
def LastOpened (mode : CancelMode) (window slack : ℕ) (P : List (ClockInput Input) → Prop)
    (is : List (ClockInput Input)) : Prop :=
  (timedCoordinator mode window slack).Since (fun w i _ => ¬ OpensAt w i) (fun w i _ => OpensAt w i)
    (fun _ since => P since) is

/-- The reopen key has gone down at most `n` seconds after the beginning. -/
def ReopenedIn (n : ℕ) (since : List (ClockInput Input)) : Prop :=
  ∃ ks k ls, since = ks ++ .act k :: ls ∧ k.Reopens ∧ ticks ks ≤ n

variable {is : List (ClockInput Input)} {w x : Alarmed Coordinator}

/-- While an alarm is pending, the last opening was within the window and the slack. -/
theorem lastOpened_of_windows_pos (hrun : (timedCoordinator mode window slack).run is = some w)
    (hpos : 0 < w.state.windows) :
    LastOpened mode window slack (fun since => ticks since ≤ window + slack) is := by
  have hlength : w.dues.length = w.state.windows :=
    Machine.length_dues_of_alarmed windows rfl (fun _ _ _ hs => windows_step hs) hrun
  obtain ⟨d, hd⟩ := List.exists_mem_of_length_pos (hlength ▸ hpos)
  obtain ⟨js, i, since, u, delay, his, hjs, hset, hsum⟩ := Machine.exists_set_of_mem_dues hrun d hd
  obtain ⟨hopens, rfl⟩ := opens_of_set hset
  have hon := Machine.onTime_of_alarmed hrun d hd
  obtain ⟨v, hv, -⟩ := Machine.exists_step_of_runFrom_append _ (his ▸ hrun) hjs
  -- the alarm was set by an opening, and the last opening is this one or one after it
  have hsome : (timedCoordinator mode delay slack).Since (fun _ _ _ => True)
      (fun w i _ => OpensAt w i) (fun _ ls => ls = since) is :=
    ⟨js, .act i, since, u, v, his, hjs, hv, hopens,
      Machine.along_of_forall_mem (r := fun _ => True) (fun _ _ => trivial) v, rfl⟩
  refine (hsome.last hrun).mono ?_
  rintro - ls ⟨-, since', heq, hsuffix⟩
  have hle : ticks ls ≤ ticks since := heq ▸ hsuffix.sublist.countP_le
  show ticks ls ≤ delay + slack
  omega

/-- A LED that is lit has a pending alarm, or the reopen key has gone down in the last window. -/
theorem windows_pos_or_reopened (hrun : (timedCoordinator mode window slack).run is = some w)
    (hlit : w.state.networkStateLed = true) : 0 < w.state.windows ∨
      LastOpened mode window slack (ReopenedIn (window + slack)) is := by
  refine Machine.invariant_history_run (M := timedCoordinator mode window slack) (fun is w =>
    w.state.networkStateLed = true → 0 < w.state.windows ∨
      LastOpened mode window slack (ReopenedIn (window + slack)) is)
    (fun h => by cases h) ?_ hrun hlit
  intro is w i x hrun h hs hlit
  -- a key that went down before stays down in the history
  have hlater (hi : ¬ OpensAt w i)
      (hopened : LastOpened mode window slack (ReopenedIn (window + slack)) is) :
      LastOpened mode window slack (ReopenedIn (window + slack)) (is ++ [i]) := by
    refine hopened.snoc hrun hs hi ?_
    rintro - since ⟨ks, k, ls, rfl, hreopens, hticks⟩
    exact ⟨ks, k, ls ++ [i], by rw [List.append_assoc, List.cons_append], hreopens, hticks⟩
  cases i with
  | tick =>
    obtain ⟨-, rfl⟩ := Machine.alarmed_tick_eq_some.mp hs
    exact (h hlit).imp_right (hlater id)
  | act i =>
    obtain ⟨-, hstate, -⟩ := Machine.alarmed_act_eq_some.mp hs
    rcases lit_step hstate hlit with hpos | ⟨hbefore, hno, hreopens | hsame⟩
    · exact .inl hpos
    · refine .inr ?_
      rcases h hbefore with hpos | hopened
      · exact (lastOpened_of_windows_pos hrun hpos).snoc hrun hs hno fun _ since hticks =>
          ⟨since, i, [], rfl, hreopens, hticks⟩
      · exact hlater hno hopened
    · rw [hsame]
      exact (h hbefore).imp_right (hlater hno)

/-- **What a lit LED tells.** Whenever the network LED is lit, the last beginning of steering or
extension of the window by a new device was no longer ago than the window and the slack, or the
reopen key has gone down since, no longer after it than that. -/
theorem networkLed_opened (mode : CancelMode) (window slack : ℕ) (is : List (ClockInput Input))
    (w : Alarmed Coordinator) (hrun : (timedCoordinator mode window slack).run is = some w)
    (hlit : w.state.networkStateLed = true) :
    LastOpened mode window slack
      (fun since => ticks since ≤ window + slack ∨ ReopenedIn (window + slack) since) is := by
  rcases windows_pos_or_reopened hrun hlit with hpos | hreopened
  · exact (lastOpened_of_windows_pos hrun hpos).mono fun _ _ hticks => .inl hticks
  · exact hreopened.mono fun _ _ hkey => .inr hkey

/-- Steering begins on a device that has joined, and the key goes down two seconds later; the LED is
lit though the window of three seconds is over. -/
theorem networkLed_opened_key : LastOpened .all 3 0
    (fun since => ticks since ≤ 3 + 0 ∨ ReopenedIn (3 + 0) since)
    [.act (.signal .steering 0 true true), .tick, .tick, .act (.buttonChanged 1 1 false), .tick,
      .tick] := by
  obtain ⟨w, hrun, hlit⟩ : ∃ w, (timedCoordinator .all 3 0).run
      [.act (.signal .steering 0 true true), .tick, .tick, .act (.buttonChanged 1 1 false), .tick,
        .tick] = some w ∧ w.state.networkStateLed = true := ⟨_, rfl, rfl⟩
  exact networkLed_opened .all 3 0 _ w hrun hlit

/-! ## From an opening on -/

/-- Nothing is opened or reopened, and a signal finds that the device has joined. -/
def Input.Leaves : Input → Prop
  | .signal sig status _ joined =>
      joined = true ∧ sig ≠ .deviceAnnce ∧ (sig = .steering → status ≠ 0)
  | .buttonChanged buttonState hasChanged _ =>
      buttonState &&& hasChanged &&& keyZigbeeNetworkReopen = 0
  | .identifyCb _ | .turn _ => True

/-- `steering_finished` runs as an alarm only: it is not queued as a callback. -/
theorem queued_step (h : s.sched.queued Callback.isSteeringFinished = 0)
    (hs : (coordinator mode).step s i = some t) :
    t.sched.queued Callback.isSteeringFinished = 0 := by
  cases i with
  | signal sig status commStatus joined =>
    obtain rfl := Option.some.inj hs
    show (s.handleSignal mode sig status commStatus).sched.queued _ = 0
    unfold handleSignal
    cases sig with
    | deviceReboot | steering =>
      dsimp only
      split <;> exact h
    | deviceAnnce =>
      dsimp only
      split
      · exact (Scheduler.queued_cancelAlarm mode).trans h
      · exact (Scheduler.queued_cancelAlarm mode).trans h
    | other => exact h
  | buttonChanged buttonState hasChanged commStatus =>
    obtain rfl := Option.some.inj hs
    simp only [buttonChanged]
    split
    · exact (Scheduler.queued_cancelAlarm mode).trans h
    · split
      · exact Scheduler.queued_scheduleCallback.trans h
      · exact h
  | identifyCb bufid =>
    obtain rfl := Option.some.inj hs
    show (Zigbee.identifyCb _ _ _ _ _).sched.queued _ = 0
    unfold Zigbee.identifyCb
    split
    · exact Scheduler.queued_scheduleCallback.trans h
    · exact (Scheduler.queued_cancelAlarm mode).trans h
  | turn turn =>
    have hturn : step mode s (.turn turn) = some t := hs
    obtain ⟨c, sched, hpop, rfl⟩ := step_turn_eq_some.mp hturn
    -- what the turn takes off the scheduler
    have hqueued : sched.queued Callback.isSteeringFinished = 0 := by
      cases turn with
      | callback =>
        have hle := Scheduler.queued_pop_callback (p := Callback.isSteeringFinished) hpop
        omega
      | alarm i => exact (Scheduler.queued_pop_alarm hpop).symm.trans h
    cases c with
    | toggleIdentifyLed bufid => exact hqueued
    | startIdentifying bufid => exact hqueued
    | steeringFinished param => exact hqueued

/-- The LED is lit while an alarm is pending, of which there is one at most. -/
def Follows (s : Coordinator) : Prop :=
  s.windows ≤ 1 ∧ s.networkStateLed = decide (0 < s.windows)

/-- A turn of the scheduler keeps LED and alarm together: the alarm that fires is the only one. -/
theorem Follows.turn (h : s.Follows) (hqueued : s.sched.queued Callback.isSteeringFinished = 0)
    {turn : Turn} (hs : step mode s (.turn turn) = some t) : t.Follows := by
  obtain ⟨c, sched, hpop, rfl⟩ := step_turn_eq_some.mp hs
  rw [Follows, windows_runCallback]
  cases hc : c.isSteeringFinished with
  | false =>
    -- the callback is one for the identify LED
    rw [networkStateLed_runCallback hc, (windows_pop hpop).2 hc]
    exact h
  | true =>
    have hnone : windows { s with sched } = 0 := by
      cases turn with
      | callback =>
        have hwaits := Scheduler.queued_pop_callback (p := Callback.isSteeringFinished) hpop
        rw [hqueued, if_pos hc] at hwaits
        omega
      | alarm i =>
        have hone : s.windows = windows { s with sched } +
            if c.isSteeringFinished then 1 else 0 := Scheduler.pending_pop_alarm hpop
        have hle := h.1
        rw [if_pos hc] at hone
        omega
    rw [networkStateLed_steeringFinished hc, hnone]
    exact ⟨Nat.zero_le 1, rfl⟩

/-- A signal that leaves the window alone does nothing to the alarms. -/
theorem alarmOps_signal {sig : Signal} {status : ℤ} {commStatus joined : Bool}
    (hi : (Input.signal sig status commStatus joined).Leaves) :
    alarmOps mode window s (.signal sig status commStatus joined) = [] := by
  obtain ⟨-, hannce, hsteering⟩ := hi
  cases sig with
  | deviceReboot | other => rfl
  | steering => exact if_neg (hsteering rfl)
  | deviceAnnce => exact absurd rfl hannce

/-- An input that leaves the window alone does nothing to the alarms, or is one that fires. -/
theorem alarmOps_of_leaves (hi : i.Leaves) :
    alarmOps mode window s i = [] ∨ ∃ j, alarmOps mode window s i = [.fire j] := by
  cases i with
  | signal sig status commStatus joined => exact .inl (alarmOps_signal hi)
  | buttonChanged buttonState hasChanged commStatus => exact .inl (if_neg (not_not_intro hi))
  | identifyCb bufid => exact .inl rfl
  | turn turn =>
    cases turn with
    | callback => exact .inl rfl
    | alarm j =>
      simp only [alarmOps]
      split
      · exact .inr ⟨_, rfl⟩
      · exact .inl rfl

/-- An input that leaves the window alone keeps LED and alarm together. -/
theorem Follows.step (h : s.Follows) (hqueued : s.sched.queued Callback.isSteeringFinished = 0)
    (hi : i.Leaves) (hs : (coordinator mode).step s i = some t) : t.Follows := by
  have hsame (hops : alarmOps mode 0 s i = []) : t.windows = s.windows := by
    rw [windows_step hs, hops, List.foldl_nil]
  cases i with
  | signal sig status commStatus joined =>
    -- the handler sets the LED anew
    have hwindows := hsame (alarmOps_signal hi)
    obtain ⟨rfl, -, -⟩ := hi
    obtain rfl := Option.some.inj hs
    exact ⟨hwindows.trans_le h.1, Bool.true_and _⟩
  | buttonChanged buttonState hasChanged commStatus =>
    have hkey : ¬ buttonState &&& hasChanged &&& keyZigbeeNetworkReopen ≠ 0 := not_not_intro hi
    have hled : t.networkStateLed = s.networkStateLed := by
      obtain rfl := Option.some.inj hs
      rw [buttonChanged, if_neg hkey]
      split <;> rfl
    rw [Follows, hsame (if_neg hkey), hled]
    exact h
  | identifyCb bufid =>
    have hled : t.networkStateLed = s.networkStateLed := by
      obtain rfl := Option.some.inj hs
      rfl
    rw [Follows, hsame rfl, hled]
    exact h
  | turn turn =>
    have hturn : Coordinator.step mode s (.turn turn) = some t := hs
    exact h.turn hqueued hturn

/-- The input that opens the network sets the last alarm. -/
theorem dues_of_opens {u p : Alarmed Coordinator} (hopens : u.state.Opens i)
    (hs : (timedCoordinator mode window slack).step u (.act i) = some p) :
    ∃ dues, p.dues = dues ++ [p.now + window] := by
  obtain ⟨hdues, -, hnow⟩ := Machine.alarmed_act_eq_some.mp hs
  rw [hnow]
  cases i with
  | signal sig status commStatus joined =>
    cases sig with
    | deviceReboot | other => cases hopens
    | steering =>
      have hops : alarmOps mode window u.state (.signal .steering status commStatus joined) =
          [.set window] := if_pos hopens
      rw [hops] at hdues
      exact ⟨u.dues, (Option.some.inj hdues).symm⟩
    | deviceAnnce =>
      have hops : alarmOps mode window u.state (.signal .deviceAnnce status commStatus joined) =
          [.cancel mode, .set window] := if_pos hopens
      rw [hops, List.foldlM_cons] at hdues
      obtain ⟨dues, -, hset⟩ := Option.bind_eq_some_iff.mp hdues
      exact ⟨dues, (Option.some.inj hset).symm⟩
  | buttonChanged buttonState hasChanged commStatus => cases hopens
  | identifyCb bufid => cases hopens
  | turn turn => cases hopens

/-- LED and alarm go together, and the alarm is due at `d` or has fired then or later. -/
structure Counting (d : ℕ) (w : Alarmed Coordinator) : Prop where
  follows : w.state.Follows
  queued : w.state.sched.queued Callback.isSteeringFinished = 0
  length : w.dues.length = w.state.windows
  dues : w.dues = [d] ∨ w.dues = [] ∧ d ≤ w.now

/-- The alarm counts down while the window is left alone. -/
theorem Counting.step {d : ℕ} {w x : Alarmed Coordinator} {i : ClockInput Input}
    (h : Counting d w) (hi : ∀ k, i = .act k → k.Leaves)
    (hs : (timedCoordinator mode window slack).step w i = some x) : Counting d x := by
  cases i with
  | tick =>
    obtain ⟨-, rfl⟩ := Machine.alarmed_tick_eq_some.mp hs
    exact ⟨h.follows, h.queued, h.length, h.dues.imp_right fun hnone =>
      ⟨hnone.1, Nat.le_succ_of_le hnone.2⟩⟩
  | act i =>
    obtain ⟨hdues, hstate, hnow⟩ := Machine.alarmed_act_eq_some.mp hs
    refine ⟨h.follows.step h.queued (hi i rfl) hstate, queued_step h.queued hstate, ?_, ?_⟩
    · rw [AlarmOp.length_of_foldlM hdues, windows_step hstate, h.length]
    · rw [hnow]
      rcases alarmOps_of_leaves (hi i rfl) with hops | ⟨j, hops⟩
      · rw [hops] at hdues
        rw [← Option.some.inj hdues]
        exact h.dues
      · rw [hops, List.foldlM_cons] at hdues
        obtain ⟨dues, hfire, hnil⟩ := Option.bind_eq_some_iff.mp hdues
        obtain ⟨⟨e, he, hle⟩, rfl⟩ := Machine.guarded_eq_some.mp hfire
        rcases h.dues with hone | ⟨hnone, -⟩
        · -- the alarm that fires is the one that was pending
          rw [hone] at he hnil
          cases j with
          | zero =>
            obtain rfl : d = e := Option.some.inj he
            exact .inr ⟨(Option.some.inj hnil).symm, hle⟩
          | succ j => cases he
        · rw [hnone] at he
          cases he

/-- **The LED is lit for a window.** From an opening on that lights the LED and leaves one alarm, as
long as nothing is opened or reopened and no signal finds that the device has left its network, the
LED is lit until the window is over, and off when the window and the slack are. -/
theorem networkLed_window (mode : CancelMode) (window slack : ℕ)
    (js since : List (ClockInput Input)) (i : Input) (u p q : Alarmed Coordinator)
    (hu : (timedCoordinator mode window slack).run js = some u) (hopens : u.state.Opens i)
    (hs : (timedCoordinator mode window slack).step u (.act i) = some p)
    (hone : p.state.windows = 1) (hlit : p.state.networkStateLed = true)
    (hsince : ∀ k, .act k ∈ since → k.Leaves)
    (hrun : (timedCoordinator mode window slack).runFrom p since = some q) :
    (ticks since < window → q.state.networkStateLed = true) ∧
      (window + slack < ticks since → q.state.networkStateLed = false) := by
  have hp : (timedCoordinator mode window slack).run (js ++ [.act i]) = some p :=
    (timedCoordinator mode window slack).runFrom_snoc_eq_some.mpr ⟨u, hu, hs⟩
  have hlength : p.dues.length = p.state.windows :=
    Machine.length_dues_of_alarmed windows rfl (fun _ _ _ hs => windows_step hs) hp
  have hdues : p.dues = [p.now + window] := by
    obtain ⟨dues, hdues⟩ := dues_of_opens hopens hs
    rw [hdues, List.length_append, hone] at hlength
    rw [hdues, List.length_eq_zero_iff.mp (Nat.succ.inj hlength), List.nil_append]
  have hcounting : Counting (p.now + window) p := by
    refine ⟨⟨hone.le, ?_⟩, ?_, hlength, .inl hdues⟩
    · rw [hlit, hone]
      rfl
    · exact Machine.invariant_alarmed
        (fun s : Coordinator => s.sched.queued Callback.isSteeringFinished = 0) rfl
        (fun _ _ _ h hs => queued_step h hs) hp
  -- the last alarm set is the only one, and it counts down from the opening on
  have hq : Counting (p.now + window) q := by
    refine Machine.invariant_inputs (Counting (p.now + window))
      (r := fun i => ∀ k, i = .act k → k.Leaves) (fun _ _ _ h hi hs => h.step hi hs) ?_ hcounting hrun
    rintro _ hi k rfl
    exact hsince k hi
  have hnow : q.now = p.now + ticks since := Machine.now_of_alarmed hrun
  have hled := hq.follows.2
  rw [← hq.length] at hled
  constructor
  · intro hearly
    rcases hq.dues with hpending | ⟨-, hle⟩
    · rw [hled, hpending]
      rfl
    · omega
  · intro hlate
    rcases hq.dues with hpending | ⟨hnone, -⟩
    · have hon := Machine.onTime_of_alarmed (Machine.runFrom_trans hp hrun) (p.now + window)
        (by rw [hpending]; exact List.mem_cons_self)
      omega
    · rw [hled, hnone]
      rfl

/-- A window of two seconds, which its alarm ends in time. -/
theorem networkLed_window_off : ∃ q, (timedCoordinator .all 2 0).run
      [.act (.signal .steering 0 true true), .tick, .tick, .act (.turn (.alarm 0)), .tick] = some q ∧
    q.state.networkStateLed = false :=
  ⟨_, rfl, (networkLed_window .all 2 0 [] [.tick, .tick, .act (.turn (.alarm 0)), .tick]
    (.signal .steering 0 true true) _ _ _ rfl rfl rfl rfl rfl
    (fun k hk => by simp at hk; subst hk; trivial) rfl).2 (by decide)⟩

end NcsExamples.Zigbee.Coordinator
