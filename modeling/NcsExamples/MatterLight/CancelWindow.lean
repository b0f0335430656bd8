import NcsExamples.Lib.PendingAlarms
import NcsExamples.MatterLight.FunctionButton

/-! # Matter light bulb: the time to cancel a factory reset

A press starts a timeout of three seconds, at the end of which the LEDs begin to blink, and a second
one of three seconds, in which a release cancels the reset. The timer runs on the clock, but its
events take effect when they are dispatched: if two of them wait in the queue, the window that the
first one opens is closed by the second one at once. While no event of the timer waits when the
timer expires, there are three seconds to cancel, and six from the press on. -/

namespace NcsExamples.MatterLight

/-- `kFactoryResetTriggerTimeout`, in milliseconds. -/
def kFactoryResetTriggerTimeout : ℕ := 3000

/-- `kFactoryResetCancelWindowTimeout`, in milliseconds. -/
def kFactoryResetCancelWindowTimeout : ℕ := 3000

/-- What the handler of an event does to the function timer: `StartTimer` starts a timer that runs
anew, and `CancelTimer` stops it. -/
def FnEvent.timerOps (a : Task) : FnEvent → List AlarmOp
  | .pushed =>
      if a.mFunctionTimerActive = false ∧ a.mFunction = .noneSelected then
        [.cancel .all, .set kFactoryResetTriggerTimeout]
      else []
  | .released =>
      if a.mFunctionTimerActive = true ∧ a.mFunction = .softwareUpdate then [.cancel .all]
      else if a.mFunctionTimerActive = true ∧ a.mFunction = .factoryReset then [.cancel .all]
      else []
  | .timer =>
      if a.mFunction = .softwareUpdate then
        [.cancel .all, .set kFactoryResetCancelWindowTimeout]
      else []

/-- What happens to the function timer. -/
def FnState.timerOps (f : FnState) : FnInput → List AlarmOp
  | .serve => match f.events with
    | e :: _ => e.timerOps f.task
    | [] => []
  | .expiry _ => [.fire 0]
  | .change _ | .clear => []

/-- What an input of the application does to the function timer. -/
def timerOps (s : State) (i : Input) : List AlarmOp :=
  match fnLabel s i with
  | some j => s.fnView.timerOps j
  | none => []

/-- The application against a clock of milliseconds: the timer expires at most `slack` of them late.
-/
def timedTask (slack : ℕ) : Machine (Alarmed State) (ClockInput Input) :=
  appTask.alarmed timerOps slack

/-- The timer does not expire while an event of it waits in the queue. -/
def TimerServed (w : Alarmed State) : ClockInput Input → Prop
  | .act .timerExpiry => .timer ∉ w.state.fnView.events
  | .tick | .act (.buttons _) | .act (.post _) | .act .dispatch => True

instance (w : Alarmed State) : DecidablePred (TimerServed w)
  | .act .timerExpiry => inferInstanceAs (Decidable (_ ∉ _))
  | .tick | .act (.buttons _) | .act (.post _) | .act .dispatch => isTrue trivial

/-- The step adds the observation `o`. -/
def Observes (o : Obs) (w : Alarmed State) (_ : ClockInput Input) (x : Alarmed State) : Prop :=
  x.state.task.trace = w.state.task.trace ++ [o]

/-- The step starts the function timer, for the trigger or for the window. -/
def StartsTimer (w : Alarmed State) (i : ClockInput Input) (x : Alarmed State) : Prop :=
  Observes .triggerStarted w i x ∨ Observes .windowStarted w i x

/-- At least `n` milliseconds ago there was a step as `q` says, after inputs with `P`, and all steps
since then are as `p` says. -/
def Ago (slack : ℕ) (p q : Alarmed State → ClockInput Input → Alarmed State → Prop) (n : ℕ)
    (P : List (ClockInput Input) → Prop) (is : List (ClockInput Input)) : Prop :=
  (timedTask slack).Since p q (fun js since => n ≤ ticks since ∧ P js) is

/-- A press started the trigger timer at least `n` milliseconds ago. -/
def TriggerAgo (slack n : ℕ) (is : List (ClockInput Input)) : Prop :=
  Ago slack (fun _ _ _ => True) (Observes .triggerStarted) n (fun _ => True) is

/-- The timer was started last at least `n` milliseconds ago. -/
def StartedAgo (slack n : ℕ) (is : List (ClockInput Input)) : Prop :=
  Ago slack (fun w i x => ¬ StartsTimer w i x) StartsTimer n (fun _ => True) is

/-- When the timer expired last, it had been started last three seconds before or more. -/
def ExpiredInTime (slack : ℕ) (is : List (ClockInput Input)) : Prop :=
  Ago slack (fun w i x => ¬ Observes .expired w i x) (Observes .expired) 0 (StartedAgo slack 3000) is

/-- The cancel window was opened at least `n` milliseconds ago, and the timer has not been started
since then. It was opened after the timer had expired in time, and a press had started the trigger
timer. -/
def WindowAgo (slack n : ℕ) (is : List (ClockInput Input)) : Prop :=
  Ago slack (fun w i x => ¬ StartsTimer w i x) (Observes .windowStarted) n
    (fun js => ExpiredInTime slack js ∧ TriggerAgo slack kFactoryResetTriggerTimeout js) is

/-- The observation is neither a start of the timer nor its expiry. -/
def Obs.Quiet (o : Obs) : Prop := o ≠ .triggerStarted ∧ o ≠ .windowStarted ∧ o ≠ .expired

instance : DecidablePred Obs.Quiet := fun _ => inferInstanceAs (Decidable (_ ∧ _ ∧ _))

variable {slack n m : ℕ} {o o' : Obs} {P : List (ClockInput Input) → Prop}
  {p q : Alarmed State → ClockInput Input → Alarmed State → Prop}
  {is : List (ClockInput Input)} {w x : Alarmed State} {i : Input} {k : ClockInput Input}

/-! ## The timer -/

/-- The number of timers that run. -/
def Task.timers (a : Task) : ℕ := if a.sFunctionTimer = true then 1 else 0

/-- What a handler can do: start the trigger timer, open the window, or neither; and then it stops
the timer or leaves it, and opens nothing. -/
theorem serve_cases (e : FnEvent) (a : Task) :
    (e.timerOps a = [.cancel .all, .set kFactoryResetTriggerTimeout] ∧
        (e.serve a).trace = a.trace ++ [.triggerStarted] ∧
        (e.serve a).mFunction ≠ .factoryReset) ∨
      (e = .timer ∧ e.timerOps a = [.cancel .all, .set kFactoryResetCancelWindowTimeout] ∧
        (e.serve a).trace = a.trace ++ [.windowStarted]) ∨
      (e.timerOps a = [] ∨ e.timerOps a = [.cancel .all]) ∧
        (∀ o, (e.serve a).trace = a.trace ++ [o] → o.Quiet) ∧
        ((e.serve a).mFunction = .factoryReset → a.mFunction = .factoryReset) := by
  -- a handler observes one thing at most
  have hnone : ∀ o, a.trace = a.trace ++ [o] → o.Quiet := fun o ho => by simp at ho
  have hlast : ∀ o', o'.Quiet → ∀ o, a.trace ++ [o'] = a.trace ++ [o] → o.Quiet := by
    intro o' hquiet o ho
    exact List.singleton_inj.mp (List.append_cancel_left ho) ▸ hquiet
  cases e with
  | pushed =>
    simp only [FnEvent.serve, Task.pushed, FnEvent.timerOps]
    split
    · exact .inl ⟨rfl, rfl, FunctionEvent.noConfusion⟩
    · exact .inr (.inr ⟨.inl rfl, hnone, id⟩)
  | released =>
    simp only [FnEvent.serve, Task.released, FnEvent.timerOps]
    split
    · exact .inr (.inr ⟨.inr rfl, hlast .softwareUpdate (by decide), fun h => by cases h⟩)
    · split
      · exact .inr (.inr ⟨.inr rfl, hlast .canceled (by decide), fun h => by cases h⟩)
      · exact .inr (.inr ⟨.inl rfl, hnone, id⟩)
  | timer =>
    cases hfunction : a.mFunction with
    | noneSelected =>
      -- the value of `SoftwareUpdate`
      refine .inr (.inl ⟨rfl, if_pos hfunction, ?_⟩)
      simp only [FnEvent.serve, Task.timeout, hfunction]
      rfl
    | factoryReset =>
      have hother : a.mFunction ≠ .softwareUpdate := by
        rw [hfunction]
        exact FunctionEvent.noConfusion
      refine .inr (.inr ⟨.inl (if_neg hother), ?_, fun _ => rfl⟩)
      simp only [FnEvent.serve, Task.timeout, hfunction]
      exact hlast .factoryReset (by decide)
    | advertisingStart =>
      have hother : a.mFunction ≠ .softwareUpdate := by
        rw [hfunction]
        exact FunctionEvent.noConfusion
      refine .inr (.inr ⟨.inl (if_neg hother), ?_, ?_⟩)
      · simp only [FnEvent.serve, Task.timeout, hfunction]
        exact hnone
      · simp only [FnEvent.serve, Task.timeout, hfunction]
        exact id

/-- A handler starts and stops the timer as its operations say. -/
theorem timers_serve (e : FnEvent) (a : Task) :
    (e.serve a).timers = (e.timerOps a).foldl AlarmOp.count a.timers := by
  cases e with
  | pushed =>
    simp only [FnEvent.serve, Task.pushed, FnEvent.timerOps]
    split <;> rfl
  | released =>
    simp only [FnEvent.serve, Task.released, FnEvent.timerOps]
    split
    · rfl
    · split <;> rfl
  | timer =>
    simp only [FnEvent.serve, Task.timeout, FnEvent.timerOps]
    cases a.mFunction <;> rfl

/-- The operations account for the timer. -/
theorem timers_step {s t : State} (hs : appTask.step s i = some t) :
    t.task.timers = (timerOps s i).foldl AlarmOp.count s.task.timers := by
  have htasks : s.fnView.task = s.task ∧ t.fnView.task = t.task := ⟨rfl, rfl⟩
  simp only [timerOps]
  cases hlabel : fnLabel s i with
  | none =>
    -- the step is not one of the function button, and leaves its task as it is
    rw [← htasks.2, ← appTask_projects.view_eq_of_step hs hlabel]
    rfl
  | some j =>
    have hf := appTask_projects.step_eq_some hs hlabel
    rw [← htasks.2]
    cases j with
    | change kept | clear =>
      rw [← Option.some.inj hf]
      rfl
    | expiry kept =>
      obtain ⟨hrunning, hexpired⟩ := Machine.guarded_eq_some.mp hf
      have hone : s.task.timers = 1 := if_pos hrunning
      rw [← hexpired, hone]
      rfl
    | serve =>
      obtain ⟨e, es, hevents, hserved⟩ := serve_of_eq_some hf
      rw [hserved]
      simp only [FnState.timerOps, hevents]
      exact timers_serve e s.task

/-- The clock never stops for good: it ticks, or the timer can expire. -/
theorem timedTask_goesOn (hrun : (timedTask slack).run is = some w) :
    (∃ x, (timedTask slack).step w .tick = some x) ∨
      ∃ i j x, timerOps w.state i = [.fire j] ∧ (timedTask slack).step w (.act i) = some x := by
  refine Machine.exists_alarmed_step fun j hj => ?_
  have hlength : w.dues.length = w.state.task.timers :=
    Machine.length_dues_of_alarmed (fun s : State => s.task.timers) rfl
      (fun _ _ _ hs => timers_step hs) hrun
  rw [hlength, Task.timers] at hj
  split at hj
  · next hrunning =>
    obtain rfl : j = 0 := Nat.lt_one_iff.mp hj
    refine ⟨.timerExpiry, rfl, ?_⟩
    simp [appTask, NcsExamples.MatterLight.step, hrunning]
  · cases hj

/-! ## The past -/

/-- A step observes one thing at most. -/
theorem Observes.eq (h : Observes o w k x) (h' : Observes o' w k x) : o = o' :=
  List.singleton_inj.mp (List.append_cancel_left (h.symm.trans h'))

/-- A step that leaves the trace as it is observes nothing. -/
theorem not_observes (h : x.state.task.trace = w.state.task.trace) : ¬ Observes o w k x := by
  intro ho
  simpa using congrArg List.length (h.symm.trans ho)

/-- A start of the timer is observed. -/
theorem not_startsTimer (h : ∀ o, Observes o w k x → o.Quiet) : ¬ StartsTimer w k x
  | .inl ho => (h _ ho).1 rfl
  | .inr ho => (h _ ho).2.1 rfl

/-- What was long ago was so before the next input. -/
theorem Ago.snoc (h : Ago slack p q n P is) (hrun : (timedTask slack).run is = some w)
    (hs : (timedTask slack).step w k = some x) (hp : p w k x) :
    Ago slack p q (n + ticks [k]) P (is ++ [k]) := by
  refine Machine.Since.snoc h hrun hs hp ?_
  rintro js since ⟨hn, hP⟩
  rw [ticks_append]
  exact ⟨Nat.add_le_add_right hn _, hP⟩

/-- What was longer ago was so at any rate. -/
theorem Ago.mono (h : Ago slack p q n P is) (hm : m ≤ n) : Ago slack p q m P is :=
  Machine.Since.mono h fun _ _ hn => ⟨hm.trans hn.1, hn.2⟩

/-- What happens now. -/
theorem Ago.now (hrun : (timedTask slack).run is = some w)
    (hs : (timedTask slack).step w k = some x) (hq : q w k x) (hP : P is) :
    Ago slack p q 0 P (is ++ [k]) :=
  Machine.Since.now hrun hs hq ⟨Nat.zero_le _, hP⟩

/-! ## Steps -/

/-- The timer and its events against the clock: the timeout is over when the timer's event waits, and
the window is open for its time before an event of the timer waits again. -/
structure Paced (slack : ℕ) (is : List (ClockInput Input)) (w : Alarmed State) : Prop where
  single : w.dues.length ≤ 1
  timers : w.state.fnView.events.count .timer ≤ 1
  trigger : ∀ d ∈ w.dues, ∃ n, TriggerAgo slack n is ∧ w.now + kFactoryResetTriggerTimeout ≤ d + n
  started : ∀ d ∈ w.dues, ∃ n, StartedAgo slack n is ∧ w.now + 3000 ≤ d + n
  expired : .timer ∈ w.state.fnView.events →
    ExpiredInTime slack is ∧ TriggerAgo slack kFactoryResetTriggerTimeout is
  window : w.state.task.mFunction = .factoryReset → ∃ n, WindowAgo slack n is ∧
    (.timer ∉ w.state.fnView.events ∧
        (∀ d ∈ w.dues, w.now + kFactoryResetCancelWindowTimeout ≤ d + n) ∨
      w.dues = [] ∧ kFactoryResetCancelWindowTimeout ≤ n)

/-- A tick brings everything nearer. -/
theorem Paced.tick (h : Paced slack is w) (hrun : (timedTask slack).run is = some w)
    (hs : (timedTask slack).step w .tick = some { w with now := w.now + 1 }) :
    Paced slack (is ++ [.tick]) { w with now := w.now + 1 } := by
  have hone : ticks [(.tick : ClockInput Input)] = 1 := rfl
  have hnone (o : Obs) : ¬ Observes o w .tick { w with now := w.now + 1 } := not_observes rfl
  have hstarts : ¬ StartsTimer w .tick { w with now := w.now + 1 } :=
    not_startsTimer fun o ho => absurd ho (hnone o)
  refine ⟨h.single, h.timers, ?_, ?_, ?_, ?_⟩
  · intro d hd
    obtain ⟨n, hn, hle⟩ := h.trigger d hd
    -- the distance to the due time and to the press change alike
    refine ⟨n + 1, hone ▸ hn.snoc hrun hs trivial, ?_⟩
    show w.now + 1 + _ ≤ _
    omega
  · intro d hd
    obtain ⟨n, hn, hle⟩ := h.started d hd
    refine ⟨n + 1, hone ▸ hn.snoc hrun hs hstarts, ?_⟩
    show w.now + 1 + _ ≤ _
    omega
  · intro htimer
    obtain ⟨hexpired, htrigger⟩ := h.expired htimer
    exact ⟨(hexpired.snoc hrun hs (hnone .expired)).mono (Nat.zero_le _),
      (htrigger.snoc hrun hs trivial).mono (Nat.le_add_right _ _)⟩
  · intro hreset
    obtain ⟨n, hn, hcases⟩ := h.window hreset
    refine ⟨n + 1, hone ▸ hn.snoc hrun hs hstarts, ?_⟩
    rcases hcases with ⟨hno, hdues⟩ | ⟨hempty, hle⟩
    · refine .inl ⟨hno, fun d hd => ?_⟩
      have hle := hdues d hd
      show w.now + 1 + _ ≤ _
      omega
    · exact .inr ⟨hempty, Nat.le_succ_of_le hle⟩

/-- A step that starts no timer, opens no window and lets no event of the timer wait. -/
theorem Paced.unchanged (h : Paced slack is w) (hrun : (timedTask slack).run is = some w)
    (hs : (timedTask slack).step w (.act i) = some x) (hnow : x.now = w.now)
    (hdues : x.dues.Sublist w.dues)
    (htimers : x.state.fnView.events.count .timer ≤ w.state.fnView.events.count .timer)
    (hquiet : ∀ o, Observes o w (.act i) x → o.Quiet)
    (hfunction : x.state.task.mFunction = .factoryReset →
      w.state.task.mFunction = .factoryReset) : Paced slack (is ++ [.act i]) x := by
  have hwaits : .timer ∈ x.state.fnView.events → .timer ∈ w.state.fnView.events := by
    intro htimer
    exact List.count_pos_iff.mp ((List.count_pos_iff.mpr htimer).trans_le htimers)
  have hstarts : ¬ StartsTimer w (.act i) x := not_startsTimer hquiet
  refine ⟨hdues.length_le.trans h.single, htimers.trans h.timers, ?_, ?_, ?_, ?_⟩
  · intro d hd
    obtain ⟨n, hn, hle⟩ := h.trigger d (hdues.subset hd)
    exact ⟨n, hn.snoc hrun hs trivial, hnow ▸ hle⟩
  · intro d hd
    obtain ⟨n, hn, hle⟩ := h.started d (hdues.subset hd)
    exact ⟨n, hn.snoc hrun hs hstarts, hnow ▸ hle⟩
  · intro htimer
    obtain ⟨hexpired, htrigger⟩ := h.expired (hwaits htimer)
    exact ⟨hexpired.snoc hrun hs fun ho => (hquiet _ ho).2.2 rfl, htrigger.snoc hrun hs trivial⟩
  · intro hreset
    obtain ⟨n, hn, hcases⟩ := h.window (hfunction hreset)
    refine ⟨n, hn.snoc hrun hs hstarts, ?_⟩
    rcases hcases with ⟨hno, hle⟩ | ⟨hnone, hle⟩
    · exact .inl ⟨fun htimer => hno (hwaits htimer), fun d hd => hnow ▸ hle d (hdues.subset hd)⟩
    · rw [hnone] at hdues
      exact .inr ⟨List.sublist_nil.mp hdues, hle⟩

variable {kept : Bool} {e : FnEvent} {es : List FnEvent}

/-- The timer expires when it is due, and none of its events waits. -/
theorem Paced.expiry (h : Paced slack is w) (hrun : (timedTask slack).run is = some w)
    (hs : (timedTask slack).step w (.act i) = some x) (hserved : .timer ∉ w.state.fnView.events)
    (hexpiry : fnStep w.state.fnView (.expiry kept) = some x.state.fnView)
    (hdues : AlarmOp.dues? w.now w.dues (.fire 0) = some x.dues) :
    Paced slack (is ++ [.act i]) x := by
  obtain ⟨⟨d, hd, hle⟩, hfired⟩ := Machine.guarded_eq_some.mp hdues
  obtain ⟨-, hview⟩ := Machine.guarded_eq_some.mp hexpiry
  -- the timer that expires was the only one
  have hone : w.dues = [d] := by
    have hsingle := h.single
    cases hw : w.dues with
    | nil =>
      rw [hw] at hd
      cases hd
    | cons e es =>
      rw [hw] at hd hsingle
      obtain rfl : e = d := Option.some.inj hd
      rw [List.length_eq_zero_iff.mp (Nat.le_zero.mp (Nat.succ_le_succ_iff.mp hsingle))]
  have hnone : x.dues = [] := by rw [← hfired, hone]; rfl
  have hevents : x.state.fnView.events = keep kept w.state.fnView.events .timer := by rw [← hview]
  have hfunction : x.state.task.mFunction = w.state.task.mFunction :=
    congrArg (fun f => f.task.mFunction) hview.symm
  have hobserved : Observes .expired w (.act i) x := by
    show x.state.fnView.task.trace = _
    rw [← hview]
    rfl
  have hmem : d ∈ w.dues := hone ▸ List.mem_singleton_self d
  obtain ⟨n, hn, hpassed⟩ := h.trigger d hmem
  obtain ⟨m, hm, hpassed'⟩ := h.started d hmem
  have hover : kFactoryResetTriggerTimeout ≤ n := by omega
  have hover' : 3000 ≤ m := by omega
  refine ⟨by rw [hnone]; exact Nat.zero_le 1, ?_, by rw [hnone]; exact nofun,
    by rw [hnone]; exact nofun, ?_, ?_⟩
  · rw [hevents, keep]
    have hzero := List.count_eq_zero.mpr hserved
    split
    · rw [List.count_append, hzero]
      rfl
    · rw [hzero]
      exact Nat.zero_le 1
  · intro _
    exact ⟨Ago.now hrun hs hobserved (hm.mono hover'), (hn.mono hover).snoc hrun hs trivial⟩
  · -- if the window is open, the timer that expires is its own, so its time is over
    intro hreset
    rw [hfunction] at hreset
    obtain ⟨m, hm, ⟨-, hwindow⟩ | ⟨hempty, -⟩⟩ := h.window hreset
    · have hopen := hwindow d hmem
      refine ⟨m, hm.snoc hrun hs ?_, .inr ⟨hnone, by omega⟩⟩
      rintro (ho | ho) <;> cases hobserved.eq ho
    · rw [hempty] at hmem
      cases hmem

/-- A press that is dispatched while nothing is under way starts the trigger timer. -/
theorem Paced.trigger_step (h : Paced slack is w) (hrun : (timedTask slack).run is = some w)
    (hs : (timedTask slack).step w (.act i) = some x)
    (hevents : x.state.fnView.events ⊆ w.state.fnView.events)
    (htimers : x.state.fnView.events.count .timer ≤ w.state.fnView.events.count .timer)
    (hdues : x.dues = [w.now + kFactoryResetTriggerTimeout]) (hnow : x.now = w.now)
    (hobserved : Observes .triggerStarted w (.act i) x)
    (hfunction : x.state.task.mFunction ≠ .factoryReset) : Paced slack (is ++ [.act i]) x := by
  refine ⟨by rw [hdues]; exact le_rfl, htimers.trans h.timers, ?_, ?_, ?_,
    fun hreset => absurd hreset hfunction⟩
  · intro d hd
    rw [hdues, List.mem_singleton] at hd
    refine ⟨0, Ago.now hrun hs hobserved trivial, ?_⟩
    rw [hd, hnow]
    exact le_rfl
  · intro d hd
    rw [hdues, List.mem_singleton] at hd
    refine ⟨0, Ago.now hrun hs (.inl hobserved) trivial, ?_⟩
    rw [hd, hnow]
    exact le_rfl
  · intro htimer
    obtain ⟨hexpired, htrigger⟩ := h.expired (hevents htimer)
    refine ⟨hexpired.snoc hrun hs fun ho => ?_, htrigger.snoc hrun hs trivial⟩
    cases hobserved.eq ho

/-- The first timer event opens the window. -/
theorem Paced.window_step (h : Paced slack is w) (hrun : (timedTask slack).run is = some w)
    (hs : (timedTask slack).step w (.act i) = some x)
    (hevents : w.state.fnView.events = .timer :: x.state.fnView.events)
    (hdues : x.dues = [w.now + kFactoryResetCancelWindowTimeout]) (hnow : x.now = w.now)
    (hobserved : Observes .windowStarted w (.act i) x) : Paced slack (is ++ [.act i]) x := by
  have hexpired : ExpiredInTime slack is ∧ TriggerAgo slack kFactoryResetTriggerTimeout is :=
    h.expired (hevents ▸ List.mem_cons_self)
  -- no other one waits
  have hno : .timer ∉ x.state.fnView.events := by
    have hcount := h.timers
    rw [hevents, List.count_cons_self] at hcount
    exact List.count_eq_zero.mp (Nat.le_zero.mp (Nat.succ_le_succ_iff.mp hcount))
  refine ⟨by rw [hdues]; exact le_rfl, ?_, ?_, ?_, fun htimer => absurd htimer hno, ?_⟩
  · rw [List.count_eq_zero.mpr hno]
    exact Nat.zero_le 1
  · -- the new timer ends later still after the press
    intro d hd
    rw [hdues, List.mem_singleton] at hd
    refine ⟨_, hexpired.2.snoc hrun hs trivial, ?_⟩
    rw [hd, hnow]
    simp only [kFactoryResetTriggerTimeout, kFactoryResetCancelWindowTimeout]
    omega
  · intro d hd
    rw [hdues, List.mem_singleton] at hd
    refine ⟨0, Ago.now hrun hs (.inr hobserved) trivial, ?_⟩
    rw [hd, hnow]
    exact le_rfl
  · intro _
    refine ⟨0, Ago.now hrun hs hobserved hexpired, .inl ⟨hno, fun d hd => ?_⟩⟩
    rw [hdues, List.mem_singleton] at hd
    rw [hd, hnow]
    exact le_rfl

/-- The dispatch of an event of the function button. -/
theorem Paced.serve_step (h : Paced slack is w) (hrun : (timedTask slack).run is = some w)
    (hs : (timedTask slack).step w (.act i) = some x) (hnow : x.now = w.now)
    (hevents : w.state.fnView.events = e :: x.state.fnView.events)
    (htask : x.state.task = e.serve w.state.task)
    (hdues : (e.timerOps w.state.task).foldlM (AlarmOp.dues? w.now) w.dues = some x.dues) :
    Paced slack (is ++ [.act i]) x := by
  have hcount : x.state.fnView.events.count .timer ≤ w.state.fnView.events.count .timer := by
    rw [hevents]
    exact List.count_le_count_cons
  rcases serve_cases e w.state.task with ⟨hops, htrace, hfunction⟩ | ⟨rfl, hops, htrace⟩ |
    ⟨hops, hquiet, hfunction⟩
  · rw [hops] at hdues
    exact h.trigger_step hrun hs (fun e' he => hevents ▸ List.mem_cons_of_mem e he) hcount
      (Option.some.inj hdues).symm hnow
      ((congrArg Task.trace htask).trans htrace) (htask ▸ hfunction)
  · rw [hops] at hdues
    exact h.window_step hrun hs hevents (Option.some.inj hdues).symm hnow
      ((congrArg Task.trace htask).trans htrace)
  · -- the timer is left alone, or stopped
    have hsublist : x.dues.Sublist w.dues := by
      rcases hops with hops | hops <;> rw [hops] at hdues
      · rw [← Option.some.inj hdues]
      · rw [← Option.some.inj hdues]
        exact List.nil_sublist w.dues
    exact h.unchanged hrun hs hnow hsublist hcount
      (fun o ho => hquiet o ((congrArg Task.trace htask).symm.trans ho)) (htask ▸ hfunction)

/-- Only the expiry of the timer is one for the function button. -/
theorem eq_timerExpiry_of_label {s : State} (h : fnLabel s i = some (.expiry kept)) :
    i = .timerExpiry := by
  cases i with
  | timerExpiry => rfl
  | buttons buttonState =>
    simp only [fnLabel] at h
    split at h <;> cases h
  | post handler => cases h
  | dispatch =>
    simp only [fnLabel] at h
    split at h
    · split at h
      · cases h
      · split at h <;> cases h
    · cases h

/-- Every step keeps the pace, if the timer does not expire while an event of it waits. -/
theorem Paced.step (h : Paced slack is w) (hrun : (timedTask slack).run is = some w)
    {i : ClockInput Input} (hserved : TimerServed w i)
    (hs : (timedTask slack).step w i = some x) : Paced slack (is ++ [i]) x := by
  cases i with
  | tick =>
    obtain ⟨-, rfl⟩ := Machine.alarmed_tick_eq_some.mp hs
    exact h.tick hrun hs
  | act i =>
    obtain ⟨hdues, hstate, hnow⟩ := Machine.alarmed_act_eq_some.mp hs
    have hmFunction : w.state.fnView.task = w.state.task ∧ x.state.fnView.task = x.state.task :=
      ⟨rfl, rfl⟩
    simp only [timerOps] at hdues
    -- the step as the function button sees it
    cases hlabel : fnLabel w.state i with
    | none =>
      rw [hlabel] at hdues
      have hsame : w.state.fnView = x.state.fnView :=
        appTask_projects.view_eq_of_step hstate hlabel
      have hdues' : w.dues = x.dues := Option.some.inj hdues
      refine h.unchanged hrun hs hnow (by rw [hdues']) (by rw [hsame]) ?_ ?_
      · exact fun o ho => absurd ho (not_observes (congrArg (fun f => f.task.trace) hsame).symm)
      · intro hreset
        rw [← hmFunction.1, hsame]
        exact hreset
    | some j =>
      rw [hlabel] at hdues
      have hf := appTask_projects.step_eq_some hstate hlabel
      cases j with
      | change kept =>
        have hdues' : w.dues = x.dues := Option.some.inj hdues
        have hchanged := Option.some.inj hf
        refine h.unchanged hrun hs hnow (by rw [hdues']) ?_ ?_ ?_
        · rw [← hchanged]
          simp only [keep]
          split
          · -- the event is one of the button
            rw [List.count_append]
            split <;> exact le_rfl
          · exact le_rfl
        · intro o ho
          have hobserved : Observes (if w.state.fnView.down then .released else .pressed) w
              (.act i) x := by
            show x.state.fnView.task.trace = _
            rw [← hchanged]
            rfl
          rw [← hobserved.eq ho]
          split <;> decide
        · intro hreset
          rw [← hmFunction.2, ← hchanged] at hreset
          exact hreset
      | expiry kept =>
        obtain rfl := eq_timerExpiry_of_label hlabel
        obtain ⟨dues, hfire, hlast⟩ := Option.bind_eq_some_iff.mp hdues
        obtain rfl : dues = x.dues := Option.some.inj hlast
        exact h.expiry hrun hs hserved hf hfire
      | serve =>
        obtain ⟨e, es, hevents, hview⟩ := serve_of_eq_some hf
        have hes : es = x.state.fnView.events := by rw [hview]
        have htask : x.state.task = e.serve w.state.task := by
          rw [← hmFunction.2, hview, hmFunction.1]
        simp only [FnState.timerOps, hevents] at hdues
        exact h.serve_step hrun hs hnow (hes ▸ hevents) htask hdues
      | clear =>
        -- the NUS button resets `mFunction`, and the timer runs on
        have hdues' : w.dues = x.dues := Option.some.inj hdues
        have hcleared := Option.some.inj hf
        refine h.unchanged hrun hs hnow (by rw [hdues']) (by rw [← hcleared]) ?_ ?_
        · exact fun o ho =>
            absurd ho (not_observes (congrArg (fun f => f.task.trace) hcleared).symm)
        · intro hreset
          rw [← hmFunction.2, ← hcleared] at hreset
          cases hreset

/-! ## Resets -/

/-- A factory reset is scheduled by an event of the timer that finds the window open. -/
theorem resets_fnStep {f g : FnState} {j : FnInput} (hs : fnStep f j = some g)
    (hreset : g.task.trace = f.task.trace ++ [.factoryReset]) :
    .timer ∈ f.events ∧ f.task.mFunction = .factoryReset := by
  -- a step observes one thing at most: here it must be the reset
  have hlast : ∀ o : Obs, f.task.trace ++ [o] = f.task.trace ++ [.factoryReset] →
      o = .factoryReset := fun o h => List.singleton_inj.mp (List.append_cancel_left h)
  have hnone : f.task.trace ≠ f.task.trace ++ [.factoryReset] := fun h => by
    simpa using congrArg List.length h
  cases j with
  | change kept =>
    obtain rfl := Option.some.inj hs
    have ho := hlast _ hreset
    split at ho <;> cases ho
  | expiry kept =>
    obtain ⟨-, rfl⟩ := Machine.guarded_eq_some.mp hs
    cases hlast _ hreset
  | clear =>
    obtain rfl := Option.some.inj hs
    exact absurd hreset hnone
  | serve =>
    obtain ⟨e, es, hevents, rfl⟩ := serve_of_eq_some hs
    cases e with
    | pushed =>
      simp only [FnEvent.serve, Task.pushed] at hreset
      split at hreset
      · cases hlast _ hreset
      · exact absurd hreset hnone
    | released =>
      simp only [FnEvent.serve, Task.released] at hreset
      split at hreset
      · cases hlast _ hreset
      · split at hreset
        · cases hlast _ hreset
        · exact absurd hreset hnone
    | timer =>
      simp only [FnEvent.serve, Task.timeout] at hreset
      refine ⟨hevents ▸ List.mem_cons_self, ?_⟩
      split at hreset
      · cases hlast _ hreset
      · next hfunction => exact hfunction
      · exact absurd hreset hnone

/-- **Three seconds to cancel.** In a run in which the timer does not expire while an event of it
waits in the queue, a factory reset is scheduled three seconds or more after the window for
canceling it was opened, without another start of the timer in between. The window was opened after
the timer had expired, three seconds or more after its last start, and a press had started it three
seconds before or more. -/
theorem factoryReset_window (slack : ℕ) (is : List (ClockInput Input)) (w x : Alarmed State)
    (i : Input) (hserved : (timedTask slack).Meets TimerServed is)
    (hrun : (timedTask slack).run is = some w) (hs : (timedTask slack).step w (.act i) = some x)
    (hreset : Observes .factoryReset w (.act i) x) : WindowAgo slack 3000 is := by
  have hpaced : Paced slack is w := by
    refine Machine.invariant_history_along (Paced slack) ?_
      (fun _ _ _ _ hrun h hserved hs => h.step hrun hserved hs) hserved hrun
    exact ⟨Nat.zero_le 1, Nat.zero_le 1, nofun, nofun, nofun, fun h => by cases h⟩
  obtain ⟨-, hstate, -⟩ := Machine.alarmed_act_eq_some.mp hs
  cases hlabel : fnLabel w.state i with
  | none =>
    have hsame : w.state.fnView.task = x.state.fnView.task :=
      congrArg FnState.task (appTask_projects.view_eq_of_step hstate hlabel)
    exact absurd hreset (not_observes (congrArg Task.trace hsame).symm)
  | some j =>
    obtain ⟨htimer, hfunction⟩ :=
      resets_fnStep (appTask_projects.step_eq_some hstate hlabel) hreset
    -- an event of the timer waits, so it is the window that is over
    obtain ⟨n, hn, ⟨hno, -⟩ | ⟨-, hle⟩⟩ := hpaced.window hfunction
    · exact absurd htimer hno
    · exact hn.mono hle

/-- Nothing is asked of the ticks. -/
theorem timerServed_ticks (n : ℕ) (w : Alarmed State) :
    (timedTask slack).Along (fun w i _ => TimerServed w i) w (List.replicate n .tick) := by
  induction n generalizing w with
  | zero => trivial
  | succ n ih =>
    intro x _
    exact ⟨trivial, ih x⟩

/-- The button has gone down, and the application knows. -/
def holdTriggered : Alarmed State :=
  ⟨⟨[], 1, ⟨.noneSelected, true, true, [.pressed, .triggerStarted]⟩, []⟩, 0, [3000]⟩

/-- The window is opened. -/
def holdOpened : Alarmed State :=
  ⟨⟨[], 1, ⟨.factoryReset, true, true, [.pressed, .triggerStarted, .expired, .windowStarted]⟩, []⟩,
    3000, [6000]⟩

/-- The timer of the window has expired. -/
def holdOver : Alarmed State :=
  ⟨⟨[timerEvent], 1, ⟨.factoryReset, false, false,
    [.pressed, .triggerStarted, .expired, .windowStarted, .expired]⟩, []⟩, 6000, []⟩

/-- The button is held for six seconds. -/
theorem factoryReset_window_held : WindowAgo 0 3000 ([.act (.buttons 1), .act .dispatch] ++
    (List.replicate 3000 .tick ++ ([.act .timerExpiry, .act .dispatch] ++
      (List.replicate 3000 .tick ++ [.act .timerExpiry])))) := by
  have hpress : (timedTask 0).run [.act (.buttons 1), .act .dispatch] = some holdTriggered := by rfl
  have hwait : (timedTask 0).runFrom holdTriggered (List.replicate 3000 .tick) =
      some { holdTriggered with now := 3000 } := Machine.runFrom_replicate_tick (by decide)
  have hopen : (timedTask 0).runFrom { holdTriggered with now := 3000 }
      [.act .timerExpiry, .act .dispatch] = some holdOpened := by rfl
  have hwait' : (timedTask 0).runFrom holdOpened (List.replicate 3000 .tick) =
      some { holdOpened with now := 6000 } := Machine.runFrom_replicate_tick (by decide)
  have hover : (timedTask 0).runFrom { holdOpened with now := 6000 } [.act .timerExpiry] =
      some holdOver := by rfl
  obtain ⟨x, hx, hreset⟩ : ∃ x, (timedTask 0).step holdOver (.act .dispatch) = some x ∧
      Observes .factoryReset holdOver (.act .dispatch) x := ⟨_, rfl, rfl⟩
  refine factoryReset_window 0 _ holdOver x .dispatch ?_ ?_ hx hreset
  · refine (Machine.along_append hpress).mpr ⟨by decide, (Machine.along_append hwait).mpr
      ⟨timerServed_ticks 3000 holdTriggered, (Machine.along_append hopen).mpr ⟨by decide,
        (Machine.along_append hwait').mpr ⟨timerServed_ticks 3000 holdOpened, by decide⟩⟩⟩⟩
  · exact Machine.runFrom_trans hpress (Machine.runFrom_trans hwait
      (Machine.runFrom_trans hopen (Machine.runFrom_trans hwait' hover)))

end NcsExamples.MatterLight
