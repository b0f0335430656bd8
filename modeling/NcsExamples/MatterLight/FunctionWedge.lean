import NcsExamples.MatterLight.Noninterference

/-! # Matter light bulb: a function button that does not respond

While the window to cancel a factory reset is open, `mFunction` is `FactoryReset`, and only the
dispatch of the timer event or a release with the timer active leads out of it. The timer callback
makes the timer inactive before it posts its event, and a post to a full queue is dropped. -/

namespace NcsExamples.MatterLight

/-- A function waits for the timer. -/
def Task.Waits (a : Task) : Prop := a.mFunction = .factoryReset ∨ a.mFunction = .advertisingStart

instance : DecidablePred Task.Waits := fun _ => inferInstanceAs (Decidable (_ ∨ _))

/-- A function that waits for the timer will hear of it: the timer is running, or its event is in
the queue. -/
def FnState.Heard (f : FnState) : Prop :=
  f.task.Waits → f.task.sFunctionTimer = true ∨ FnEvent.timer ∈ f.events

instance : DecidablePred FnState.Heard := fun _ => inferInstanceAs (Decidable (_ → _))

/-- The state of the application is one in which the function button can go on. -/
def NotWedged (s : State) : Prop :=
  s.task.Waits → s.task.sFunctionTimer = true ∨
    ∃ event ∈ s.queue, event.handler = .functionTimer ∧ event.type = .timer

instance : DecidablePred NotWedged := fun _ => inferInstanceAs (Decidable (_ → _))

/-- If the timer expires while a function waits for it, its event finds room in the queue, or another
one is there. -/
def ExpiryHeard (s : State) (i : Input) : Prop :=
  i = .timerExpiry → s.task.Waits → s.queue.length < kAppEventQueueSize ∨
    ∃ event ∈ s.queue, event.handler = .functionTimer ∧ event.type = .timer

/-! ## The function button -/

/-- The same for the function button's machine: an expiry whose event is dropped. -/
def FnInput.Heard (f : FnState) (j : FnInput) : Prop :=
  j = .expiry false → f.task.Waits → FnEvent.timer ∈ f.events

variable {f g : FnState} {j : FnInput}

/-- What every state of the function button satisfies: advertising is started with two buttons only,
and the flag is that of the timer. -/
structure FnState.Consistent (f : FnState) : Prop where
  mFunction : f.task.mFunction ≠ .advertisingStart
  active : f.task.mFunctionTimerActive = f.task.sFunctionTimer

/-- **What a handler does.** It selects no function, or opens the window with the timer running, or
leaves the task alone; the last not for the timer's event. -/
theorem FnEvent.serve_cases (e : FnEvent) {a : Task} (hfunction : a.mFunction ≠ .advertisingStart)
    (hactive : a.mFunctionTimerActive = a.sFunctionTimer) :
    ((e.serve a).mFunction = .noneSelected ∨
      (e.serve a).mFunction = .factoryReset ∧ (e.serve a).sFunctionTimer = true ∨
      e ≠ .timer ∧ e.serve a = a) ∧
    (e.serve a).mFunctionTimerActive = (e.serve a).sFunctionTimer := by
  cases e with
  | pushed =>
    simp only [serve, Task.pushed]
    split
    · exact ⟨.inl rfl, rfl⟩
    · exact ⟨.inr (.inr ⟨by decide, rfl⟩), hactive⟩
  | released =>
    simp only [serve, Task.released]
    split
    · exact ⟨.inl rfl, rfl⟩
    · split
      · exact ⟨.inl rfl, rfl⟩
      · exact ⟨.inr (.inr ⟨by decide, rfl⟩), hactive⟩
  | timer =>
    simp only [serve, Task.timeout]
    split
    · exact ⟨.inr (.inl ⟨rfl, rfl⟩), rfl⟩
    · exact ⟨.inl rfl, hactive⟩
    · next hadvertising => exact absurd hadvertising hfunction

theorem FnState.Consistent.step (h : f.Consistent) (hs : fnStep f j = some g) : g.Consistent := by
  obtain ⟨hfunction, hactive⟩ := h
  cases j with
  | change kept =>
    obtain rfl := Option.some.inj hs
    exact ⟨hfunction, hactive⟩
  | expiry kept =>
    obtain ⟨-, rfl⟩ := Machine.guarded_eq_some.mp hs
    exact ⟨hfunction, rfl⟩
  | clear =>
    obtain rfl := Option.some.inj hs
    exact ⟨by simp, hactive⟩
  | serve =>
    obtain ⟨e, events, hevents, rfl⟩ := serve_of_eq_some hs
    obtain ⟨hcases, hactive'⟩ := e.serve_cases hfunction hactive
    refine ⟨?_, hactive'⟩
    show (e.serve f.task).mFunction ≠ .advertisingStart
    rcases hcases with hnone | ⟨hreset, -⟩ | ⟨-, hsame⟩
    · rw [hnone]
      decide
    · rw [hreset]
      decide
    · rw [hsame]
      exact hfunction

/-- A step keeps the function button going, exactly if it does not lose the last event that tells of
the timer. -/
theorem heard_step_iff (h : f.Consistent) (hheard : f.Heard) (hs : fnStep f j = some g) :
    g.Heard ↔ j.Heard f := by
  cases j with
  | change kept =>
    obtain rfl := Option.some.inj hs
    refine iff_of_true (fun hwaits => (hheard hwaits).imp_right fun hmem => ?_) nofun
    cases kept with
    | true => exact List.mem_append_left _ hmem
    | false => exact hmem
  | expiry kept =>
    obtain ⟨-, rfl⟩ := Machine.guarded_eq_some.mp hs
    cases kept with
    | true => exact iff_of_true (fun _ => .inr (List.mem_append_right _ List.mem_cons_self)) nofun
    | false =>
      constructor
      · intro hg _ hwaits
        exact (hg hwaits).resolve_left nofun
      · intro hf hwaits
        exact .inr (hf rfl hwaits)
  | clear =>
    obtain rfl := Option.some.inj hs
    exact iff_of_true (fun hwaits => absurd hwaits (by simp [Task.Waits])) nofun
  | serve =>
    refine iff_of_true ?_ nofun
    obtain ⟨e, events, hevents, rfl⟩ := serve_of_eq_some hs
    obtain ⟨hcases, -⟩ := e.serve_cases h.mFunction h.active
    intro (hwaits : (e.serve f.task).Waits)
    show (e.serve f.task).sFunctionTimer = true ∨ FnEvent.timer ∈ events
    rcases hcases with hnone | ⟨-, hrunning⟩ | ⟨hne, hsame⟩
    · exact absurd hwaits (by simp [Task.Waits, hnone])
    · exact .inl hrunning
    · -- an event that is served in vain is not the timer's, which is still there
      rw [hsame] at hwaits ⊢
      refine (hheard hwaits).imp_right fun hmem => ?_
      rw [hevents] at hmem
      exact (List.mem_cons.mp hmem).resolve_left fun heq => hne heq.symm

/-! ## The application -/

/-- An event is the timer's for the function button if it is a timer event. -/
theorem fnEvent?_eq_timer_iff {event : AppEvent} :
    event.fnEvent? = some .timer ↔ event.handler = .functionTimer ∧ event.type = .timer := by
  obtain ⟨type, pinNo, action, handler⟩ := event
  cases handler with
  | function =>
    by_cases hpin : pinNo = functionButton <;> by_cases haction : action = .buttonPushed <;>
      simp [AppEvent.fnEvent?, hpin, haction]
  | _ => simp [AppEvent.fnEvent?]

theorem timer_mem_fnView_iff (s : State) : FnEvent.timer ∈ s.fnView.events ↔
    ∃ event ∈ s.queue, event.handler = .functionTimer ∧ event.type = .timer := by
  simp only [State.fnView, List.mem_filterMap, fnEvent?_eq_timer_iff]

/-- The function button's view of the property. -/
theorem notWedged_iff (s : State) : NotWedged s ↔ s.fnView.Heard := by
  unfold NotWedged FnState.Heard
  rw [timer_mem_fnView_iff]
  rfl

/-- The inputs of the application, as labels: no function button's step but an expiry can lose an
event of the timer. -/
theorem expiryHeard_iff (s : State) (i : Input) :
    ExpiryHeard s i ↔ ∀ j, fnLabel s i = some j → j.Heard s.fnView := by
  cases i with
  | timerExpiry =>
    simp only [ExpiryHeard, fnLabel, FnInput.Heard, Option.some.injEq, forall_eq', true_imp_iff,
      FnInput.expiry.injEq, State.keepsTimer, decide_eq_false_iff_not, timer_mem_fnView_iff]
    constructor
    · intro h hfull hwaits
      exact (h hwaits).resolve_left hfull
    · intro h hwaits
      exact or_iff_not_imp_left.mpr fun hfull => h hfull hwaits
  | buttons buttonState =>
    refine iff_of_true (fun hi => by cases hi) fun j hj => ?_
    simp only [fnLabel, Option.ite_none_left_eq_some, Option.some.injEq] at hj
    obtain ⟨-, rfl⟩ := hj
    intro hexpiry
    cases hexpiry
  | post handler =>
    refine iff_of_true (fun hi => by cases hi) fun j hj => ?_
    cases hj
  | dispatch =>
    refine iff_of_true (fun hi => by cases hi) fun j hj => ?_
    rintro rfl
    simp only [fnLabel] at hj
    split at hj
    · split at hj
      · cases hj
      · split at hj <;> cases hj
    · cases hj

/-- A step of the application keeps the function button going, exactly if it is heard. -/
theorem notWedged_step_iff {s t : State} {i : Input} (h : s.fnView.Consistent)
    (hs : appTask.step s i = some t) (hnot : NotWedged s) : NotWedged t ↔ ExpiryHeard s i := by
  rw [notWedged_iff] at hnot
  rw [notWedged_iff, expiryHeard_iff]
  cases hlabel : fnLabel s i with
  | none =>
    rw [← appTask_projects.view_eq_of_step hs hlabel]
    exact iff_of_true hnot nofun
  | some j =>
    rw [heard_step_iff h hnot (appTask_projects.step_eq_some hs hlabel)]
    simp

/-- Every step of the application keeps the view consistent. -/
theorem consistent_step {s t : State} {i : Input} (h : s.fnView.Consistent)
    (hs : appTask.step s i = some t) : t.fnView.Consistent :=
  Machine.invariant_run FnState.Consistent (fun _ _ _ hf hg => hf.step hg) h
    (appTask_projects.step s i t hs)

/-- **The function state cannot wedge.** In every state of a run with a function that waits for the
timer, the timer is running or its event is in the queue, exactly if every expiry of the timer that
a function waits for finds room in the queue, or an event of the timer there. -/
theorem function_notWedged_iff (is : List Input) :
    appTask.Along (fun _ _ t => NotWedged t) appTask.init is ↔ appTask.Meets ExpiryHeard is := by
  apply Machine.along_congr fun s => s.fnView.Consistent ∧ NotWedged s
  · intro s i t h hs
    exact notWedged_step_iff h.1 hs h.2
  · intro s i t h hnot hs
    exact ⟨consistent_step h.1 hs, hnot⟩
  · refine ⟨⟨nofun, rfl⟩, fun hwaits => ?_⟩
    exact absurd hwaits (by decide)

/-- The window to cancel a factory reset opens, ten LED updates fill the queue, and the event of the
timer is dropped. -/
theorem function_wedged :
    ¬ ∀ (is : List Input) (s : State), appTask.run is = some s → NotWedged s := by
  intro h
  have hnot := h ([.buttons 1, .dispatch, .timerExpiry, .dispatch] ++
    List.replicate 10 (.post .updateLedState) ++ [.timerExpiry]) _ rfl
  exact absurd hnot (by decide)

/-! ## Wedged for ever -/

/-- Unless `mFunction` is cleared from elsewhere, a step does not help, and does nothing. -/
theorem not_heard_step (h : f.Consistent) (hnot : ¬ f.Heard) (hj : j ≠ .clear)
    (hs : fnStep f j = some g) : ¬ g.Heard ∧ g.task.actions = f.task.actions := by
  obtain ⟨hwaits, hlost⟩ := Classical.not_imp.mp hnot
  obtain ⟨hstopped, hmem⟩ := not_or.mp hlost
  cases j with
  | change kept =>
    obtain rfl := Option.some.inj hs
    constructor
    · refine fun hg => not_or.mpr ⟨hstopped, fun hmem' => ?_⟩ (hg hwaits)
      cases kept with
      | true =>
        rcases List.mem_append.mp hmem' with hmem' | hmem'
        · exact hmem hmem'
        · cases hdown : f.down <;> simp [hdown] at hmem'
      | false => exact hmem hmem'
    · cases hdown : f.down <;> simp [Task.actions, Task.log, Obs.isAction]
  | expiry kept => exact absurd (Option.ite_none_right_eq_some.mp hs).1 hstopped
  | clear => exact absurd rfl hj
  | serve =>
    obtain ⟨e, events, hevents, rfl⟩ := serve_of_eq_some hs
    have hinactive : f.task.mFunctionTimerActive = false := by simpa [h.active] using hstopped
    have hfunction : f.task.mFunction = .factoryReset := hwaits.resolve_right h.mFunction
    rw [hevents] at hmem
    obtain ⟨hne, hmem'⟩ := not_or.mp (mt List.mem_cons.mpr hmem)
    have hsame : e.serve f.task = f.task := by
      cases e with
      | pushed => simp [FnEvent.serve, Task.pushed, hfunction]
      | released => simp [FnEvent.serve, Task.released, hinactive]
      | timer => exact absurd rfl hne
    rw [hsame]
    exact ⟨fun hg => not_or.mpr ⟨hstopped, hmem'⟩ (hg hwaits), rfl⟩

/-- A step that the NUS button's handler does not clear `mFunction` in is no such step of the
function button. -/
theorem fnLabel_ne_clear {s : State} {i : Input} (h : NoClear s i) : fnLabel s i ≠ some .clear := by
  intro hlabel
  cases i with
  | buttons buttonState =>
    simp only [fnLabel] at hlabel
    split at hlabel <;> cases hlabel
  | timerExpiry => cases hlabel
  | post handler => cases hlabel
  | dispatch =>
    simp only [fnLabel] at hlabel
    split at hlabel
    · next event queue hqueue =>
      split at hlabel
      · cases hlabel
      · have hno : ¬ s.clears event := h event (by rw [hqueue]; rfl)
        rw [if_neg hno] at hlabel
        cases hlabel
    · cases hlabel

/-- **Unresponsive for ever.** Once it is wedged, the function button performs no action any more,
whatever it and the other buttons do, as long as the NUS button's handler clears nothing. -/
theorem actions_eq_of_wedged {is : List Input} {s t : State} (h : s.fnView.Consistent)
    (hnot : ¬ NotWedged s) (hclear : appTask.Along (fun s i _ => NoClear s i) s is)
    (hrun : appTask.runFrom s is = some t) : ¬ NotWedged t ∧ t.task.actions = s.task.actions := by
  have hinv : t.fnView.Consistent ∧ ¬ NotWedged t ∧ t.task.actions = s.task.actions := by
    refine Machine.invariant_from
      (fun u => u.fnView.Consistent ∧ ¬ NotWedged u ∧ u.task.actions = s.task.actions) ?_
      ⟨h, hnot, rfl⟩ hclear hrun
    rintro u i v ⟨hu, hwedged, hactions⟩ hi hs
    refine ⟨consistent_step hu hs, ?_⟩
    rw [notWedged_iff] at hwedged ⊢
    cases hlabel : fnLabel u i with
    | none =>
      have heq : u.fnView = v.fnView := appTask_projects.view_eq_of_step hs hlabel
      have htask : v.task = u.task := congrArg FnState.task heq.symm
      rw [← heq, htask]
      exact ⟨hwedged, hactions⟩
    | some j =>
      have hne : j ≠ .clear := fun heq => fnLabel_ne_clear hi (heq ▸ hlabel)
      obtain ⟨hnext, hsame⟩ :=
        not_heard_step hu hwedged hne (appTask_projects.step_eq_some hs hlabel)
      exact ⟨hnext, hsame.trans hactions⟩
  exact hinv.2

end NcsExamples.MatterLight
