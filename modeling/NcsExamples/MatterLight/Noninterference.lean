import NcsExamples.MatterLight.FunctionButton

/-! # Matter light bulb: the other buttons and the function button

The other buttons share the queue with the function button, and the handler of the NUS button writes
`mFunction`. As long as that handler finds nothing to clear, and no event is dropped, what the
function button does depends on its own changes, its timer and the dispatches of its events alone.
-/

namespace NcsExamples.MatterLight

/-- The function actions: what is done because of the function button. -/
def Obs.isAction : Obs → Bool
  | .softwareUpdate | .windowStarted | .canceled | .factoryReset => true
  | .pressed | .released | .triggerStarted | .expired => false

/-- The function actions performed, in order. -/
def Task.actions (a : Task) : List Obs := a.trace.filter Obs.isAction

/-- A place in a run that is about the function button. -/
inductive Place
  /-- `FUNCTION_BUTTON` changes. -/
  | change
  /-- The function timer expires. -/
  | expiry
  /-- An event of the function button or its timer is dispatched. -/
  | serve
  deriving DecidableEq

/-- The place of an input, unless it is another button's doing. -/
def FnInput.place? : FnInput → Option Place
  | .change _ => some .change
  | .expiry _ => some .expiry
  | .serve => some .serve
  | .clear => none

/-- The places of a run that are about the function button, in order. -/
def places (is : List Input) : List Place :=
  (appTask.labels fnLabel appTask.init is).filterMap FnInput.place?

/-- No event is dropped. -/
def NoDrop (s : State) : Input → Prop
  | .buttons buttonState =>
      s.queue.length + (buttonEventHandler buttonState (s.buttons ^^^ buttonState)).length ≤
        kAppEventQueueSize
  | .timerExpiry | .post _ => s.queue.length < kAppEventQueueSize
  | .dispatch => True

/-- No event of the NUS button's handler is dispatched while `mFunction` is something else than
`NoneSelected`. -/
def NoClear (s : State) : Input → Prop
  | .dispatch => ∀ event ∈ s.queue.head?, ¬ s.clears event
  | _ => True

instance (s : State) : DecidablePred (NoDrop s)
  | .buttons _ => inferInstanceAs (Decidable (_ + _ ≤ kAppEventQueueSize))
  | .timerExpiry | .post _ => inferInstanceAs (Decidable (s.queue.length < kAppEventQueueSize))
  | .dispatch => isTrue trivial

instance (s : State) : DecidablePred (NoClear s)
  | .dispatch => inferInstanceAs (Decidable (∀ event ∈ s.queue.head?, ¬ s.clears event))
  | .buttons _ | .timerExpiry | .post _ => isTrue trivial

/-! ## What is left to the function button -/

/-- The input at a place when nothing is dropped. -/
def Place.input : Place → FnInput
  | .change => .change true
  | .expiry => .expiry true
  | .serve => .serve

/-- The inputs that places stand for. -/
def FnInput.Undisturbed (j : FnInput) : Prop := ∃ p : Place, j = p.input

/-- Undisturbed inputs are told by their places. -/
theorem map_place {js : List FnInput} (h : ∀ j ∈ js, j.Undisturbed) :
    (js.filterMap FnInput.place?).map Place.input = js := by
  induction js with
  | nil => rfl
  | cons j js ih =>
    obtain ⟨⟨p, rfl⟩, hjs⟩ := List.forall_mem_cons.mp h
    have hplace : p.input.place? = some p := by cases p <;> rfl
    rw [List.filterMap_cons_some hplace, List.map_cons, ih hjs]

/-- Posts make the queue longer by at most their number. -/
theorem length_foldl_postEvent (events queue : List AppEvent) :
    (events.foldl postEvent queue).length ≤ queue.length + events.length := by
  induction events generalizing queue with
  | nil => exact le_rfl
  | cons e events ih =>
    have hpost : (postEvent queue e).length ≤ queue.length + 1 := by
      unfold postEvent
      split <;> simp
    have hrest := ih (postEvent queue e)
    rw [List.foldl_cons, List.length_cons]
    omega

/-- If the function button has changed and no event is dropped, its event is kept. -/
theorem keepsButton_of_noDrop {s : State} {buttonState : BitVec 32}
    (h : NoDrop s (.buttons buttonState))
    (hne : functionDown s.buttons ≠ functionDown buttonState) :
    s.keepsButton buttonState = true := by
  have hbefore :=
    length_foldl_postEvent (beforeFunction buttonState (s.buttons ^^^ buttonState)) s.queue
  have hlonger : (beforeFunction buttonState (s.buttons ^^^ buttonState)).length + 1 ≤
      (buttonEventHandler buttonState (s.buttons ^^^ buttonState)).length := by
    have hchanged := (functionMask_changed s.buttons buttonState).mpr hne
    simp only [buttonEventHandler, beforeFunction, if_pos hchanged, List.length_append,
      List.length_singleton]
    omega
  have hroom :
      s.queue.length + (buttonEventHandler buttonState (s.buttons ^^^ buttonState)).length ≤
      kAppEventQueueSize := h
  rw [State.keepsButton, decide_eq_true_iff]
  omega

/-- Without drops and without the NUS button's handler, the function button is undisturbed. -/
theorem undisturbed_of_label {s : State} {i : Input} (hdrop : NoDrop s i) (hclear : NoClear s i)
    {j : FnInput} (hj : fnLabel s i = some j) : j.Undisturbed := by
  cases i with
  | buttons buttonState =>
    simp only [fnLabel] at hj
    split at hj
    · cases hj
    · next hne =>
      rw [← Option.some.inj hj, keepsButton_of_noDrop hdrop hne]
      exact ⟨.change, rfl⟩
  | timerExpiry =>
    have hkeeps : s.keepsTimer = true := decide_eq_true hdrop
    rw [← Option.some.inj hj, hkeeps]
    exact ⟨.expiry, rfl⟩
  | post handler => cases hj
  | dispatch =>
    simp only [fnLabel] at hj
    split at hj
    · next event queue hqueue =>
      split at hj
      · exact ⟨.serve, (Option.some.inj hj).symm⟩
      · -- an event of another button, whose handler changes nothing here
        have hno : ¬ s.clears event := hclear event (by rw [hqueue]; rfl)
        rw [if_neg hno] at hj
        cases hj
    · cases hj

/-- What the function button sees of a run is told by the places. -/
theorem labels_eq {is : List Input} {s : State} (hrun : appTask.run is = some s)
    (hdrop : appTask.Meets NoDrop is) (hclear : appTask.Meets NoClear is) :
    appTask.labels fnLabel appTask.init is = (places is).map Place.input := by
  have hboth := Machine.along_and hdrop hclear
  have halong := appTask_projects.along (q := fun _ j _ => j.Undisturbed)
    (fun s i t _ hok => ?_) hboth
  · exact (map_place (Machine.forall_mem_of_along halong (appTask_projects.runFrom hrun))).symm
  · cases hlabel : fnLabel s i with
    | none => trivial
    | some j => exact fun g _ => ⟨undisturbed_of_label hok.1 hok.2 hlabel, trivial⟩

/-! ## Runs -/

/-- **Noninterference.** Two runs with the same places of the function button, in which no event is
dropped and the handler of the NUS button finds nothing to clear, perform the same function actions.
-/
theorem functionActions_eq (is js : List Input) (s t : State) (his : appTask.run is = some s)
    (hjs : appTask.run js = some t) (hplaces : places is = places js)
    (hdropIs : appTask.Meets NoDrop is) (hdropJs : appTask.Meets NoDrop js)
    (hclearIs : appTask.Meets NoClear is) (hclearJs : appTask.Meets NoClear js) :
    s.task.actions = t.task.actions := by
  -- the two runs project onto the same run of the function button
  have hlabels :
      appTask.labels fnLabel appTask.init is = appTask.labels fnLabel appTask.init js := by
    rw [labels_eq his hdropIs hclearIs, labels_eq hjs hdropJs hclearJs, hplaces]
  have hview : s.fnView = t.fnView := by
    have hs := appTask_projects.runFrom his
    rw [hlabels] at hs
    exact Option.some.inj (hs.symm.trans (appTask_projects.runFrom hjs))
  exact congrArg (Task.actions ∘ FnState.task) hview

/-- Two full holds; in the second the lighting button is pressed before the window opens. -/
theorem functionActions_eq_lighting :
    ((appTask.run [.buttons 1, .dispatch, .timerExpiry, .dispatch, .timerExpiry, .dispatch]).get
        (by decide)).task.actions =
      ((appTask.run [.buttons 1, .dispatch, .buttons 3, .dispatch, .dispatch, .timerExpiry,
        .dispatch, .timerExpiry, .dispatch]).get (by decide)).task.actions :=
  functionActions_eq _ _ _ _ (Option.some_get _).symm (Option.some_get _).symm (by decide)
    (by decide) (by decide) (by decide) (by decide)

/-- The lighting button is pressed while the cancel window is open. Its change posts an event of the
NUS button's handler, which clears `mFunction`: the window opens again, and there is no reset. -/
theorem functionActions_ne : ¬ ∀ (is js : List Input) (s t : State), appTask.run is = some s →
    appTask.run js = some t → places is = places js → appTask.Meets NoDrop is →
    appTask.Meets NoDrop js → s.task.actions = t.task.actions := fun h => by
  have hactions := h [.buttons 1, .dispatch, .timerExpiry, .dispatch, .timerExpiry, .dispatch]
    [.buttons 1, .dispatch, .timerExpiry, .dispatch, .buttons 3, .dispatch, .dispatch, .timerExpiry,
      .dispatch] _ _ rfl rfl (by decide) (by decide) (by decide)
  exact absurd hactions (by decide)

end NcsExamples.MatterLight
