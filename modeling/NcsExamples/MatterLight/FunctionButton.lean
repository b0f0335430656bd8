import NcsExamples.MatterLight.AppTask

/-! # Matter light bulb: the function button on its own

What the application does for the function button, seen without the other buttons and events: the
members of `AppTask`, the function and timer events in the queue, and the button. Every run of the
application projects onto a run of this machine. The rest of the application shows in two places
only: it decides whether a post finds room in the queue, and the NUS button clears `mFunction`. -/

namespace NcsExamples.MatterLight

/-- The events that are about the function button. -/
inductive FnEvent
  | pushed
  | released
  | timer
  deriving DecidableEq, Repr

/-- What an event is for the function button, if it is one of its events. -/
def AppEvent.fnEvent? (event : AppEvent) : Option FnEvent :=
  match event.handler with
  | .function =>
      if event.pinNo = functionButton then
        some (if event.action = .buttonPushed then .pushed else .released)
      else none
  | .functionTimer => if event.type = .timer then some .timer else none
  | _ => none

/-- What the handler of an event does. -/
def FnEvent.serve : FnEvent → Task → Task
  | .pushed => Task.pushed
  | .released => Task.released
  | .timer => Task.timeout

/-- The function button and what the application knows of it. -/
structure FnState where
  task : Task
  /-- Its events in the queue, head first. -/
  events : List FnEvent
  /-- The button is down. -/
  down : Bool
  deriving DecidableEq

/-- What happens next to the function button. -/
inductive FnInput
  /-- The button changes; its event is `kept` in the queue or dropped. -/
  | change (kept : Bool)
  /-- The timer expires; its event is `kept` in the queue or dropped. -/
  | expiry (kept : Bool)
  /-- The next event is dispatched. -/
  | serve
  /-- The handler of the NUS button sets `mFunction` to `NoneSelected`. -/
  | clear
  deriving DecidableEq

/-- An event is added to the queue, or dropped. -/
def keep (kept : Bool) (events : List FnEvent) (e : FnEvent) : List FnEvent :=
  if kept then events ++ [e] else events

/-- One step of the function button. -/
def fnStep (f : FnState) : FnInput → Option FnState
  | .change kept =>
      some ⟨f.task.log (if f.down then .released else .pressed),
        keep kept f.events (if f.down then .released else .pushed), !f.down⟩
  | .expiry kept =>
      if f.task.sFunctionTimer then
        some { f with
          task := { f.task with sFunctionTimer := false, mFunctionTimerActive := false }.log
            .expired
          events := keep kept f.events .timer }
      else none
  | .serve => match f.events with
    | e :: events => some { f with task := e.serve f.task, events }
    | [] => none
  | .clear => some { f with task := { f.task with mFunction := .noneSelected } }

/-- A dispatch takes the first event from the queue and runs its handler. -/
theorem serve_of_eq_some {f g : FnState} (hs : fnStep f .serve = some g) :
    ∃ e events, f.events = e :: events ∧ g = { f with task := e.serve f.task, events } := by
  simp only [fnStep] at hs
  split at hs
  · next e events hevents => exact ⟨e, events, hevents, (Option.some.inj hs).symm⟩
  · cases hs

/-- The function button as a machine. -/
def fnButton : Machine FnState FnInput where
  init := ⟨⟨.noneSelected, false, false, []⟩, [], false⟩
  step := fnStep

/-! ## The projection -/

/-- The function button's part of a state. -/
def State.fnView (s : State) : FnState :=
  ⟨s.task, s.queue.filterMap AppEvent.fnEvent?, functionDown s.buttons⟩

/-- The events that `buttonEventHandler` posts before the one of the function button. -/
def beforeFunction (buttonState hasChanged : BitVec 32) : List AppEvent :=
  (if btnMsk lightingButton &&& buttonState &&& hasChanged ≠ 0 then
    [⟨.button, lightingButton, .buttonPushed, .lightingAction⟩] else []) ++
  (if btnMsk bleAdvertisementStartButton &&& buttonState &&& hasChanged ≠ 0 then
    [⟨.button, bleAdvertisementStartButton, .buttonPushed, .startBLEAdvertisement⟩] else [])

/-- The event of the function button finds room in the queue when the buttons change. -/
def State.keepsButton (s : State) (buttonState : BitVec 32) : Bool :=
  ((beforeFunction buttonState (s.buttons ^^^ buttonState)).foldl postEvent s.queue).length <
    kAppEventQueueSize

/-- The event of the timer finds room in the queue. -/
def State.keepsTimer (s : State) : Bool := s.queue.length < kAppEventQueueSize

/-- The event is one of the NUS button and its handler changes `mFunction`. -/
def State.clears (s : State) (event : AppEvent) : Prop :=
  event.handler = .startBLENUS ∧ event.pinNo = bleNusButton ∧ s.task.mFunction ≠ .noneSelected

instance (s : State) (event : AppEvent) : Decidable (s.clears event) :=
  inferInstanceAs (Decidable (_ ∧ _ ∧ _))

/-- What a step is for the function button. -/
def fnLabel (s : State) : Input → Option FnInput
  | .buttons buttonState =>
      if functionDown s.buttons = functionDown buttonState then none
      else some (.change (s.keepsButton buttonState))
  | .timerExpiry => some (.expiry s.keepsTimer)
  | .post _ => none
  | .dispatch => match s.queue with
    | event :: _ =>
        if event.fnEvent?.isSome then some .serve else if s.clears event then some .clear else none
    | [] => none

/-! ## Buttons -/

/-- A button's mask selects its bit. -/
theorem btnMsk_and_ne_zero {n : ℕ} (hn : n < 32) (x : BitVec 32) :
    btnMsk n &&& x ≠ 0 ↔ x.getLsbD n = true := by
  have hmask : btnMsk n = BitVec.twoPow 32 n := rfl
  have hne : BitVec.twoPow 32 n ≠ 0 := fun h => by
    have hbit := congrArg (BitVec.getLsbD · n) h
    simp [hn] at hbit
  rw [hmask, BitVec.twoPow_and]
  cases x.getLsbD n with
  | false => simp
  | true => simpa using hne

/-- The function button is down when its bit is set. -/
theorem functionDown_eq (x : BitVec 32) : functionDown x = x.getLsbD functionButton := by
  rw [Bool.eq_iff_iff, functionDown, decide_eq_true_iff]
  exact btnMsk_and_ne_zero (by decide) x

/-- The function button has changed when its mask meets `hasChanged`. -/
theorem functionMask_changed (old new : BitVec 32) :
    btnMsk functionButton &&& (old ^^^ new) ≠ 0 ↔ functionDown old ≠ functionDown new := by
  rw [btnMsk_and_ne_zero (by decide), BitVec.getLsbD_xor, functionDown_eq, functionDown_eq]
  cases old.getLsbD functionButton <;> cases new.getLsbD functionButton <;> simp

/-- A post adds the event, if it is about the function button and there is room. -/
theorem filterMap_postEvent (queue : List AppEvent) (event : AppEvent) :
    (postEvent queue event).filterMap AppEvent.fnEvent? =
      match event.fnEvent? with
      | some e => keep (queue.length < kAppEventQueueSize) (queue.filterMap AppEvent.fnEvent?) e
      | none => queue.filterMap AppEvent.fnEvent? := by
  unfold postEvent keep
  cases h : event.fnEvent? <;> by_cases hroom : queue.length < kAppEventQueueSize <;>
    simp [hroom, h]

/-- Posts of other events do not show. -/
theorem filterMap_foldl_postEvent {events : List AppEvent} (h : ∀ e ∈ events, e.fnEvent? = none) :
    ∀ queue : List AppEvent, (events.foldl postEvent queue).filterMap AppEvent.fnEvent? =
      queue.filterMap AppEvent.fnEvent? := by
  induction events with
  | nil => exact fun _ => rfl
  | cons e events ih =>
    intro queue
    rw [List.foldl_cons, ih fun e' he' => h e' (List.mem_cons_of_mem e he'), filterMap_postEvent,
      h e List.mem_cons_self]

/-- The events posted before that of the function button are not about it. -/
theorem fnEvent?_beforeFunction (buttonState hasChanged : BitVec 32) :
    ∀ e ∈ beforeFunction buttonState hasChanged, e.fnEvent? = none := by
  intro e he
  rcases List.mem_append.mp he with he | he <;> split at he <;>
    simp only [List.mem_singleton, List.not_mem_nil] at he <;> subst he <;> rfl

/-- A change of the buttons posts the event of the function button if that has changed. -/
theorem filterMap_buttonEventHandler (s : State) (buttonState : BitVec 32) :
    ((buttonEventHandler buttonState (s.buttons ^^^ buttonState)).foldl postEvent
        s.queue).filterMap AppEvent.fnEvent? =
      if functionDown s.buttons = functionDown buttonState then s.queue.filterMap AppEvent.fnEvent?
      else keep (s.keepsButton buttonState) (s.queue.filterMap AppEvent.fnEvent?)
        (if functionDown buttonState then .pushed else .released) := by
  have hbefore := filterMap_foldl_postEvent
    (fnEvent?_beforeFunction buttonState (s.buttons ^^^ buttonState)) s.queue
  have hnus : ∀ e ∈ (if BitVec.ofNat 32 bleNusButton &&& (s.buttons ^^^ buttonState) ≠ 0 then
      [(⟨.button, bleNusButton, buttonAction (btnMsk bleNusButton) buttonState, .startBLENUS⟩ :
        AppEvent)] else []), e.fnEvent? = none := by
    intro e he
    split at he
    · rw [List.mem_singleton.mp he]
      rfl
    · cases he
  have hsplit : buttonEventHandler buttonState (s.buttons ^^^ buttonState) =
      beforeFunction buttonState (s.buttons ^^^ buttonState) ++
        (if btnMsk functionButton &&& (s.buttons ^^^ buttonState) ≠ 0 then
          [⟨.button, functionButton, buttonAction (btnMsk functionButton) buttonState, .function⟩]
          else []) ++ _ := rfl
  -- only the third of the four posts shows
  rw [hsplit, List.foldl_append, filterMap_foldl_postEvent hnus, List.foldl_append]
  by_cases hsame : functionDown s.buttons = functionDown buttonState
  · rw [if_pos hsame, if_neg (mt (functionMask_changed _ _).mp (not_not.mpr hsame)), List.foldl_nil,
      hbefore]
  · rw [if_neg hsame, if_pos ((functionMask_changed _ _).mpr hsame), List.foldl_cons,
      List.foldl_nil, filterMap_postEvent, hbefore]
    simp only [AppEvent.fnEvent?, buttonAction, functionDown, State.keepsButton]
    split <;> simp_all

/-! ## Steps and runs -/

/-- A handler serves the event it is for, clears `mFunction` for the NUS button, or leaves the
function button alone. -/
theorem task_dispatchEvent (event : AppEvent) (s : State) :
    (dispatchEvent event s).task =
      match event.fnEvent? with
      | some e => e.serve s.task
      | none => if s.clears event then { s.task with mFunction := .noneSelected } else s.task := by
  obtain ⟨type, pinNo, action, handler⟩ := event
  cases handler with
  | function =>
    simp only [dispatchEvent, Task.functionHandler, AppEvent.fnEvent?, State.clears]
    by_cases hpin : pinNo = functionButton <;> by_cases haction : action = .buttonPushed <;>
      simp [hpin, haction, FnEvent.serve]
  | functionTimer =>
    simp only [dispatchEvent, Task.functionTimerEventHandler, AppEvent.fnEvent?, State.clears]
    by_cases htype : type = .timer <;> simp [htype, FnEvent.serve]
  | startBLENUS =>
    simp only [dispatchEvent, Task.startBLENUSHandler, AppEvent.fnEvent?, State.clears]
    by_cases hpin : pinNo = bleNusButton
    · -- the handler's write is no change if `mFunction` is `NoneSelected` already
      by_cases hfunction : s.task.mFunction = .noneSelected
      · simp [hpin, ← hfunction]
      · simp [hpin, hfunction]
    · simp [hpin]
  | _ => simp [dispatchEvent, AppEvent.fnEvent?, State.clears]

/-- A handler takes nothing out of the queue and does not touch the buttons. -/
theorem dispatchEvent_frame (event : AppEvent) (s : State) :
    (dispatchEvent event s).queue = s.queue ∧ (dispatchEvent event s).buttons = s.buttons := by
  unfold dispatchEvent
  split <;> exact ⟨rfl, rfl⟩

/-- **The application does for the function button what the function button's machine does.** -/
theorem appTask_projects : appTask.Projects fnButton State.fnView fnLabel where
  init := by decide
  step := by
    intro s i t hstep
    cases i with
    | buttons buttonState =>
      obtain rfl := Option.some.inj hstep
      simp only [State.fnView, fnLabel, filterMap_buttonEventHandler, observeButtons]
      by_cases hsame : functionDown s.buttons = functionDown buttonState
      · -- other buttons have changed: no step of the function button
        simp [hsame]
      · have hnew : functionDown buttonState = !functionDown s.buttons := by
          cases h : functionDown s.buttons <;> cases h' : functionDown buttonState <;> simp_all
        rw [hnew]
        cases functionDown s.buttons <;> rfl
    | timerExpiry =>
      obtain ⟨hrunning, rfl⟩ := Machine.guarded_eq_some.mp hstep
      simp only [State.fnView, fnLabel, functionTimerTimeoutCallback, filterMap_postEvent,
        Option.toList, Machine.runFrom, fnButton, fnStep, hrunning, if_true, Option.bind_some]
      rfl
    | post handler =>
      obtain ⟨event, hevent, rfl⟩ := Option.map_eq_some_iff.mp hstep
      have hother : event.fnEvent? = none := by
        cases handler <;> cases hevent <;> rfl
      simp [State.fnView, fnLabel, filterMap_postEvent, hother]
    | dispatch =>
      simp only [appTask, step] at hstep
      split at hstep
      · next event queue hqueue =>
        obtain rfl := Option.some.inj hstep
        have htask := task_dispatchEvent event { s with queue }
        obtain ⟨hq, hb⟩ := dispatchEvent_frame event { s with queue }
        simp only [State.fnView, hq, hb, htask, fnLabel, hqueue, List.filterMap_cons]
        cases hevent : event.fnEvent? with
        | some e => simp [Machine.runFrom, fnButton, fnStep]
        | none =>
          by_cases hclears : s.clears event
          · have hclears' : ({ s with queue } : State).clears event := hclears
            simp [Machine.runFrom, fnButton, fnStep, hclears, hclears']
          · have hclears' : ¬ ({ s with queue } : State).clears event := hclears
            simp [hclears, hclears']
      · cases hstep

end NcsExamples.MatterLight
