import NcsExamples.Lib.Machine
import Mathlib.Data.BitVec

/-! # Matter light bulb: `AppTask` with four buttons

The event loop of the Matter light bulb sample. Button changes, the function timer and other sources
post events to a queue of ten, from which `StartApp` dispatches them one by one to their handlers. A
post to a full queue is dropped. The timer callback does not go through the queue alone: it clears
`mFunctionTimerActive` when it runs, before its event is dispatched. -/

namespace NcsExamples.MatterLight

/-! ## Events -/

/-- `AppEventType`. -/
inductive AppEventType
  | none
  | button
  | buttonPushed
  | buttonReleased
  | timer
  | updateLedState
  | lighting
  | identifyStart
  | identifyStop
  | startSMPAdvertising
  | startNUSAdvertising
  deriving DecidableEq, Repr

/-- `FunctionEvent`. `SoftwareUpdate` has the value of `NoneSelected`. -/
inductive FunctionEvent
  | noneSelected
  | factoryReset
  | advertisingStart
  deriving DecidableEq, Repr

/-- `FunctionEvent::SoftwareUpdate`. -/
abbrev FunctionEvent.softwareUpdate : FunctionEvent := .noneSelected

/-- The functions that events carry as their handler. -/
inductive Handler
  | lightingAction
  | startBLEAdvertisement
  | function
  | startBLENUS
  | functionTimer
  | updateLedState
  | identifyStart
  | identifyStop
  | startSMPAdvertising
  | startNUSAdvertising
  deriving DecidableEq, Repr

/-- An `AppEvent`, with the part of its union that handlers read. -/
structure AppEvent where
  type : AppEventType
  /-- `ButtonEvent.PinNo`. -/
  pinNo : ℕ
  /-- `ButtonEvent.Action`. -/
  action : AppEventType
  handler : Handler
  deriving DecidableEq

/-! ## Buttons -/

/-- The mask of the button with index `n`: `DK_BTN1_MSK` is that of `DK_BTN1`, which is 0. -/
def btnMsk (n : ℕ) : BitVec 32 := 1#32 <<< n

/-- `FUNCTION_BUTTON`, which is `DK_BTN1`. -/
def functionButton : ℕ := 0

/-- `LIGHTING_BUTTON`, which is `DK_BTN2`. -/
def lightingButton : ℕ := 1

/-- `BLE_NUS_BUTTON`, which is `DK_BTN3`. -/
def bleNusButton : ℕ := 2

/-- `BLE_ADVERTISEMENT_START_BUTTON`, which is `DK_BTN4`. -/
def bleAdvertisementStartButton : ℕ := 3

/-- The action of a button event: pushed if the button's bit is set in the state. -/
def buttonAction (mask buttonState : BitVec 32) : AppEventType :=
  if mask &&& buttonState ≠ 0 then .buttonPushed else .buttonReleased

/-- `ButtonEventHandler`: the events it posts, in order. The test for the NUS button uses the index
of the button where the others use their mask. -/
def buttonEventHandler (buttonState hasChanged : BitVec 32) : List AppEvent :=
  (if btnMsk lightingButton &&& buttonState &&& hasChanged ≠ 0 then
    [⟨.button, lightingButton, .buttonPushed, .lightingAction⟩] else []) ++
  (if btnMsk bleAdvertisementStartButton &&& buttonState &&& hasChanged ≠ 0 then
    [⟨.button, bleAdvertisementStartButton, .buttonPushed, .startBLEAdvertisement⟩] else []) ++
  (if btnMsk functionButton &&& hasChanged ≠ 0 then
    [⟨.button, functionButton, buttonAction (btnMsk functionButton) buttonState, .function⟩]
    else []) ++
  -- an index, and not a mask: this is the bit of the lighting button
  (if BitVec.ofNat 32 bleNusButton &&& hasChanged ≠ 0 then
    [⟨.button, bleNusButton, buttonAction (btnMsk bleNusButton) buttonState, .startBLENUS⟩] else [])

/-! ## The function button's part of the task -/

/-- What can be observed of the function button: its changes, its timer and its actions. -/
inductive Obs
  /-- `FUNCTION_BUTTON` goes down. -/
  | pressed
  /-- `FUNCTION_BUTTON` goes up. -/
  | released
  /-- `StartTimer(kFactoryResetTriggerTimeout)`. -/
  | triggerStarted
  /-- `StartTimer(kFactoryResetCancelWindowTimeout)`, with the LEDs set to blink. -/
  | windowStarted
  /-- The function timer expires. -/
  | expired
  /-- The button was released early: `GetDFUOverSMP().StartServer()`. -/
  | softwareUpdate
  /-- The factory reset is canceled and `UpdateStatusLED` restores the status LED. -/
  | canceled
  /-- `ScheduleFactoryReset()`. -/
  | factoryReset
  deriving DecidableEq, Repr

/-- The members of `AppTask` and the function timer. -/
structure Task where
  mFunction : FunctionEvent
  mFunctionTimerActive : Bool
  /-- `sFunctionTimer` is running. -/
  sFunctionTimer : Bool
  /-- History: the observations, in order. -/
  trace : List Obs
  deriving DecidableEq

namespace Task

/-- An observation is added to the history. -/
def log (a : Task) (o : Obs) : Task := { a with trace := a.trace ++ [o] }

/-- `CancelTimer`. -/
def cancelTimer (a : Task) : Task :=
  { a with sFunctionTimer := false, mFunctionTimerActive := false }

/-- `StartTimer`. -/
def startTimer (a : Task) : Task := { a with sFunctionTimer := true, mFunctionTimerActive := true }

/-- `FunctionHandler` for a press. -/
def pushed (a : Task) : Task :=
  if a.mFunctionTimerActive = false ∧ a.mFunction = .noneSelected then
    { a.startTimer with mFunction := .softwareUpdate }.log .triggerStarted
  else a

/-- `FunctionHandler` for a release. -/
def released (a : Task) : Task :=
  if a.mFunctionTimerActive = true ∧ a.mFunction = .softwareUpdate then
    { a.cancelTimer with mFunction := .noneSelected }.log .softwareUpdate
  else if a.mFunctionTimerActive = true ∧ a.mFunction = .factoryReset then
    { a.cancelTimer with mFunction := .noneSelected }.log .canceled
  else a

/-- `FunctionHandler`. -/
def functionHandler (event : AppEvent) (a : Task) : Task :=
  if event.pinNo ≠ functionButton then a
  else if event.action = .buttonPushed then a.pushed
  else a.released

/-- What `FunctionTimerEventHandler` does for a timer event. -/
def timeout (a : Task) : Task :=
  match a.mFunction with
  -- the test is for `SoftwareUpdate`, but the value is that of `NoneSelected`
  | .noneSelected => { a.startTimer with mFunction := .factoryReset }.log .windowStarted
  | .factoryReset => { a with mFunction := .noneSelected }.log .factoryReset
  -- only the build with two buttons starts advertising here
  | .advertisingStart => a

/-- `FunctionTimerEventHandler`. -/
def functionTimerEventHandler (event : AppEvent) (a : Task) : Task :=
  if event.type ≠ .timer then a else a.timeout

/-- `StartBLENUSHandler`. -/
def startBLENUSHandler (event : AppEvent) (a : Task) : Task :=
  if event.pinNo ≠ bleNusButton then a else { a with mFunction := .noneSelected }

end Task

/-! ## The event loop -/

/-- The state of the application. -/
structure State where
  /-- `sAppEventQueue`, head first. -/
  queue : List AppEvent
  /-- The state of the buttons. -/
  buttons : BitVec 32
  task : Task
  /-- History: the handlers called that are not about the function button. -/
  served : List Handler

/-- `kAppEventQueueSize`. -/
def kAppEventQueueSize : ℕ := 10

/-- `PostEvent`: the event is dropped if the queue is full. -/
def postEvent (queue : List AppEvent) (event : AppEvent) : List AppEvent :=
  if queue.length < kAppEventQueueSize then queue ++ [event] else queue

/-- The event that `FunctionTimerTimeoutCallback` posts. -/
def timerEvent : AppEvent := ⟨.timer, 0, .none, .functionTimer⟩

/-- `FunctionTimerTimeoutCallback`. -/
def functionTimerTimeoutCallback (s : State) : State :=
  { s with
    queue := postEvent s.queue timerEvent
    task := { s.task with sFunctionTimer := false, mFunctionTimerActive := false }.log .expired }

/-- `DispatchEvent`. -/
def dispatchEvent (event : AppEvent) (s : State) : State :=
  match event.handler with
  -- the handlers that read or write the members of the task
  | .function => { s with task := s.task.functionHandler event }
  | .functionTimer => { s with task := s.task.functionTimerEventHandler event }
  | .startBLENUS =>
      { s with task := s.task.startBLENUSHandler event, served := s.served ++ [.startBLENUS] }
  -- the others act on LEDs, advertising and the light only
  | handler => { s with served := s.served ++ [handler] }

/-- Events that other parts of the application post. -/
def otherEvent : Handler → Option AppEvent
  | .updateLedState => some ⟨.updateLedState, 0, .none, .updateLedState⟩
  | .identifyStart => some ⟨.identifyStart, 0, .none, .identifyStart⟩
  | .identifyStop => some ⟨.identifyStop, 0, .none, .identifyStop⟩
  | .startSMPAdvertising => some ⟨.startSMPAdvertising, 0, .none, .startSMPAdvertising⟩
  | .startNUSAdvertising => some ⟨.startNUSAdvertising, 0, .none, .startNUSAdvertising⟩
  | _ => none

/-- What happens next. -/
inductive Input
  /-- The buttons change to `buttonState`. -/
  | buttons (buttonState : BitVec 32)
  /-- The function timer expires. -/
  | timerExpiry
  /-- Another part of the application posts the event for a handler. -/
  | post (handler : Handler)
  /-- `StartApp` takes the next event from the queue and dispatches it. -/
  | dispatch
  deriving DecidableEq

/-- The function button is down. -/
def functionDown (buttons : BitVec 32) : Bool := btnMsk functionButton &&& buttons ≠ 0

/-- The observation of a change of the buttons. -/
def observeButtons (old new : BitVec 32) (a : Task) : Task :=
  if functionDown old = functionDown new then a
  else a.log (if functionDown new then .pressed else .released)

/-- One step of the application. -/
def step (s : State) : Input → Option State
  | .buttons buttonState =>
      some { s with
        queue := (buttonEventHandler buttonState (s.buttons ^^^ buttonState)).foldl postEvent
          s.queue
        buttons := buttonState
        task := observeButtons s.buttons buttonState s.task }
  | .timerExpiry => if s.task.sFunctionTimer then some (functionTimerTimeoutCallback s) else none
  | .post handler =>
      (otherEvent handler).map fun event => { s with queue := postEvent s.queue event }
  | .dispatch => match s.queue with
    | event :: queue => some (dispatchEvent event { s with queue })
    | [] => none

/-- The application after `Init`. -/
def appTask : Machine State Input where
  init := ⟨[], 0, ⟨.noneSelected, false, false, []⟩, []⟩
  step := step

/-! ## The queue -/

/-- A dispatch takes the first event from the queue. -/
theorem step_dispatch {s : State} {event : AppEvent} {queue : List AppEvent}
    (h : s.queue = event :: queue) :
    step s .dispatch = some (dispatchEvent event { s with queue }) := by
  simp only [step, h]

/-- A post keeps what is queued. -/
theorem subset_postEvent (queue : List AppEvent) (event : AppEvent) :
    queue ⊆ postEvent queue event := by
  unfold postEvent
  split
  · exact List.subset_append_left queue [event]
  · exact List.Subset.refl queue

/-- A post adds at most its own event. -/
theorem mem_postEvent {queue : List AppEvent} {e event : AppEvent} (h : e ∈ postEvent queue event) :
    e ∈ queue ∨ e = event := by
  unfold postEvent at h
  split at h
  · simpa using h
  · exact Or.inl h

theorem subset_foldl_postEvent (events queue : List AppEvent) :
    queue ⊆ events.foldl postEvent queue := by
  induction events generalizing queue with
  | nil => exact List.Subset.refl queue
  | cons e events ih => exact List.Subset.trans (subset_postEvent queue e) (ih (postEvent queue e))

theorem mem_foldl_postEvent {events queue : List AppEvent} {e : AppEvent}
    (h : e ∈ events.foldl postEvent queue) : e ∈ queue ∨ e ∈ events := by
  induction events generalizing queue with
  | nil => exact Or.inl h
  | cons event events ih =>
    rw [List.foldl_cons] at h
    rcases ih h with he | he
    · rcases mem_postEvent he with he | rfl
      · exact Or.inl he
      · exact Or.inr List.mem_cons_self
    · exact Or.inr (List.mem_cons_of_mem event he)

/-- Only a dispatch takes an event out of the queue. -/
theorem subset_queue_of_step {s t : State} {i : Input} (h : step s i = some t)
    (hdispatch : i ≠ .dispatch) : s.queue ⊆ t.queue := by
  cases i with
  | buttons buttonState =>
    obtain rfl := Option.some.inj h
    exact subset_foldl_postEvent _ s.queue
  | timerExpiry =>
    obtain ⟨-, rfl⟩ := Machine.guarded_eq_some.mp h
    exact subset_postEvent s.queue timerEvent
  | post handler =>
    obtain ⟨event, -, rfl⟩ := Option.map_eq_some_iff.mp h
    exact subset_postEvent s.queue event
  | dispatch => exact absurd rfl hdispatch

/-- A new event in the queue is one of the buttons', the timer's, or the one that was posted. -/
theorem mem_queue_of_step {s t : State} {i : Input} (h : step s i = some t)
    (hdispatch : i ≠ .dispatch) {e : AppEvent} (he : e ∈ t.queue) :
    e ∈ s.queue ∨ (∃ buttonState hasChanged, e ∈ buttonEventHandler buttonState hasChanged) ∨
      e = timerEvent ∨ ∃ handler, i = .post handler ∧ otherEvent handler = some e := by
  cases i with
  | buttons buttonState =>
    obtain rfl := Option.some.inj h
    exact (mem_foldl_postEvent he).imp_right fun he => Or.inl ⟨_, _, he⟩
  | timerExpiry =>
    obtain ⟨-, rfl⟩ := Machine.guarded_eq_some.mp h
    exact (mem_postEvent he).imp_right fun heq => Or.inr (Or.inl heq)
  | post handler =>
    obtain ⟨event, hevent, rfl⟩ := Option.map_eq_some_iff.mp h
    refine (mem_postEvent he).imp_right fun heq => Or.inr (Or.inr ⟨handler, rfl, ?_⟩)
    rw [heq, hevent]
  | dispatch => exact absurd rfl hdispatch

/-- The events of the buttons. -/
theorem mem_buttonEventHandler {buttonState hasChanged : BitVec 32} {e : AppEvent}
    (h : e ∈ buttonEventHandler buttonState hasChanged) : e.type = .button ∧
      (e.handler = .lightingAction ∨ e.handler = .startBLEAdvertisement ∨ e.handler = .function ∨
        e.handler = .startBLENUS) := by
  simp only [buttonEventHandler, List.mem_append, List.mem_ite_nil_right, List.mem_singleton] at h
  rcases h with ((⟨-, rfl⟩ | ⟨-, rfl⟩) | ⟨-, rfl⟩) | ⟨-, rfl⟩ <;> simp

/-- An event that other parts of the application post is for the handler it is posted for. -/
theorem handler_of_otherEvent {handler : Handler} {e : AppEvent}
    (h : otherEvent handler = some e) : e.handler = handler ∧ handler ≠ .lightingAction := by
  cases handler with
  | updateLedState | identifyStart | identifyStop | startSMPAdvertising | startNUSAdvertising =>
    obtain rfl := Option.some.inj h
    decide
  | _ => cases h

end NcsExamples.MatterLight
