import NcsExamples.MatterLight.FunctionButton

/-! # Matter light bulb: the LEDs

`sStatusLED` has two masters. The event handler of the stack sets it to what is known of the
network, from the thread of the stack; the handlers of the function button let it blink from the
event loop, from the opening of the window for canceling a factory reset on until the reset is
canceled or scheduled. Neither asks for the other. `sIdentifyLED` follows the callbacks of the
Identify cluster, which reach it through the queue of the application. -/

namespace NcsExamples.MatterLight

/-- What an LED was told last. -/
inductive LedCommand
  /-- `LEDWidget::Set`. -/
  | set (state : Bool)
  /-- `LEDWidget::Blink`, with the times for which the LED is on and off. -/
  | blink (onMs offMs : ℕ)
  deriving DecidableEq, Repr

/-- `LEDWidget::Blink` with one rate. -/
def LedCommand.blinkRate (changeRateMs : ℕ) : LedCommand := .blink changeRateMs changeRateMs

/-- `kBlinkRate_ms`. -/
def kBlinkRateMs : ℕ := 500

/-- `kIdentifyBlinkRate_ms`. -/
def kIdentifyBlinkRateMs : ℕ := 500

/-- The LED blinks at the rate of the Identify cluster. -/
def LedCommand.identifies (led : LedCommand) : Bool := led = .blinkRate kIdentifyBlinkRateMs

/-- What a callback of the Identify cluster asks for. -/
def Handler.identify? : Handler → Option Bool
  | .identifyStart => some true
  | .identifyStop => some false
  | .lightingAction | .startBLEAdvertisement | .function | .startBLENUS | .functionTimer
  | .updateLedState | .startSMPAdvertising | .startNUSAdvertising => none

/-- What an event of the Identify cluster asks for. -/
def AppEvent.identify? (event : AppEvent) : Option Bool := event.handler.identify?

/-- The application with its LEDs and what it knows of the network. -/
structure LedState where
  app : State
  sIsNetworkProvisioned : Bool
  sIsNetworkEnabled : Bool
  sHaveBLEConnections : Bool
  sStatusLED : LedCommand
  sIdentifyLED : LedCommand
  /-- History: the last callback of the Identify cluster was `IdentifyStartHandler`. -/
  identifying : Bool

namespace LedState

/-- What the network looks like on the status LED. -/
def statusPattern (s : LedState) : LedCommand :=
  if s.sIsNetworkProvisioned = true ∧ s.sIsNetworkEnabled = true then .set true
  else if s.sHaveBLEConnections then .blink 100 100
  else .blink 50 950

/-- `UpdateStatusLED`. -/
def updateStatusLED (s : LedState) : LedState := { s with sStatusLED := s.statusPattern }

/-- What `FunctionHandler` does to the LEDs. -/
def functionHandler (event : AppEvent) (s : LedState) : LedState :=
  if event.pinNo ≠ functionButton then s
  else if event.action = .buttonPushed then s
  else if s.app.task.mFunctionTimerActive = true ∧ s.app.task.mFunction = .softwareUpdate then s
  else if s.app.task.mFunctionTimerActive = true ∧ s.app.task.mFunction = .factoryReset then
    s.updateStatusLED
  else s

/-- What `FunctionTimerEventHandler` does to the LEDs. -/
def functionTimerEventHandler (event : AppEvent) (s : LedState) : LedState :=
  if event.type ≠ .timer then s
  else if s.app.task.mFunction = .softwareUpdate then
    -- set to `false` just before, which the blinking replaces
    { s with sStatusLED := .blinkRate kBlinkRateMs }
  else s

/-- What the handler of an event does to the LEDs. -/
def serve (event : AppEvent) (s : LedState) : LedState :=
  match event.handler with
  | .function => s.functionHandler event
  | .functionTimer => s.functionTimerEventHandler event
  | .identifyStart => { s with sIdentifyLED := .blinkRate kIdentifyBlinkRateMs }
  | .identifyStop => { s with sIdentifyLED := .set false }
  | .lightingAction | .startBLEAdvertisement | .startBLENUS | .updateLedState
  | .startSMPAdvertising | .startNUSAdvertising => s

/-- What an input of the application means for the LEDs. -/
def follow (s : LedState) : Input → LedState
  | .dispatch => match s.app.queue with
    | event :: _ => s.serve event
    | [] => s
  | .post handler => { s with identifying := handler.identify?.getD s.identifying }
  | .buttons _ | .timerExpiry => s

end LedState

/-- What happens next. -/
inductive LedInput
  /-- A step of the application. -/
  | app (i : Input)
  /-- `kCHIPoBLEAdvertisingChange`, with what `NumBLEConnections` returns. -/
  | chipoBLEAdvertisingChange (numBLEConnections : ℕ)
  /-- `kThreadStateChange`, with what `IsThreadProvisioned` and `IsThreadEnabled` return. -/
  | threadStateChange (provisioned enabled : Bool)
  deriving DecidableEq

/-- One step of the application with its LEDs. The last two are `ChipEventHandler`. -/
def ledStep (s : LedState) : LedInput → Option LedState
  | .app i => (step s.app i).map fun app => { s.follow i with app }
  | .chipoBLEAdvertisingChange numBLEConnections =>
      some { s with sHaveBLEConnections := numBLEConnections ≠ 0 }.updateStatusLED
  | .threadStateChange provisioned enabled =>
      some { s with sIsNetworkProvisioned := provisioned,
                    sIsNetworkEnabled := enabled }.updateStatusLED

/-- The application with its LEDs, after `Init`. -/
def leds : Machine LedState LedInput where
  init := LedState.updateStatusLED
    ⟨appTask.init, false, false, false, .set false, .set false, false⟩
  step := ledStep

namespace LedState

/-- The window for canceling a factory reset was opened, and since then the reset has been neither
canceled nor scheduled. When the timer has expired, a release does not cancel it any more. -/
def InWindow (s : LedState) : Prop :=
  s.app.task.mFunction = .factoryReset ∧ .factoryReset ∉ s.app.task.trace

/-- Until a factory reset is scheduled, the status LED blinks at the rate of the reset as long as
`mFunction` is `FactoryReset`, also while a release would not cancel the reset any more, and shows
the network otherwise. -/
def SignalsReset (s : LedState) : Prop :=
  .factoryReset ∉ s.app.task.trace →
    s.sStatusLED = if s.app.task.mFunction = .factoryReset then .blinkRate kBlinkRateMs
      else s.statusPattern

/-- The stack and the NUS button leave the reset alone once its window is opened. -/
def Undisturbed (s : LedState) : LedInput → Prop
  | .app .dispatch => ∀ event ∈ s.app.queue.head?, event.handler = .startBLENUS →
      event.pinNo = bleNusButton → ¬ s.InWindow
  | .chipoBLEAdvertisingChange _ | .threadStateChange _ _ => ¬ s.InWindow
  | .app (.buttons _) | .app .timerExpiry | .app (.post _) => True

/-- Whether the identify LED blinks when the queue has been served. -/
def willIdentify (s : LedState) : Bool :=
  (s.app.queue.filterMap AppEvent.identify?).getLastD s.sIdentifyLED.identifies

/-- No callback of the Identify cluster that changes something finds the queue full. -/
def KeepsIdentify (s : LedState) : LedInput → Prop
  | .app (.post handler) =>
      ∀ b ∈ handler.identify?, s.app.queue.length < kAppEventQueueSize ∨ s.identifying = b
  | .app (.buttons _) | .app .timerExpiry | .app .dispatch
  | .chipoBLEAdvertisingChange _ | .threadStateChange _ _ => True

instance (s : LedState) : DecidablePred s.KeepsIdentify
  | .app (.post _) => inferInstanceAs (Decidable (∀ b ∈ _, _))
  | .app (.buttons _) | .app .timerExpiry | .app .dispatch
  | .chipoBLEAdvertisingChange _ | .threadStateChange _ _ => isTrue trivial

instance : DecidablePred InWindow := fun _ => inferInstanceAs (Decidable (_ ∧ _))

instance : DecidablePred SignalsReset := fun _ => inferInstanceAs (Decidable (_ → _))

instance (s : LedState) : DecidablePred s.Undisturbed
  | .app .dispatch => inferInstanceAs (Decidable (∀ event ∈ s.app.queue.head?, _ → _ → ¬ _))
  | .chipoBLEAdvertisingChange _ | .threadStateChange _ _ => inferInstanceAs (Decidable (¬ _))
  | .app (.buttons _) | .app .timerExpiry | .app (.post _) => isTrue trivial

end LedState

variable {s t : LedState} {i : LedInput} {event : AppEvent}

/-- The LEDs do not change what the application does. -/
theorem leds_projects : leds.Projects appTask LedState.app fun _ i => match i with
    | .app i => some i
    | .chipoBLEAdvertisingChange _ | .threadStateChange _ _ => none where
  init := rfl
  step s i t hs := by
    cases i with
    | app i =>
      obtain ⟨app, happ, rfl⟩ := Option.map_eq_some_iff.mp hs
      exact appTask.runFrom_cons_eq_some.mpr ⟨app, happ, rfl⟩
    | chipoBLEAdvertisingChange n | threadStateChange provisioned enabled =>
      obtain rfl := Option.some.inj hs
      rfl

/-! ## The status LED -/

/-- The network never looks like a reset. -/
theorem statusPattern_ne (s : LedState) : s.statusPattern ≠ .blinkRate kBlinkRateMs := by
  unfold LedState.statusPattern
  split
  · decide
  · split <;> decide

/-- What the application does besides `mFunction` and the resets is nothing to the status LED. -/
theorem signalsReset_of_app (h : s.SignalsReset) {app : State}
    (hfunction : app.task.mFunction = s.app.task.mFunction)
    (htrace : .factoryReset ∈ s.app.task.trace → .factoryReset ∈ app.task.trace) :
    ({ s with app } : LedState).SignalsReset := by
  intro hnone
  rw [hfunction]
  exact h (mt htrace hnone)

/-- After `UpdateStatusLED` the LED is right exactly if no reset is under way. -/
theorem signalsReset_updateStatusLED : s.updateStatusLED.SignalsReset ↔ ¬ s.InWindow := by
  have hpattern : s.updateStatusLED.statusPattern = s.statusPattern := rfl
  simp only [LedState.SignalsReset, LedState.InWindow, hpattern]
  constructor
  · rintro h ⟨hfunction, hnone⟩
    refine statusPattern_ne s ((h hnone).trans ?_)
    exact if_pos hfunction
  · intro h hnone
    have hfunction : s.app.task.mFunction ≠ .factoryReset := fun hf => h ⟨hf, hnone⟩
    exact (if_neg hfunction).symm

/-- The LED follows the function button's handler. -/
theorem signalsReset_functionHandler (h : s.SignalsReset) (queue : List AppEvent) :
    ({ s.functionHandler event with
      app := { s.app with queue, task := s.app.task.functionHandler event } } :
        LedState).SignalsReset := by
  unfold LedState.functionHandler Task.functionHandler
  by_cases hpin : event.pinNo = functionButton
  · rw [if_neg (not_not.mpr hpin), if_neg (not_not.mpr hpin)]
    by_cases haction : event.action = .buttonPushed
    · -- a press starts the trigger timer only: `mFunction` stays as it is
      rw [if_pos haction, if_pos haction]
      unfold Task.pushed
      split
      · next hnone =>
        exact signalsReset_of_app h hnone.2.symm (List.mem_append_left _)
      · exact h
    · rw [if_neg haction, if_neg haction]
      unfold Task.released
      split
      · next hupdate =>
        exact signalsReset_of_app h hupdate.2.symm (List.mem_append_left _)
      · split
        · -- a release in the window cancels the reset and updates the LED
          intro _
          rfl
        · exact h
  · rw [if_pos hpin, if_pos hpin]
    exact h

/-- The LED follows the timer's handler, and a scheduled reset ends what is said of it. -/
theorem signalsReset_functionTimer (h : s.SignalsReset) (queue : List AppEvent) :
    ({ s.functionTimerEventHandler event with
      app := { s.app with queue, task := s.app.task.functionTimerEventHandler event } } :
        LedState).SignalsReset := by
  unfold LedState.functionTimerEventHandler Task.functionTimerEventHandler
  by_cases htype : event.type = .timer
  · rw [if_neg (not_not.mpr htype), if_neg (not_not.mpr htype)]
    unfold Task.timeout
    cases hfunction : s.app.task.mFunction with
    | noneSelected =>
      rw [if_pos rfl]
      intro _
      rfl
    | factoryReset =>
      intro hnone
      exact absurd (List.mem_append_right _ List.mem_cons_self) hnone
    | advertisingStart =>
      have hne : FunctionEvent.advertisingStart ≠ .softwareUpdate := by decide
      rw [if_neg hne]
      exact h
  · rw [if_pos htype, if_pos htype]
    exact h

/-- The NUS button's handler leaves the LED right exactly if no reset is under way. -/
theorem signalsReset_startBLENUS (h : s.SignalsReset) (queue : List AppEvent)
    (served : List Handler) :
    ({ s with
      app := { s.app with queue, served, task := s.app.task.startBLENUSHandler event } } :
        LedState).SignalsReset ↔ (event.pinNo = bleNusButton → ¬ s.InWindow) := by
  unfold Task.startBLENUSHandler
  by_cases hpin : event.pinNo = bleNusButton
  · rw [if_neg (not_not.mpr hpin)]
    simp only [hpin, forall_const, LedState.InWindow, not_and]
    constructor
    · -- the LED would have to show the reset and the network at once
      intro ht hfunction hnone
      have hled := (h hnone).symm.trans (ht hnone)
      rw [if_pos hfunction] at hled
      exact statusPattern_ne _ hled.symm
    · intro hno hnone
      have hfunction : s.app.task.mFunction ≠ .factoryReset := fun hf => hno hf hnone
      exact (h hnone).trans (if_neg hfunction)
  · rw [if_pos hpin]
    exact iff_of_true h fun heq => absurd heq hpin

/-- **One dispatch.** The status LED stays right exactly if the handler is not that of the NUS
button, which ends a reset that is under way without a word to the LED. -/
theorem signalsReset_dispatch_iff (h : s.SignalsReset) (queue : List AppEvent) :
    ({ s.serve event with app := dispatchEvent event { s.app with queue } } :
        LedState).SignalsReset ↔
      (event.handler = .startBLENUS → event.pinNo = bleNusButton → ¬ s.InWindow) := by
  obtain ⟨type, pinNo, action, handler⟩ := event
  cases handler with
  | function =>
    exact iff_of_true (signalsReset_functionHandler h queue) (fun heq => by cases heq)
  | functionTimer =>
    exact iff_of_true (signalsReset_functionTimer h queue) (fun heq => by cases heq)
  | startBLENUS =>
    rw [forall_prop_of_true rfl]
    exact signalsReset_startBLENUS h queue _
  | lightingAction | startBLEAdvertisement | updateLedState | identifyStart | identifyStop
  | startSMPAdvertising | startNUSAdvertising =>
    exact iff_of_true h (fun heq => by cases heq)

/-- The buttons alone do not change `mFunction`. -/
theorem mFunction_observeButtons (old new : BitVec 32) (a : Task) :
    (observeButtons old new a).mFunction = a.mFunction := by
  unfold observeButtons
  split <;> rfl

/-- What was observed stays observed. -/
theorem subset_observeButtons (old new : BitVec 32) (a : Task) :
    a.trace ⊆ (observeButtons old new a).trace := by
  unfold observeButtons
  split
  · exact List.Subset.refl a.trace
  · exact List.subset_append_left a.trace _

/-- A step keeps the status LED right exactly if it does not disturb a reset. -/
theorem signalsReset_step_iff (h : s.SignalsReset) (hs : leds.step s i = some t) :
    t.SignalsReset ↔ s.Undisturbed i := by
  cases i with
  | app i =>
    obtain ⟨app, happ, rfl⟩ := Option.map_eq_some_iff.mp hs
    cases i with
    | buttons buttonState =>
      obtain rfl := Option.some.inj happ
      refine iff_of_true (signalsReset_of_app h ?_ ?_) trivial
      · exact mFunction_observeButtons s.app.buttons buttonState s.app.task
      · exact fun hmem => subset_observeButtons s.app.buttons buttonState s.app.task hmem
    | timerExpiry =>
      obtain ⟨-, rfl⟩ := Machine.guarded_eq_some.mp happ
      exact iff_of_true (signalsReset_of_app h rfl (List.mem_append_left _)) trivial
    | post handler =>
      obtain ⟨event, -, rfl⟩ := Option.map_eq_some_iff.mp happ
      refine iff_of_true ?_ trivial
      cases handler <;> exact h
    | dispatch =>
      -- `Undisturbed` looks at the event that waits first
      simp only [step] at happ
      split at happ
      · next event queue hqueue =>
        obtain rfl := Option.some.inj happ
        simp only [LedState.follow, LedState.Undisturbed, hqueue, List.head?_cons, Option.mem_def,
          Option.some.injEq, forall_eq']
        exact signalsReset_dispatch_iff h queue
      · cases happ
  | chipoBLEAdvertisingChange n | threadStateChange provisioned enabled =>
    obtain rfl := Option.some.inj hs
    exact signalsReset_updateStatusLED

/-- A reset that is canceled after the LED has started to blink. -/
example : leds.Along (fun _ _ t => t.SignalsReset) leds.init
    [.threadStateChange true true, .app (.buttons 1), .app .dispatch, .app .timerExpiry,
      .app .dispatch, .app (.buttons 0), .app .dispatch] := by
  decide

/-! ## The identify LED -/

/-- A post adds what its event asks for, if there is room. -/
theorem filterMap_identify_postEvent (queue : List AppEvent) (event : AppEvent) :
    (postEvent queue event).filterMap AppEvent.identify? =
      queue.filterMap AppEvent.identify? ++
        if queue.length < kAppEventQueueSize then event.identify?.toList else [] := by
  unfold postEvent
  split
  · rw [List.filterMap_append]
    cases h : event.identify? <;> simp [h]
  · rw [List.append_nil]

/-- The buttons have nothing to do with the Identify cluster. -/
theorem filterMap_identify_buttons (buttonState hasChanged : BitVec 32) (queue : List AppEvent) :
    ((buttonEventHandler buttonState hasChanged).foldl postEvent queue).filterMap
        AppEvent.identify? = queue.filterMap AppEvent.identify? := by
  have hnone : ∀ e ∈ buttonEventHandler buttonState hasChanged, e.identify? = none := by
    intro e he
    unfold AppEvent.identify?
    rcases (mem_buttonEventHandler he).2 with hhandler | hhandler | hhandler | hhandler <;>
      rw [hhandler] <;> rfl
  revert hnone
  generalize buttonEventHandler buttonState hasChanged = events
  intro hnone
  induction events generalizing queue with
  | nil => rfl
  | cons e events ih =>
    rw [List.foldl_cons, ih _ fun e' he' => hnone e' (List.mem_cons_of_mem e he'),
      filterMap_identify_postEvent, hnone e List.mem_cons_self]
    simp

/-- The handlers of the function button leave the identify LED alone. -/
theorem functionHandler_identify (event : AppEvent) (s : LedState) :
    (s.functionHandler event).sIdentifyLED = s.sIdentifyLED ∧
      (s.functionHandler event).identifying = s.identifying := by
  unfold LedState.functionHandler
  repeat' split
  all_goals exact ⟨rfl, rfl⟩

/-- So does the handler of the timer. -/
theorem functionTimerEventHandler_identify (event : AppEvent) (s : LedState) :
    (s.functionTimerEventHandler event).sIdentifyLED = s.sIdentifyLED ∧
      (s.functionTimerEventHandler event).identifying = s.identifying := by
  unfold LedState.functionTimerEventHandler
  repeat' split
  all_goals exact ⟨rfl, rfl⟩

/-- A handler does to the identify LED what its event asks for. -/
theorem serve_identify (event : AppEvent) (s : LedState) :
    (s.serve event).sIdentifyLED.identifies =
        event.identify?.getD s.sIdentifyLED.identifies ∧
      (s.serve event).identifying = s.identifying := by
  obtain ⟨type, pinNo, action, handler⟩ := event
  cases handler with
  | function =>
    obtain ⟨hled, hidentifying⟩ := functionHandler_identify ⟨type, pinNo, action, .function⟩ s
    exact ⟨congrArg LedCommand.identifies hled, hidentifying⟩
  | functionTimer =>
    obtain ⟨hled, hidentifying⟩ :=
      functionTimerEventHandler_identify ⟨type, pinNo, action, .functionTimer⟩ s
    exact ⟨congrArg LedCommand.identifies hled, hidentifying⟩
  | identifyStart | identifyStop | lightingAction | startBLEAdvertisement | startBLENUS
  | updateLedState | startSMPAdvertising | startNUSAdvertising =>
    exact ⟨rfl, rfl⟩

/-- A dispatch does what the first event asks for. -/
theorem willIdentify_dispatch {queue : List AppEvent} (hqueue : s.app.queue = event :: queue) :
    ({ s.serve event with app := dispatchEvent event { s.app with queue } } :
      LedState).willIdentify = s.willIdentify := by
  obtain ⟨hframe, -⟩ := dispatchEvent_frame event { s.app with queue }
  simp only [LedState.willIdentify, hframe, hqueue, (serve_identify event s).1]
  cases h : event.identify? with
  | none => rw [List.filterMap_cons_none h, Option.getD_none]
  | some b => rw [List.filterMap_cons_some h, List.getLastD_cons, Option.getD_some]

/-- A post keeps the identify LED right exactly if there is room for what it asks for, or if it asks
for no change. -/
theorem willIdentify_post_iff (h : s.willIdentify = s.identifying) {handler : Handler}
    (hhandler : event.handler = handler) :
    LedState.willIdentify
        { s.follow (.post handler) with
          app := { s.app with queue := postEvent s.app.queue event } } =
      (s.follow (.post handler)).identifying ↔ s.KeepsIdentify (.app (.post handler)) := by
  have hevent : event.identify? = handler.identify? := congrArg Handler.identify? hhandler
  unfold LedState.willIdentify at h ⊢
  simp only [LedState.follow, LedState.KeepsIdentify, filterMap_identify_postEvent, hevent]
  cases handler.identify? with
  | none =>
    rw [Option.toList_none, ite_self, List.append_nil]
    exact iff_of_true h (fun b hb => by cases hb)
  | some b =>
    simp only [Option.toList_some, Option.getD_some, Option.mem_def, Option.some.injEq,
      forall_eq']
    -- the event is the last one in the queue, or it is dropped
    by_cases hroom : s.app.queue.length < kAppEventQueueSize
    · rw [if_pos hroom, List.getLastD_concat]
      exact iff_of_true rfl (.inl hroom)
    · rw [if_neg hroom, List.append_nil, or_iff_right hroom, h]

/-- A step keeps the identify LED right exactly if it drops no callback that changes something. -/
theorem willIdentify_step_iff (h : s.willIdentify = s.identifying) (hs : leds.step s i = some t) :
    t.willIdentify = t.identifying ↔ s.KeepsIdentify i := by
  cases i with
  | app i =>
    obtain ⟨app, happ, rfl⟩ := Option.map_eq_some_iff.mp hs
    cases i with
    | buttons buttonState =>
      -- neither the buttons nor the timer post anything for the identify LED
      obtain rfl := Option.some.inj happ
      refine iff_of_true (Eq.trans ?_ h) trivial
      exact congrArg (List.getLastD · _) (filterMap_identify_buttons _ _ s.app.queue)
    | timerExpiry =>
      obtain ⟨-, rfl⟩ := Machine.guarded_eq_some.mp happ
      refine iff_of_true (Eq.trans ?_ h) trivial
      refine congrArg (List.getLastD · _) ((filterMap_identify_postEvent _ timerEvent).trans ?_)
      have htimer : timerEvent.identify? = none := rfl
      simp [htimer]
    | post handler =>
      obtain ⟨event, hevent, rfl⟩ := Option.map_eq_some_iff.mp happ
      exact willIdentify_post_iff h (handler_of_otherEvent hevent).1
    | dispatch =>
      simp only [step] at happ
      split at happ
      · next event queue hqueue =>
        obtain rfl := Option.some.inj happ
        simp only [LedState.follow, hqueue]
        rw [willIdentify_dispatch hqueue, (serve_identify event s).2]
        exact iff_of_true h trivial
      · cases happ
  | chipoBLEAdvertisingChange n | threadStateChange provisioned enabled =>
    obtain rfl := Option.some.inj hs
    exact iff_of_true h trivial

end NcsExamples.MatterLight
