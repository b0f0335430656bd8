import NcsExamples.MatterLight.AppTask

/-! # Matter light bulb: advertising of the UART service

The Nordic UART service and CHIPoBLE share the BLE advertiser. `NUS::StartBLEAdvertising` stops
whatever is advertised and starts its own advertising. It is called by `StartServer`, right after a
check that CHIPoBLE advertising is not enabled, and by the handler of `StartNUSAdvertising` events,
which the BLE and CHIP callbacks post after checks of their own. The model adds the service and the
CHIPoBLE flag to the event loop of `AppTask`; the callbacks run in other threads, so they may come
between the check of `StartServer` and its start, and between a post and its dispatch. -/

namespace NcsExamples.MatterLight

/-- The event loop, the service and the CHIPoBLE flag. -/
structure NusState where
  app : State
  mIsEnabled : Bool
  mIsAdvertisingEnabled : Bool
  /-- `StartServer` has made its check and is about to call `StartBLEAdvertising`. -/
  starting : Bool
  /-- `ConnectivityMgr().IsBLEAdvertisingEnabled()`. -/
  isBLEAdvertisingEnabled : Bool
  /-- History: whether CHIPoBLE advertising was enabled, each time `StartBLEAdvertising` stopped the
  advertiser and started its own. -/
  starts : List Bool

/-- The events of the CHIP stack that `ChipEventHandler` tells apart. -/
inductive ChipEvent
  /-- `kCHIPoBLEAdvertisingChange`; `stopped` if its result is `kActivity_Stopped`. -/
  | advertisingChange (stopped : Bool)
  /-- `kCHIPoBLEConnectionClosed`. -/
  | connectionClosed
  | other
  deriving DecidableEq, Repr

/-- The event that `RequestNUSAdvertisingStart` posts. -/
def nusEvent : AppEvent := ⟨.startNUSAdvertising, 0, .none, .startNUSAdvertising⟩

namespace NusState

/-- `RequestNUSAdvertisingStart`. -/
def requestNUSAdvertisingStart (s : NusState) : NusState :=
  { s with app := { s.app with queue := postEvent s.app.queue nusEvent } }

/-- `NUS::StartBLEAdvertising`, where `bt_le_adv_start` returns `rc`. -/
def startBLEAdvertising (rc : ℤ) (s : NusState) : NusState :=
  if s.mIsEnabled = false ∧ s.mIsAdvertisingEnabled = false then s
  else { s with
    mIsAdvertisingEnabled := if rc = 0 then true else s.mIsAdvertisingEnabled
    starts := s.starts ++ [s.isBLEAdvertisingEnabled] }

/-- `NUS::StartServer` up to its check. -/
def startServer (s : NusState) : NusState :=
  if s.mIsEnabled = false then
    { s with mIsEnabled := true, starting := !s.isBLEAdvertisingEnabled }
  else s

/-- `NUS::OnBleDisconnect`, where `NumBLEConnections` returns `num`. -/
def onBleDisconnect (num : ℕ) (s : NusState) : NusState :=
  if s.isBLEAdvertisingEnabled = false ∧ num = 0 then s.requestNUSAdvertisingStart else s

/-- `NUS::ChipEventHandler`, where `NumBLEConnections` returns `num`. -/
def chipEventHandler (event : ChipEvent) (num : ℕ) (s : NusState) : NusState :=
  if s.mIsEnabled = false then s
  else match event with
    | .advertisingChange stopped =>
        -- the only check is for connections
        if stopped = true ∧ num = 0 then s.requestNUSAdvertisingStart else s
    | .connectionClosed =>
        if s.isBLEAdvertisingEnabled = false then s.requestNUSAdvertisingStart else s
    | .other => s

/-- `StartBLENUSHandler`. -/
def startBLENUSHandler (event : AppEvent) (s : NusState) : NusState :=
  if event.pinNo ≠ bleNusButton then s else s.startServer

/-- `StartBLEAdvertisementHandler`: a commissioning window that is `opened` enables CHIPoBLE
advertising. -/
def startBLEAdvertisementHandler (fabricCount : ℕ) (opened : Bool) (s : NusState) : NusState :=
  if fabricCount ≠ 0 then s
  else if s.isBLEAdvertisingEnabled = true then s
  else if opened then { s with isBLEAdvertisingEnabled := true }
  else s

/-- What the handler of an event does beside `dispatchEvent`. -/
def handle (event : AppEvent) (fabricCount : ℕ) (opened : Bool) (rc : ℤ) (s : NusState) :
    NusState :=
  match event.handler with
  | .startBLENUS => s.startBLENUSHandler event
  | .startBLEAdvertisement => s.startBLEAdvertisementHandler fabricCount opened
  | .startNUSAdvertising => s.startBLEAdvertising rc
  | _ => s

end NusState

/-- What happens next. -/
inductive NusInput
  /-- A step of the application other than a dispatch, or a post of the service's own event. -/
  | app (i : Input)
  /-- `StartApp` dispatches the next event; the rest is what its handler is told. -/
  | dispatch (fabricCount : ℕ) (opened : Bool) (rc : ℤ)
  /-- `StartServer` goes on to `StartBLEAdvertising`. -/
  | startServer (rc : ℤ)
  /-- The BLE stack calls `OnBleDisconnect`. -/
  | onBleDisconnect (num : ℕ)
  /-- The CHIP stack calls `ChipEventHandler`. -/
  | chipEvent (event : ChipEvent) (num : ℕ)
  /-- The CHIP stack enables or disables CHIPoBLE advertising. -/
  | setBLEAdvertisingEnabled (enabled : Bool)
  deriving DecidableEq

/-- One step of the application with the service. -/
def nusStep (s : NusState) : NusInput → Option NusState
  | .app i =>
      if i = .dispatch ∨ i = .post .startNUSAdvertising then none
      else (step s.app i).map fun app => { s with app }
  | .dispatch fabricCount opened rc =>
      -- the handler that called `StartServer` has not returned yet
      if s.starting then none
      else match s.app.queue with
        | event :: queue => some (NusState.handle event fabricCount opened rc
            { s with app := dispatchEvent event { s.app with queue } })
        | [] => none
  | .startServer rc =>
      if s.starting then some (NusState.startBLEAdvertising rc { s with starting := false })
      else none
  | .onBleDisconnect num => some (s.onBleDisconnect num)
  | .chipEvent event num => some (s.chipEventHandler event num)
  | .setBLEAdvertisingEnabled enabled => some { s with isBLEAdvertisingEnabled := enabled }

/-- The application after `Init`. -/
def nusTask : Machine NusState NusInput := ⟨⟨appTask.init, false, false, false, false, []⟩, nusStep⟩

/-! ## The event loop in it -/

namespace NusState

/-- A `StartNUSAdvertising` event is queued. -/
def Requested (queue : List AppEvent) : Prop := ∃ e ∈ queue, e.handler = .startNUSAdvertising

instance (queue : List AppEvent) : Decidable (Requested queue) :=
  inferInstanceAs (Decidable (∃ e ∈ queue, _))

/-- The input is a callback that asks for a `StartNUSAdvertising` event. -/
def requests (s : NusState) : NusInput → Bool
  | .onBleDisconnect num => !s.isBLEAdvertisingEnabled && num == 0
  | .chipEvent (.advertisingChange stopped) num => s.mIsEnabled && stopped && num == 0
  | .chipEvent .connectionClosed _ => s.mIsEnabled && !s.isBLEAdvertisingEnabled
  | _ => false

/-- What a step is for the event loop. -/
def appLabel (s : NusState) : NusInput → Option Input
  | .app i => some i
  | .dispatch _ _ _ => some .dispatch
  | i => if s.requests i then some (.post .startNUSAdvertising) else none

variable {s t : NusState}

/-- `OnBleDisconnect` posts an event or does nothing. -/
theorem onBleDisconnect_eq (num : ℕ) : s.onBleDisconnect num =
    if s.requests (.onBleDisconnect num) then s.requestNUSAdvertisingStart else s := by
  simp only [onBleDisconnect, requests, Bool.and_eq_true, Bool.not_eq_true', beq_iff_eq]

/-- `ChipEventHandler` posts an event or does nothing. -/
theorem chipEventHandler_eq (event : ChipEvent) (num : ℕ) : s.chipEventHandler event num =
    if s.requests (.chipEvent event num) then s.requestNUSAdvertisingStart else s := by
  unfold chipEventHandler
  cases henabled : s.mIsEnabled with
  | false =>
    cases event <;> simp [requests, henabled]
  | true =>
    cases event with
    | advertisingChange stopped => simp [requests, henabled]
    | connectionClosed => simp [requests, henabled]
    | other => rfl

@[simp] theorem app_startBLEAdvertising (rc : ℤ) : (s.startBLEAdvertising rc).app = s.app := by
  unfold startBLEAdvertising
  split <;> rfl

/-- A start while the service is enabled leaves its mark in the history. -/
theorem starts_startBLEAdvertising (henabled : s.mIsEnabled = true) (rc : ℤ) :
    (s.startBLEAdvertising rc).starts = s.starts ++ [s.isBLEAdvertisingEnabled] := by
  unfold NusState.startBLEAdvertising
  rw [if_neg fun h => by rw [henabled] at h; cases h.1]

@[simp] theorem mIsEnabled_startBLEAdvertising (rc : ℤ) :
    (s.startBLEAdvertising rc).mIsEnabled = s.mIsEnabled := by
  unfold startBLEAdvertising
  split <;> rfl

@[simp] theorem app_startServer : s.startServer.app = s.app := by
  unfold startServer
  split <;> rfl

@[simp] theorem app_startBLEAdvertisementHandler (fabricCount : ℕ) (opened : Bool) :
    (s.startBLEAdvertisementHandler fabricCount opened).app = s.app := by
  unfold startBLEAdvertisementHandler
  repeat' split
  all_goals rfl

/-- The service does nothing to the event loop when an event is handled. -/
theorem app_handle (event : AppEvent) (fabricCount : ℕ) (opened : Bool) (rc : ℤ) :
    (s.handle event fabricCount opened rc).app = s.app := by
  unfold handle
  split
  · unfold startBLENUSHandler
    split
    · rfl
    · exact app_startServer
  · exact app_startBLEAdvertisementHandler fabricCount opened
  · exact app_startBLEAdvertising rc
  · rfl

/-- A dispatch takes the first event from the queue. -/
theorem nusStep_dispatch_eq_some {fabricCount : ℕ} {opened : Bool} {rc : ℤ} :
    nusStep s (.dispatch fabricCount opened rc) = some t ↔ s.starting = false ∧
      ∃ event queue, s.app.queue = event :: queue ∧
        handle event fabricCount opened rc
          { s with app := dispatchEvent event { s.app with queue } } = t := by
  cases hstarting : s.starting with
  | true => simp [nusStep, hstarting]
  | false =>
    cases hqueue : s.app.queue with
    | nil => simp [nusStep, hstarting, hqueue]
    | cons event queue => simp [nusStep, hstarting, hqueue]

/-- Other steps of the application are steps of its own machine. -/
theorem nusStep_app_eq_some {i : Input} :
    nusStep s (.app i) = some t ↔ (i ≠ .dispatch ∧ i ≠ .post .startNUSAdvertising) ∧
      ∃ app, step s.app i = some app ∧ { s with app } = t := by
  simp only [nusStep, Option.ite_none_left_eq_some, not_or, Option.map_eq_some_iff, ne_eq]

/-- **The application with the service is the application.** What holds of the runs of `appTask`
holds of its event loop. -/
theorem nusTask_projects : nusTask.Projects appTask NusState.app appLabel where
  init := rfl
  step := by
    intro s i t hstep
    cases i with
    | app i =>
      obtain ⟨-, app, happ, rfl⟩ := nusStep_app_eq_some.mp hstep
      exact appTask.runFrom_cons_eq_some.mpr ⟨app, happ, rfl⟩
    | dispatch fabricCount opened rc =>
      obtain ⟨-, event, queue, hqueue, rfl⟩ := nusStep_dispatch_eq_some.mp hstep
      rw [app_handle]
      exact appTask.runFrom_cons_eq_some.mpr ⟨_, step_dispatch hqueue, rfl⟩
    | startServer rc =>
      obtain ⟨-, rfl⟩ := Machine.guarded_eq_some.mp hstep
      show some s.app = some (startBLEAdvertising rc _).app
      rw [app_startBLEAdvertising]
    | onBleDisconnect num =>
      obtain rfl := Option.some.inj hstep
      rw [onBleDisconnect_eq]
      simp only [appLabel]
      split <;> rfl
    | chipEvent event num =>
      obtain rfl := Option.some.inj hstep
      rw [chipEventHandler_eq]
      simp only [appLabel]
      split <;> rfl
    | setBLEAdvertisingEnabled enabled =>
      obtain rfl := Option.some.inj hstep
      rfl

end NusState

end NcsExamples.MatterLight
