import NcsExamples.MatterLight.AppTask

/-! # Matter light bulb: the bulb and its clusters

The state of the bulb is kept twice, in the PWM device and in the attributes of the OnOff and
LevelControl clusters. A write of an attribute drives the device through
`MatterPostAttributeChangeCallback`; an action of the device that a button has asked for schedules a
lambda that writes both attributes back. The device comes from the SDK: what the code relies on are
the laws of the structure `PWMDevice`. -/

namespace NcsExamples.MatterLight

/-- `PWMDevice::Action_t`, with the value of a level action. -/
inductive PWMAction
  | on
  | off
  | level (value : UInt8)
  | invalid
  deriving DecidableEq, Repr

/-- The PWM device of the SDK. `initiateAction` also says whether the action was initiated; it is
completed then. -/
structure PWMDevice where
  Dev : Type
  isTurnedOn : Dev → Bool
  getLevel : Dev → UInt8
  initiateAction : PWMAction → Dev → Dev × Bool
  on_of_on {d : Dev} : isTurnedOn d = true → initiateAction .on d = (d, false)
  on_of_off {d : Dev} : isTurnedOn d = false →
    (initiateAction .on d).2 = true ∧ isTurnedOn (initiateAction .on d).1 = true ∧
      getLevel (initiateAction .on d).1 = getLevel d
  off_of_off {d : Dev} : isTurnedOn d = false → initiateAction .off d = (d, false)
  off_of_on {d : Dev} : isTurnedOn d = true →
    (initiateAction .off d).2 = true ∧ isTurnedOn (initiateAction .off d).1 = false
  level_of_eq {d : Dev} : initiateAction (.level (getLevel d)) d = (d, false)
  level_zero {d : Dev} : getLevel d ≠ 0 →
    (initiateAction (.level 0) d).2 = true ∧ isTurnedOn (initiateAction (.level 0) d).1 = false
  level_of_ne {d : Dev} {value : UInt8} : isTurnedOn d = true → value ≠ getLevel d → value ≠ 0 →
    (initiateAction (.level value) d).2 = true ∧
      isTurnedOn (initiateAction (.level value) d).1 = true ∧
      getLevel (initiateAction (.level value) d).1 = value

namespace PWMDevice

variable {P : PWMDevice}

/-- After an on or off action the device is as asked for. -/
theorem isTurnedOn_switch (value : Bool) (d : P.Dev) :
    P.isTurnedOn (P.initiateAction (if value then .on else .off) d).1 = value := by
  cases value with
  | true =>
    cases hd : P.isTurnedOn d with
    | true => exact (congrArg (fun r => P.isTurnedOn r.1) (P.on_of_on hd)).trans hd
    | false => exact (P.on_of_off hd).2.1
  | false =>
    cases hd : P.isTurnedOn d with
    | true => exact (P.off_of_on hd).2
    | false => exact (congrArg (fun r => P.isTurnedOn r.1) (P.off_of_off hd)).trans hd

/-- The device is turned on at its level. -/
theorem getLevel_on (d : P.Dev) : P.getLevel (P.initiateAction .on d).1 = P.getLevel d := by
  cases hd : P.isTurnedOn d with
  | true => rw [P.on_of_on hd]
  | false => exact (P.on_of_off hd).2.2

/-- To ask for what the device is, is to ask for nothing. -/
theorem switch_isTurnedOn (d : P.Dev) :
    P.initiateAction (if P.isTurnedOn d then .on else .off) d = (d, false) := by
  cases hd : P.isTurnedOn d with
  | true => exact P.on_of_on hd
  | false => exact P.off_of_off hd

/-- To ask for what the device is not, is to ask for an action. -/
theorem initiated_toggle (d : P.Dev) :
    (P.initiateAction (if P.isTurnedOn d then .off else .on) d).2 = true := by
  cases hd : P.isTurnedOn d with
  | true => exact (P.off_of_on hd).1
  | false => exact (P.on_of_off hd).1

end PWMDevice

variable (P : PWMDevice)

/-- The event loop, the device and the clusters. -/
structure LightState where
  app : State
  mPWMDevice : P.Dev
  /-- The attribute OnOff of the cluster OnOff. -/
  onOff : Bool
  /-- The attribute CurrentLevel of the cluster LevelControl. -/
  currentLevel : UInt8
  /-- The number of scheduled lambdas. -/
  lambdas : ℕ
  /-- A lambda has written OnOff and is about to write CurrentLevel. -/
  inLambda : Bool

/-- A write of an attribute. -/
inductive AttributeWrite
  | onOff (value : Bool)
  | currentLevel (value : UInt8)
  /-- Any other attribute. -/
  | other
  deriving DecidableEq, Repr

namespace LightState

variable {P}

/-- `IsTurnedOn`. -/
def isTurnedOn (s : LightState P) : Bool := P.isTurnedOn s.mPWMDevice

/-- `GetLevel`. -/
def getLevel (s : LightState P) : UInt8 := P.getLevel s.mPWMDevice

/-- `UpdateClusterState`. -/
def updateClusterState (s : LightState P) : LightState P := { s with lambdas := s.lambdas + 1 }

/-- `ActionCompleted`. -/
def actionCompleted (actor : AppEventType) (s : LightState P) : LightState P :=
  if actor = .button then s.updateClusterState else s

/-- `InitiateAction`, with the callback for a completed action. -/
def initiateAction (action : PWMAction) (actor : AppEventType) (s : LightState P) : LightState P :=
  let result := P.initiateAction action s.mPWMDevice
  if result.2 then actionCompleted actor { s with mPWMDevice := result.1 }
  else { s with mPWMDevice := result.1 }

/-- `MatterPostAttributeChangeCallback`. -/
def matterPostAttributeChangeCallback (write : AttributeWrite) (s : LightState P) : LightState P :=
  match write with
  | .onOff value => s.initiateAction (if value then .on else .off) .lighting
  | .currentLevel value =>
      if s.isTurnedOn then s.initiateAction (.level value) .lighting
      -- the LED is off
      else s
  | .other => s

/-- An attribute is written, and the callback is called. -/
def writeAttribute (write : AttributeWrite) (s : LightState P) : LightState P :=
  matterPostAttributeChangeCallback write <| match write with
    | .onOff value => { s with onOff := value }
    | .currentLevel value => { s with currentLevel := value }
    | .other => s

/-- `LightingActionEventHandler`; `lighting` is the `LightingEvent` of an event of type `Lighting`. -/
def lightingActionEventHandler (type : AppEventType) (lighting : PWMAction × AppEventType)
    (s : LightState P) : LightState P :=
  let (action, actor) :=
    if type = .lighting then lighting
    else if type = .button then (if s.isTurnedOn then .off else .on, AppEventType.button)
    else (.invalid, .none)
  if action ≠ .invalid then s.initiateAction action actor else s

/-- `emberAfOnOffClusterInitCallback`; `success` if OnOff can be read. -/
def emberAfOnOffClusterInitCallback (success : Bool) (s : LightState P) : LightState P :=
  updateClusterState <|
    if success then s.initiateAction (if s.onOff then .on else .off) .lighting else s

end LightState

/-- What happens next. -/
inductive LightInput
  /-- A step of the application other than a dispatch. -/
  | app (i : Input)
  /-- `StartApp` dispatches the next event; the rest is what it holds if its type is `Lighting`. -/
  | dispatch (lighting : PWMAction × AppEventType)
  /-- An attribute is written from remote. -/
  | write (write : AttributeWrite)
  /-- The CHIP thread takes a lambda, which writes OnOff. -/
  | lambdaOnOff
  /-- The lambda writes CurrentLevel. -/
  | lambdaCurrentLevel
  deriving DecidableEq

/-- One step of the bulb. The CHIP thread runs a lambda to its end before it does anything else; the
application's thread goes on meanwhile. -/
def lightStep (s : LightState P) : LightInput → Option (LightState P)
  | .app i => if i = .dispatch then none else (step s.app i).map fun app => { s with app }
  | .dispatch lighting => match s.app.queue with
    | event :: queue =>
        let s := { s with app := dispatchEvent event { s.app with queue } }
        some (if event.handler = .lightingAction then
          s.lightingActionEventHandler event.type lighting else s)
    | [] => none
  | .write write => if s.inLambda then none else some (s.writeAttribute write)
  | .lambdaOnOff =>
      if s.inLambda = false ∧ 0 < s.lambdas then
        some (LightState.writeAttribute (.onOff s.isTurnedOn)
          { s with lambdas := s.lambdas - 1, inLambda := true })
      else none
  | .lambdaCurrentLevel =>
      if s.inLambda then
        some (LightState.writeAttribute (.currentLevel s.getLevel) { s with inLambda := false })
      else none

/-- The bulb after the initialisation of the OnOff cluster, from a device and from the attributes
that were stored. -/
def light (device : P.Dev) (onOff : Bool) (currentLevel : UInt8) (success : Bool) :
    Machine (LightState P) LightInput :=
  ⟨LightState.emberAfOnOffClusterInitCallback success
    ⟨appTask.init, device, onOff, currentLevel, 0, false⟩, lightStep P⟩

/-! ## The event loop in it -/

/-- What a step is for the event loop. -/
def lightLabel (_ : LightState P) : LightInput → Option Input
  | .app i => some i
  | .dispatch _ => some .dispatch
  | _ => none

namespace LightState

variable {P} {s : LightState P}

theorem app_initiateAction (action : PWMAction) (actor : AppEventType) :
    (s.initiateAction action actor).app = s.app := by
  unfold initiateAction actionCompleted
  dsimp only
  split
  · split <;> rfl
  · rfl

theorem app_writeAttribute (write : AttributeWrite) : (s.writeAttribute write).app = s.app := by
  cases write with
  | onOff value => exact app_initiateAction (s := { s with onOff := value }) _ _
  | currentLevel value =>
    unfold writeAttribute matterPostAttributeChangeCallback
    dsimp only
    split
    · exact app_initiateAction (s := { s with currentLevel := value }) _ _
    · rfl
  | other => rfl

theorem app_lightingActionEventHandler (type : AppEventType) (lighting : PWMAction × AppEventType) :
    (s.lightingActionEventHandler type lighting).app = s.app := by
  unfold lightingActionEventHandler
  -- whichever action it is
  generalize (if type = .lighting then lighting else _ : PWMAction × AppEventType) = chosen
  dsimp only
  split
  · exact app_initiateAction chosen.1 chosen.2
  · rfl

theorem app_emberAfOnOffClusterInitCallback (success : Bool) :
    (s.emberAfOnOffClusterInitCallback success).app = s.app := by
  cases success with
  | true => exact app_initiateAction _ _
  | false => rfl

end LightState

/-- **The application with the bulb is the application.** What holds of the runs of `appTask` holds of
its event loop. -/
theorem light_projects (device : P.Dev) (onOff : Bool) (currentLevel : UInt8) (success : Bool) :
    (light P device onOff currentLevel success).Projects appTask LightState.app (lightLabel P) where
  init := LightState.app_emberAfOnOffClusterInitCallback success
  step := by
    intro s i t hstep
    cases i with
    | app i =>
      obtain ⟨-, ht⟩ := Option.ite_none_left_eq_some.mp hstep
      obtain ⟨app, happ, rfl⟩ := Option.map_eq_some_iff.mp ht
      exact appTask.runFrom_cons_eq_some.mpr ⟨app, happ, rfl⟩
    | dispatch lighting =>
      simp only [light, lightStep] at hstep
      split at hstep
      · next event queue hqueue =>
        obtain rfl := Option.some.inj hstep
        refine appTask.runFrom_cons_eq_some.mpr ⟨_, step_dispatch hqueue, ?_⟩
        split
        · rw [LightState.app_lightingActionEventHandler]
          rfl
        · rfl
      · cases hstep
    | write write =>
      obtain ⟨-, ht⟩ := Option.ite_none_left_eq_some.mp hstep
      obtain rfl := Option.some.inj ht
      rw [LightState.app_writeAttribute]
      rfl
    | lambdaOnOff =>
      obtain ⟨-, rfl⟩ := Machine.guarded_eq_some.mp hstep
      rw [LightState.app_writeAttribute]
      rfl
    | lambdaCurrentLevel =>
      obtain ⟨-, rfl⟩ := Machine.guarded_eq_some.mp hstep
      rw [LightState.app_writeAttribute]
      rfl

end NcsExamples.MatterLight
