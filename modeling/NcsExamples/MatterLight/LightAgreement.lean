import NcsExamples.MatterLight.FunctionButton
import NcsExamples.MatterLight.Lighting

/-! # Matter light bulb: bulb and clusters agree

A scheduled lambda makes the clusters agree with the bulb, whatever they were before, so only the
states matter in which no lambda and no event of the lighting button is pending. There a write from
remote must leave the two in agreement by itself. It does not when it turns the bulb on at another
level than the one written while the bulb was off, and when it turns the bulb off by the level 0. -/

namespace NcsExamples.MatterLight.LightState

variable {P : PWMDevice}

/-- The clusters agree with the bulb. -/
structure Agrees (s : LightState P) : Prop where
  onOff : s.onOff = s.isTurnedOn
  currentLevel : s.isTurnedOn = true → s.currentLevel = s.getLevel

/-- A lambda or an event of the lighting button is pending. -/
def Pending (s : LightState P) : Prop :=
  0 < s.lambdas ∨ s.inLambda = true ∨ ∃ e ∈ s.app.queue, e.handler = .lightingAction

instance (s : LightState P) : Decidable s.Pending := inferInstanceAs (Decidable (_ ∨ _ ∨ _))

/-- Whenever nothing is pending, the clusters agree with the bulb. -/
def AgreesAtRest (s : LightState P) : Prop := ¬ s.Pending → s.Agrees

/-- While nothing is pending, a remote On finds the bulb on or its level in the cluster, and a remote
level 0 finds the bulb off or at this level. -/
def Settles (s : LightState P) : LightInput → Prop
  | .write (.onOff value) => ¬ s.Pending → value = true → s.isTurnedOn = false →
      s.currentLevel = s.getLevel
  | .write (.currentLevel value) => ¬ s.Pending → value = 0 → s.isTurnedOn = true →
      s.getLevel = 0
  | _ => True

/-- The invariant: agreement at rest; while a lambda is under way and no other one follows, the
OnOff cluster agrees; the events of the lighting button have the type of button events. -/
structure Inv (s : LightState P) : Prop where
  agrees : s.AgreesAtRest
  onOff : s.inLambda = true → s.lambdas = 0 → s.onOff = s.isTurnedOn
  buttons : ∀ e ∈ s.app.queue, e.handler = .lightingAction → e.type = .button

variable {s t : LightState P}

/-! ## Actions -/

/-- An action that no button has asked for schedules nothing. -/
theorem initiateAction_lighting (action : PWMAction) : s.initiateAction action .lighting =
    { s with mPWMDevice := (P.initiateAction action s.mPWMDevice).1 } := by
  unfold initiateAction actionCompleted
  dsimp only
  split <;> rfl

/-- An action that a button has asked for schedules a lambda, if it is initiated. -/
theorem initiateAction_button {action : PWMAction}
    (h : (P.initiateAction action s.mPWMDevice).2 = true) : s.initiateAction action .button =
    { s with
      mPWMDevice := (P.initiateAction action s.mPWMDevice).1
      lambdas := s.lambdas + 1 } := by
  unfold initiateAction
  dsimp only
  rw [if_pos h]
  rfl

/-! ## Writes -/

/-- A write of OnOff asks the device for what is written. -/
theorem writeAttribute_onOff (value : Bool) : s.writeAttribute (.onOff value) =
    { s with
      onOff := value
      mPWMDevice := (P.initiateAction (if value then .on else .off) s.mPWMDevice).1 } :=
  initiateAction_lighting (s := { s with onOff := value }) _

/-- A write of CurrentLevel asks the device for the level, if it is on. -/
theorem writeAttribute_currentLevel (value : UInt8) : s.writeAttribute (.currentLevel value) =
    { s with
      currentLevel := value
      mPWMDevice := if s.isTurnedOn then (P.initiateAction (.level value) s.mPWMDevice).1
        else s.mPWMDevice } := by
  show (if s.isTurnedOn then _ else _) = _
  cases s.isTurnedOn with
  | true => exact initiateAction_lighting (s := { s with currentLevel := value }) _
  | false => rfl

/-- A write of an attribute leaves alone what is pending. -/
theorem writeAttribute_frame (write : AttributeWrite) :
    (s.writeAttribute write).app = s.app ∧ (s.writeAttribute write).lambdas = s.lambdas ∧
      (s.writeAttribute write).inLambda = s.inLambda := by
  cases write with
  | onOff value =>
    rw [writeAttribute_onOff]
    exact ⟨rfl, rfl, rfl⟩
  | currentLevel value =>
    rw [writeAttribute_currentLevel]
    exact ⟨rfl, rfl, rfl⟩
  | other => exact ⟨rfl, rfl, rfl⟩

theorem pending_writeAttribute (write : AttributeWrite) :
    (s.writeAttribute write).Pending ↔ s.Pending := by
  obtain ⟨happ, hlambdas, hinLambda⟩ := writeAttribute_frame (s := s) write
  unfold Pending
  rw [happ, hlambdas, hinLambda]

/-- A write of OnOff keeps the agreement, unless it turns the bulb on at another level. -/
theorem agrees_writeAttribute_onOff_iff (hs : s.Agrees) (value : Bool) :
    (s.writeAttribute (.onOff value)).Agrees ↔
      (value = true → s.isTurnedOn = false → s.currentLevel = s.getLevel) := by
  have hon : (s.writeAttribute (.onOff value)).isTurnedOn = value := by
    rw [writeAttribute_onOff]
    exact PWMDevice.isTurnedOn_switch value s.mPWMDevice
  have honOff : (s.writeAttribute (.onOff value)).onOff = value := by rw [writeAttribute_onOff]
  cases value with
  | false =>
    refine iff_of_true ⟨honOff.trans hon.symm, fun h => ?_⟩ fun h => ?_
    · rw [hon] at h
      cases h
    · cases h
  | true =>
    have hlevel : (s.writeAttribute (.onOff true)).getLevel = s.getLevel := by
      rw [writeAttribute_onOff]
      exact PWMDevice.getLevel_on s.mPWMDevice
    have hcurrent : (s.writeAttribute (.onOff true)).currentLevel = s.currentLevel := by
      rw [writeAttribute_onOff]
    constructor
    · intro h _ _
      rw [← hcurrent, h.currentLevel hon, hlevel]
    · intro h
      refine ⟨honOff.trans hon.symm, fun _ => ?_⟩
      rw [hcurrent, hlevel]
      cases hd : s.isTurnedOn with
      | true => exact hs.currentLevel hd
      | false => exact h rfl hd

/-- A write of CurrentLevel keeps the agreement, unless it turns the bulb off. -/
theorem agrees_writeAttribute_currentLevel_iff (hs : s.Agrees) (value : UInt8) :
    (s.writeAttribute (.currentLevel value)).Agrees ↔
      (value = 0 → s.isTurnedOn = true → s.getLevel = 0) := by
  rw [writeAttribute_currentLevel]
  have honOff := hs.onOff
  cases hd : s.isTurnedOn with
  | false =>
    -- the bulb is off and takes no level
    rw [if_neg Bool.false_ne_true]
    refine iff_of_true ⟨honOff, fun h => ?_⟩ fun _ h => ?_
    · have h' : s.isTurnedOn = true := h
      rw [hd] at h'
      cases h'
    · cases h
  | true =>
    rw [if_pos rfl]
    rw [hd] at honOff
    by_cases heq : value = s.getLevel
    · have hsame : P.initiateAction (.level value) s.mPWMDevice = (s.mPWMDevice, false) := by
        rw [heq]
        exact P.level_of_eq
      rw [hsame]
      refine iff_of_true ⟨honOff.trans hd.symm, fun _ => heq⟩ fun hzero _ => ?_
      rw [← heq, hzero]
    · by_cases hzero : value = 0
      · subst hzero
        have hoff := (P.level_zero (Ne.symm heq)).2
        refine iff_of_false (fun h => ?_) fun h => heq (h rfl rfl).symm
        have hcontra : true = false := (honOff.symm.trans h.onOff).trans hoff
        cases hcontra
      · obtain ⟨-, hon, hlevel⟩ := P.level_of_ne hd heq hzero
        refine iff_of_true ⟨honOff.trans hon.symm, fun _ => hlevel.symm⟩ fun h => ?_
        exact absurd h hzero

/-- A write from remote leaves an invariant state in agreement exactly if it settles. -/
theorem Inv.agreesAtRest_write_iff (hs : s.Inv) (write : AttributeWrite) :
    (s.writeAttribute write).AgreesAtRest ↔ s.Settles (.write write) := by
  unfold AgreesAtRest
  rw [pending_writeAttribute]
  cases write with
  | onOff value =>
    exact forall_congr' fun hrest => agrees_writeAttribute_onOff_iff (hs.agrees hrest) value
  | currentLevel value =>
    exact forall_congr' fun hrest => agrees_writeAttribute_currentLevel_iff (hs.agrees hrest) value
  | other => exact iff_of_true hs.agrees trivial

/-! ## Other steps -/

/-- The initialisation of the OnOff cluster schedules a lambda. -/
theorem inv_emberAfOnOffClusterInitCallback (success : Bool) (happ : s.app.queue = [])
    (hinLambda : s.inLambda = false) : (s.emberAfOnOffClusterInitCallback success).Inv := by
  have hframe : (s.emberAfOnOffClusterInitCallback success).app = s.app ∧
      (s.emberAfOnOffClusterInitCallback success).inLambda = s.inLambda ∧
      0 < (s.emberAfOnOffClusterInitCallback success).lambdas := by
    unfold emberAfOnOffClusterInitCallback
    split
    · rw [initiateAction_lighting]
      exact ⟨rfl, rfl, Nat.succ_pos _⟩
    · exact ⟨rfl, rfl, Nat.succ_pos _⟩
  obtain ⟨happ', hinLambda', hlambdas⟩ := hframe
  refine ⟨fun hrest => absurd (Or.inl hlambdas) hrest, fun h => ?_, fun e he => ?_⟩
  · rw [hinLambda', hinLambda] at h
    cases h
  · rw [happ', happ] at he
    cases he

/-- The other parts of the application leave the bulb and the clusters alone. -/
theorem Inv.app (hs : s.Inv) {i : Input} {app : State} (hdispatch : i ≠ .dispatch)
    (hstep : step s.app i = some app) : Inv { s with app } where
  agrees hrest := by
    have hagrees : s.Agrees := hs.agrees fun hpending => hrest ?_
    · exact ⟨hagrees.onOff, hagrees.currentLevel⟩
    · refine hpending.imp_right fun h => h.imp_right ?_
      rintro ⟨e, he, hhandler⟩
      exact ⟨e, subset_queue_of_step hstep hdispatch he, hhandler⟩
  onOff := hs.onOff
  buttons e he hhandler := by
    rcases mem_queue_of_step hstep hdispatch he with he | ⟨_, _, he⟩ | rfl | ⟨handler, -, he⟩
    · exact hs.buttons e he hhandler
    · exact (mem_buttonEventHandler he).1
    · cases hhandler
    · obtain ⟨heq, hne⟩ := handler_of_otherEvent he
      exact absurd (heq.symm.trans hhandler) hne

/-- A button event toggles the bulb and schedules a lambda. -/
theorem lightingActionEventHandler_button (lighting : PWMAction × AppEventType) :
    s.lightingActionEventHandler .button lighting =
      { s with
        mPWMDevice := (P.initiateAction (if s.isTurnedOn then .off else .on) s.mPWMDevice).1
        lambdas := s.lambdas + 1 } := by
  have htoggle := initiateAction_button (PWMDevice.initiated_toggle s.mPWMDevice)
  refine Eq.trans ?_ htoggle
  show (if (if s.isTurnedOn then PWMAction.off else PWMAction.on) ≠ .invalid then
    s.initiateAction (if s.isTurnedOn then .off else .on) .button else s) = _
  rw [if_pos (by split <;> decide)]
  rfl

/-- A dispatch either schedules a lambda or leaves the bulb and the clusters alone. -/
theorem Inv.dispatch (hs : s.Inv) {lighting : PWMAction × AppEventType}
    (hstep : lightStep P s (.dispatch lighting) = some t) : t.Inv := by
  simp only [lightStep] at hstep
  split at hstep
  · next event queue hqueue =>
    obtain rfl := Option.some.inj hstep
    have hleft : (dispatchEvent event { s.app with queue }).queue = queue :=
      (dispatchEvent_frame event _).1
    have hbuttons : ∀ e ∈ (dispatchEvent event { s.app with queue }).queue,
        e.handler = .lightingAction → e.type = .button := by
      intro e he
      rw [hleft] at he
      exact hs.buttons e (by rw [hqueue]; exact List.mem_cons_of_mem event he)
    split
    · next hhandler =>
      have htype : event.type = .button :=
        hs.buttons event (by rw [hqueue]; exact List.mem_cons_self) hhandler
      rw [htype, lightingActionEventHandler_button]
      refine ⟨fun hrest => absurd (Or.inl (Nat.succ_pos _)) hrest, fun _ h => ?_, hbuttons⟩
      cases h
    · next hhandler =>
      refine ⟨fun hrest => ?_, hs.onOff, hbuttons⟩
      have hagrees : s.Agrees := hs.agrees fun hpending => hrest ?_
      · exact ⟨hagrees.onOff, hagrees.currentLevel⟩
      · -- an event of the lighting button is still there
        refine hpending.imp_right fun h => h.imp_right ?_
        rintro ⟨e, he, hlighting⟩
        rw [hqueue] at he
        rcases List.mem_cons.mp he with rfl | he
        · exact absurd hlighting hhandler
        · exact ⟨e, by rw [hleft]; exact he, hlighting⟩
  · cases hstep

/-- The lambda writes what the bulb is. -/
theorem Inv.lambdaOnOff (hs : s.Inv) (hstep : lightStep P s .lambdaOnOff = some t) : t.Inv := by
  obtain ⟨-, rfl⟩ := Machine.guarded_eq_some.mp hstep
  rw [writeAttribute_onOff]
  refine ⟨fun hrest => absurd (Or.inr (Or.inl rfl)) hrest, fun _ _ => ?_, hs.buttons⟩
  exact (PWMDevice.isTurnedOn_switch s.isTurnedOn s.mPWMDevice).symm

/-- After the lambda bulb and clusters agree, unless another one is scheduled. -/
theorem Inv.lambdaCurrentLevel (hs : s.Inv)
    (hstep : lightStep P s .lambdaCurrentLevel = some t) : t.Inv := by
  obtain ⟨hinLambda, rfl⟩ := Machine.guarded_eq_some.mp hstep
  have hsame : (if s.isTurnedOn then (P.initiateAction (.level s.getLevel) s.mPWMDevice).1
      else s.mPWMDevice) = s.mPWMDevice := by
    split
    · exact congrArg Prod.fst P.level_of_eq
    · rfl
  have honOff : s.lambdas = 0 → s.onOff = s.isTurnedOn := hs.onOff hinLambda
  rw [writeAttribute_currentLevel]
  show Inv { s with
    inLambda := false
    currentLevel := s.getLevel
    mPWMDevice := if s.isTurnedOn then (P.initiateAction (.level s.getLevel) s.mPWMDevice).1
      else s.mPWMDevice }
  rw [hsame]
  constructor
  · intro hrest
    have hlambdas : s.lambdas = 0 := Nat.eq_zero_of_not_pos fun h => hrest (Or.inl h)
    exact ⟨honOff hlambdas, fun _ => rfl⟩
  · intro h
    cases h
  · exact hs.buttons

/-! ## Runs -/

/-- A step leaves bulb and clusters in agreement exactly if it settles, and keeps the invariant
then. -/
theorem Inv.step (hs : s.Inv) {i : LightInput} (hstep : lightStep P s i = some t) :
    (t.AgreesAtRest ↔ s.Settles i) ∧ (t.AgreesAtRest → t.Inv) := by
  cases i with
  | app i =>
    obtain ⟨hdispatch, ht⟩ := Option.ite_none_left_eq_some.mp hstep
    obtain ⟨app, happ, rfl⟩ := Option.map_eq_some_iff.mp ht
    have ht := hs.app hdispatch happ
    exact ⟨iff_of_true ht.agrees trivial, fun _ => ht⟩
  | dispatch lighting =>
    have ht := hs.dispatch hstep
    exact ⟨iff_of_true ht.agrees trivial, fun _ => ht⟩
  | write write =>
    obtain ⟨hinLambda, ht⟩ := Option.ite_none_left_eq_some.mp hstep
    obtain rfl := Option.some.inj ht
    refine ⟨hs.agreesAtRest_write_iff write, fun hagrees => ?_⟩
    obtain ⟨happ, -, hinLambda'⟩ := writeAttribute_frame (s := s) write
    refine ⟨hagrees, fun h => ?_, ?_⟩
    · rw [hinLambda'] at h
      exact absurd h hinLambda
    · rw [happ]
      exact hs.buttons
  | lambdaOnOff =>
    have ht := hs.lambdaOnOff hstep
    exact ⟨iff_of_true ht.agrees trivial, fun _ => ht⟩
  | lambdaCurrentLevel =>
    have ht := hs.lambdaCurrentLevel hstep
    exact ⟨iff_of_true ht.agrees trivial, fun _ => ht⟩

/-- **Bulb and clusters agree.** In every state of a run in which no lambda and no event of the
lighting button is pending, the OnOff cluster agrees with the bulb, and the LevelControl cluster while
the bulb is on, exactly if every remote On that comes while nothing is pending finds the bulb on or
its level in the cluster, and every remote level 0 finds the bulb off or at this level. -/
theorem light_agrees_iff (device : P.Dev) (onOff : Bool) (currentLevel : UInt8) (success : Bool)
    (is : List LightInput) :
    (light P device onOff currentLevel success).Along (fun _ _ t => t.AgreesAtRest)
        (light P device onOff currentLevel success).init is ↔
      (light P device onOff currentLevel success).Meets Settles is := by
  apply Machine.along_congr Inv
  · intro s i t hs hstep
    exact (hs.step hstep).1
  · intro s i t hs hagrees hstep
    exact (hs.step hstep).2 hagrees
  · exact inv_emberAfOnOffClusterInitCallback success rfl rfl

/-! ## The device of the SDK -/

/-- The state of the device. -/
structure PWM where
  turnedOn : Bool
  level : UInt8
  deriving DecidableEq, Repr

/-- `InitiateAction` on that state. -/
def PWM.initiateAction (action : PWMAction) (d : PWM) : PWM × Bool :=
  match action with
  | .on => if d.turnedOn then (d, false) else ({ d with turnedOn := true }, true)
  | .off => if d.turnedOn then ({ d with turnedOn := false }, true) else (d, false)
  | .level value => if value = d.level then (d, false) else (⟨value ≠ 0, value⟩, true)
  | .invalid => (d, false)

/-- A device with the laws. -/
def pwm : PWMDevice where
  Dev := PWM
  isTurnedOn := PWM.turnedOn
  getLevel := PWM.level
  initiateAction := PWM.initiateAction
  on_of_on h := if_pos h
  on_of_off h := by simp [PWM.initiateAction, h]
  off_of_off h := by simp [PWM.initiateAction, h]
  off_of_on h := by simp [PWM.initiateAction, h]
  level_of_eq := if_pos rfl
  level_zero h := by simp [PWM.initiateAction, h.symm]
  level_of_ne hon hne hzero := by simp [PWM.initiateAction, hne, hzero]

/-- The first lambda runs, and then a level is written while the bulb is off, and the bulb is turned
on from remote. -/
theorem light_not_agrees :
    ¬ (light pwm ⟨false, 254⟩ false 254 true).Along (fun _ _ t => t.AgreesAtRest)
      (light pwm ⟨false, 254⟩ false 254 true).init
      [.lambdaOnOff, .lambdaCurrentLevel, .write (.currentLevel 10), .write (.onOff true)] := by
  intro h
  obtain ⟨-, h⟩ := h _ rfl
  obtain ⟨-, h⟩ := h _ rfl
  obtain ⟨-, h⟩ := h _ rfl
  obtain ⟨hagrees, -⟩ := h _ rfl
  have hlevel := (hagrees (by decide)).currentLevel rfl
  exact absurd hlevel (by decide)

end NcsExamples.MatterLight.LightState
