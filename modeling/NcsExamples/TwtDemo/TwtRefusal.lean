import NcsExamples.TwtDemo.Twt

/-! # TWT demo: a refused request

`wifi_set_twt` returns -1 if `net_mgmt` fails. By then the branch of the teardown has moved on to the
next flow and has cleared the flag and the LED, so that the flow which is still there can be named
no more; the branch of the setup has changed nothing. -/

namespace NcsExamples.TwtDemo

/-- What happens next to the device. -/
inductive DeviceInput
  /-- Button 1 is pressed, and `net_mgmt` fails or not. -/
  | press (fails : Bool)
  /-- A TWT event arrives. -/
  | event (resp : TwtParams)
  deriving DecidableEq

/-- One step of the device. -/
def deviceStep (d : Device) : DeviceInput → Option Device
  | .press fails => some (wifiSetTwt fails d).1
  | .event resp => some (handleWifiTwtEvent resp d)

/-- The device on its own, whatever arrives. -/
def device : Machine Device DeviceInput := ⟨⟨false, 1, false⟩, deviceStep⟩

/-- A call of `wifi_set_twt` that returns -1 leaves the device as it was, so that the next press
submits the same request. -/
def Atomic (d : Device) (i : DeviceInput) (d' : Device) : Prop :=
  ∀ fails, i = .press fails → (wifiSetTwt fails d).2.2 = -1 → d' = d ∧ twtRequest d' = twtRequest d

/-- A request that fails is a SETUP: no flow is thought to be there. -/
def RefusesSetup (d : Device) (i : DeviceInput) : Prop :=
  i = .press true → d.nrfWifiTwtEnabled = false

variable {d d' : Device} {i : DeviceInput}

/-- `wifi_set_twt` returns -1 exactly if `net_mgmt` fails. -/
theorem wifiSetTwt_eq_neg_one_iff {fails : Bool} :
    (wifiSetTwt fails d).2.2 = -1 ↔ fails = true := by
  cases fails with
  | true => exact iff_of_true rfl rfl
  | false => exact iff_of_false (by simp [wifiSetTwt]) nofun

/-- `wifi_set_twt` changes nothing exactly if TWT is off. -/
theorem wifiSetTwt_fst_eq_iff {fails : Bool} :
    (wifiSetTwt fails d).1 = d ↔ d.nrfWifiTwtEnabled = false := by
  constructor
  · intro h
    by_contra henabled
    have hcleared : (wifiSetTwt fails d).1.nrfWifiTwtEnabled = false := by
      simp [wifiSetTwt, henabled]
    rw [h] at hcleared
    exact henabled hcleared
  · intro hdisabled
    simp [wifiSetTwt, hdisabled]

/-- A step is atomic exactly if no teardown fails in it. -/
theorem atomic_iff (hs : device.step d i = some d') : Atomic d i d' ↔ RefusesSetup d i := by
  constructor
  · rintro hatomic rfl
    obtain rfl := Option.some.inj hs
    obtain ⟨heq, -⟩ := hatomic true rfl (wifiSetTwt_eq_neg_one_iff.mpr rfl)
    exact wifiSetTwt_fst_eq_iff.mp heq
  · rintro hsetup fails rfl hreturns
    obtain rfl := Option.some.inj hs
    obtain rfl := wifiSetTwt_eq_neg_one_iff.mp hreturns
    have heq : (wifiSetTwt true d).1 = d := wifiSetTwt_fst_eq_iff.mpr (hsetup rfl)
    exact ⟨heq, congrArg twtRequest heq⟩

/-- **A refused request changes nothing.** In a run every call of `wifi_set_twt` that returns -1
leaves the device as it was, exactly if in every such call the flag is clear. -/
theorem twtRefusal_atomic_iff (is : List DeviceInput) :
    device.Along Atomic device.init is ↔ device.Meets RefusesSetup is := by
  apply Machine.along_congr fun _ => True
  · intro d i d' _ hs
    exact atomic_iff hs
  · intro d i d' _ _ _
    trivial
  · trivial

/-- A flow is accepted, and the teardown of it fails. -/
theorem twtRefusal_not_atomic : ¬ ∀ is : List DeviceInput,
    device.Along Atomic device.init is := by
  intro h
  have haccepted : device.run [.press false, .event (acceptEvent (twtRequest device.init) 1)] =
    some ⟨true, 1, true⟩ := rfl
  have halong := h ([.press false, .event (acceptEvent (twtRequest device.init) 1)] ++
    [.press true])
  obtain ⟨-, hrefused⟩ := (Machine.along_append haccepted).mp halong
  obtain ⟨hatomic, -⟩ := hrefused _ rfl
  obtain ⟨heq, -⟩ := hatomic true rfl rfl
  exact absurd heq (by decide)

/-- After a teardown that fails, the next press asks for another flow. -/
theorem twtRequest_of_refused (henabled : d.nrfWifiTwtEnabled = true) :
    (twtRequest (wifiSetTwt true d).1).operation = .setup ∧
      (twtRequest (wifiSetTwt true d).1).flowId ≠ (twtRequest d).flowId := by
  have hnext : (if d.twtFlowId < wifiMaxTwtFlows then d.twtFlowId + 1 else 1) ≠ d.twtFlowId := by
    unfold wifiMaxTwtFlows
    split <;> omega
  constructor
  · simp [twtRequest, wifiSetTwt, henabled]
  · simpa [twtRequest, wifiSetTwt, henabled] using hnext

end NcsExamples.TwtDemo
