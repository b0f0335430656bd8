import NcsExamples.GpioDevice.Commands

/-! # GPIO device: the pin that is named

A command is meant to touch one pin, the one of the button or LED that its arguments name, and none
if they name nothing. The numbers are looked at modulo 256, the device is compared with the three
there are, and the number of the button or LED is not compared with anything. -/

namespace NcsExamples.GpioDevice

/-! ## What the commands are meant to touch -/

/-- There is a device `d`, and it has a button and an LED `i`. -/
def Named (d i : ℤ) : Prop := (1 ≤ d ∧ d ≤ 3) ∧ 1 ≤ i ∧ i ≤ 4

instance (d i : ℤ) : Decidable (Named d i) := inferInstanceAs (Decidable (_ ∧ _))

/-- The low byte of `d` is the number of a device. -/
def WrapsToDevice (d : ℤ) : Prop := 1 ≤ d % 256 ∧ d % 256 ≤ 3

instance : DecidablePred WrapsToDevice := fun _ => inferInstanceAs (Decidable (_ ∧ _))

/-- A pulse: on and then off. -/
def pulse (spec : SpecRef) : List Access := [.set spec on, .set spec off]

/-- One reading. -/
def reading (spec : SpecRef) : List Access := [.get spec]

/-- The accesses `as` are `ops` on pin `i` of device `d`, or none if there is no such pin, and they
stay within the array. -/
structure TouchesNamed (array : DeviceConfig → List GpioDtSpec) (ops : SpecRef → List Access)
    (d i : ℤ) (as : List Access) : Prop where
  named : Named d i →
    ∃ config, devices[(d - 1).toNat]? = some config ∧ as = ops ⟨array config, i - 1⟩
  unnamed : ¬ Named d i → as = []
  inBounds : ∀ a ∈ as, a.spec.InBounds

/-! ## What they touch -/

/-- The configuration that the number of a device selects. -/
def configOf (device : BitVec 8) : Option DeviceConfig :=
  if 1 ≤ device.toNat then devices[device.toNat - 1]? else none

/-- The accesses for a device and a number that have been narrowed to `uint8_t`. -/
def addressed (array : DeviceConfig → List GpioDtSpec) (ops : SpecRef → List Access)
    (device number : BitVec 8) : List Access :=
  match configOf device with
  | some config => ops ⟨array config, number.toNat - 1⟩
  | none => []

/-- The cases of `button_set` and `led_get` go by the configuration that is selected. -/
theorem cases_eq_elim {α : Type*} (f : DeviceConfig → α) (a : α) (device : BitVec 8) :
    (if device = board1 then f deviceConfig1
      else if device = board2 then f deviceConfig2
      else if device = board3 then f deviceConfig3
      else a) = (configOf device).elim a f := by
  split_ifs with h1 h2 h3
  · rw [h1]
    rfl
  · rw [h2]
    rfl
  · rw [h3]
    rfl
  · -- 0 is the number of no device, and from 4 on there is none in the list
    have hnone : configOf device = none := by
      unfold board1 at h1
      unfold board2 at h2
      unfold board3 at h3
      rw [configOf]
      split
      · rw [List.getElem?_eq_none_iff]
        change 3 ≤ device.toNat - 1
        bv_omega
      · rfl
    rw [hnone]
    rfl

/-- The accesses of `button_set`. -/
theorem accesses_buttonSet (device buttonNumber : BitVec 8) :
    accesses (buttonSet device buttonNumber) =
      addressed DeviceConfig.buttonSpec pulse device buttonNumber := by
  rw [buttonSet, addressed,
    cases_eq_elim fun config => press ⟨config.buttonSpec, buttonNumber.toNat - 1⟩]
  cases configOf device <;> rfl

/-- The accesses of `led_get`. -/
theorem accesses_ledGet (gpioPinGetDt : SpecRef → ℤ) (device ledNumber : BitVec 8) :
    accesses (ledGet gpioPinGetDt device ledNumber).1 =
      addressed DeviceConfig.ledSpec reading device ledNumber := by
  rw [ledGet, addressed,
    cases_eq_elim fun config => readLed gpioPinGetDt ⟨config.ledSpec, ledNumber.toNat - 1⟩]
  cases configOf device <;> rfl

@[simp] theorem accesses_append (es es' : List Effect) :
    accesses (es ++ es') = accesses es ++ accesses es' :=
  List.filterMap_append

/-- The accesses of `lb set`. -/
theorem accesses_cmdGpioSet (overflow : ℤ → BitVec 32) (argv1 argv2 : List Char) :
    accesses (cmdGpioSet overflow argv1 argv2).1 =
      addressed DeviceConfig.buttonSpec pulse
        ((atoi overflow argv1).setWidth 8) ((atoi overflow argv2).setWidth 8) := by
  rw [← accesses_buttonSet]
  rfl

/-- The accesses of `lb get`: what it logs is no access. -/
theorem accesses_cmdLedGet (overflow : ℤ → BitVec 32) (gpioPinGetDt : SpecRef → ℤ)
    (argv1 argv2 : List Char) :
    accesses (cmdLedGet overflow gpioPinGetDt argv1 argv2).1 =
      addressed DeviceConfig.ledSpec reading
        ((atoi overflow argv1).setWidth 8) ((atoi overflow argv2).setWidth 8) := by
  rw [← accesses_ledGet gpioPinGetDt, cmdLedGet]
  -- the status is logged, and an error before it if it is negative
  have hlog (val : ℤ) : accesses
      (if val < 0 then [.logErr "Could not get LED status, err: %d" [val]] else []) = [] := by
    split <;> rfl
  simp only [accesses_append, hlog, List.append_nil]
  exact List.append_nil _

/-! ## When it is the pin that is named -/

/-- The narrowing to `uint8_t` keeps the number modulo 256. -/
theorem toNat_setWidth_eight (x : BitVec 32) : ((x.setWidth 8).toNat : ℤ) = x.toInt % 256 := by
  rw [BitVec.toNat_setWidth, BitVec.toInt_eq_toNat_cond]
  split <;> omega

/-- A number whose low byte is the number of a device selects the configuration of that device. -/
theorem configOf_of_wraps {x : BitVec 32} (h : WrapsToDevice x.toInt) :
    ∃ config, devices[(x.toInt % 256 - 1).toNat]? = some config ∧
      configOf (x.setWidth 8) = some config := by
  obtain ⟨hlow, hhigh⟩ := h
  have hbyte := toNat_setWidth_eight x
  have hlt : (x.toInt % 256 - 1).toNat < devices.length := by
    change _ < 3
    omega
  refine ⟨devices[(x.toInt % 256 - 1).toNat], List.getElem?_eq_getElem hlt, ?_⟩
  have hindex : (x.setWidth 8).toNat - 1 = (x.toInt % 256 - 1).toNat := by omega
  rw [configOf, if_pos (by omega), hindex]
  exact List.getElem?_eq_getElem hlt

/-- Any other number selects none. -/
theorem configOf_of_not_wraps {x : BitVec 32} (h : ¬ WrapsToDevice x.toInt) :
    configOf (x.setWidth 8) = none := by
  have hbyte := toNat_setWidth_eight x
  rw [configOf]
  split
  · rw [List.getElem?_eq_none_iff]
    change 3 ≤ (x.setWidth 8).toNat - 1
    by_contra hlt
    exact h ⟨by omega, by omega⟩
  · rfl

/-- A device that there is selects its configuration. -/
theorem Named.wrapsToDevice {d i : ℤ} (h : Named d i) : WrapsToDevice d := by
  obtain ⟨⟨hlow, hhigh⟩, -⟩ := h
  constructor <;> omega

section Iff

variable {array : DeviceConfig → List GpioDtSpec} {ops : SpecRef → List Access} {d i : BitVec 32}

/-- **What is touched.** A device number with the low byte of a device makes the command touch this
device, at the index that the low byte of the other number gives. -/
theorem addressed_of_wraps (hd : WrapsToDevice d.toInt) (array : DeviceConfig → List GpioDtSpec)
    (ops : SpecRef → List Access) (i : BitVec 32) :
    ∃ config, devices[(d.toInt % 256 - 1).toNat]? = some config ∧
      addressed array ops (d.setWidth 8) (i.setWidth 8) =
        ops ⟨array config, i.toInt % 256 - 1⟩ := by
  obtain ⟨config, hdevice, hconfig⟩ := configOf_of_wraps hd
  refine ⟨config, hdevice, ?_⟩
  rw [addressed, hconfig, ← toNat_setWidth_eight]

/-- Any other device number makes it touch nothing. -/
theorem addressed_of_not_wraps (hd : ¬ WrapsToDevice d.toInt) :
    addressed array ops (d.setWidth 8) (i.setWidth 8) = [] := by
  rw [addressed, configOf_of_not_wraps hd]

/-- The pin that is named is within its array, which has four entries. -/
theorem inBounds_of_named (hlength : ∀ config ∈ devices, (array config).length = 4) {d i : ℤ}
    (h : Named d i) {config : DeviceConfig} (hconfig : devices[(d - 1).toNat]? = some config) :
    (SpecRef.mk (array config) (i - 1)).InBounds := by
  obtain ⟨-, hlow, hhigh⟩ := h
  have hfour := hlength config (List.mem_of_getElem? hconfig)
  constructor
  · change 0 ≤ i - 1
    omega
  · change i - 1 < (array config).length
    omega

/-- **The named pin is touched** exactly if the arguments name one, or the low byte of the device
number is not the number of a device. -/
theorem touchesNamed_addressed_iff (hlength : ∀ config ∈ devices, (array config).length = 4)
    (hops : ∀ spec, ops spec ≠ []) (hspec : ∀ spec, ∀ a ∈ ops spec, a.spec = spec) :
    TouchesNamed array ops d.toInt i.toInt (addressed array ops (d.setWidth 8) (i.setWidth 8)) ↔
      Named d.toInt i.toInt ∨ ¬ WrapsToDevice d.toInt := by
  constructor
  · intro h
    by_contra hneither
    push Not at hneither
    obtain ⟨hunnamed, hwraps⟩ := hneither
    obtain ⟨config, -, htouched⟩ := addressed_of_wraps hwraps array ops i
    exact hops _ (htouched.symm.trans (h.unnamed hunnamed))
  · rintro (hnamed | hwraps)
    · obtain ⟨config, hdevice, htouched⟩ :=
        addressed_of_wraps hnamed.wrapsToDevice array ops i
      -- numbers that name a pin are their own low bytes
      obtain ⟨⟨hdlow, hdhigh⟩, hilow, hihigh⟩ := id hnamed
      have hd : d.toInt % 256 = d.toInt := by omega
      have hi : i.toInt % 256 = i.toInt := by omega
      rw [hd] at hdevice
      rw [hi] at htouched
      refine ⟨fun _ => ⟨config, hdevice, htouched⟩, absurd hnamed, ?_⟩
      intro a ha
      rw [htouched] at ha
      rw [hspec _ a ha]
      exact inBounds_of_named hlength hnamed hdevice
    · rw [addressed_of_not_wraps hwraps]
      exact ⟨fun hnamed => absurd hnamed.wrapsToDevice hwraps, fun _ => rfl, by simp⟩

end Iff

/-- **The commands touch exactly the named pin.** Whatever is typed, with the numbers `d` and `i`
that `atoi` makes of it, `lb set` pulses and `lb get` reads pin `i` of device `d` and nothing else,
exactly if there is this pin or the low byte of `d` is not the number of a device. -/
theorem commands_touchNamed_iff (overflow : ℤ → BitVec 32) (gpioPinGetDt : SpecRef → ℤ)
    (argv1 argv2 : List Char) :
    let d := (atoi overflow argv1).toInt
    let i := (atoi overflow argv2).toInt
    (TouchesNamed DeviceConfig.buttonSpec pulse d i (accesses (cmdGpioSet overflow argv1 argv2).1) ↔
      Named d i ∨ ¬ WrapsToDevice d) ∧
    (TouchesNamed DeviceConfig.ledSpec reading d i
        (accesses (cmdLedGet overflow gpioPinGetDt argv1 argv2).1) ↔
      Named d i ∨ ¬ WrapsToDevice d) := by
  intro d i
  rw [accesses_cmdGpioSet, accesses_cmdLedGet]
  constructor
  · apply touchesNamed_addressed_iff (by decide)
    · simp [pulse]
    · simp [pulse, Access.spec]
  · apply touchesNamed_addressed_iff (by decide)
    · simp [reading]
    · simp [reading, Access.spec]

/-- Button 0 of device 1: the entry before the array. -/
theorem commands_not_touchNamed : ¬ ∀ (overflow : ℤ → BitVec 32) (gpioPinGetDt : SpecRef → ℤ)
    (argv1 argv2 : List Char),
    TouchesNamed DeviceConfig.buttonSpec pulse (atoi overflow argv1).toInt
      (atoi overflow argv2).toInt (accesses (cmdGpioSet overflow argv1 argv2).1) ∧
    TouchesNamed DeviceConfig.ledSpec reading (atoi overflow argv1).toInt
      (atoi overflow argv2).toInt (accesses (cmdLedGet overflow gpioPinGetDt argv1 argv2).1) := by
  intro h
  obtain ⟨hset, -⟩ := h (fun _ => 0) (fun _ => 0) ['1'] ['0']
  exact absurd (hset.unnamed (by decide)) (by decide)

/-! ## Every number can be typed -/

/-- `atoi` returns every `int` for some text. -/
theorem atoi_showInt (overflow : ℤ → BitVec 32) (x : BitVec 32) :
    atoi overflow (DecimalText.showInt x.toInt) = x := by
  have hlow : -2 ^ 31 ≤ x.toInt := BitVec.le_toInt x
  have hhigh : x.toInt < 2 ^ 31 := BitVec.toInt_lt
  rw [atoi, DecimalText.readInt_showInt, if_pos ⟨hlow, hhigh⟩]
  exact BitVec.ofInt_toInt

/-- So every failure can be typed at the shell: whatever the two numbers are, if the low byte of the
first one is the number of a device, then for some texts the commands touch this device, at the
index that the low byte of the second one gives. -/
theorem exists_touched (overflow : ℤ → BitVec 32) (gpioPinGetDt : SpecRef → ℤ) (d i : BitVec 32)
    (hwraps : WrapsToDevice d.toInt) :
    ∃ argv1 argv2 config, atoi overflow argv1 = d ∧ atoi overflow argv2 = i ∧
      devices[(d.toInt % 256 - 1).toNat]? = some config ∧
      accesses (cmdGpioSet overflow argv1 argv2).1 =
        pulse ⟨config.buttonSpec, i.toInt % 256 - 1⟩ ∧
      accesses (cmdLedGet overflow gpioPinGetDt argv1 argv2).1 =
        reading ⟨config.ledSpec, i.toInt % 256 - 1⟩ := by
  obtain ⟨config, hdevice, hset⟩ := addressed_of_wraps hwraps DeviceConfig.buttonSpec pulse i
  obtain ⟨config', hdevice', hget⟩ := addressed_of_wraps hwraps DeviceConfig.ledSpec reading i
  obtain rfl := Option.some.inj (hdevice.symm.trans hdevice')
  refine ⟨DecimalText.showInt d.toInt, DecimalText.showInt i.toInt, config, atoi_showInt overflow d,
    atoi_showInt overflow i, hdevice, ?_, ?_⟩
  · rw [accesses_cmdGpioSet, atoi_showInt, atoi_showInt]
    exact hset
  · rw [accesses_cmdLedGet, atoi_showInt, atoi_showInt]
    exact hget

/-! ## The view of all LEDs -/

/-- `lb view` reads every LED of every device once, in their order. -/
theorem accesses_cmdGpioView (gpioPinGetDt : SpecRef → ℤ) :
    accesses (cmdGpioView gpioPinGetDt) = devices.flatMap fun config =>
      (List.range config.ledSpec.length).map fun j => .get ⟨config.ledSpec, j⟩ :=
  rfl

/-- No pin is wired to two buttons or LEDs. -/
theorem pins_nodup :
    (devices.flatMap fun config => config.buttonSpec ++ config.ledSpec).Nodup := by
  decide

end NcsExamples.GpioDevice
