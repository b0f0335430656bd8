import NcsExamples.GpioDevice.Pins

/-! # GPIO device: what the boot leaves behind

`dev_init_function` returns 0 exactly if the driver refuses nothing, and the pins it has configured
by then stay as they are: no command configures a pin, and no pin is wired to an LED and to a
button. -/

namespace NcsExamples.GpioDevice

variable {spec : SpecRef} {pin : GpioDtSpec} {s t : Pins} {op : PinOp} {ops : List PinOp}

/-! ## Directions -/

/-- An operation configures the pins of LEDs as inputs and those of buttons as outputs only. -/
def PinOp.Fits : PinOp → Prop
  | .configure spec direction _ => ∀ pin ∈ spec.get?, pin ∈ wired direction
  | .access _ => True

/-- A pin that is configured as it is meant to be stays so. -/
theorem direction_step {d : Direction} (hpin : pin ∈ wired d) (hop : op.Fits)
    (h : (s pin).direction = some d) (hs : chip.step s op = some t) :
    (t pin).direction = some d := by
  cases op with
  | configure spec d' err =>
    obtain ⟨pin', hpin', rfl⟩ := Option.map_eq_some_iff.mp hs
    rcases eq_or_ne pin pin' with rfl | hne
    · -- it is configured again, in the same direction or not at all
      obtain rfl := wired_disjoint hpin (hop pin hpin')
      rw [Function.update_self]
      split
      · rfl
      · exact h
    · rw [Function.update_of_ne hne]
      exact h
  | access a =>
    cases a with
    | set spec value =>
      obtain ⟨pin', -, rfl⟩ := Option.map_eq_some_iff.mp hs
      rcases eq_or_ne pin pin' with rfl | hne
      · rw [Function.update_self]
        exact h
      · rw [Function.update_of_ne hne]
        exact h
    | get spec =>
      obtain ⟨-, -, rfl⟩ := Option.map_eq_some_iff.mp hs
      exact h

/-- A pin that the operations configure is configured after them. -/
theorem direction_of_mem {d : Direction} (hops : ∀ op ∈ ops, op.Fits)
    (hmem : .configure spec d 0 ∈ ops) (hpin : spec.get? = some pin)
    (hrun : chip.runFrom s ops = some t) : (t pin).direction = some d := by
  have hwired : pin ∈ wired d := hops _ hmem pin hpin
  obtain ⟨before, after, rfl⟩ := List.append_of_mem hmem
  obtain ⟨u, -, hrun⟩ := chip.runFrom_append_eq_some.mp hrun
  obtain ⟨v, hv, hrest⟩ := chip.runFrom_cons_eq_some.mp hrun
  have hconfigured : (v pin).direction = some d := by
    obtain ⟨pin', hpin', rfl⟩ := Option.map_eq_some_iff.mp hv
    obtain rfl := Option.some.inj (hpin'.symm.trans hpin)
    rw [Function.update_self, if_pos rfl]
  exact Machine.invariant_inputs (fun s => (s pin).direction = some d) (r := PinOp.Fits)
    (fun _ _ _ h hop hs => direction_step hwired hop h hs)
    (fun op hop => hops op (List.mem_append_right before (List.mem_cons_of_mem _ hop)))
    hconfigured hrest

/-! ## Loops that succeed -/

/-- A loop succeeds exactly if all its rounds do, and then it has done what they do. -/
theorem initLoop_eq_zero_iff {body : ℕ → List PinOp × ℤ} {is : List ℕ} :
    (initLoop body is).2 = 0 ↔ ∀ i ∈ is, (body i).2 = 0 := by
  induction is with
  | nil => simp [initLoop]
  | cons i is ih =>
    rw [List.forall_mem_cons, ← ih, initLoop]
    split
    · next hi => exact (and_iff_right hi).symm
    · next hi => exact iff_of_false hi fun h => hi h.1

/-- What a loop does that succeeds. -/
theorem initLoop_fst {body : ℕ → List PinOp × ℤ} {is : List ℕ} (h : ∀ i ∈ is, (body i).2 = 0) :
    (initLoop body is).1 = is.flatMap fun i => (body i).1 := by
  induction is with
  | nil => rfl
  | cons i is ih =>
    obtain ⟨hi, his⟩ := List.forall_mem_cons.mp h
    rw [initLoop, if_pos hi, ih his, List.flatMap_cons]

/-- What a loop does is done by one of its rounds. -/
theorem mem_initLoop {body : ℕ → List PinOp × ℤ} {is : List ℕ} (h : op ∈ (initLoop body is).1) :
    ∃ i ∈ is, op ∈ (body i).1 := by
  induction is with
  | nil => cases h
  | cons i is ih =>
    rw [initLoop] at h
    split at h
    · rcases List.mem_append.mp h with hi | his
      · exact ⟨i, List.mem_cons_self, hi⟩
      · obtain ⟨j, hj, hop⟩ := ih his
        exact ⟨j, List.mem_cons_of_mem i hj, hop⟩
    · exact ⟨i, List.mem_cons_self, h⟩

section Init

variable {driver : Driver} {array : List GpioDtSpec} {body : SpecRef → List PinOp × ℤ}
  {config : DeviceConfig}

/-- An array is initialised exactly if it has pins, and the port of each is ready and its
configuration no error. -/
theorem gpiosInit_eq_zero_iff : (gpiosInit driver array body).2 = 0 ↔ array ≠ [] ∧
    ∀ i < array.length, driver.deviceIsReady ⟨array, i⟩ = true ∧ (body ⟨array, i⟩).2 = 0 := by
  have henodev : -enodev ≠ 0 := by decide
  unfold gpiosInit
  split
  · next hempty => exact iff_of_false henodev fun h => h.1 (List.length_eq_zero_iff.mp hempty)
  · next hpins =>
    rw [initLoop_eq_zero_iff, and_iff_right (mt List.length_eq_zero_iff.mpr hpins)]
    simp only [List.mem_range]
    refine forall₂_congr fun i _ => ?_
    split
    · next hready => rw [and_iff_right hready]
    · next hready => exact iff_of_false henodev fun h => hready h.1

/-- An array that is initialised has each of its pins treated. -/
theorem mem_gpiosInit_of_eq_zero (h : (gpiosInit driver array body).2 = 0) {i : ℕ}
    (hi : i < array.length) (hop : op ∈ (body ⟨array, i⟩).1) :
    op ∈ (gpiosInit driver array body).1 := by
  obtain ⟨hpins, hall⟩ := gpiosInit_eq_zero_iff.mp h
  have hrounds : ∀ i ∈ List.range array.length, (if driver.deviceIsReady ⟨array, i⟩ then
      body ⟨array, i⟩ else ([], -enodev)).2 = 0 := by
    intro i hi
    obtain ⟨hready, herr⟩ := hall i (List.mem_range.mp hi)
    rw [if_pos hready]
    exact herr
  rw [gpiosInit, if_neg (mt List.length_eq_zero_iff.mp hpins), initLoop_fst hrounds]
  refine List.mem_flatMap.mpr ⟨i, List.mem_range.mpr hi, ?_⟩
  rw [if_pos (hall i hi).1]
  exact hop

/-- An array that is initialised has each of its pins configured. -/
theorem exists_configure_mem {d : Direction} (h : (gpiosInit driver array body).2 = 0)
    (hbody : ∀ spec, .configure spec d (body spec).2 ∈ (body spec).1) (hpin : pin ∈ array) :
    ∃ spec : SpecRef, spec.get? = some pin ∧ .configure spec d 0 ∈ (gpiosInit driver array body).1 := by
  obtain ⟨i, hi, rfl⟩ := List.getElem_of_mem hpin
  refine ⟨⟨array, i⟩, ?_, mem_gpiosInit_of_eq_zero h hi ?_⟩
  · rw [SpecRef.get?, if_pos (Int.natCast_nonneg i)]
    exact List.getElem?_eq_getElem hi
  · have hop := hbody ⟨array, i⟩
    rw [((gpiosInit_eq_zero_iff.mp h).2 i hi).2] at hop
    exact hop

/-- What the initialisation of an array does is done for one of its pins. -/
theorem mem_gpiosInit (h : op ∈ (gpiosInit driver array body).1) :
    ∃ spec : SpecRef, spec.array = array ∧ op ∈ (body spec).1 := by
  unfold gpiosInit at h
  split at h
  · cases h
  · obtain ⟨i, -, hop⟩ := mem_initLoop h
    split at hop
    · exact ⟨⟨array, i⟩, rfl, hop⟩
    · cases hop

/-- A pin that a reference leads to is one of its array. -/
theorem mem_of_get? (h : spec.get? = some pin) : pin ∈ spec.array := by
  obtain ⟨-, hpin⟩ := Option.ite_none_right_eq_some.mp h
  exact List.mem_of_getElem? hpin

/-- The initialisation of a device configures each pin as it is meant to be. -/
theorem fits_devInitFunction (hconfig : config ∈ devices) :
    ∀ op ∈ (devInitFunction driver config).1, op.Fits := by
  have hleds : ∀ op ∈ (ledGpiosInit driver config).1, op.Fits := by
    intro op hop
    obtain ⟨spec, harray, hop⟩ := mem_gpiosInit hop
    obtain rfl := List.mem_singleton.mp hop
    intro pin hpin
    exact (mem_wired hconfig).1 pin (harray ▸ mem_of_get? hpin)
  have hbuttons : ∀ op ∈ (buttonGpiosInit driver config).1, op.Fits := by
    intro op hop
    obtain ⟨spec, harray, hop⟩ := mem_gpiosInit hop
    rcases List.mem_cons.mp hop with rfl | hop
    · intro pin hpin
      exact (mem_wired hconfig).2 pin (harray ▸ mem_of_get? hpin)
    · obtain rfl := List.mem_singleton.mp hop
      trivial
  intro op hop
  unfold devInitFunction at hop
  dsimp only at hop
  split at hop
  · exact hleds op hop
  · exact (List.mem_append.mp hop).elim (hleds op) (hbuttons op)

/-- All ports of the array are ready, and all its pins can be configured. -/
def Driver.Configures (driver : Driver) (array : List GpioDtSpec) (d : Direction) : Prop :=
  array ≠ [] ∧ ∀ i < array.length, driver.deviceIsReady ⟨array, i⟩ = true ∧
    driver.gpioPinConfigureDt ⟨array, i⟩ d = 0

/-- A device is initialised exactly if both its arrays are. -/
theorem devInitFunction_eq_zero_iff : (devInitFunction driver config).2 = 0 ↔
    (ledGpiosInit driver config).2 = 0 ∧ (buttonGpiosInit driver config).2 = 0 := by
  have henodev : -enodev ≠ 0 := by decide
  unfold devInitFunction
  dsimp only
  by_cases hleds : (ledGpiosInit driver config).2 = 0
  · by_cases hbuttons : (buttonGpiosInit driver config).2 = 0
    · simp [hleds, hbuttons]
    · simp [hleds, hbuttons, henodev]
  · simp [hleds, henodev]

/-- What the initialisation of a device does that succeeds. -/
theorem devInitFunction_fst (h : (devInitFunction driver config).2 = 0) :
    (devInitFunction driver config).1 =
      (ledGpiosInit driver config).1 ++ (buttonGpiosInit driver config).1 := by
  unfold devInitFunction
  dsimp only
  rw [if_neg (not_not.mpr (devInitFunction_eq_zero_iff.mp h).1)]

end Init

/-- **Devices that are ready.** A device is initialised exactly if it has LEDs and buttons, all
their ports are ready and all their pins can be configured; and then, after any commands that
answer, the pins of its LEDs are inputs and those of its buttons outputs that press nothing, as long
as `gpio_pin_set_dt` sets the levels. -/
theorem device_configured_iff (driver : Driver) (overflow : ℤ → BitVec 32)
    (gpioPinGetDt : SpecRef → ℤ) (cmds : List Command) (h : ∀ c ∈ cmds, c.Answers overflow) (t : Pins)
    (hrun : chip.run (session driver overflow gpioPinGetDt cmds) = some t) :
    ∀ config ∈ devices, ((devInitFunction driver config).2 = 0 ↔
        driver.Configures config.ledSpec .input ∧ driver.Configures config.buttonSpec .output) ∧
      ((devInitFunction driver config).2 = 0 →
        (∀ pin ∈ config.ledSpec, (t pin).direction = some .input) ∧
          ∀ pin ∈ config.buttonSpec, t pin = ⟨some .output, true⟩) := by
  intro config hconfig
  refine ⟨?_, fun hinit => ?_⟩
  · rw [devInitFunction_eq_zero_iff, ledGpiosInit, buttonGpiosInit, gpiosInit_eq_zero_iff,
      gpiosInit_eq_zero_iff]
    rfl
  -- only the boot configures pins
  have hfits : ∀ op ∈ session driver overflow gpioPinGetDt cmds, op.Fits := by
    intro op hop
    rcases List.mem_append.mp hop with hboot | hcmd
    · obtain ⟨config', hconfig', hop⟩ := List.mem_flatMap.mp hboot
      exact fits_devInitFunction hconfig' op hop
    · obtain ⟨c, -, hop⟩ := List.mem_flatMap.mp hcmd
      obtain ⟨a, -, rfl⟩ := List.mem_map.mp hop
      trivial
  have hinSession : ∀ op ∈ (ledGpiosInit driver config).1 ++ (buttonGpiosInit driver config).1,
      op ∈ session driver overflow gpioPinGetDt cmds := by
    intro op hop
    refine List.mem_append_left _ (List.mem_flatMap.mpr ⟨config, hconfig, ?_⟩)
    rw [devInitFunction_fst hinit]
    exact hop
  obtain ⟨hleds, hbuttons⟩ := devInitFunction_eq_zero_iff.mp hinit
  constructor
  · intro pin hpin
    obtain ⟨spec, hget, hop⟩ := exists_configure_mem hleds (fun spec => List.mem_cons_self) hpin
    exact direction_of_mem hfits (hinSession _ (List.mem_append_left _ hop)) hget hrun
  · intro pin hpin
    obtain ⟨spec, hget, hop⟩ := exists_configure_mem hbuttons (fun spec => List.mem_cons_self) hpin
    have hout := direction_of_mem hfits (hinSession _ (List.mem_append_right _ hop)) hget hrun
    -- an output that does not press is high
    obtain ⟨t', ht', hidle⟩ := (quiet_session h).runs chip.init idle_init
    obtain rfl := Option.some.inj (ht'.symm.trans hrun)
    have hhigh : (t' pin).high ≠ false := fun hlow => hidle.released pin ⟨hout, hlow⟩
    rw [← hout, ← Bool.eq_true_of_not_eq_false hhigh]

/-- Button 1 of device 1 after it was pressed. -/
theorem device_configured_pressed : ∃ t, chip.run (session ⟨fun _ => true, fun _ _ => 0⟩
    (fun _ => 0) (fun _ => 0) [.set ['1'] ['1']]) = some t ∧ t ⟨1, 12⟩ = ⟨some .output, true⟩ := by
  have hanswers : ∀ c ∈ [Command.set ['1'] ['1']], c.Answers fun _ => 0 := by decide
  obtain ⟨t, ht, -⟩ := (quiet_session hanswers).runs chip.init idle_init
  have hinit : (devInitFunction ⟨fun _ => true, fun _ _ => 0⟩ deviceConfig1).2 = 0 := by decide
  exact ⟨t, ht, ((device_configured_iff ⟨fun _ => true, fun _ _ => 0⟩ (fun _ => 0) (fun _ => 0)
    [.set ['1'] ['1']] hanswers t ht deviceConfig1 (by decide)).2 hinit).2 ⟨1, 12⟩ (by decide)⟩

end NcsExamples.GpioDevice
