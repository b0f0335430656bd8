import NcsExamples.Lib.Transaction
import NcsExamples.GpioDevice.NamedPin

/-! # GPIO device: the pins from the boot on

The kernel calls `dev_init_function` for each of the three devices, which makes the pins of the LEDs
inputs and those of the buttons outputs, until one of them fails. The shell does not ask whether
this went well: the commands use the pins in any case. All pins are active low, so that a pin which
has become an output presses its button until it is switched off. -/

namespace NcsExamples.GpioDevice

/-! ## The chip -/

/-- `GPIO_INPUT` and `GPIO_OUTPUT`. -/
inductive Direction
  | input
  | output
  deriving DecidableEq, Repr

/-- A pin of the chip. -/
structure Pin where
  /-- What it is configured as, if it is. -/
  direction : Option Direction
  /-- The level it is driven to if it is an output. -/
  high : Bool
  deriving DecidableEq, Repr

/-- All pins of the chip. -/
abbrev Pins : Type := GpioDtSpec → Pin

/-- The pin presses the button that it is wired to: `GPIO_ACTIVE_LOW`. -/
def Pin.Presses (p : Pin) : Prop := p.direction = some .output ∧ p.high = false

instance : DecidablePred Pin.Presses := fun _ => inferInstanceAs (Decidable (_ ∧ _))

/-- What the application has the driver do. -/
inductive PinOp
  /-- `gpio_pin_configure_dt`, which returns `err`. -/
  | configure (spec : SpecRef) (direction : Direction) (err : ℤ)
  /-- An access to a pin. -/
  | access (access : Access)
  deriving DecidableEq, Repr

/-- `array[index]`, if the index is one of the array. -/
def SpecRef.get? (r : SpecRef) : Option GpioDtSpec :=
  if 0 ≤ r.index then r.array[r.index.toNat]? else none

/-- What an operation does to the pins. A configuration that fails leaves the pin as it is, and
`gpio_pin_set_dt`, whose result nobody asks for, is taken to set the level. -/
def pinStep (pins : Pins) : PinOp → Option Pins
  | .configure spec direction err => spec.get?.map fun pin =>
      Function.update pins pin
        (if err = 0 then { pins pin with direction := some direction } else pins pin)
  | .access (.set spec value) => spec.get?.map fun pin =>
      Function.update pins pin { pins pin with high := value = off }
  | .access (.get spec) => spec.get?.map fun _ => pins

/-- The chip, from its reset on. -/
def chip : Machine Pins PinOp := ⟨fun _ => ⟨none, false⟩, pinStep⟩

/-! ## The boot -/

/-- The driver of the ports. -/
structure Driver where
  /-- What `device_is_ready` says of the port of a pin. -/
  deviceIsReady : SpecRef → Bool
  /-- What `gpio_pin_configure_dt` returns. -/
  gpioPinConfigureDt : SpecRef → Direction → ℤ

/-- `ENODEV`. -/
def enodev : ℤ := 19

/-- A loop over the indices that ends at the first error. -/
def initLoop (body : ℕ → List PinOp × ℤ) : List ℕ → List PinOp × ℤ
  | [] => ([], 0)
  | i :: is =>
      if (body i).2 = 0 then ((body i).1 ++ (initLoop body is).1, (initLoop body is).2) else body i

section Init

variable (driver : Driver) (config : DeviceConfig)

/-- What `led_gpios_init` and `button_gpios_init` do with the pins of an array. -/
def gpiosInit (array : List GpioDtSpec) (body : SpecRef → List PinOp × ℤ) : List PinOp × ℤ :=
  if array.length = 0 then ([], -enodev)
  else initLoop (fun i =>
      if driver.deviceIsReady ⟨array, i⟩ then body ⟨array, i⟩ else ([], -enodev))
    (List.range array.length)

/-- `led_gpios_init`. -/
def ledGpiosInit : List PinOp × ℤ :=
  gpiosInit driver config.ledSpec fun spec =>
    let err := driver.gpioPinConfigureDt spec .input
    ([.configure spec .input err], err)

/-- `button_gpios_init`. The pin is switched off after an error too. -/
def buttonGpiosInit : List PinOp × ℤ :=
  gpiosInit driver config.buttonSpec fun spec =>
    let err := driver.gpioPinConfigureDt spec .output
    ([.configure spec .output err, .access (.set spec off)], err)

/-- `dev_init_function`. -/
def devInitFunction : List PinOp × ℤ :=
  let leds := ledGpiosInit driver config
  if leds.2 ≠ 0 then (leds.1, -enodev)
  else
    let buttons := buttonGpiosInit driver config
    (leds.1 ++ buttons.1, if buttons.2 ≠ 0 then -enodev else 0)

/-- The boot: the devices are initialised in their order. -/
def boot : List PinOp := devices.flatMap fun config => (devInitFunction driver config).1

end Init

/-! ## A session -/

/-- A command at the shell. -/
inductive Command
  /-- `lb set`. -/
  | set (argv1 argv2 : List Char)
  /-- `lb get`. -/
  | get (argv1 argv2 : List Char)
  /-- `lb view`. -/
  | view
  deriving DecidableEq, Repr

section Session

variable (driver : Driver) (overflow : ℤ → BitVec 32) (gpioPinGetDt : SpecRef → ℤ)

/-- The accesses of a command. -/
def Command.accesses : Command → List Access
  | .set argv1 argv2 => GpioDevice.accesses (cmdGpioSet overflow argv1 argv2).1
  | .get argv1 argv2 => GpioDevice.accesses (cmdLedGet overflow gpioPinGetDt argv1 argv2).1
  | .view => GpioDevice.accesses (cmdGpioView gpioPinGetDt)

/-- The command answers: the numbers that are typed name a pin, or their device is none, also when it
is narrowed to a byte. -/
def Command.Answers : Command → Prop
  | .set argv1 argv2 | .get argv1 argv2 =>
      Named (atoi overflow argv1).toInt (atoi overflow argv2).toInt ∨
        ¬ WrapsToDevice (atoi overflow argv1).toInt
  | .view => True

instance : DecidablePred (Command.Answers overflow)
  | .set _ _ | .get _ _ => inferInstanceAs (Decidable (_ ∨ _))
  | .view => isTrue trivial

/-- The boot, and then the commands. -/
def session (cmds : List Command) : List PinOp :=
  boot driver ++ cmds.flatMap fun c => (c.accesses overflow gpioPinGetDt).map .access

end Session

/-- The pins that are meant to be inputs and those that are meant to be outputs. -/
def wired : Direction → List GpioDtSpec
  | .input => devices.flatMap DeviceConfig.ledSpec
  | .output => devices.flatMap DeviceConfig.buttonSpec

/-- No button is pressed, and no pin of an LED is driven. -/
structure Pins.Idle (pins : Pins) : Prop where
  released : ∀ pin, ¬ (pins pin).Presses
  free : ∀ pin ∈ wired .input, (pins pin).direction ≠ some .output

/-- At most one button is pressed, and no pin of an LED is driven. -/
structure Pins.OneAtATime (pins : Pins) : Prop where
  pressed : ∀ pin pin', (pins pin).Presses → (pins pin').Presses → pin = pin'
  free : ∀ pin ∈ wired .input, (pins pin).direction ≠ some .output

/-- Operations from one idle state to the next, with at most one button pressed on the way. -/
abbrev Quiet (ops : List PinOp) : Prop := chip.Restores Pins.Idle (fun _ _ t => t.OneAtATime) ops

variable {spec : SpecRef} {pin : GpioDtSpec} {s t : Pins} {op : PinOp} {ops : List PinOp}

/-! ## Operations -/

/-- Where nothing is pressed at most one button is. -/
theorem Pins.Idle.oneAtATime (h : s.Idle) : s.OneAtATime :=
  ⟨fun pin _ hpin => absurd hpin (h.released pin), h.free⟩

/-- A reference within its array is to one of its pins. -/
theorem get?_of_inBounds (h : spec.InBounds) : ∃ pin ∈ spec.array, spec.get? = some pin := by
  obtain ⟨hlow, hhigh⟩ := h
  have hlt : spec.index.toNat < spec.array.length := by omega
  refine ⟨spec.array[spec.index.toNat], List.getElem_mem hlt, ?_⟩
  rw [SpecRef.get?, if_pos hlow]
  exact List.getElem?_eq_getElem hlt

/-- No pin is meant to be both. -/
theorem wired_disjoint {d d' : Direction} (h : pin ∈ wired d) (h' : pin ∈ wired d') : d = d' := by
  have hdisjoint : ∀ pin ∈ wired .input, pin ∉ wired .output := by decide
  cases d with
  | input =>
    cases d' with
    | input => rfl
    | output => exact absurd h' (hdisjoint pin h)
  | output =>
    cases d' with
    | input => exact absurd h (hdisjoint pin h')
    | output => rfl

/-- An idle chip stays so if a pin changes to one that presses no button. -/
theorem Pins.Idle.update (h : s.Idle) {x : Pin} (hx : ¬ x.Presses)
    (hfree : pin ∈ wired .input → x.direction ≠ some .output) :
    Pins.Idle (Function.update s pin x) where
  released pin' := by
    rcases eq_or_ne pin' pin with rfl | hne
    · rw [Function.update_self]
      exact hx
    · rw [Function.update_of_ne hne]
      exact h.released pin'
  free pin' hpin' := by
    rcases eq_or_ne pin' pin with rfl | hne
    · rw [Function.update_self]
      exact hfree hpin'
    · rw [Function.update_of_ne hne]
      exact h.free pin' hpin'

/-- A change of one pin of an idle chip presses at most the button of this pin. -/
theorem Pins.Idle.oneAtATime_update (h : s.Idle) (hpin : pin ∉ wired .input) (x : Pin) :
    Pins.OneAtATime (Function.update s pin x) where
  pressed := by
    have honly : ∀ pin', (Function.update s pin x pin').Presses → pin' = pin := by
      intro pin' hpresses
      by_contra hne
      rw [Function.update_of_ne hne] at hpresses
      exact h.released pin' hpresses
    intro pin₁ pin₂ h₁ h₂
    rw [honly pin₁ h₁, honly pin₂ h₂]
  free pin' hpin' := by
    have hne : pin' ≠ pin := fun heq => hpin (heq ▸ hpin')
    rw [Function.update_of_ne hne]
    exact h.free pin' hpin'

/-- A reading is quiet. -/
theorem quiet_get (hpin : spec.get? = some pin) : Quiet [.access (.get spec)] := by
  refine Machine.Restores.of_step fun s hs => ⟨s, ?_, hs, hs.oneAtATime⟩
  simp [chip, pinStep, hpin]

/-- To make a pin an input is quiet. -/
theorem quiet_configure (hpin : spec.get? = some pin) (err : ℤ) :
    Quiet [.configure spec .input err] := by
  refine Machine.Restores.of_step fun s hs => ?_
  have hidle : Pins.Idle (Function.update s pin
      (if err = 0 then { s pin with direction := some .input } else s pin)) := by
    split
    · exact hs.update (fun hpresses => by cases hpresses.1) (fun _ hout => by cases hout)
    · rw [Function.update_eq_self]
      exact hs
  exact ⟨_, by simp [chip, pinStep, hpin], hidle, hidle.oneAtATime⟩

/-- An operation on the pin of a button is quiet if the pin is switched off after it. -/
theorem quiet_release (hpin : spec.get? = some pin) (hbutton : pin ∉ wired .input)
    (hop : ∀ s, ∃ x, pinStep s op = some (Function.update s pin x)) :
    Quiet [op, .access (.set spec off)] := by
  have hoff : ∀ s x, pinStep (Function.update s pin x) (.access (.set spec off)) =
      some (Function.update s pin { x with high := true }) := by
    intro s x
    simp [pinStep, hpin, off]
  constructor
  · intro s hs
    obtain ⟨x, hx⟩ := hop s
    refine ⟨Function.update s pin { x with high := true }, ?_, ?_⟩
    · exact chip.runFrom_cons_eq_some.mpr ⟨_, hx, chip.runFrom_cons_eq_some.mpr ⟨_, hoff s x, rfl⟩⟩
    · exact hs.update (fun hpresses => by cases hpresses.2) (fun hled => absurd hled hbutton)
  · intro s hs
    obtain ⟨x, hx⟩ := hop s
    rw [Machine.along_cons hx, Machine.along_cons (hoff s x)]
    exact ⟨hs.oneAtATime_update hbutton x, hs.oneAtATime_update hbutton _, trivial⟩

/-! ## The boot -/

/-- A loop is quiet if its rounds are. -/
theorem quiet_initLoop {body : ℕ → List PinOp × ℤ} {is : List ℕ}
    (h : ∀ i ∈ is, Quiet (body i).1) : Quiet (initLoop body is).1 := by
  induction is with
  | nil => exact Machine.Restores.nil
  | cons i is ih =>
    obtain ⟨hi, his⟩ := List.forall_mem_cons.mp h
    unfold initLoop
    split
    · exact hi.append (ih his)
    · exact hi

/-- The initialisation of an array is quiet if that of each pin is. -/
theorem quiet_gpiosInit {driver : Driver} {array : List GpioDtSpec}
    {body : SpecRef → List PinOp × ℤ} (h : ∀ spec : SpecRef, spec.array = array → spec.InBounds →
      Quiet (body spec).1) : Quiet (gpiosInit driver array body).1 := by
  unfold gpiosInit
  split
  · exact Machine.Restores.nil
  · refine quiet_initLoop fun i hi => ?_
    split
    · refine h ⟨array, i⟩ rfl ⟨Int.natCast_nonneg i, ?_⟩
      exact Int.ofNat_lt.mpr (List.mem_range.mp hi)
    · exact Machine.Restores.nil

/-- The pins of a device are wired. -/
theorem mem_wired {config : DeviceConfig} (hconfig : config ∈ devices) :
    (∀ pin ∈ config.ledSpec, pin ∈ wired .input) ∧ ∀ pin ∈ config.buttonSpec, pin ∈ wired .output :=
  ⟨fun _ hpin => List.mem_flatMap.mpr ⟨config, hconfig, hpin⟩,
    fun _ hpin => List.mem_flatMap.mpr ⟨config, hconfig, hpin⟩⟩

/-- The initialisation of a device is quiet. -/
theorem quiet_devInitFunction (driver : Driver) {config : DeviceConfig} (hconfig : config ∈ devices) :
    Quiet (devInitFunction driver config).1 := by
  have hleds : Quiet (ledGpiosInit driver config).1 := by
    refine quiet_gpiosInit fun spec _ hbounds => ?_
    obtain ⟨pin, -, hpin⟩ := get?_of_inBounds hbounds
    exact quiet_configure hpin _
  have hbuttons : Quiet (buttonGpiosInit driver config).1 := by
    refine quiet_gpiosInit fun spec harray hbounds => ?_
    obtain ⟨pin, hmem, hpin⟩ := get?_of_inBounds hbounds
    have hwired : pin ∈ wired .output := (mem_wired hconfig).2 pin (harray ▸ hmem)
    refine quiet_release hpin (fun hled => by cases wired_disjoint hled hwired) fun s => ?_
    exact ⟨_, by rw [pinStep, hpin]; rfl⟩
  unfold devInitFunction
  dsimp only
  split
  · exact hleds
  · exact hleds.append hbuttons

/-! ## The commands -/

section Commands

variable {overflow : ℤ → BitVec 32} {gpioPinGetDt : SpecRef → ℤ}

/-- A command that touches the named pin is quiet if the operations on a pin of its array are. -/
theorem quiet_of_touchesNamed {array : DeviceConfig → List GpioDtSpec}
    {acts : SpecRef → List Access} {d i : BitVec 32} {as : List Access}
    (h : TouchesNamed array acts d.toInt i.toInt as) (hne : ∀ spec, acts spec ≠ [])
    (hspec : ∀ spec, ∀ a ∈ acts spec, a.spec = spec)
    (hacts : ∀ config ∈ devices, ∀ spec : SpecRef, spec.array = array config → spec.InBounds →
      Quiet ((acts spec).map .access)) : Quiet (as.map .access) := by
  by_cases hnamed : Named d.toInt i.toInt
  · obtain ⟨config, hconfig, has⟩ := h.named hnamed
    rw [has]
    refine hacts config (List.mem_of_getElem? hconfig) _ rfl ?_
    -- there is an access, and it is within its array
    obtain ⟨a, ha⟩ := List.exists_mem_of_ne_nil _ (hne ⟨array config, i.toInt - 1⟩)
    rw [← hspec _ a ha]
    exact h.inBounds a (has ▸ ha)
  · rw [h.unnamed hnamed]
    exact Machine.Restores.nil

/-- A pulse on the pin of a button is quiet. -/
theorem quiet_pulse {config : DeviceConfig} (hconfig : config ∈ devices)
    (harray : spec.array = config.buttonSpec) (hbounds : spec.InBounds) :
    Quiet ((pulse spec).map .access) := by
  obtain ⟨pin, hmem, hpin⟩ := get?_of_inBounds hbounds
  have hwired : pin ∈ wired .output := (mem_wired hconfig).2 pin (harray ▸ hmem)
  refine quiet_release hpin (fun hled => by cases wired_disjoint hled hwired) fun s => ?_
  exact ⟨_, by rw [pinStep, hpin]; rfl⟩

/-- A reading within its array is quiet. -/
theorem quiet_reading (hbounds : spec.InBounds) : Quiet ((reading spec).map .access) := by
  obtain ⟨pin, -, hpin⟩ := get?_of_inBounds hbounds
  exact quiet_get hpin

/-- The view of all LEDs is quiet. -/
theorem quiet_view : Quiet ((accesses (cmdGpioView gpioPinGetDt)).map .access) := by
  rw [accesses_cmdGpioView, List.map_flatMap]
  refine Machine.Restores.flatMap fun config _ => ?_
  rw [List.map_map, List.map_eq_flatMap]
  refine Machine.Restores.flatMap fun j hj => quiet_reading ⟨Int.natCast_nonneg j, ?_⟩
  exact Int.ofNat_lt.mpr (List.mem_range.mp hj)

/-- A command that answers is quiet. -/
theorem quiet_command {c : Command} (h : c.Answers overflow) :
    Quiet ((c.accesses overflow gpioPinGetDt).map .access) := by
  cases c with
  | set argv1 argv2 =>
    rw [Command.accesses, accesses_cmdGpioSet]
    refine quiet_of_touchesNamed ((touchesNamed_addressed_iff (by decide) ?_ ?_).mpr h) ?_ ?_ ?_
    · simp [pulse]
    · simp [pulse, Access.spec]
    · simp [pulse]
    · simp [pulse, Access.spec]
    · exact fun config hconfig spec harray hbounds => quiet_pulse hconfig harray hbounds
  | get argv1 argv2 =>
    rw [Command.accesses, accesses_cmdLedGet]
    refine quiet_of_touchesNamed ((touchesNamed_addressed_iff (by decide) ?_ ?_).mpr h) ?_ ?_ ?_
    · simp [reading]
    · simp [reading, Access.spec]
    · simp [reading]
    · simp [reading, Access.spec]
    · exact fun config _ spec _ hbounds => quiet_reading hbounds
  | view => exact quiet_view

/-- A session of commands that answer is quiet. -/
theorem quiet_session {driver : Driver} {cmds : List Command} (h : ∀ c ∈ cmds, c.Answers overflow) :
    Quiet (session driver overflow gpioPinGetDt cmds) := by
  refine Machine.Restores.append ?_ (Machine.Restores.flatMap fun c hc => quiet_command (h c hc))
  exact Machine.Restores.flatMap fun config hconfig => quiet_devInitFunction driver hconfig

end Commands

/-- After the reset no pin drives anything. -/
theorem idle_init : chip.init.Idle where
  released := by
    rintro pin ⟨hout, -⟩
    cases hout
  free := by
    intro pin _ hout
    cases hout

/-- **One button at a time.** From the reset on, whatever ports the driver finds ready and pins it
configures during the boot, and whatever commands that answer are typed after it, at most one button
is pressed at any time and no pin of an LED is driven, and no button is pressed after any of the
commands, as long as `gpio_pin_set_dt` sets the levels. -/
theorem session_oneAtATime (driver : Driver) (overflow : ℤ → BitVec 32) (gpioPinGetDt : SpecRef → ℤ)
    (cmds : List Command) (h : ∀ c ∈ cmds, c.Answers overflow) :
    ∃ t, chip.run (session driver overflow gpioPinGetDt cmds) = some t ∧ t.Idle ∧
      chip.Along (fun _ _ t => t.OneAtATime) chip.init
        (session driver overflow gpioPinGetDt cmds) :=
  (quiet_session h).run idle_init

/-- Button 3 of device 1 and then a device that there is not, when nothing could be configured. -/
theorem session_oneAtATime_failed : ∃ t, chip.run (session ⟨fun _ => false, fun _ _ => 0⟩ (fun _ => 0)
    (fun _ => 0) [.set ['1'] ['3'], .get ['4'] ['1'], .view]) = some t ∧ t.Idle := by
  obtain ⟨t, ht, hidle, -⟩ := session_oneAtATime ⟨fun _ => false, fun _ _ => 0⟩ (fun _ => 0)
    (fun _ => 0) [.set ['1'] ['3'], .get ['4'] ['1'], .view] (by decide)
  exact ⟨t, ht, hidle⟩

end NcsExamples.GpioDevice
