import NcsExamples.Lib.DecimalText
import Mathlib.Data.BitVec

/-! # GPIO device: the shell commands

`lb set` presses a button of another device and `lb get` reads one of its LEDs. Device and number
are typed as texts, which `atoi` turns into an `int` and an assignment into a `uint8_t`; the number
less one is the index into the pins of the device. Here are the pins, the functions that drive and
read them, and the commands. -/

namespace NcsExamples.GpioDevice

/-! ## The pins -/

/-- `struct gpio_dt_spec`: a pin of a port. -/
structure GpioDtSpec where
  port : ℕ
  pin : ℕ
  deriving DecidableEq, Repr

/-- `struct device_config`: the pins that are wired to the buttons and the LEDs of a device. -/
structure DeviceConfig where
  ledSpec : List GpioDtSpec
  buttonSpec : List GpioDtSpec
  deriving DecidableEq, Repr

/-- `device_config_1`, with the pins of the overlay. -/
def deviceConfig1 : DeviceConfig where
  ledSpec := [⟨1, 11⟩, ⟨0, 2⟩, ⟨1, 10⟩, ⟨0, 26⟩]
  buttonSpec := [⟨1, 12⟩, ⟨1, 13⟩, ⟨0, 27⟩, ⟨1, 8⟩]

/-- `device_config_2`. -/
def deviceConfig2 : DeviceConfig where
  ledSpec := [⟨0, 28⟩, ⟨1, 15⟩, ⟨0, 4⟩, ⟨0, 31⟩]
  buttonSpec := [⟨0, 29⟩, ⟨1, 14⟩, ⟨0, 30⟩, ⟨0, 3⟩]

/-- `device_config_3`. -/
def deviceConfig3 : DeviceConfig where
  ledSpec := [⟨1, 2⟩, ⟨1, 5⟩, ⟨1, 1⟩, ⟨1, 6⟩]
  buttonSpec := [⟨1, 3⟩, ⟨1, 4⟩, ⟨1, 7⟩, ⟨0, 11⟩]

/-- The devices in the order of their numbers, which start at 1. -/
def devices : List DeviceConfig := [deviceConfig1, deviceConfig2, deviceConfig3]

/-- `&array[index]`, which may lie outside the array. -/
structure SpecRef where
  array : List GpioDtSpec
  index : ℤ
  deriving DecidableEq, Repr

/-- The index is one of the array. -/
def SpecRef.InBounds (r : SpecRef) : Prop := 0 ≤ r.index ∧ r.index < r.array.length

instance : DecidablePred SpecRef.InBounds := fun _ => inferInstanceAs (Decidable (_ ∧ _))

/-! ## What a command does -/

/-- An access to a GPIO. -/
inductive Access
  /-- `gpio_pin_set_dt`. -/
  | set (spec : SpecRef) (value : ℕ)
  /-- `gpio_pin_get_dt`. -/
  | get (spec : SpecRef)
  deriving DecidableEq, Repr

/-- The pin an access is meant for. -/
def Access.spec : Access → SpecRef
  | .set spec _ => spec
  | .get spec => spec

/-- A call that a command makes. -/
inductive Effect
  | gpio (access : Access)
  /-- `k_sleep`. -/
  | sleep (ms : ℕ)
  | shellPrint (format : String) (args : List ℤ)
  | logErr (format : String) (args : List ℤ)
  | logInf (format : String) (args : List ℤ)
  deriving DecidableEq, Repr

/-- The access that a call makes, if it makes one. -/
def Effect.toAccess : Effect → Option Access
  | .gpio access => some access
  | _ => none

/-- The accesses to GPIOs, in their order. -/
def accesses (es : List Effect) : List Access := es.filterMap Effect.toAccess

/-- `BOARD_1`. -/
def board1 : BitVec 8 := 1

/-- `BOARD_2`. -/
def board2 : BitVec 8 := 2

/-- `BOARD_3`. -/
def board3 : BitVec 8 := 3

/-- `ON`. -/
def on : ℕ := 1

/-- `OFF`. -/
def off : ℕ := 0

/-- A case of `button_set`. -/
def press (spec : SpecRef) : List Effect :=
  [.gpio (.set spec on), .sleep 5, .gpio (.set spec off)]

/-- `button_set`. The subtraction is one of `int`. -/
def buttonSet (device buttonNumber : BitVec 8) : List Effect :=
  if device = board1 then press ⟨deviceConfig1.buttonSpec, buttonNumber.toNat - 1⟩
  else if device = board2 then press ⟨deviceConfig2.buttonSpec, buttonNumber.toNat - 1⟩
  else if device = board3 then press ⟨deviceConfig3.buttonSpec, buttonNumber.toNat - 1⟩
  else []

section LedGet

-- what `gpio_pin_get_dt` returns
variable (gpioPinGetDt : SpecRef → ℤ)

/-- A case of `led_get`. -/
def readLed (spec : SpecRef) : List Effect × ℤ := ([.gpio (.get spec)], gpioPinGetDt spec)

/-- `led_get`: the calls it makes and its result. -/
def ledGet (device ledNumber : BitVec 8) : List Effect × ℤ :=
  if device = board1 then readLed gpioPinGetDt ⟨deviceConfig1.ledSpec, ledNumber.toNat - 1⟩
  else if device = board2 then readLed gpioPinGetDt ⟨deviceConfig2.ledSpec, ledNumber.toNat - 1⟩
  else if device = board3 then readLed gpioPinGetDt ⟨deviceConfig3.ledSpec, ledNumber.toNat - 1⟩
  else ([], -1)

end LedGet

/-- `atoi`. It is undefined for a number that is no `int`: `overflow` is what it returns then. -/
def atoi (overflow : ℤ → BitVec 32) (s : List Char) : BitVec 32 :=
  let v := DecimalText.readInt s
  if -2 ^ 31 ≤ v ∧ v < 2 ^ 31 then BitVec.ofInt 32 v else overflow v

section Commands

variable (overflow : ℤ → BitVec 32) (gpioPinGetDt : SpecRef → ℤ) (argv1 argv2 : List Char)

/-- `cmd_gpio_set`, for the two arguments that the shell demands. -/
def cmdGpioSet : List Effect × ℤ :=
  let device := (atoi overflow argv1).setWidth 8
  let button := (atoi overflow argv2).setWidth 8
  (.shellPrint "Pressing button %d on device %d" [button.toNat, device.toNat] ::
    buttonSet device button, 0)

/-- `cmd_led_get`, for the two arguments that the shell demands. -/
def cmdLedGet : List Effect × ℤ :=
  let device := (atoi overflow argv1).setWidth 8
  let led := (atoi overflow argv2).setWidth 8
  let (calls, val) := ledGet gpioPinGetDt device led
  (.shellPrint "Reading LED %d on device %d" [led.toNat, device.toNat] :: calls ++
    (if val < 0 then [.logErr "Could not get LED status, err: %d" [val]] else []) ++
    [.logInf "LED status: %d" [val]], 0)

/-- `NUMBER_OF_DEVICES`. -/
def numberOfDevices : ℕ := 3

/-- The body of the outer loop of `cmd_gpio_view`, for device `i`. -/
def viewDevice (i : ℕ) : List Effect :=
  let led (j : ℕ) := ledGet gpioPinGetDt (BitVec.ofNat 8 i) (BitVec.ofNat 8 (j + 1))
  (List.range 4).flatMap (fun j => (led j).1) ++
    [.shellPrint "---------------------" [],
      .shellPrint "   Device number %d" [i],
      .shellPrint "     LED1   LED2" [],
      .shellPrint "       %d      %d" [(led 0).2, (led 1).2],
      .shellPrint "     LED3   LED4" [],
      .shellPrint "       %d      %d" [(led 2).2, (led 3).2],
      .shellPrint "---------------------" [],
      .shellPrint "" []]

/-- `cmd_gpio_view`. -/
def cmdGpioView : List Effect := (List.range' 1 numberOfDevices).flatMap (viewDevice gpioPinGetDt)

end Commands

end NcsExamples.GpioDevice
