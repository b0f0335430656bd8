import NcsExamples.Zigbee.Identify

/-! # Zigbee light bulb: the output and the attributes

The bulb keeps two attributes, `on_off` and `current_level`, and drives its LED with a PWM signal.
Level and on/off commands write both attributes and the output in calls of each other, with values of
16 bits that are stored in 8; identify mode overwrites the output while it lasts. -/

namespace NcsExamples.Zigbee

/-- The device context of the bulb as far as the commands go, and its output. -/
structure Bulb where
  /-- `on_off_attr.on_off`. -/
  onOff : BitVec 8
  /-- `level_control_attr.current_level`. -/
  currentLevel : BitVec 8
  /-- The state of identify mode; its `led` is the brightness that was set last. -/
  identify : IdentifyState
  deriving DecidableEq, Repr

/-- `LED_PWM_PERIOD_US`: 50 Hz, in microseconds. -/
def ledPwmPeriodUs : ℕ := 1000000 / 50

/-- The pulse that `light_bulb_set_brightness` computes in 32 bits. -/
def pulseOf (brightness : ℕ) : ℕ := brightness * ledPwmPeriodUs % 2 ^ 32 / 255

namespace Bulb

/-- The pulse that was set last. -/
def pulse (b : Bulb) : ℕ := pulseOf b.identify.led

/-- What the stop handler of identify mode reads. -/
def attrs (b : Bulb) : BulbAttrs := ⟨b.onOff ≠ 0, b.currentLevel.toNat⟩

/-- `light_bulb_set_brightness`, with the PWM update succeeding. -/
def lightBulbSetBrightness (brightnessLevel : BitVec 8) (b : Bulb) : Bulb :=
  { b with identify := { b.identify with led := brightnessLevel.toNat } }

/-- `level_control_set_value`. The attribute takes the low byte of the level, the test is for all 16
bits, and the brightness is narrowed in the call. -/
def levelControlSetValue (newLevel : BitVec 16) (b : Bulb) : Bulb :=
  let b := { b with currentLevel := newLevel.setWidth 8 }
  let b := if newLevel = 0 then { b with onOff := 0 } else { b with onOff := 1 }
  b.lightBulbSetBrightness (newLevel.setWidth 8)

/-- `on_off_set_value`. -/
def onOffSetValue (on : BitVec 8) (b : Bulb) : Bulb :=
  let b := { b with onOff := on }
  if on ≠ 0 then b.levelControlSetValue (b.currentLevel.setWidth 16)
  else b.lightBulbSetBrightness 0

end Bulb

/-! ## Commands -/

/-- The calls that scenes make. -/
inductive SceneCall
  | levelControlSetValue (newLevel : BitVec 16)
  | onOffSetValue (on : BitVec 8)
  deriving DecidableEq, Repr

/-- A call of the scene handler. -/
def SceneCall.run (b : Bulb) : SceneCall → Bulb
  | .levelControlSetValue newLevel => b.levelControlSetValue newLevel
  | .onOffSetValue on => b.onOffSetValue on

/-- `zb_zcl_device_callback_param_t`, by its `device_cb_id`. -/
inductive DeviceCbParam
  /-- `ZB_ZCL_LEVEL_CONTROL_SET_VALUE_CB_ID`. -/
  | levelControlSetValue (newValue : BitVec 16)
  /-- `ZB_ZCL_SET_ATTR_VALUE_CB_ID`; the union `values` is given by its `data16`. -/
  | setAttrValue (clusterId attrId : BitVec 16) (values : BitVec 16)
  /-- Another one: what `zcl_scenes_cb` calls, and whether it returns true. -/
  | other (calls : List SceneCall) (handled : Bool)
  deriving DecidableEq, Repr

/-- `zb_ret_t`, as far as the handler writes it to the status. -/
inductive RetStatus
  | ok
  | error
  deriving DecidableEq, Repr

/-- `ZB_ZCL_CLUSTER_ID_ON_OFF`. -/
def clusterIdOnOff : BitVec 8 := 6

/-- `ZB_ZCL_CLUSTER_ID_LEVEL_CONTROL`. -/
def clusterIdLevelControl : BitVec 8 := 8

/-- `ZB_ZCL_ATTR_ON_OFF_ON_OFF_ID`. -/
def attrOnOffOnOffId : BitVec 8 := 0

/-- `ZB_ZCL_ATTR_LEVEL_CONTROL_CURRENT_LEVEL_ID`. -/
def attrLevelControlCurrentLevelId : BitVec 8 := 0

/-- `zcl_device_cb`: the bulb after it, and the status. Cluster and attribute IDs are taken in 8
bits. -/
def zclDeviceCb (b : Bulb) : DeviceCbParam → Bulb × RetStatus
  | .levelControlSetValue newValue => (b.levelControlSetValue newValue, .ok)
  | .setAttrValue clusterId attrId values =>
      if clusterId.setWidth 8 = clusterIdOnOff then
        if attrId.setWidth 8 = attrOnOffOnOffId then (b.onOffSetValue (values.setWidth 8), .ok)
        else (b, .ok)
      else if clusterId.setWidth 8 = clusterIdLevelControl then
        if attrId.setWidth 8 = attrLevelControlCurrentLevelId then
          (b.levelControlSetValue values, .ok)
        else (b, .ok)
      -- other clusters can be processed here
      else (b, .ok)
  | .other calls handled => (calls.foldl SceneCall.run b, if handled then .ok else .error)

/-! ## The machine -/

/-- `ZB_ZCL_LEVEL_CONTROL_LEVEL_MAX_VALUE`. -/
def levelMaxValue : BitVec 8 := 255

/-- `bulb_clusters_attr_init`, for the attributes of the two clusters. -/
def bulbClustersAttrInit : Bulb := ⟨1, levelMaxValue, ⟨Scheduler.empty, 0, 0⟩⟩

/-- What happens next. -/
inductive BulbInput
  /-- The stack calls `zcl_device_cb`. -/
  | zclDeviceCb (param : DeviceCbParam)
  /-- The stack calls `identify_cb`. -/
  | identifyCb (bufid : BitVec 8)
  /-- `button_changed` queues `start_identifying`. -/
  | startIdentifying
  /-- The scheduler takes a turn. -/
  | turn (turn : Turn)
  deriving DecidableEq, Repr

/-- A step of identify mode. -/
def Bulb.identifyStep (mode : CancelMode) (b : Bulb) (j : IdentifyInput BulbAttrs) : Option Bulb :=
  (Zigbee.identifyStep lightBulb mode b.identify j).map fun identify => { b with identify }

/-- One step of the bulb. -/
def bulbStep (mode : CancelMode) (b : Bulb) : BulbInput → Option Bulb
  | .zclDeviceCb param => some (zclDeviceCb b param).1
  | .identifyCb bufid => b.identifyStep mode (.identifyCb b.attrs bufid)
  | .startIdentifying => b.identifyStep mode .startIdentifying
  | .turn turn => b.identifyStep mode (.turn turn)

/-- The bulb after the initial `level_control_set_value` of `main`. -/
def bulb (mode : CancelMode) : Machine Bulb BulbInput :=
  ⟨bulbClustersAttrInit.levelControlSetValue (bulbClustersAttrInit.currentLevel.setWidth 16),
    bulbStep mode⟩

/-- The pulse that the attributes stand for. -/
def Bulb.expectedPulse (b : Bulb) : ℕ :=
  if b.onOff ≠ 0 then b.currentLevel.toNat * ledPwmPeriodUs / 255 else 0

/-- The brightness that was set last is the one that the stop handler would set. -/
def Bulb.Follows (b : Bulb) : Prop := b.identify.led = lightBulb.restored b.attrs

namespace Bulb

variable {b t : Bulb} {mode : CancelMode}

/-! ## The output -/

/-- The pulse is computed without overflow. -/
theorem pulseOf_eq {brightness : ℕ} (h : brightness < 256) :
    pulseOf brightness = brightness * ledPwmPeriodUs / 255 := by
  have hperiod : ledPwmPeriodUs = 20000 := rfl
  have hsmall : brightness * ledPwmPeriodUs < 2 ^ 32 := by
    rw [hperiod]
    omega
  rw [pulseOf, Nat.mod_eq_of_lt hsmall]

/-- A brightness that follows the attributes gives the pulse that they stand for. -/
theorem Follows.pulse_eq (h : b.Follows) : b.pulse = b.expectedPulse := by
  have hled : b.identify.led = if b.onOff ≠ 0 then b.currentLevel.toNat else 0 := by
    rw [h]
    simp [lightBulb, attrs]
  unfold pulse expectedPulse
  rw [hled]
  split
  · exact pulseOf_eq b.currentLevel.isLt
  · rfl

/-! ## The commands -/

@[simp] theorem levelControlSetValue_currentLevel (newLevel : BitVec 16) :
    (b.levelControlSetValue newLevel).currentLevel = newLevel.setWidth 8 := by
  unfold levelControlSetValue
  split <;> rfl

@[simp] theorem levelControlSetValue_onOff (newLevel : BitVec 16) :
    (b.levelControlSetValue newLevel).onOff = if newLevel = 0 then 0 else 1 := by
  unfold levelControlSetValue
  split <;> rfl

@[simp] theorem levelControlSetValue_identify (newLevel : BitVec 16) :
    (b.levelControlSetValue newLevel).identify =
      { b.identify with led := (newLevel.setWidth 8).toNat } := by
  unfold levelControlSetValue
  split <;> rfl

/-- A level command leaves the work of identify mode alone. -/
theorem levelControlSetValue_sched (newLevel : BitVec 16) :
    (b.levelControlSetValue newLevel).identify.sched = b.identify.sched := by
  rw [levelControlSetValue_identify]

/-- After a level command the output follows, also where the 16 bits are not 0 and the low byte is.
-/
theorem follows_levelControlSetValue (newLevel : BitVec 16) :
    (b.levelControlSetValue newLevel).Follows := by
  by_cases hzero : newLevel = 0
  · simp [Follows, lightBulb, attrs, hzero]
  · simpa [Follows, lightBulb, attrs] using fun heq => absurd heq hzero

/-- After an on/off command the output follows. -/
theorem follows_onOffSetValue (on : BitVec 8) : (b.onOffSetValue on).Follows := by
  unfold onOffSetValue
  split
  · exact follows_levelControlSetValue _
  · next hoff => simp [Follows, lightBulb, attrs, lightBulbSetBrightness, not_not.mp hoff]

/-- An on/off command leaves the work of identify mode alone. -/
theorem onOffSetValue_sched (on : BitVec 8) :
    (b.onOffSetValue on).identify.sched = b.identify.sched := by
  unfold onOffSetValue
  split
  · exact levelControlSetValue_sched _
  · rfl

theorem sceneCall_run (call : SceneCall) : (call.run b).Follows ∧
    (call.run b).identify.sched = b.identify.sched := by
  cases call with
  | levelControlSetValue newLevel =>
    exact ⟨follows_levelControlSetValue newLevel, levelControlSetValue_sched newLevel⟩
  | onOffSetValue on => exact ⟨follows_onOffSetValue on, onOffSetValue_sched on⟩

/-- The calls of a scene. -/
theorem foldl_sceneCall_run (calls : List SceneCall) :
    (b.Follows → (calls.foldl SceneCall.run b).Follows) ∧
      (calls.foldl SceneCall.run b).identify.sched = b.identify.sched := by
  induction calls generalizing b with
  | nil => exact ⟨id, rfl⟩
  | cons call calls ih =>
    rw [List.foldl_cons]
    obtain ⟨hfollows, hsched⟩ := sceneCall_run (b := b) call
    obtain ⟨hrest, hsched'⟩ := ih (b := call.run b)
    exact ⟨fun _ => hrest hfollows, hsched'.trans hsched⟩

/-- **A command.** The output follows the attributes after it if it did before, and the work of
identify mode is left alone. -/
theorem zclDeviceCb_spec (b : Bulb) (param : DeviceCbParam) :
    (b.Follows → (zclDeviceCb b param).1.Follows) ∧
      (zclDeviceCb b param).1.identify.sched = b.identify.sched := by
  cases param with
  | levelControlSetValue newValue =>
    exact ⟨fun _ => follows_levelControlSetValue newValue, levelControlSetValue_sched newValue⟩
  | setAttrValue clusterId attrId values =>
    simp only [zclDeviceCb]
    split
    · split
      · exact ⟨fun _ => follows_onOffSetValue _, onOffSetValue_sched _⟩
      · exact ⟨id, rfl⟩
    · split
      · split
        · exact ⟨fun _ => follows_levelControlSetValue _, levelControlSetValue_sched _⟩
        · exact ⟨id, rfl⟩
      · exact ⟨id, rfl⟩
  | other calls handled => exact foldl_sceneCall_run calls

/-! ## Identify mode -/

/-- A step of identify mode leaves the attributes alone. -/
theorem identifyStep_eq_some {j : IdentifyInput BulbAttrs} : b.identifyStep mode j = some t ↔
    ∃ identify, Zigbee.identifyStep lightBulb mode b.identify j = some identify ∧
      { b with identify } = t := by
  simp only [identifyStep, Option.map_eq_some_iff]

/-- **Step inversion.** A step is a command, or a step of identify mode on the attributes of the
bulb. -/
theorem bulbStep_cases {i : BulbInput} (hs : bulbStep mode b i = some t) :
    (∃ param, i = .zclDeviceCb param ∧ t = (zclDeviceCb b param).1) ∨
      (∃ bufid, i = .identifyCb bufid ∧ b.identifyStep mode (.identifyCb b.attrs bufid) = some t) ∨
      (i = .startIdentifying ∧ b.identifyStep mode .startIdentifying = some t) ∨
      (∃ turn, i = .turn turn ∧ b.identifyStep mode (.turn turn) = some t) := by
  cases i with
  | zclDeviceCb param => exact .inl ⟨param, rfl, (Option.some.inj hs).symm⟩
  | identifyCb bufid => exact .inr (.inl ⟨bufid, rfl, hs⟩)
  | startIdentifying => exact .inr (.inr (.inl ⟨rfl, hs⟩))
  | turn turn => exact .inr (.inr (.inr ⟨turn, rfl, hs⟩))

/-- While `toggle_identify_led` does not wait, the output follows the attributes. -/
def QuietFollows (b : Bulb) : Prop := b.identify.Quiet → b.Follows

/-- A stop notification sets the brightness that the attributes stand for, and keeps them. -/
theorem follows_stop (h : b.identifyStep mode (.identifyCb b.attrs 0) = some t) :
    t.Follows ∧ t.onOff = b.onOff ∧ t.currentLevel = b.currentLevel := by
  obtain ⟨identify, hidentify, rfl⟩ := identifyStep_eq_some.mp h
  obtain rfl := Option.some.inj hidentify
  exact ⟨rfl, rfl, rfl⟩

/-- A step of identify mode that leaves no `toggle_identify_led` waiting is no start, and unless it
is a stop it has not touched the output. -/
theorem QuietFollows.identifyStep {j : IdentifyInput BulbAttrs} (h : b.QuietFollows)
    (hstop : j.isStop = false) (hs : b.identifyStep mode j = some t) : t.QuietFollows := by
  obtain ⟨identify, hidentify, rfl⟩ := identifyStep_eq_some.mp hs
  intro (hquiet : identify.Quiet)
  have hsource : j.isStart = false ∧ b.identify.Quiet := by
    cases j with
    | identifyCb attrs bufid =>
      -- a start queues `toggle_identify_led`
      obtain rfl := Option.some.inj hidentify
      have hne : ¬ bufid = 0#8 := by simpa [IdentifyInput.isStop] using hstop
      simp [IdentifyState.Quiet, identifyCb, hne, Callback.isToggle] at hquiet
    | startIdentifying =>
      obtain rfl := Option.some.inj hidentify
      exact ⟨rfl, by simpa [IdentifyState.Quiet, Callback.isToggle] using hquiet⟩
    | turn turn =>
      refine ⟨rfl, IdentifyState.quiet_iff_toggles.mpr ?_⟩
      rw [← toggles_turn hidentify]
      exact IdentifyState.quiet_iff_toggles.mp hquiet
  obtain ⟨⟨-, hled⟩, -⟩ := hsource.2.step hsource.1 hidentify
  show identify.led = lightBulb.restored b.attrs
  rw [hled hstop]
  exact h hsource.2

/-- Every step keeps the output in line with the attributes, outside of identify mode. -/
theorem QuietFollows.step {i : BulbInput} (h : b.QuietFollows) (hs : bulbStep mode b i = some t) :
    t.QuietFollows := by
  rcases bulbStep_cases hs with ⟨param, rfl, rfl⟩ | ⟨bufid, rfl, hstep⟩ | ⟨rfl, hstep⟩ |
    ⟨turn, rfl, hstep⟩
  · obtain ⟨hfollows, hsched⟩ := zclDeviceCb_spec b param
    intro hquiet
    apply hfollows
    apply h
    rw [IdentifyState.Quiet, hsched] at hquiet
    exact hquiet
  · by_cases hstop : bufid = 0
    · subst hstop
      exact fun _ => (follows_stop hstep).1
    · exact h.identifyStep (by simpa [IdentifyInput.isStop] using hstop) hstep
  · exact h.identifyStep rfl hstep
  · exact h.identifyStep rfl hstep

theorem quietFollows_init : (bulb mode).init.QuietFollows :=
  fun _ => follows_levelControlSetValue _

/-- Without commands the attributes stay as they are. -/
theorem attrs_of_no_command {is : List BulbInput} (hno : ∀ i ∈ is, ∀ param, i ≠ .zclDeviceCb param)
    (hrun : (bulb mode).runFrom b is = some t) :
    t.onOff = b.onOff ∧ t.currentLevel = b.currentLevel := by
  refine Machine.invariant_inputs (fun u => u.onOff = b.onOff ∧ u.currentLevel = b.currentLevel) ?_
    hno ⟨rfl, rfl⟩ hrun
  intro u i v hu hi hs
  rcases bulbStep_cases hs with ⟨param, rfl, -⟩ | ⟨bufid, -, hstep⟩ | ⟨-, hstep⟩ | ⟨turn, -, hstep⟩
  · exact absurd rfl (hi param)
  all_goals
    obtain ⟨identify, -, rfl⟩ := identifyStep_eq_some.mp hstep
    exact hu

/-- If `toggle_identify_led` does not wait, the scheduler alone does not make it do so. -/
theorem quiet_turns {turns : List Turn} (hquiet : b.identify.Quiet)
    (hrun : (bulb mode).runFrom b (turns.map .turn) = some t) : t.identify.Quiet := by
  refine Machine.invariant_inputs (fun u : Bulb => u.identify.Quiet)
    (r := fun i => ∃ turn, i = .turn turn) ?_ ?_ hquiet hrun
  · rintro u _ v hu ⟨turn, rfl⟩ hs
    have hstep : u.identifyStep mode (.turn turn) = some v := hs
    obtain ⟨identify, hidentify, rfl⟩ := identifyStep_eq_some.mp hstep
    exact (hu.step rfl hidentify).2
  · intro i hi
    obtain ⟨turn, -, rfl⟩ := List.mem_map.mp hi
    exact ⟨turn, rfl⟩

/-- Equal attributes stand for the same pulse. -/
theorem Follows.pulse_congr (h : b.Follows) (ht : t.Follows)
    (hattrs : t.onOff = b.onOff ∧ t.currentLevel = b.currentLevel) : t.pulse = b.pulse := by
  rw [ht.pulse_eq, h.pulse_eq, expectedPulse, expectedPulse, hattrs.1, hattrs.2]

end Bulb

/-! ## Runs -/

/-- **The output follows the attributes.** After any run, outside of identify mode, the last pulse is
the one that the attributes stand for; and if identify mode is then started, blinks for any number
of toggles and is stopped, the same pulse is set again, and it stays if the stop has cancelled the
toggles. -/
theorem bulb_follows (mode : CancelMode) (is : List BulbInput) (b : Bulb)
    (hrun : (bulb mode).run is = some b) (hquiet : b.identify.Quiet) :
    b.pulse = b.expectedPulse ∧
      ∀ (bufid : BitVec 8) (turns : List Turn) (t : Bulb),
        (bulb mode).runFrom b (.identifyCb bufid :: turns.map .turn ++ [.identifyCb 0]) = some t →
        t.pulse = b.pulse ∧ (t.identify.Quiet → ∀ (later : List Turn) (u : Bulb),
          (bulb mode).runFrom t (later.map .turn) = some u → u.pulse = b.pulse) := by
  have hinv : b.QuietFollows :=
    Machine.invariant_run Bulb.QuietFollows (fun _ _ _ h hs => h.step hs) Bulb.quietFollows_init hrun
  have hfollows : b.Follows := hinv hquiet
  refine ⟨hfollows.pulse_eq, fun bufid turns t ht => ?_⟩
  have hattrs : t.onOff = b.onOff ∧ t.currentLevel = b.currentLevel := by
    refine Bulb.attrs_of_no_command (fun i hi param => ?_) ht
    rintro rfl
    simp at hi
  obtain ⟨v, -, hstop⟩ := (bulb mode).runFrom_snoc_eq_some.mp ht
  have hfollows' : t.Follows := (Bulb.follows_stop hstop).1
  refine ⟨hfollows.pulse_congr hfollows' hattrs, fun hquiet' later u hu => ?_⟩
  have hinv' : u.QuietFollows :=
    Machine.invariant_run Bulb.QuietFollows (fun _ _ _ h hs => h.step hs) (fun _ => hfollows') hu
  have hattrs' : u.onOff = t.onOff ∧ u.currentLevel = t.currentLevel := by
    refine Bulb.attrs_of_no_command (fun i hi param => ?_) hu
    rintro rfl
    simp at hi
  exact hfollows.pulse_congr (hinv' (Bulb.quiet_turns hquiet' hu))
    ⟨hattrs'.1.trans hattrs.1, hattrs'.2.trans hattrs.2⟩

/-- A level of 0x140, which is stored as 64, and an on command. -/
theorem bulb_follows_level : ∃ b, (bulb .all).run [.zclDeviceCb (.levelControlSetValue 0x140),
    .zclDeviceCb (.setAttrValue 6 0 1)] = some b ∧ b.pulse = 5019 := by
  refine ⟨_, rfl, ?_⟩
  have h := bulb_follows .all [.zclDeviceCb (.levelControlSetValue 0x140),
    .zclDeviceCb (.setAttrValue 6 0 1)] _ rfl ⟨rfl, rfl⟩
  exact h.1

end NcsExamples.Zigbee
