import NcsExamples.Zigbee.LightBulb

/-! # Zigbee light bulb: on and off

`on_off_set_value` writes the attribute and hands the stored level to `level_control_set_value`,
which writes the attribute again: it is off if the level is 0. The level is tested in 16 bits and
stored in 8, so that a multiple of 256 stores 0 and leaves the bulb on. -/

namespace NcsExamples.Zigbee

/-- Level and on/off commands. -/
inductive LightCommand
  /-- The level control cluster sets a level. -/
  | setLevel (newLevel : BitVec 16)
  /-- A write of the attribute `current_level`. -/
  | writeLevel (newLevel : BitVec 16)
  /-- A write of the attribute `on_off`. -/
  | writeOnOff (on : BitVec 8)
  deriving DecidableEq, Repr

/-- The parameter of `zcl_device_cb` for a command. -/
def LightCommand.param : LightCommand → DeviceCbParam
  | .setLevel newLevel => .levelControlSetValue newLevel
  | .writeLevel newLevel => .setAttrValue 8 0 newLevel
  | .writeOnOff on => .setAttrValue 6 0 (on.setWidth 16)

/-- A command is handled by `zcl_device_cb`. -/
def LightCommand.run (b : Bulb) (c : LightCommand) : Bulb := (zclDeviceCb b c.param).1

/-- The bulb under level and on/off commands. -/
def commands : Machine Bulb LightCommand :=
  ⟨bulbClustersAttrInit.levelControlSetValue (bulbClustersAttrInit.currentLevel.setWidth 16),
    fun b c => some (c.run b)⟩

/-- A command takes effect: a bulb that is on has a level; an on command leaves it on and lit; and
what an off command has switched off, an on command brings back. -/
structure TakesEffect (b : Bulb) (c : LightCommand) (t : Bulb) : Prop where
  level : t.onOff ≠ 0 → t.currentLevel ≠ 0
  on : ∀ on, c = .writeOnOff on → on ≠ 0 → t.onOff ≠ 0 ∧ t.pulse ≠ 0
  off : c = .writeOnOff 0 → ∀ on, on ≠ 0 →
    (LightCommand.run t (.writeOnOff on)).pulse = b.pulse ∧
      (LightCommand.run t (.writeOnOff on)).currentLevel = b.currentLevel

/-- A level is 0, or is not stored as 0. -/
def LevelKept (newLevel : BitVec 16) : Prop := newLevel = 0 ∨ newLevel.setWidth 8 ≠ 0

/-- Levels are not stored as 0 unless they are 0; an on command finds a level; and an off command
finds the bulb on, or no level. -/
def Sensible (b : Bulb) : LightCommand → Prop
  | .setLevel newLevel | .writeLevel newLevel => LevelKept newLevel
  | .writeOnOff on => (on ≠ 0 → b.currentLevel ≠ 0) ∧ (on = 0 → b.onOff ≠ 0 ∨ b.currentLevel = 0)

variable {b t : Bulb} {c : LightCommand}

/-! ## One command -/

@[simp] theorem run_setLevel (newLevel : BitVec 16) :
    LightCommand.run b (.setLevel newLevel) = b.levelControlSetValue newLevel := rfl

@[simp] theorem run_writeLevel (newLevel : BitVec 16) :
    LightCommand.run b (.writeLevel newLevel) = b.levelControlSetValue newLevel := rfl

@[simp] theorem run_writeOnOff (on : BitVec 8) :
    LightCommand.run b (.writeOnOff on) = b.onOffSetValue on := by
  have hwidth : (on.setWidth 16).setWidth 8 = on := by simp
  show b.onOffSetValue ((on.setWidth 16).setWidth 8) = b.onOffSetValue on
  rw [hwidth]

/-- An off command keeps the level. -/
theorem onOffSetValue_zero : b.onOffSetValue 0 = { b with
    onOff := 0
    identify := { b.identify with led := 0 } } := rfl

/-- The stored level is 0 in 16 bits exactly if it is 0. -/
theorem setWidth_eq_zero_iff {level : BitVec 8} : level.setWidth 16 = 0 ↔ level = 0 := by
  constructor
  · intro h
    have hback : (level.setWidth 16).setWidth 8 = level := by simp
    rw [h] at hback
    exact hback.symm
  · rintro rfl
    rfl

/-- An on command sets the stored level. -/
theorem onOffSetValue_of_ne_zero {on : BitVec 8} (h : on ≠ 0) :
    (b.onOffSetValue on).onOff = (if b.currentLevel = 0 then 0 else 1) ∧
      (b.onOffSetValue on).currentLevel = b.currentLevel ∧
      (b.onOffSetValue on).pulse = pulseOf b.currentLevel.toNat := by
  rw [Bulb.onOffSetValue, if_pos h]
  refine ⟨?_, ?_, ?_⟩
  · rw [Bulb.levelControlSetValue_onOff]
    simp only [setWidth_eq_zero_iff]
  · rw [Bulb.levelControlSetValue_currentLevel]
    simp
  · rw [Bulb.pulse, Bulb.levelControlSetValue_identify]
    simp

/-- A level that is not 0 gives a pulse. -/
theorem pulseOf_eq_zero_iff {level : BitVec 8} : pulseOf level.toNat = 0 ↔ level = 0 := by
  have hperiod : ledPwmPeriodUs = 20000 := rfl
  have hzero : level = 0 ↔ level.toNat = 0 := BitVec.toNat_eq
  rw [Bulb.pulseOf_eq level.isLt, hperiod, hzero]
  omega

/-- The pulse of a bulb whose output follows, by whether it is on. -/
theorem pulse_of_follows (h : b.Follows) :
    b.pulse = if b.onOff ≠ 0 then pulseOf b.currentLevel.toNat else 0 := by
  rw [h.pulse_eq, Bulb.expectedPulse, Bulb.pulseOf_eq b.currentLevel.isLt]

/-- A level command takes effect exactly if its level is kept. -/
theorem takesEffect_level_iff {newLevel : BitVec 16}
    (hc : c.run b = b.levelControlSetValue newLevel)
    (hne : ∀ on, c ≠ .writeOnOff on) : TakesEffect b c (c.run b) ↔ LevelKept newLevel := by
  rw [hc]
  constructor
  · intro h
    have hlevel := h.level
    rw [Bulb.levelControlSetValue_onOff, Bulb.levelControlSetValue_currentLevel] at hlevel
    by_cases hzero : newLevel = 0
    · exact .inl hzero
    · rw [if_neg hzero] at hlevel
      exact .inr (hlevel (by decide))
  · intro hkept
    refine ⟨?_, fun on hon => absurd hon (hne on), fun hoff => absurd hoff (hne 0)⟩
    rw [Bulb.levelControlSetValue_onOff, Bulb.levelControlSetValue_currentLevel]
    rcases hkept with rfl | hlow
    · exact fun hon => absurd rfl hon
    · exact fun _ => hlow

/-- An on command takes effect exactly if a level is stored. -/
theorem takesEffect_on_iff {on : BitVec 8} (hon : on ≠ 0) :
    TakesEffect b (.writeOnOff on) (LightCommand.run b (.writeOnOff on)) ↔ b.currentLevel ≠ 0 := by
  obtain ⟨honOff, hlevel, hpulse⟩ := onOffSetValue_of_ne_zero (b := b) hon
  rw [run_writeOnOff]
  constructor
  · intro h hzero
    obtain ⟨hlit, -⟩ := h.on on rfl hon
    rw [honOff, if_pos hzero] at hlit
    exact hlit rfl
  · intro hne
    refine ⟨fun _ => ?_, fun _ _ _ => ⟨?_, ?_⟩, fun hoff => absurd hoff ?_⟩
    · rw [hlevel]
      exact hne
    · rw [honOff, if_neg hne]
      decide
    · rw [hpulse]
      exact mt pulseOf_eq_zero_iff.mp hne
    · rintro ⟨⟩
      exact hon rfl

/-- An off command takes effect exactly if the bulb is on, or has no level to come back to. -/
theorem takesEffect_off_iff (h : b.Follows) :
    TakesEffect b (.writeOnOff 0) (LightCommand.run b (.writeOnOff 0)) ↔
      b.onOff ≠ 0 ∨ b.currentLevel = 0 := by
  rw [run_writeOnOff, onOffSetValue_zero]
  constructor
  · intro heffect
    by_contra hnot
    obtain ⟨hoff, hne⟩ := not_or.mp hnot
    obtain ⟨hpulse, -⟩ := heffect.off rfl 1 (by decide)
    rw [run_writeOnOff, (onOffSetValue_of_ne_zero (by decide)).2.2, pulse_of_follows h,
      if_neg hoff] at hpulse
    exact hne (pulseOf_eq_zero_iff.mp hpulse)
  · intro hstate
    refine ⟨fun hon => absurd rfl hon, fun on hon hne => ?_, fun _ on hne => ?_⟩
    · obtain rfl := LightCommand.writeOnOff.inj hon
      exact absurd rfl hne
    · obtain ⟨-, hlevel, hpulse⟩ := onOffSetValue_of_ne_zero
        (b := { b with onOff := 0, identify := { b.identify with led := 0 } }) hne
      rw [run_writeOnOff]
      refine ⟨?_, hlevel⟩
      rw [hpulse, pulse_of_follows h]
      rcases hstate with hon | hzero
      · rw [if_pos hon]
      · show pulseOf b.currentLevel.toNat = _
        rw [hzero]
        split <;> rfl

/-- A command takes effect exactly if it is sensible. -/
theorem takesEffect_iff (h : b.Follows) : TakesEffect b c (c.run b) ↔ Sensible b c := by
  cases c with
  | setLevel newLevel => exact takesEffect_level_iff rfl nofun
  | writeLevel newLevel => exact takesEffect_level_iff rfl nofun
  | writeOnOff on =>
    by_cases hon : on = 0
    · subst hon
      rw [takesEffect_off_iff h]
      simp [Sensible]
    · rw [takesEffect_on_iff hon]
      constructor
      · intro hne
        exact ⟨fun _ => hne, fun hzero => absurd hzero hon⟩
      · intro hsensible
        exact hsensible.1 hon

/-- **On takes effect.** In a run of level and on/off commands each takes effect, exactly if the
levels are not stored as 0 unless they are 0, the on commands find a level, and the off commands find
the bulb on or no level. -/
theorem lightBulb_takesEffect_iff (cs : List LightCommand) :
    commands.Along TakesEffect commands.init cs ↔ commands.Meets Sensible cs := by
  apply Machine.along_congr Bulb.Follows
  · intro b c t h hs
    obtain rfl := Option.some.inj hs
    exact takesEffect_iff h
  · intro b c t h _ hs
    obtain rfl := Option.some.inj hs
    exact (Bulb.zclDeviceCb_spec b c.param).1 h
  · exact Bulb.follows_levelControlSetValue _

/-- A level of 256 leaves the bulb on at level 0; and after a level of 0 an on command leaves it off.
-/
theorem lightBulb_not_takesEffect :
    ¬ commands.Along TakesEffect commands.init [.setLevel 256] ∧
      ¬ commands.Along TakesEffect commands.init [.setLevel 0, .writeOnOff 1] := by
  constructor
  · intro h
    obtain ⟨heffect, -⟩ := h _ rfl
    exact heffect.level (by decide) (by decide)
  · intro h
    obtain ⟨-, h⟩ := h _ rfl
    obtain ⟨heffect, -⟩ := h _ rfl
    obtain ⟨hon, -⟩ := heffect.on 1 rfl (by decide)
    exact hon (by decide)

end NcsExamples.Zigbee
