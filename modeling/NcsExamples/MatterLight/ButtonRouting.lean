import NcsExamples.MatterLight.FunctionButton

/-! # Matter light bulb: which button posts what

`ButtonEventHandler` tests the two words it is given against the masks of four buttons, except that
the test for the NUS button uses the button's index, which is 2 and so the mask of the lighting
button. Of the four buttons only the NUS button is concerned. -/

namespace NcsExamples.MatterLight

/-- The bit of a button is set in a word. -/
def BitSet (button : ℕ) (word : BitVec 32) : Prop := btnMsk button &&& word ≠ 0

instance (button : ℕ) (word : BitVec 32) : Decidable (BitSet button word) :=
  inferInstanceAs (Decidable (_ ≠ _))

/-- The button that a handler is for. -/
def Handler.button? : Handler → Option ℕ
  | .lightingAction => some lightingButton
  | .startBLEAdvertisement => some bleAdvertisementStartButton
  | .function => some functionButton
  | .startBLENUS => some bleNusButton
  | _ => none

/-- `ButtonEventHandler` posts an event for the handler. -/
def Posts (handler : Handler) (buttonState hasChanged : BitVec 32) : Prop :=
  ∃ event ∈ buttonEventHandler buttonState hasChanged, event.handler = handler

/-- The events of the buttons get to their own handlers. -/
structure Routed (buttonState hasChanged : BitVec 32) : Prop where
  /-- The function button and the NUS button tell of every change. -/
  function : Posts .function buttonState hasChanged ↔ BitSet functionButton hasChanged
  startBLENUS : Posts .startBLENUS buttonState hasChanged ↔ BitSet bleNusButton hasChanged
  /-- The lighting button and the advertising button tell of a press. -/
  lightingAction : Posts .lightingAction buttonState hasChanged ↔
    BitSet lightingButton hasChanged ∧ BitSet lightingButton buttonState
  startBLEAdvertisement : Posts .startBLEAdvertisement buttonState hasChanged ↔
    BitSet bleAdvertisementStartButton hasChanged ∧ BitSet bleAdvertisementStartButton buttonState
  /-- An event says whether its button is down. -/
  action : ∀ event ∈ buttonEventHandler buttonState hasChanged,
    ∀ button, event.handler.button? = some button →
      (event.action = .buttonPushed ↔ BitSet button buttonState)
  /-- An event is for the handler of a button that has changed. -/
  own : ∀ event ∈ buttonEventHandler buttonState hasChanged,
    ∃ button, event.handler.button? = some button ∧ BitSet button hasChanged

variable {buttonState hasChanged : BitVec 32} {event : AppEvent}

/-- The test with the index of the NUS button is one of the lighting button. -/
theorem bleNusButton_eq : BitVec.ofNat 32 bleNusButton = btnMsk lightingButton := by decide

/-- **The events of a call.** One of each button, and the one for the NUS button comes with a change
of the lighting button. -/
theorem mem_buttonEventHandler_iff : event ∈ buttonEventHandler buttonState hasChanged ↔
    (BitSet lightingButton (buttonState &&& hasChanged) ∧
      event = ⟨.button, lightingButton, .buttonPushed, .lightingAction⟩) ∨
    (BitSet bleAdvertisementStartButton (buttonState &&& hasChanged) ∧
      event = ⟨.button, bleAdvertisementStartButton, .buttonPushed, .startBLEAdvertisement⟩) ∨
    (BitSet functionButton hasChanged ∧
      event = ⟨.button, functionButton, buttonAction (btnMsk functionButton) buttonState,
        .function⟩) ∨
    (BitSet lightingButton hasChanged ∧
      event = ⟨.button, bleNusButton, buttonAction (btnMsk bleNusButton) buttonState,
        .startBLENUS⟩) := by
  simp only [buttonEventHandler, bleNusButton_eq, List.mem_append, List.mem_ite_nil_right,
    List.mem_singleton, BitSet, BitVec.and_assoc, or_assoc]

/-- A button's bit is the one at its index. -/
theorem bitSet_iff {button : ℕ} (hbutton : button < 32) {word : BitVec 32} :
    BitSet button word ↔ word.getLsbD button = true :=
  btnMsk_and_ne_zero hbutton word

theorem bitSet_and {button : ℕ} (hbutton : button < 32) {v w : BitVec 32} :
    BitSet button (v &&& w) ↔ BitSet button w ∧ BitSet button v := by
  rw [bitSet_iff hbutton, bitSet_iff hbutton, bitSet_iff hbutton, BitVec.getLsbD_and,
    Bool.and_eq_true, and_comm]

theorem buttonAction_eq_buttonPushed_iff {button : ℕ} :
    buttonAction (btnMsk button) buttonState = .buttonPushed ↔ BitSet button buttonState := by
  unfold buttonAction
  split
  · next hset => exact iff_of_true rfl hset
  · next hclear => exact iff_of_false nofun hclear

/-! ## What each handler gets -/

theorem posts_function_iff :
    Posts .function buttonState hasChanged ↔ BitSet functionButton hasChanged := by
  constructor
  · rintro ⟨event, hmem, hhandler⟩
    rcases mem_buttonEventHandler_iff.mp hmem with ⟨-, rfl⟩ | ⟨-, rfl⟩ | ⟨hset, -⟩ | ⟨-, rfl⟩
    · cases hhandler
    · cases hhandler
    · exact hset
    · cases hhandler
  · intro hset
    exact ⟨_, mem_buttonEventHandler_iff.mpr (.inr (.inr (.inl ⟨hset, rfl⟩))), rfl⟩

/-- The handler of the NUS button gets an event for each change of the lighting button. -/
theorem posts_startBLENUS_iff :
    Posts .startBLENUS buttonState hasChanged ↔ BitSet lightingButton hasChanged := by
  constructor
  · rintro ⟨event, hmem, hhandler⟩
    rcases mem_buttonEventHandler_iff.mp hmem with ⟨-, rfl⟩ | ⟨-, rfl⟩ | ⟨-, rfl⟩ | ⟨hset, -⟩
    · cases hhandler
    · cases hhandler
    · cases hhandler
    · exact hset
  · intro hset
    exact ⟨_, mem_buttonEventHandler_iff.mpr (.inr (.inr (.inr ⟨hset, rfl⟩))), rfl⟩

theorem posts_lightingAction_iff : Posts .lightingAction buttonState hasChanged ↔
    BitSet lightingButton hasChanged ∧ BitSet lightingButton buttonState := by
  rw [← bitSet_and (by decide)]
  constructor
  · rintro ⟨event, hmem, hhandler⟩
    rcases mem_buttonEventHandler_iff.mp hmem with ⟨hset, -⟩ | ⟨-, rfl⟩ | ⟨-, rfl⟩ | ⟨-, rfl⟩
    · exact hset
    · cases hhandler
    · cases hhandler
    · cases hhandler
  · intro hset
    exact ⟨_, mem_buttonEventHandler_iff.mpr (.inl ⟨hset, rfl⟩), rfl⟩

theorem posts_startBLEAdvertisement_iff : Posts .startBLEAdvertisement buttonState hasChanged ↔
    BitSet bleAdvertisementStartButton hasChanged ∧
      BitSet bleAdvertisementStartButton buttonState := by
  rw [← bitSet_and (by decide)]
  constructor
  · rintro ⟨event, hmem, hhandler⟩
    rcases mem_buttonEventHandler_iff.mp hmem with ⟨-, rfl⟩ | ⟨hset, -⟩ | ⟨-, rfl⟩ | ⟨-, rfl⟩
    · cases hhandler
    · exact hset
    · cases hhandler
    · cases hhandler
  · intro hset
    exact ⟨_, mem_buttonEventHandler_iff.mpr (.inr (.inl ⟨hset, rfl⟩)), rfl⟩

/-- Every event says whether the button it is for is down. -/
theorem action_eq_buttonPushed_iff (hmem : event ∈ buttonEventHandler buttonState hasChanged)
    {button : ℕ} (hbutton : event.handler.button? = some button) :
    event.action = .buttonPushed ↔ BitSet button buttonState := by
  rcases mem_buttonEventHandler_iff.mp hmem with ⟨hset, rfl⟩ | ⟨hset, rfl⟩ | ⟨-, rfl⟩ | ⟨-, rfl⟩
  · obtain rfl := Option.some.inj hbutton
    exact iff_of_true rfl ((bitSet_and (by decide)).mp hset).2
  · obtain rfl := Option.some.inj hbutton
    exact iff_of_true rfl ((bitSet_and (by decide)).mp hset).2
  · obtain rfl := Option.some.inj hbutton
    exact buttonAction_eq_buttonPushed_iff
  · obtain rfl := Option.some.inj hbutton
    exact buttonAction_eq_buttonPushed_iff

/-- Every event is for a button that has changed, if that of the NUS button's handler is. -/
theorem exists_own (hnus : BitSet lightingButton hasChanged → BitSet bleNusButton hasChanged)
    (hmem : event ∈ buttonEventHandler buttonState hasChanged) :
    ∃ button, event.handler.button? = some button ∧ BitSet button hasChanged := by
  rcases mem_buttonEventHandler_iff.mp hmem with
    ⟨hset, rfl⟩ | ⟨hset, rfl⟩ | ⟨hset, rfl⟩ | ⟨hset, rfl⟩
  · exact ⟨lightingButton, rfl, ((bitSet_and (by decide)).mp hset).1⟩
  · exact ⟨bleAdvertisementStartButton, rfl, ((bitSet_and (by decide)).mp hset).1⟩
  · exact ⟨functionButton, rfl, hset⟩
  · exact ⟨bleNusButton, rfl, hnus hset⟩

/-- **Button routing.** A call of `ButtonEventHandler` posts the events of the buttons that have
changed to their handlers, and no others, exactly if the lighting button and the NUS button have both
changed or neither has. -/
theorem buttonEventHandler_routed_iff (buttonState hasChanged : BitVec 32) :
    Routed buttonState hasChanged ↔
      (BitSet lightingButton hasChanged ↔ BitSet bleNusButton hasChanged) := by
  constructor
  · intro h
    exact posts_startBLENUS_iff.symm.trans h.startBLENUS
  · intro hsame
    exact {
      function := posts_function_iff
      startBLENUS := posts_startBLENUS_iff.trans hsame
      lightingAction := posts_lightingAction_iff
      startBLEAdvertisement := posts_startBLEAdvertisement_iff
      action := fun event hmem button hbutton => action_eq_buttonPushed_iff hmem hbutton
      own := fun event hmem => exists_own hsame.mp hmem }

/-- A press of the lighting button, and one of the NUS button. -/
theorem buttonEventHandler_not_routed : ¬ Routed 2 2 ∧ ¬ Routed 4 4 := by
  constructor
  · intro h
    exact absurd (h.startBLENUS.mp ⟨_, List.mem_cons_of_mem _ List.mem_cons_self, rfl⟩) (by decide)
  · intro h
    obtain ⟨event, hmem, -⟩ := h.startBLENUS.mpr (by decide)
    cases hmem

end NcsExamples.MatterLight
