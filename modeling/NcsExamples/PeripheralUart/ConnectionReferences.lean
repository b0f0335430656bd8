import NcsExamples.PeripheralUart.Connection

/-! # The connection of the UART service: references

Each of `current_conn` and `auth_conn` stands for one reference, which is released when the pointer
is cleared. `auth_passkey_confirm` sets `auth_conn` without a look at its old value: the end of a
pairing does not clear it, so a second pairing on the same connection takes a second reference,
and only one of the two is ever released. `button_changed` gives both answers when both keys go down
together, and the second one releases a null pointer. -/

namespace NcsExamples.PeripheralUart

/-- The references held are those of the two pointers, none is left when the connection is over, and
every release is of a reference. -/
structure Balanced (s : ConnState) : Prop where
  /-- One reference for each pointer that is set. -/
  held_eq : s.held = ConnState.refsOf s.currentConn + ConnState.refsOf s.authConn
  /-- The slot is free after `disconnected`. -/
  held_of_no_link : s.link = false → s.held = 0
  /-- No null pointer is released. -/
  unrefs_isSome : none ∉ s.unrefs

/-- The condition on an event: a question comes only while `auth_conn` is clear, and the two keys do
not go down together while it is set. -/
def OneHolder (s : ConnState) : ConnInput → Prop
  | .authPasskeyConfirm => s.authConn = none
  | .buttonChanged buttonState hasChanged =>
      s.authConn ≠ none →
        ¬ (Pressed keyPasskeyAccept buttonState hasChanged ∧
          Pressed keyPasskeyReject buttonState hasChanged)
  | _ => True

instance (s : ConnState) : DecidablePred (OneHolder s)
  | .authPasskeyConfirm => inferInstanceAs (Decidable (_ = _))
  | .buttonChanged _ _ => inferInstanceAs (Decidable (_ → ¬ (_ ∧ _)))
  | .connected _ | .disconnected | .authCancel | .pairingFailed => isTrue trivial

/-- Without a connection no pointer is set. -/
def Cleared (s : ConnState) : Prop := s.link = false → s.currentConn = none ∧ s.authConn = none

variable {s t : ConnState}

/-- `num_comp_reply` only ever clears `auth_conn`. -/
theorem Cleared.numCompReply (h : Cleared s) (accept : Bool) : Cleared (s.numCompReply accept) :=
  fun hlink => ⟨(h hlink).1, rfl⟩

/-- Every event keeps the pointers clear without a connection. -/
theorem Cleared.step (h : Cleared s) {i : ConnInput} (hs : connStep s i = some t) : Cleared t := by
  cases connStep_of_eq_some hs with
  | connected err hlink =>
    intro hlink'
    by_cases herr : err = 0
    · simp [ConnState.connected, ConnState.btConnRef, herr] at hlink'
    · rw [ConnState.connected_of_ne herr]
      exact h hlink
  | disconnected =>
    intro _
    exact ConnState.pointers_disconnected _
  | authPasskeyConfirm hlink | authCancel hlink | pairingFailed hlink =>
    intro hlink'
    exact absurd (hlink.symm.trans hlink') (by decide)
  | buttonChanged buttonState hasChanged =>
    unfold ConnState.buttonChanged
    split
    · dsimp only
      split <;> split
      · exact (h.numCompReply true).numCompReply false
      · exact h.numCompReply true
      · exact h.numCompReply false
      · exact h
    · exact h

/-! ## The events -/

/-- `connected` sets `current_conn`, which was clear, with a reference. -/
theorem Balanced.connected (h : Balanced s) (hclear : Cleared s) (hlink : s.link = false)
    (err : UInt8) : Balanced ({ s with link := err = 0 }.connected .slot err) := by
  obtain ⟨hcur, hauth⟩ := hclear hlink
  have hzero := h.held_of_no_link hlink
  by_cases herr : err = 0
  · subst herr
    have hheld : ({ s with link := true }.connected .slot 0).held = s.held + 1 :=
      ConnState.held_connected _ _
    constructor
    · show ({ s with link := true }.connected .slot 0).held = _
      rw [hheld, hzero]
      show (0 : ℤ) + 1 = 1 + ConnState.refsOf s.authConn
      rw [hauth]
      rfl
    · intro hlink'
      cases hlink'
    · exact h.unrefs_isSome
  · rw [ConnState.connected_of_ne herr]
    exact ⟨h.held_eq, fun _ => hzero, h.unrefs_isSome⟩

/-- `disconnected` releases what the pointers hold. -/
theorem Balanced.disconnected (h : Balanced s) :
    Balanced { s with link := false, question := none }.disconnected := by
  have hzero : { s with link := false, question := none }.disconnected.held = 0 := by
    have hheld := h.held_eq
    rw [ConnState.held_disconnected]
    show s.held - ConnState.refsOf s.authConn - ConnState.refsOf s.currentConn = 0
    omega
  constructor
  · obtain ⟨hcur, hauth⟩ := ConnState.pointers_disconnected
      { s with link := false, question := none }
    rw [hzero, hcur, hauth]
    rfl
  · intro _
    exact hzero
  · rw [ConnState.none_mem_unrefs_disconnected]
    exact h.unrefs_isSome

/-- `auth_passkey_confirm` takes a reference, for which there is room in `auth_conn` only if it was
clear. -/
theorem Balanced.authPasskeyConfirm_iff (h : Balanced s) (hlink : s.link = true)
    (question : Option ℕ) (asked : ℕ) :
    Balanced ({ s with question, asked }.authPasskeyConfirm .slot) ↔ s.authConn = none := by
  have hheld := h.held_eq
  have hnew : ({ s with question, asked }.authPasskeyConfirm .slot).held = s.held + 1 :=
    ConnState.held_authPasskeyConfirm _ _
  constructor
  · intro ht
    have hheld' : s.held + 1 = ConnState.refsOf s.currentConn + 1 := hnew ▸ ht.held_eq
    cases hauth : s.authConn with
    | none => rfl
    | some conn =>
      rw [hauth, ConnState.refsOf] at hheld
      omega
  · intro hauth
    constructor
    · rw [hnew, hheld, hauth, ConnState.refsOf, add_zero]
      rfl
    · intro hlink'
      exact absurd (hlink.symm.trans hlink') (by decide)
    · exact h.unrefs_isSome

/-- `num_comp_reply` releases the reference of `auth_conn`. -/
theorem Balanced.numCompReply (h : Balanced s) (hclear : Cleared s) {conn : BtConn}
    (hauth : s.authConn = some conn) (accept : Bool) : Balanced (s.numCompReply accept) := by
  constructor
  · rw [ConnState.held_numCompReply, h.held_eq, add_sub_cancel_right]
    exact (add_zero _).symm
  · intro hlink
    have hnone := (hclear hlink).2
    rw [hauth] at hnone
    cases hnone
  · rw [ConnState.none_mem_unrefs_numCompReply, hauth]
    simpa using h.unrefs_isSome

/-- A second answer releases a null pointer. -/
theorem not_balanced_numCompReply_twice (s : ConnState) (accept accept' : Bool) :
    ¬ Balanced ((s.numCompReply accept).numCompReply accept') := by
  intro h
  apply h.unrefs_isSome
  rw [ConnState.none_mem_unrefs_numCompReply]
  exact .inr rfl

/-- The buttons keep the balance unless both keys answer. -/
theorem Balanced.buttonChanged_iff (h : Balanced s) (hclear : Cleared s)
    (buttonState hasChanged : BitVec 32) :
    Balanced (s.buttonChanged buttonState hasChanged) ↔
      OneHolder s (.buttonChanged buttonState hasChanged) := by
  cases hauth : s.authConn with
  | none =>
    rw [ConnState.buttonChanged_of_none hauth]
    exact iff_of_true h fun hsome => absurd hauth hsome
  | some conn =>
    rw [ConnState.buttonChanged_of_some hauth]
    simp only [OneHolder, hauth, ne_eq, reduceCtorEq, not_false_eq_true, forall_const]
    by_cases haccept : Pressed keyPasskeyAccept buttonState hasChanged <;>
      by_cases hreject : Pressed keyPasskeyReject buttonState hasChanged <;>
      simp only [haccept, hreject, if_true, if_false, and_true, and_false, and_self,
        not_true_eq_false, not_false_eq_true, iff_true, iff_false]
    · exact not_balanced_numCompReply_twice s true false
    · exact h.numCompReply hclear hauth true
    · exact h.numCompReply hclear hauth false
    · exact h

/-- An event keeps the balance exactly if it meets the condition. -/
theorem Balanced.step_iff (h : Balanced s) (hclear : Cleared s) {i : ConnInput}
    (hs : connStep s i = some t) : Balanced t ↔ OneHolder s i := by
  cases connStep_of_eq_some hs with
  | connected err hlink =>
    exact iff_of_true (h.connected hclear hlink err) trivial
  | disconnected =>
    exact iff_of_true h.disconnected trivial
  | authPasskeyConfirm hlink =>
    exact h.authPasskeyConfirm_iff hlink _ _
  | authCancel | pairingFailed =>
    exact iff_of_true ⟨h.held_eq, h.held_of_no_link, h.unrefs_isSome⟩ trivial
  | buttonChanged buttonState hasChanged =>
    exact h.buttonChanged_iff hclear buttonState hasChanged

/-! ## Runs -/

/-- **Reference balance.** After every event of a run the references held are those of the pointers,
and none is left without a connection, exactly if no question comes while `auth_conn` is set and no
press of both keys does. -/
theorem connection_balanced_iff (is : List ConnInput) :
    btConn.Along (fun _ _ t => Balanced t) btConn.init is ↔ btConn.Meets OneHolder is :=
  Machine.along_congr (fun s => Balanced s ∧ Cleared s)
    (fun _ _ _ h hs => h.1.step_iff h.2 hs)
    (fun _ _ _ h ht hs => ⟨ht, h.2.step hs⟩)
    ⟨⟨rfl, fun _ => rfl, List.not_mem_nil⟩, fun _ => ⟨rfl, rfl⟩⟩

/-- The peer cancels a pairing and tries again on the same connection: after `disconnected` one
reference is left. -/
theorem connection_not_balanced :
    ¬ ∀ (is : List ConnInput) (s : ConnState), btConn.run is = some s → Balanced s := by
  intro h
  have hbalanced := h [.connected 0, .authPasskeyConfirm, .authCancel, .pairingFailed,
    .authPasskeyConfirm, .disconnected] _ rfl
  exact absurd (hbalanced.held_of_no_link rfl) (by decide)

/-! ## A reference that is leaked -/

/-- The references held beyond those of the pointers. -/
def ConnState.leaked (s : ConnState) : ℤ :=
  s.held - (ConnState.refsOf s.currentConn + ConnState.refsOf s.authConn)

/-- One call of `num_comp_reply` gives no leaked reference back. -/
theorem leaked_numCompReply (accept : Bool) (s : ConnState) :
    (s.numCompReply accept).leaked = s.leaked := by
  unfold ConnState.leaked
  rw [ConnState.held_numCompReply]
  show s.held - ConnState.refsOf s.authConn - (ConnState.refsOf s.currentConn + 0) = _
  omega

/-- No event gives a leaked reference back. -/
theorem leaked_le_step (hclear : Cleared s) {i : ConnInput} (hs : connStep s i = some t) :
    s.leaked ≤ t.leaked := by
  cases connStep_of_eq_some hs with
  | connected err hlink =>
    obtain ⟨hcur, -⟩ := hclear hlink
    by_cases herr : err = 0
    · subst herr
      unfold ConnState.leaked
      rw [ConnState.held_connected, hcur]
      show s.held - (0 + ConnState.refsOf s.authConn) ≤
        s.held + 1 - (1 + ConnState.refsOf s.authConn)
      omega
    · rw [ConnState.connected_of_ne herr]
      exact le_refl _
  | disconnected =>
    obtain ⟨hcur, hauth⟩ := ConnState.pointers_disconnected
      { s with link := false, question := none }
    unfold ConnState.leaked
    rw [ConnState.held_disconnected, hcur, hauth]
    show s.held - _ ≤ s.held - ConnState.refsOf s.authConn - ConnState.refsOf s.currentConn - (0 + 0)
    omega
  | authPasskeyConfirm =>
    unfold ConnState.leaked
    rw [ConnState.held_authPasskeyConfirm]
    show _ ≤ s.held + 1 - (ConnState.refsOf s.currentConn + 1)
    cases s.authConn <;> simp only [ConnState.refsOf] <;> omega
  | authCancel | pairingFailed =>
    exact le_refl _
  | buttonChanged buttonState hasChanged =>
    unfold ConnState.buttonChanged
    split
    · dsimp only
      split <;> split <;> simp only [leaked_numCompReply, le_refl]
    · exact le_refl _

/-- **A leaked reference blocks the slot.** Whatever happens after a reference is leaked, the
application holds one, also without a connection. -/
theorem held_pos_of_leaked (hclear : Cleared s) (hleak : 0 < s.leaked) {is : List ConnInput}
    (hrun : btConn.runFrom s is = some t) : 0 < t.held := by
  have hinv : Cleared t ∧ 0 < t.leaked := by
    refine Machine.invariant_run (fun u => Cleared u ∧ 0 < u.leaked) ?_ ⟨hclear, hleak⟩ hrun
    rintro u i v ⟨hu, hpos⟩ hs
    exact ⟨hu.step hs, lt_of_lt_of_le hpos (leaked_le_step hu hs)⟩
  obtain ⟨-, hpos⟩ := hinv
  unfold ConnState.leaked at hpos
  cases hcur : t.currentConn <;> cases hauth : t.authConn <;>
    simp only [hcur, hauth, ConnState.refsOf] at hpos <;> omega

end NcsExamples.PeripheralUart
