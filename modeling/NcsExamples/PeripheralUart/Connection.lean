import NcsExamples.Lib.Machine
import Mathlib.Data.BitVec

/-! # The connection of the UART service

The connection callbacks of `peripheral_uart_set_tx`. The application keeps two pointers to the only
connection of the stack, `current_conn` and `auth_conn`, and holds a reference for each. A pairing
may ask the user to confirm a passkey: `auth_passkey_confirm` keeps the connection in `auth_conn`,
and a button answers through `num_comp_reply`. The peer may cancel the question, and the pairing may
fail, at any time. -/

namespace NcsExamples.PeripheralUart

/-- What a `struct bt_conn *` can point to: with `CONFIG_BT_MAX_CONN=1` the stack has one slot. -/
inductive BtConn
  | slot
  deriving DecidableEq, Repr

/-- A call of `bt_conn_auth_passkey_confirm` or `bt_conn_auth_cancel`. -/
structure AuthReply where
  /-- The call is that of `bt_conn_auth_passkey_confirm`. -/
  accept : Bool
  /-- Its argument. -/
  conn : Option BtConn
  /-- The number of the question that the stack has open at that moment. -/
  question : Option ℕ
  deriving DecidableEq, Repr

/-- The connection state of the application and of the stack. -/
structure ConnState where
  /-- The stack has a connection. -/
  link : Bool
  /-- The number of the passkey question that is neither answered nor cancelled. -/
  question : Option ℕ
  /-- The number of questions asked so far. -/
  asked : ℕ
  /-- `current_conn`. -/
  currentConn : Option BtConn
  /-- `auth_conn`. -/
  authConn : Option BtConn
  /-- `CON_STATUS_LED`. -/
  conStatusLed : Bool
  /-- History: the number of calls of `bt_conn_ref`. -/
  refs : ℕ
  /-- History: the arguments of `bt_conn_unref`, in order. -/
  unrefs : List (Option BtConn)
  /-- History: the answers given to the stack, in order. -/
  replies : List AuthReply
  deriving DecidableEq, Repr

namespace ConnState

/-- The references that a pointer to the slot stands for. -/
@[simp] def refsOf : Option BtConn → ℤ
  | none => 0
  | some _ => 1

/-- The references that the application holds on the slot. -/
def held (s : ConnState) : ℤ := s.refs - (s.unrefs.countP Option.isSome : ℕ)

/-- `bt_conn_ref`, which returns its argument. -/
def btConnRef (s : ConnState) : ConnState := { s with refs := s.refs + 1 }

/-- `bt_conn_unref(conn)`. -/
def btConnUnref (conn : Option BtConn) (s : ConnState) : ConnState :=
  { s with unrefs := s.unrefs ++ [conn] }

/-- `bt_conn_auth_passkey_confirm(conn)` or `bt_conn_auth_cancel(conn)`: with a connection it closes
the open question. -/
def btConnAuth (accept : Bool) (conn : Option BtConn) (s : ConnState) : ConnState :=
  { s with
    replies := s.replies ++ [⟨accept, conn, s.question⟩]
    question := if conn.isSome then none else s.question }

/-! ## The callbacks -/

/-- `connected`. -/
def connected (conn : BtConn) (err : UInt8) (s : ConnState) : ConnState :=
  if err ≠ 0 then s
  else { s.btConnRef with currentConn := some conn, conStatusLed := true }

/-- `disconnected`. -/
def disconnected (s : ConnState) : ConnState :=
  let s := if s.authConn.isSome then { s.btConnUnref s.authConn with authConn := none } else s
  if s.currentConn.isSome then
    { s.btConnUnref s.currentConn with currentConn := none, conStatusLed := false }
  else s

/-- `auth_passkey_confirm`. -/
def authPasskeyConfirm (conn : BtConn) (s : ConnState) : ConnState :=
  { s.btConnRef with authConn := some conn }

/-- `num_comp_reply`. -/
def numCompReply (accept : Bool) (s : ConnState) : ConnState :=
  { (s.btConnAuth accept s.authConn).btConnUnref s.authConn with authConn := none }

end ConnState

/-- `KEY_PASSKEY_ACCEPT`, which is `DK_BTN1_MSK`. -/
def keyPasskeyAccept : BitVec 32 := 1#32

/-- `KEY_PASSKEY_REJECT`, which is `DK_BTN2_MSK`. -/
def keyPasskeyReject : BitVec 32 := 2#32

/-- A key is down and has changed. -/
def Pressed (key buttonState hasChanged : BitVec 32) : Prop := buttonState &&& hasChanged &&& key ≠ 0

instance (key buttonState hasChanged : BitVec 32) : Decidable (Pressed key buttonState hasChanged) :=
  inferInstanceAs (Decidable (_ ≠ _))

/-- `button_changed`. -/
def ConnState.buttonChanged (buttonState hasChanged : BitVec 32) (s : ConnState) : ConnState :=
  if s.authConn.isSome then
    -- the second test does not ask again whether `auth_conn` is set
    let s := if Pressed keyPasskeyAccept buttonState hasChanged then s.numCompReply true else s
    if Pressed keyPasskeyReject buttonState hasChanged then s.numCompReply false else s
  else s

/-! ## The events -/

/-- What happens next. -/
inductive ConnInput
  /-- The stack calls `connected`. -/
  | connected (err : UInt8)
  /-- The connection ends and the stack calls `disconnected`. -/
  | disconnected
  /-- A pairing asks for a confirmation: the stack calls `auth_passkey_confirm`. -/
  | authPasskeyConfirm
  /-- The pairing is cancelled: the stack calls `auth_cancel`. -/
  | authCancel
  /-- The pairing fails: the stack calls `pairing_failed`. -/
  | pairingFailed
  /-- The buttons library calls `button_changed`. -/
  | buttonChanged (buttonState hasChanged : BitVec 32)
  deriving DecidableEq

/-- One event. -/
def connStep (s : ConnState) : ConnInput → Option ConnState
  | .connected err =>
      if s.link then none
      else some ({ s with link := err = 0 }.connected .slot err)
  | .disconnected =>
      if s.link then some { s with link := false, question := none }.disconnected else none
  | .authPasskeyConfirm =>
      if s.link then
        some ({ s with question := some s.asked, asked := s.asked + 1 }.authPasskeyConfirm .slot)
      else none
  -- `auth_cancel` and `pairing_failed` only write to the log
  | .authCancel | .pairingFailed => if s.link then some { s with question := none } else none
  | .buttonChanged buttonState hasChanged => some (s.buttonChanged buttonState hasChanged)

/-- The connection state as a machine. -/
def btConn : Machine ConnState ConnInput where
  init := ⟨false, none, 0, none, none, false, 0, [], []⟩
  step := connStep

/-- The events, with what each one finds. -/
inductive ConnStep (s : ConnState) : ConnInput → ConnState → Prop
  | connected (err : UInt8) (hlink : s.link = false) :
      ConnStep s (.connected err) ({ s with link := err = 0 }.connected .slot err)
  | disconnected (hlink : s.link = true) :
      ConnStep s .disconnected { s with link := false, question := none }.disconnected
  | authPasskeyConfirm (hlink : s.link = true) :
      ConnStep s .authPasskeyConfirm
        ({ s with question := some s.asked, asked := s.asked + 1 }.authPasskeyConfirm .slot)
  | authCancel (hlink : s.link = true) : ConnStep s .authCancel { s with question := none }
  | pairingFailed (hlink : s.link = true) : ConnStep s .pairingFailed { s with question := none }
  | buttonChanged (buttonState hasChanged : BitVec 32) :
      ConnStep s (.buttonChanged buttonState hasChanged) (s.buttonChanged buttonState hasChanged)

/-- Every step of the machine is one of these. -/
theorem connStep_of_eq_some {s t : ConnState} {i : ConnInput} (hs : connStep s i = some t) :
    ConnStep s i t := by
  cases i with
  | connected err =>
    obtain ⟨hlink, ht⟩ := Option.ite_none_left_eq_some.mp hs
    obtain rfl := Option.some.inj ht
    exact .connected err (by simpa using hlink)
  | disconnected =>
    obtain ⟨hlink, rfl⟩ := Machine.guarded_eq_some.mp hs
    exact .disconnected hlink
  | authPasskeyConfirm =>
    obtain ⟨hlink, rfl⟩ := Machine.guarded_eq_some.mp hs
    exact .authPasskeyConfirm hlink
  | authCancel =>
    obtain ⟨hlink, rfl⟩ := Machine.guarded_eq_some.mp hs
    exact .authCancel hlink
  | pairingFailed =>
    obtain ⟨hlink, rfl⟩ := Machine.guarded_eq_some.mp hs
    exact .pairingFailed hlink
  | buttonChanged buttonState hasChanged =>
    obtain rfl := Option.some.inj hs
    exact .buttonChanged buttonState hasChanged

/-! ## What a callback does -/

namespace ConnState

variable {s : ConnState}

/-- Without `auth_conn` the buttons do nothing. -/
theorem buttonChanged_of_none (h : s.authConn = none) (buttonState hasChanged : BitVec 32) :
    s.buttonChanged buttonState hasChanged = s := by
  simp [buttonChanged, h]

/-- With `auth_conn` each of the two keys gives its answer. -/
theorem buttonChanged_of_some {conn : BtConn} (h : s.authConn = some conn)
    (buttonState hasChanged : BitVec 32) :
    s.buttonChanged buttonState hasChanged =
      let s := if Pressed keyPasskeyAccept buttonState hasChanged then s.numCompReply true else s
      if Pressed keyPasskeyReject buttonState hasChanged then s.numCompReply false else s := by
  simp [buttonChanged, h]

/-- A new reference counts. -/
@[simp] theorem held_btConnRef (s : ConnState) : s.btConnRef.held = s.held + 1 := by
  simp only [held, btConnRef, Nat.cast_add, Nat.cast_one]
  omega

/-- A released reference counts, unless nothing is released. -/
@[simp] theorem held_btConnUnref (conn : Option BtConn) (s : ConnState) :
    (s.btConnUnref conn).held = s.held - refsOf conn := by
  cases conn <;> simp [held, btConnUnref, List.countP_append, Int.sub_sub]

/-- `connected` without an error takes a reference. -/
theorem held_connected (conn : BtConn) (s : ConnState) : (s.connected conn 0).held = s.held + 1 := by
  rw [← held_btConnRef]
  rfl

/-- `connected` with an error changes nothing. -/
theorem connected_of_ne {err : UInt8} (h : err ≠ 0) (conn : BtConn) (s : ConnState) :
    s.connected conn err = s := if_pos h

/-- `auth_passkey_confirm` takes a reference. -/
theorem held_authPasskeyConfirm (conn : BtConn) (s : ConnState) :
    (s.authPasskeyConfirm conn).held = s.held + 1 := by
  rw [← held_btConnRef]
  rfl

/-- `num_comp_reply` releases what `auth_conn` stands for. -/
theorem held_numCompReply (accept : Bool) (s : ConnState) :
    (s.numCompReply accept).held = s.held - refsOf s.authConn := by
  rw [← held_btConnUnref]
  rfl

/-- `disconnected` clears both pointers. -/
theorem pointers_disconnected (s : ConnState) :
    s.disconnected.currentConn = none ∧ s.disconnected.authConn = none := by
  unfold disconnected
  cases hauth : s.authConn <;> cases hcur : s.currentConn <;> simp [btConnUnref, hauth, hcur]

/-- `disconnected` releases what the two pointers stand for. -/
theorem held_disconnected (s : ConnState) :
    s.disconnected.held = s.held - refsOf s.authConn - refsOf s.currentConn := by
  unfold disconnected
  cases hauth : s.authConn <;> cases hcur : s.currentConn <;>
    simp [held, btConnUnref, hauth, hcur, List.countP_append] <;> omega

/-- `disconnected` releases no null pointer. -/
theorem none_mem_unrefs_disconnected (s : ConnState) :
    none ∈ s.disconnected.unrefs ↔ none ∈ s.unrefs := by
  unfold disconnected
  cases hauth : s.authConn <;> cases hcur : s.currentConn <;> simp [btConnUnref, hauth, hcur]

/-- `num_comp_reply` releases a null pointer if `auth_conn` is clear. -/
theorem none_mem_unrefs_numCompReply (accept : Bool) (s : ConnState) :
    none ∈ (s.numCompReply accept).unrefs ↔ none ∈ s.unrefs ∨ s.authConn = none := by
  show none ∈ s.unrefs ++ [s.authConn] ↔ _
  rw [List.mem_append, List.mem_singleton, eq_comm (b := s.authConn)]

/-- `connected` has no part in the questions. -/
theorem questions_connected (conn : BtConn) (err : UInt8) (s : ConnState) :
    (s.connected conn err).replies = s.replies ∧ (s.connected conn err).question = s.question ∧
      (s.connected conn err).asked = s.asked := by
  unfold connected
  split <;> exact ⟨rfl, rfl, rfl⟩

/-- `disconnected` has no part in the questions. -/
theorem questions_disconnected (s : ConnState) :
    s.disconnected.replies = s.replies ∧ s.disconnected.question = s.question ∧
      s.disconnected.asked = s.asked := by
  unfold disconnected
  cases hauth : s.authConn <;> cases hcur : s.currentConn <;> simp [btConnUnref, hauth, hcur]

end ConnState

end NcsExamples.PeripheralUart
