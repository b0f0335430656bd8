import NcsExamples.Lib.Machine
import Mathlib.Data.BitVec

/-! # OpenThread samples: the connection LED

The joiner and the commissioner register the same kind of callback for changes of the Thread stack.
The stack does not call it when something changes: it collects the flags of the changes and calls it
once for all of them later, and the callback then asks for the role, which may have changed again in
between. `OT_CONNECTION_LED` is set by this callback alone. -/

namespace NcsExamples.OpenThread

/-- `otDeviceRole`. -/
inductive DeviceRole
  | disabled
  | detached
  | child
  | router
  | leader
  deriving DecidableEq, Repr

/-- The cases of the callback that switch the LED on. -/
def DeviceRole.connected : DeviceRole → Bool
  | .child | .router | .leader => true
  | .disabled | .detached => false

/-- `OT_CHANGED_THREAD_ROLE`. -/
def otChangedThreadRole : BitVec 32 := 1#32 <<< 2

/-- The flags say that the role has changed. -/
def RoleChanged (flags : BitVec 32) : Prop := flags &&& otChangedThreadRole ≠ 0

instance : DecidablePred RoleChanged := fun _ => inferInstanceAs (Decidable (_ ≠ _))

/-- What the Thread stack and the LED have to do with each other. -/
structure ThreadState where
  /-- What `otThreadGetDeviceRole` returns. -/
  role : DeviceRole
  /-- The flags of the changes that the stack has not notified yet. -/
  flags : BitVec 32
  /-- `openthread_state_changed_cb_register` has been called. -/
  registered : Bool
  /-- `OT_CONNECTION_LED` is lit. -/
  led : Bool
  deriving DecidableEq, Repr

/-- `on_thread_state_changed`, as far as the LED goes. -/
def onThreadStateChanged (flags : BitVec 32) (s : ThreadState) : ThreadState :=
  if RoleChanged flags then { s with led := s.role.connected } else s

/-- What happens next. -/
inductive ThreadInput
  /-- The application registers its callback. -/
  | register
  /-- Something changes in the stack, and the role is `role` after it. -/
  | changed (flags : BitVec 32) (role : DeviceRole)
  /-- The stack notifies what has changed. -/
  | notify
  deriving DecidableEq, Repr

/-- One step of the stack or of the application. -/
def threadStep (s : ThreadState) : ThreadInput → Option ThreadState
  | .register => some { s with registered := true }
  | .changed flags role =>
      -- a change of the role is flagged
      if role = s.role ∨ RoleChanged flags then some { s with role, flags := s.flags ||| flags }
      else none
  | .notify =>
      if s.flags ≠ 0 then
        some (if s.registered then onThreadStateChanged s.flags { s with flags := 0 }
          else { s with flags := 0 })
      else none

/-- The stack at the boot: the LED is off. -/
def threadInit : ThreadState := ⟨.disabled, 0, false, false⟩

/-- The stack and the LED as a machine. -/
def thread : Machine ThreadState ThreadInput := ⟨threadInit, threadStep⟩

/-- With no change of the role to be notified, the LED tells whether the device is connected. -/
def ThreadState.TellsRole (s : ThreadState) : Prop :=
  ¬ RoleChanged s.flags → s.led = s.role.connected

instance : DecidablePred ThreadState.TellsRole := fun _ => inferInstanceAs (Decidable (_ → _))

/-- No device is connected when a change of its role is notified to nobody. -/
def ThreadState.Heard (s : ThreadState) : ThreadInput → Prop
  | .notify => s.registered = false → RoleChanged s.flags → s.role.connected = false
  | .register | .changed _ _ => True

instance (s : ThreadState) : DecidablePred s.Heard
  | .notify => inferInstanceAs (Decidable (_ → _ → _))
  | .register | .changed _ _ => isTrue trivial

variable {s t : ThreadState} {i : ThreadInput} {flags flags' : BitVec 32}

/-! ## Flags -/

/-- No flag says nothing. -/
theorem not_roleChanged_zero : ¬ RoleChanged 0 := by decide

/-- The role has changed if one of the two says so. -/
theorem roleChanged_or : RoleChanged (flags ||| flags') ↔ RoleChanged flags ∨ RoleChanged flags' := by
  have hbit : ∀ x : BitVec 32, RoleChanged x ↔ x.getLsbD 2 = true := by
    intro x
    have htwo : otChangedThreadRole = BitVec.twoPow 32 2 := rfl
    rw [RoleChanged, htwo, BitVec.and_twoPow]
    cases x.getLsbD 2 <;> decide
  rw [hbit, hbit, hbit, BitVec.getLsbD_or, Bool.or_eq_true]

/-! ## Steps -/

/-- The LED is off as long as nobody listens. -/
theorem led_step (h : s.registered = false → s.led = false) (hs : threadStep s i = some t) :
    t.registered = false → t.led = false := by
  cases i with
  | register =>
    obtain rfl := Option.some.inj hs
    intro hreg
    cases hreg
  | changed flags role =>
    obtain ⟨-, rfl⟩ := Machine.guarded_eq_some.mp hs
    exact h
  | notify =>
    obtain ⟨-, rfl⟩ := Machine.guarded_eq_some.mp hs
    cases hreg : s.registered with
    | false =>
      intro _
      exact h hreg
    | true =>
      -- the claim is about an unregistered callback only
      simp only [if_true, onThreadStateChanged]
      split <;> simp

/-- A step keeps the LED true exactly if a connection that it notifies is heard. -/
theorem tellsRole_step_iff (h : s.TellsRole) (hled : s.registered = false → s.led = false)
    (hs : threadStep s i = some t) : t.TellsRole ↔ s.Heard i := by
  cases i with
  | register =>
    obtain rfl := Option.some.inj hs
    exact iff_of_true h trivial
  | changed flags role =>
    obtain ⟨hflagged, rfl⟩ := Machine.guarded_eq_some.mp hs
    refine iff_of_true ?_ trivial
    intro hno
    -- no flag is set, neither from before nor by this change, so the role is the old one
    obtain ⟨hbefore, hnew⟩ := not_or.mp (mt roleChanged_or.mpr hno)
    obtain rfl := hflagged.resolve_right hnew
    exact h hbefore
  | notify =>
    obtain ⟨-, rfl⟩ := Machine.guarded_eq_some.mp hs
    cases hreg : s.registered with
    | false =>
      -- nobody listens: the flags are gone, and the LED, which is off, must be right from now on
      simp only [Bool.false_eq_true, if_false, ThreadState.TellsRole, ThreadState.Heard, hreg,
        hled hreg, not_roleChanged_zero, not_false_eq_true, forall_const]
      constructor
      · intro hoff _
        exact hoff.symm
      · intro hheard
        by_cases hrole : RoleChanged s.flags
        · exact (hheard hrole).symm
        · rw [← h hrole, hled hreg]
    | true =>
      refine iff_of_true ?_ (fun hno => by rw [hreg] at hno; cases hno)
      intro _
      simp only [if_true, onThreadStateChanged]
      split
      · rfl
      · next hrole => exact h hrole

/-! ## Runs -/

/-- A device that is connected has changed its role before, and a callback that listens has been
registered. -/
theorem thread_history {is : List ThreadInput} (hrun : thread.run is = some s) :
    (s.registered = true → .register ∈ is) ∧
      (s.role.connected = true → ∃ flags, .changed flags s.role ∈ is) := by
  have hinit : (thread.init.registered = true → ThreadInput.register ∈ []) ∧
      (thread.init.role.connected = true →
        ∃ flags, ThreadInput.changed flags thread.init.role ∈ []) := by
    constructor <;> intro h <;> cases h
  refine Machine.invariant_history (M := thread) (fun is s =>
    (s.registered = true → .register ∈ is) ∧
      (s.role.connected = true → ∃ flags, .changed flags s.role ∈ is)) ?_ hinit hrun
  intro is s i t h hs
  have hreg (hr : s.registered = true) : .register ∈ is ++ [i] := List.mem_append_left _ (h.1 hr)
  have hrole (hc : s.role.connected = true) : ∃ flags, .changed flags s.role ∈ is ++ [i] := by
    obtain ⟨flags, hflags⟩ := h.2 hc
    exact ⟨flags, List.mem_append_left _ hflags⟩
  cases i with
  | register =>
    obtain rfl := Option.some.inj hs
    exact ⟨fun _ => List.mem_append_right _ List.mem_cons_self, hrole⟩
  | changed flags role =>
    obtain ⟨-, rfl⟩ := Machine.guarded_eq_some.mp hs
    exact ⟨hreg, fun _ => ⟨flags, List.mem_append_right _ List.mem_cons_self⟩⟩
  | notify =>
    obtain ⟨-, rfl⟩ := Machine.guarded_eq_some.mp hs
    unfold onThreadStateChanged
    split
    · split <;> exact ⟨hreg, hrole⟩
    · exact ⟨hreg, hrole⟩

/-- **The LED tells the truth.** In all states of a run in which no change of the role is to be
notified, the LED is lit if and only if the device is connected, exactly if no connection is
notified before the callback is registered. -/
theorem led_tellsRole_iff (is : List ThreadInput) :
    thread.Along (fun _ _ t => t.TellsRole) thread.init is ↔ thread.Meets ThreadState.Heard is :=
  Machine.along_congr (fun s => s.TellsRole ∧ (s.registered = false → s.led = false))
    (fun _ _ _ h hs => tellsRole_step_iff h.1 h.2 hs) (fun _ _ _ h ht hs => ⟨ht, led_step h.2 hs⟩)
    ⟨fun _ => rfl, fun _ => rfl⟩

/-- A device that becomes a child and a router before the stack notifies either, and then detaches.
-/
example : thread.Along (fun _ _ t => t.TellsRole) thread.init
    [.register, .changed 4 .child, .changed 4 .router, .notify, .changed 4 .detached, .notify] := by
  decide

end NcsExamples.OpenThread
