import NcsExamples.OpenThread.RoleLed

/-! # OpenThread commissioner: what the sample asks of the stack

The callback for changes of the role starts the commissioner whenever it finds the device connected,
also when the commissioner runs already. The callback for the state of the commissioner, which the
stack knows from that call, adds the joiner when the commissioner becomes active. What the stack does
with these calls is left to it: here they are only recorded, and the stack may report any state of
the commissioner at any time after it has been told whom to report to. -/

namespace NcsExamples.OpenThread.Commissioner

/-- `otCommissionerState`. -/
inductive CommissionerState
  | disabled
  | petition
  | active
  deriving DecidableEq, Repr

/-- The calls of the sample to the commissioner of the stack. -/
inductive Call
  /-- `otCommissionerStart`, with `ot_commissioner_state_changed`. -/
  | commissionerStart
  /-- `otCommissionerAddJoiner`, for every address. -/
  | commissionerAddJoiner (pskd : String) (timeout : ℕ)
  deriving DecidableEq, Repr

/-- The state of the sample. -/
structure State where
  thread : ThreadState
  /-- History: the calls to the commissioner of the stack. -/
  calls : List Call
  /-- History: `otCommissionerStart` has been called since the device was connected. -/
  asked : Bool
  deriving DecidableEq, Repr

/-- `OT_JOINER_PSKD`. -/
def otJoinerPskd : String := "J01NU5"

/-- `OT_JOINER_TIMEOUT`. -/
def otJoinerTimeout : ℕ := 2000

/-- The call of `otCommissionerAddJoiner`. -/
def addJoiner : Call := .commissionerAddJoiner otJoinerPskd otJoinerTimeout

/-- `ot_commissioner_state_changed`. -/
def otCommissionerStateChanged (aState : CommissionerState) (s : State) : State :=
  if aState = .active then { s with calls := s.calls ++ [addJoiner] } else s

/-- `on_thread_state_changed`. -/
def onThreadStateChanged (flags : BitVec 32) (s : State) : State :=
  if RoleChanged flags then
    if s.thread.role.connected then
      { thread := { s.thread with led := true }
        calls := s.calls ++ [.commissionerStart]
        asked := true }
    else { s with thread := { s.thread with led := false } }
  else s

/-- What happens next. -/
inductive Input
  /-- `ot_commissioner_init` registers the callback. -/
  | register
  /-- Something changes in the stack. -/
  | changed (flags : BitVec 32) (role : DeviceRole)
  /-- The stack notifies what has changed. -/
  | notify
  /-- The stack calls `ot_commissioner_state_changed`, which `otCommissionerStart` told it of. -/
  | stateChanged (aState : CommissionerState)
  deriving DecidableEq, Repr

/-- One step of the sample. -/
def step (s : State) : Input → Option State
  | .register => (threadStep s.thread .register).map fun thread => { s with thread }
  | .changed flags role =>
      (threadStep s.thread (.changed flags role)).map fun thread =>
        { s with thread, asked := s.asked && role.connected }
  | .notify =>
      if s.thread.flags ≠ 0 then
        some (if s.thread.registered then
            onThreadStateChanged s.thread.flags { s with thread := { s.thread with flags := 0 } }
          else { s with thread := { s.thread with flags := 0 } })
      else none
  | .stateChanged aState => if .commissionerStart ∈ s.calls then
      some (otCommissionerStateChanged aState s) else none

/-- The sample at the boot. -/
def commissioner : Machine State Input := ⟨⟨threadInit, [], false⟩, step⟩

/-- What an input is for the stack and the LED. -/
def threadLabel : Input → Option ThreadInput
  | .register => some .register
  | .changed flags role => some (.changed flags role)
  | .notify => some .notify
  | .stateChanged _ => none

/-- With no change of the role to be notified, a device that is connected has started the
commissioner since. -/
def State.Asked (s : State) : Prop :=
  ¬ RoleChanged s.thread.flags → s.thread.role.connected = true → s.asked = true

/-- No device is connected when a change of its role is notified to nobody. -/
def State.Heard (s : State) : Input → Prop
  | .notify => s.thread.Heard .notify
  | .register | .changed _ _ | .stateChanged _ => True

instance (s : State) : DecidablePred s.Heard
  | .notify => inferInstanceAs (Decidable (s.thread.Heard .notify))
  | .register | .changed _ _ | .stateChanged _ => isTrue trivial

/-- The stack has notified the registered callback after the device was connected. -/
def ConnectionNotified (is : List Input) : Prop :=
  ∃ js ls, is = js ++ .notify :: ls ∧ .register ∈ js ∧
    ∃ flags role, role.connected = true ∧ .changed flags role ∈ js

variable {s t : State} {i : Input} {is : List Input} {flags : BitVec 32}

/-! ## Notifications -/

/-- The callback switches the LED as that of every OpenThread sample. -/
theorem onThreadStateChanged_thread (flags : BitVec 32) (s : State) :
    (onThreadStateChanged flags s).thread = OpenThread.onThreadStateChanged flags s.thread := by
  unfold onThreadStateChanged OpenThread.onThreadStateChanged
  split
  · split
    · next hconnected => rw [hconnected]
    · next hconnected =>
      rw [Bool.not_eq_true] at hconnected
      rw [hconnected]
  · rfl

/-- The callback calls for the commissioner if the role has changed and the device is connected, and
else makes no call. -/
theorem onThreadStateChanged_calls (flags : BitVec 32) (s : State) :
    (RoleChanged flags ∧ s.thread.role.connected = true ∧
      (onThreadStateChanged flags s).calls = s.calls ++ [.commissionerStart] ∧
        (onThreadStateChanged flags s).asked = true) ∨
    (¬ (RoleChanged flags ∧ s.thread.role.connected = true) ∧
      (onThreadStateChanged flags s).calls = s.calls ∧
        (onThreadStateChanged flags s).asked = s.asked) := by
  unfold onThreadStateChanged
  split
  · next hrole =>
    split
    · next hconnected => exact .inl ⟨hrole, hconnected, rfl, rfl⟩
    · next hconnected => exact .inr ⟨fun h => hconnected h.2, rfl, rfl⟩
  · next hrole => exact .inr ⟨fun h => hrole h.1, rfl, rfl⟩

/-- The stack and the LED of the sample are those of every OpenThread sample. -/
theorem commissioner_projects : commissioner.Projects thread State.thread fun _ => threadLabel where
  init := rfl
  step s i t hs := by
    cases i with
    | register =>
      obtain rfl := Option.some.inj hs
      rfl
    | changed flags role =>
      obtain ⟨thread', hthread, rfl⟩ := Option.map_eq_some_iff.mp hs
      exact thread.runFrom_cons_eq_some.mpr ⟨thread', hthread, rfl⟩
    | notify =>
      obtain ⟨hflags, rfl⟩ := Machine.guarded_eq_some.mp hs
      refine thread.runFrom_cons_eq_some.mpr ⟨_, Machine.guarded_eq_some.mpr ⟨hflags, rfl⟩, ?_⟩
      rw [Machine.runFrom_nil]
      split
      · rw [onThreadStateChanged_thread]
      · rfl
    | stateChanged aState =>
      obtain ⟨-, rfl⟩ := Machine.guarded_eq_some.mp hs
      unfold otCommissionerStateChanged
      split <;> rfl

/-! ## Connections -/

/-- As long as nobody listens, the commissioner is not started. -/
theorem asked_step (h : s.thread.registered = false → s.asked = false)
    (hs : commissioner.step s i = some t) : t.thread.registered = false → t.asked = false := by
  cases i with
  | register =>
    obtain rfl := Option.some.inj hs
    intro hreg
    cases hreg
  | changed flags role =>
    obtain ⟨thread', hthread, rfl⟩ := Option.map_eq_some_iff.mp hs
    obtain ⟨-, rfl⟩ := Machine.guarded_eq_some.mp hthread
    intro hreg
    rw [h hreg, Bool.false_and]
  | notify =>
    obtain ⟨-, rfl⟩ := Machine.guarded_eq_some.mp hs
    cases hreg : s.thread.registered with
    | false =>
      intro _
      exact h hreg
    | true =>
      -- the callback does not unregister itself
      intro hno
      rw [if_pos rfl, onThreadStateChanged_thread] at hno
      unfold OpenThread.onThreadStateChanged at hno
      split at hno <;> cases hreg.symm.trans hno
  | stateChanged aState =>
    obtain ⟨-, rfl⟩ := Machine.guarded_eq_some.mp hs
    unfold otCommissionerStateChanged
    split <;> exact h

/-- After a step a connected device has started the commissioner, as before it, exactly if a
connection that the step notifies is heard. -/
theorem asked_step_iff (h : s.Asked) (hasked : s.thread.registered = false → s.asked = false)
    (hs : commissioner.step s i = some t) : t.Asked ↔ s.Heard i := by
  cases i with
  | register =>
    obtain rfl := Option.some.inj hs
    exact iff_of_true h trivial
  | changed flags role =>
    obtain ⟨thread', hthread, rfl⟩ := Option.map_eq_some_iff.mp hs
    obtain ⟨hflagged, rfl⟩ := Machine.guarded_eq_some.mp hthread
    refine iff_of_true ?_ trivial
    intro hno hconnected
    -- no flag is set, neither from before nor by this change, so the device was connected before
    obtain ⟨hbefore, hnew⟩ := not_or.mp (mt roleChanged_or.mpr hno)
    obtain rfl := hflagged.resolve_right hnew
    rw [h hbefore hconnected, Bool.true_and]
    exact hconnected
  | notify =>
    obtain ⟨-, rfl⟩ := Machine.guarded_eq_some.mp hs
    cases hreg : s.thread.registered with
    | false =>
      -- nobody listens: the flags are gone, and the commissioner has not been started
      have hnever := hasked hreg
      simp only [Bool.false_eq_true, if_false, State.Asked, State.Heard, ThreadState.Heard, hreg,
        hnever, not_roleChanged_zero, not_false_eq_true, forall_const]
      constructor
      · intro hno _
        exact Bool.not_eq_true _ ▸ hno
      · intro hheard hconnected
        by_cases hrole : RoleChanged s.thread.flags
        · cases hconnected.symm.trans (hheard hrole)
        · cases hnever.symm.trans (h hrole hconnected)
    | true =>
      refine iff_of_true ?_ (fun hno => by rw [hreg] at hno; cases hno)
      intro _ hconnected
      rw [if_pos rfl] at hconnected ⊢
      rw [onThreadStateChanged_thread] at hconnected
      have hstill : s.thread.role.connected = true := by
        unfold OpenThread.onThreadStateChanged at hconnected
        split at hconnected <;> exact hconnected
      obtain ⟨-, -, -, hstarted⟩ | ⟨hno, -, hsame⟩ := onThreadStateChanged_calls s.thread.flags
        { s with thread := { s.thread with flags := 0 } }
      · exact hstarted
      · rw [hsame]
        exact h (fun hrole => hno ⟨hrole, hstill⟩) hstill
  | stateChanged aState =>
    obtain ⟨-, rfl⟩ := Machine.guarded_eq_some.mp hs
    refine iff_of_true ?_ trivial
    unfold otCommissionerStateChanged
    split <;> exact h

/-! ## Calls -/

/-- Only a notification to the registered callback that finds the device connected makes the first
call. -/
theorem calls_step (h : s.calls = []) (hs : commissioner.step s i = some t) (ht : t.calls ≠ []) :
    i = .notify ∧ s.thread.registered = true ∧ s.thread.role.connected = true := by
  cases i with
  | register =>
    obtain rfl := Option.some.inj hs
    exact absurd h ht
  | changed flags role =>
    obtain ⟨thread', -, rfl⟩ := Option.map_eq_some_iff.mp hs
    exact absurd h ht
  | notify =>
    obtain ⟨-, rfl⟩ := Machine.guarded_eq_some.mp hs
    split at ht
    · next hregistered =>
      obtain ⟨-, hconnected, -⟩ | ⟨-, hsame, -⟩ := onThreadStateChanged_calls s.thread.flags
        { s with thread := { s.thread with flags := 0 } }
      · exact ⟨rfl, hregistered, hconnected⟩
      · exact absurd (hsame.trans h) ht
    · exact absurd h ht
  | stateChanged aState =>
    -- the stack has nobody to report to
    obtain ⟨hstarted, -⟩ := Machine.guarded_eq_some.mp hs
    rw [h] at hstarted
    cases hstarted

/-- The sample has called the commissioner only if a connection was notified before. -/
theorem connectionNotified_of_run (hrun : commissioner.run is = some s) (hs : s.calls ≠ []) :
    ConnectionNotified is := by
  refine Machine.invariant_history_run (M := commissioner)
    (fun is s => s.calls ≠ [] → ConnectionNotified is) (fun h => absurd rfl h) ?_ hrun hs
  intro is s i t hrun h hs ht
  by_cases hcalls : s.calls = []
  · obtain ⟨rfl, hregistered, hconnected⟩ := calls_step hcalls hs ht
    -- the stack has seen the registration and the connection
    obtain ⟨hregister, hchanged⟩ :=
      thread_history (commissioner_projects.runFrom_filterMap hrun)
    obtain ⟨i, hi, hlabel⟩ := List.mem_filterMap.mp (hregister hregistered)
    obtain ⟨flags, hflags⟩ := hchanged hconnected
    obtain ⟨j, hj, hlabel'⟩ := List.mem_filterMap.mp hflags
    refine ⟨is, [], rfl, ?_, flags, s.thread.role, hconnected, ?_⟩
    · cases i <;> cases hlabel
      exact hi
    · cases j <;> cases hlabel'
      exact hj
  · obtain ⟨js, ls, rfl, hregister, hchanged⟩ := h hcalls
    exact ⟨js, ls ++ [i], by rw [List.append_assoc, List.cons_append], hregister, hchanged⟩

/-- An active commissioner that is reported was started after a connection. -/
theorem connectionNotified_of_stateChanged {aState : CommissionerState} {ls : List Input}
    (hrun : commissioner.run (is ++ .stateChanged aState :: ls) = some s) :
    ConnectionNotified is := by
  obtain ⟨u, hu, hrest⟩ := commissioner.runFrom_append_eq_some.mp hrun
  obtain ⟨v, hv, -⟩ := commissioner.runFrom_cons_eq_some.mp hrest
  obtain ⟨hstarted, -⟩ := Machine.guarded_eq_some.mp hv
  exact connectionNotified_of_run hu (List.ne_nil_of_mem hstarted)

/-- A step adds the joiner if it reports that the commissioner is active, and else it does not. -/
theorem count_addJoiner_step (hs : commissioner.step s i = some t) :
    t.calls.count addJoiner = s.calls.count addJoiner + [i].count (.stateChanged .active) := by
  cases i with
  | register =>
    obtain rfl := Option.some.inj hs
    rfl
  | changed flags role =>
    obtain ⟨thread', -, rfl⟩ := Option.map_eq_some_iff.mp hs
    rfl
  | notify =>
    obtain ⟨-, rfl⟩ := Machine.guarded_eq_some.mp hs
    split
    · obtain ⟨-, -, hcalls, -⟩ | ⟨-, hcalls, -⟩ := onThreadStateChanged_calls s.thread.flags
        { s with thread := { s.thread with flags := 0 } }
      · rw [hcalls, List.count_append]
        rfl
      · rw [hcalls]
        rfl
    · rfl
  | stateChanged aState =>
    obtain ⟨-, rfl⟩ := Machine.guarded_eq_some.mp hs
    cases aState with
    | disabled | petition => rfl
    | active => exact List.count_append

/-- A device that is a child, leaves the network and is back as a router before the stack notifies
either. -/
def backAsRouter : List Input :=
  [.register, .changed 4 .child, .notify, .stateChanged .petition, .changed 4 .detached,
    .changed 4 .router, .notify]

end NcsExamples.OpenThread.Commissioner
