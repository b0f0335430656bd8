import NcsExamples.Lib.AlarmClock
import NcsExamples.OpenThread.RoleLed

/-! # OpenThread joiner: joining, and starting Thread

`main` starts the joiner and waits for `connected_sem`, which the joiner's handler gives when it has
joined, for ten seconds at most. The result of the wait is thrown away: Thread is enabled in any
case, and a failed join is logged and waited out. The handler runs in a thread of the stack, so it
can come at any time after the joiner was started, also after `main` has gone on. -/

namespace NcsExamples.OpenThread.Joiner

/-- Where `main` stands. -/
inductive Main
  /-- Before `openthread_state_changed_cb_register`. -/
  | start
  /-- Before `ot_start_joiner`. -/
  | registered
  /-- Before `k_sem_take`. -/
  | started
  /-- In `k_sem_take`, waiting. -/
  | blocked
  /-- Before `otThreadSetEnabled`. -/
  | woken
  /-- After `ot_joiner_init`. -/
  | returned
  deriving DecidableEq, Repr

/-- The state of the sample. -/
structure State where
  main : Main
  /-- The joiner runs, and its handler is still to be called. -/
  joining : Bool
  /-- The semaphore `connected_sem`, which counts to one. -/
  connectedSem : Bool
  thread : ThreadState
  /-- History: the calls of `otThreadSetEnabled`, with their results. -/
  enables : List ℕ
  deriving DecidableEq, Repr

/-- What happens next. -/
inductive Input
  /-- `main` registers the callback. -/
  | register
  /-- `ot_start_joiner`. `otJoinerStart` starts the joiner or not: its result is not asked for. -/
  | startJoiner (ok : Bool)
  /-- `k_sem_take` finds the semaphore given, or is woken by it. -/
  | semTake
  /-- `k_sem_take` does not find it given. -/
  | semBlock
  /-- `k_sem_take` gives up. -/
  | semTimeout
  /-- The stack calls `ot_joiner_start_handler`, with `OT_ERROR_NONE` or another error. -/
  | joinerHandler (error : ℕ)
  /-- `main` calls `otThreadSetEnabled`, whose error is logged. -/
  | setEnabled (error : ℕ)
  /-- Something changes in the stack. -/
  | changed (flags : BitVec 32) (role : DeviceRole)
  /-- The stack notifies what has changed. -/
  | notify
  deriving DecidableEq, Repr

/-- `ot_joiner_start_handler`. -/
def otJoinerStartHandler (error : ℕ) (s : State) : State :=
  if error = 0 then { s with connectedSem := true } else s

/-- One step of the sample. -/
def step (s : State) : Input → Option State
  | .register => if s.main = .start then
      (threadStep s.thread .register).map fun thread => { s with main := .registered, thread }
      else none
  | .startJoiner ok => if s.main = .registered then
      some { s with main := .started, joining := ok } else none
  | .semTake => if (s.main = .started ∨ s.main = .blocked) ∧ s.connectedSem = true then
      some { s with main := .woken, connectedSem := false } else none
  | .semBlock => if s.main = .started ∧ s.connectedSem = false then
      some { s with main := .blocked } else none
  | .semTimeout => if s.main = .blocked ∧ s.connectedSem = false then
      some { s with main := .woken } else none
  | .joinerHandler error => if s.joining = true then
      some (otJoinerStartHandler error { s with joining := false }) else none
  | .setEnabled error => if s.main = .woken then
      some { s with main := .returned, enables := s.enables ++ [error] } else none
  | .changed flags role =>
      (threadStep s.thread (.changed flags role)).map fun thread => { s with thread }
  | .notify => (threadStep s.thread .notify).map fun thread => { s with thread }

/-- The sample at the start of `main`. -/
def joiner : Machine State Input := ⟨⟨.start, false, false, threadInit, []⟩, step⟩

/-- What an input is for the stack and the LED. -/
def threadLabel : Input → Option ThreadInput
  | .register => some .register
  | .changed flags role => some (.changed flags role)
  | .notify => some .notify
  | .startJoiner _ | .semTake | .semBlock | .semTimeout | .joinerHandler _ | .setEnabled _ => none

/-- What the inputs mean for the timeout of `k_sem_take`, in milliseconds. A semaphore that is given
ends the wait. -/
def waitAlarm : Input → Alarm
  | .semBlock => .set 10000
  | .semTimeout => .rings
  | .semTake => .stopped
  | .joinerHandler error => if error = 0 then .stopped else .ignored
  | .register | .startJoiner _ | .setEnabled _ | .changed _ _ | .notify => .ignored

/-- The sample against a clock of milliseconds: the timeout comes at most `slack` of them late. -/
def timedJoiner (slack : ℕ) : Machine (Clocked State) (ClockInput Input) :=
  joiner.clocked waitAlarm slack

variable {s t : State} {i : Input} {is : List Input}

/-- The stack and the LED of the sample are those of every OpenThread sample. -/
theorem joiner_projects : joiner.Projects thread State.thread fun _ => threadLabel where
  init := rfl
  step s i t hs := by
    cases i with
    | register =>
      obtain ⟨-, hs⟩ := Option.ite_none_right_eq_some.mp hs
      obtain ⟨thread', hthread, rfl⟩ := Option.map_eq_some_iff.mp hs
      exact thread.runFrom_cons_eq_some.mpr ⟨thread', hthread, rfl⟩
    | changed flags role | notify =>
      obtain ⟨thread', hthread, rfl⟩ := Option.map_eq_some_iff.mp hs
      exact thread.runFrom_cons_eq_some.mpr ⟨thread', hthread, rfl⟩
    | joinerHandler error =>
      obtain ⟨-, rfl⟩ := Machine.guarded_eq_some.mp hs
      unfold otJoinerStartHandler
      split <;> rfl
    | startJoiner ok | semTake | semBlock | semTimeout | setEnabled error =>
      obtain ⟨-, rfl⟩ := Machine.guarded_eq_some.mp hs
      rfl

/-! ## The wait -/

/-- In `k_sem_take`, and in what comes after it. -/
def Main.Waited (m : Main) : Prop := m = .blocked ∨ m = .woken ∨ m = .returned

/-- `main` in and after the wait, as long as the handler has not reported a success: the semaphore
is not given, so the wait ends with its timeout only. -/
theorem waited_step (h : s.main.Waited) (hsem : s.connectedSem = false)
    (hi : i ≠ .joinerHandler 0) (hs : joiner.step s i = some t) :
    t.main.Waited ∧ t.connectedSem = false ∧ (waitAlarm i = .ignored ∨ waitAlarm i = .rings) ∧
      (t.main = .blocked ↔ s.main = .blocked ∧ i ≠ .semTimeout) := by
  cases i with
  | register =>
    obtain ⟨hat, -⟩ := Option.ite_none_right_eq_some.mp hs
    rw [Main.Waited, hat] at h
    simp at h
  | startJoiner ok =>
    obtain ⟨hat, -⟩ := Machine.guarded_eq_some.mp hs
    rw [Main.Waited, hat] at h
    simp at h
  | semTake =>
    -- the semaphore is not given
    obtain ⟨⟨-, hgiven⟩, -⟩ := Machine.guarded_eq_some.mp hs
    rw [hsem] at hgiven
    cases hgiven
  | semBlock =>
    obtain ⟨⟨hat, -⟩, -⟩ := Machine.guarded_eq_some.mp hs
    rw [Main.Waited, hat] at h
    simp at h
  | semTimeout =>
    obtain ⟨⟨hat, -⟩, rfl⟩ := Machine.guarded_eq_some.mp hs
    exact ⟨.inr (.inl rfl), hsem, .inr rfl, by simp⟩
  | joinerHandler error =>
    obtain ⟨-, rfl⟩ := Machine.guarded_eq_some.mp hs
    -- the handler reports a failure, which is only logged
    have herror : error ≠ 0 := fun h0 => hi (by rw [h0])
    rw [otJoinerStartHandler, if_neg herror]
    exact ⟨h, hsem, .inl (if_neg herror), by simp⟩
  | setEnabled error =>
    obtain ⟨hat, rfl⟩ := Machine.guarded_eq_some.mp hs
    exact ⟨.inr (.inr rfl), hsem, .inl rfl, by simp [hat]⟩
  | changed flags role | notify =>
    obtain ⟨thread', hthread, rfl⟩ := Option.map_eq_some_iff.mp hs
    exact ⟨h, hsem, .inl rfl, by simp⟩

/-- The same for a run: `main` waits on until the timeout. -/
theorem waited_run (h : s.main.Waited) (hsem : s.connectedSem = false)
    (his : .joinerHandler 0 ∉ is) (hrun : joiner.runFrom s is = some t) :
    (∀ i ∈ is, waitAlarm i = .ignored ∨ waitAlarm i = .rings) ∧
      (t.main = .blocked ↔ s.main = .blocked ∧ .semTimeout ∉ is) := by
  induction is generalizing s with
  | nil =>
    obtain rfl : s = t := Option.some.inj hrun
    simp
  | cons i is ih =>
    obtain ⟨u, hu, hrest⟩ := joiner.runFrom_cons_eq_some.mp hrun
    obtain ⟨hi, his⟩ := not_or.mp (mt List.mem_cons.mpr his)
    obtain ⟨hwaited, hsem', halarm, hblocked⟩ := waited_step h hsem (Ne.symm hi) hu
    obtain ⟨halarms, hblocked'⟩ := ih hwaited hsem' his hrest
    refine ⟨List.forall_mem_cons.mpr ⟨halarm, halarms⟩, ?_⟩
    rw [hblocked', hblocked, List.mem_cons, not_or, and_assoc, ne_comm]

/-- `main` waits for a semaphore that is not given as long as the timeout is set. -/
theorem waitAlarm_governs (hs : joiner.step s i = some t) :
    (waitAlarm i).Governs (s.main = .blocked ∧ s.connectedSem = false)
      (t.main = .blocked ∧ t.connectedSem = false) := by
  cases i with
  | register =>
    obtain ⟨hat, hs⟩ := Option.ite_none_right_eq_some.mp hs
    obtain ⟨thread', -, rfl⟩ := Option.map_eq_some_iff.mp hs
    simp [waitAlarm, Alarm.Governs, hat]
  | startJoiner ok | setEnabled error =>
    obtain ⟨hat, rfl⟩ := Machine.guarded_eq_some.mp hs
    simp [waitAlarm, Alarm.Governs, hat]
  | semTake | semTimeout =>
    obtain ⟨-, rfl⟩ := Machine.guarded_eq_some.mp hs
    simp [waitAlarm, Alarm.Governs]
  | semBlock =>
    obtain ⟨⟨-, hsem⟩, rfl⟩ := Machine.guarded_eq_some.mp hs
    exact ⟨rfl, hsem⟩
  | joinerHandler error =>
    obtain ⟨-, rfl⟩ := Machine.guarded_eq_some.mp hs
    -- a success gives the semaphore, which ends the wait as well as the timeout
    by_cases herror : error = 0
    · simp [waitAlarm, otJoinerStartHandler, Alarm.Governs, herror]
    · simp [waitAlarm, otJoinerStartHandler, Alarm.Governs, herror]
  | changed flags role | notify =>
    obtain ⟨thread', -, rfl⟩ := Option.map_eq_some_iff.mp hs
    exact Iff.rfl

/-- The timeout is the input that ends the wait. -/
theorem waitAlarm_eq_rings : waitAlarm i = .rings ↔ i = .semTimeout := by
  cases i <;> simp [waitAlarm]
  split <;> simp

/-- Thread is enabled once, at the end of `main`. -/
theorem enables_step (h : s.enables.length = if s.main = .returned then 1 else 0)
    (hs : joiner.step s i = some t) : t.enables.length = if t.main = .returned then 1 else 0 := by
  cases i with
  | register =>
    obtain ⟨hat, hs⟩ := Option.ite_none_right_eq_some.mp hs
    obtain ⟨thread', -, rfl⟩ := Option.map_eq_some_iff.mp hs
    simpa [hat] using h
  | semTake =>
    obtain ⟨⟨hat, -⟩, rfl⟩ := Machine.guarded_eq_some.mp hs
    rcases hat with hat | hat <;> simpa [hat] using h
  | startJoiner ok | semBlock | semTimeout | setEnabled error =>
    obtain ⟨hat, rfl⟩ := Machine.guarded_eq_some.mp hs
    simpa [hat] using h
  | joinerHandler error =>
    obtain ⟨-, rfl⟩ := Machine.guarded_eq_some.mp hs
    unfold otJoinerStartHandler
    split <;> exact h
  | changed flags role | notify =>
    obtain ⟨thread', -, rfl⟩ := Option.map_eq_some_iff.mp hs
    exact h

/-- From the time on at which `main` waits, as long as the joiner does not report a success, `main`
waits for ten seconds at least, and for these and the slack at most. -/
theorem waited_since {slack : ℕ} {js since : List (ClockInput Input)} {p q : Clocked State}
    (hblock : (timedJoiner slack).run (js ++ [.act .semBlock]) = some p)
    (hno : .act (.joinerHandler 0) ∉ since)
    (hrun : (timedJoiner slack).runFrom p since = some q) :
    (ticks since < 10000 → q.state.main = .blocked) ∧
      (10000 + slack < ticks since → q.state.main ≠ .blocked) := by
  obtain ⟨o, -, hblock'⟩ := (timedJoiner slack).runFrom_snoc_eq_some.mp hblock
  obtain ⟨-, hstate, -⟩ := Machine.clocked_act_eq_some.mp hblock'
  obtain ⟨⟨-, hsem⟩, hp⟩ := Machine.guarded_eq_some.mp hstate
  have hmain : p.state.main = .blocked := by rw [← hp]
  obtain ⟨halarms, hblocked⟩ := waited_run (s := p.state) (.inl hmain) (by rw [← hp]; exact hsem)
    (mt mem_filterMap_input?.mp hno) (Machine.runFrom_of_clocked hrun)
  have hrings : Machine.Rings waitAlarm since ↔
      .semTimeout ∈ since.filterMap ClockInput.input? := by
    simp only [Machine.Rings, waitAlarm_eq_rings, exists_eq_right]
  obtain ⟨hearly, hlate⟩ := Machine.rings_since_set hblock rfl halarms hrun
  constructor
  · intro hbefore
    exact hblocked.mpr ⟨hmain, mt hrings.mpr (hearly hbefore)⟩
  · intro hafter hstill
    exact (hblocked.mp hstill).2 (hrings.mp (hlate hafter))

/-- The clock never stops for good: it ticks, or the wait can be given up. -/
theorem timedJoiner_goesOn {slack : ℕ} {js : List (ClockInput Input)} {q : Clocked State}
    (hrun : (timedJoiner slack).run js = some q) :
    (∃ t, (timedJoiner slack).step q .tick = some t) ∨
      ∃ i t, waitAlarm i = .rings ∧ (timedJoiner slack).step q (.act i) = some t := by
  refine Machine.exists_clocked_step_of_governed
    (fun s : State => s.main = .blocked ∧ s.connectedSem = false) (fun h => by cases h.1)
    (fun _ _ _ hs => waitAlarm_governs hs) (fun s hs => ⟨.semTimeout, rfl, ?_⟩) hrun
  simp [joiner, step, hs]

/-- **Ten seconds for the join.** From the time on at which `main` waits, as long as the joiner does
not report a success, `main` waits for ten seconds at least and for these and the slack at most,
whether the join has failed or not; and it enables Thread once, after the wait. -/
theorem joiner_waits (slack : ℕ) (js since : List (ClockInput Input)) (p q : Clocked State)
    (hblock : (timedJoiner slack).run (js ++ [.act .semBlock]) = some p)
    (hno : .act (.joinerHandler 0) ∉ since)
    (hrun : (timedJoiner slack).runFrom p since = some q) :
    (ticks since < 10000 → q.state.main = .blocked ∧ q.state.enables = []) ∧
      (10000 + slack < ticks since → q.state.main ≠ .blocked) ∧
      q.state.enables.length = if q.state.main = .returned then 1 else 0 := by
  obtain ⟨hearly, hlate⟩ := waited_since hblock hno hrun
  have henables : q.state.enables.length = if q.state.main = .returned then 1 else 0 :=
    Machine.invariant_run (M := joiner)
      (fun s => s.enables.length = if s.main = .returned then 1 else 0)
      (fun _ _ _ h hs => enables_step h hs) rfl
      (Machine.runFrom_of_clocked (Machine.runFrom_trans hblock hrun))
  refine ⟨?_, hlate, henables⟩
  intro hbefore
  have hstill := hearly hbefore
  rw [hstill] at henables
  exact ⟨hstill, List.length_eq_zero_iff.mp henables⟩

/-- The join fails after two milliseconds, and `main` waits on. -/
theorem joiner_waits_failed : ∃ q, (timedJoiner 0).run [.act .register, .act (.startJoiner true),
      .act .semBlock, .tick, .tick, .act (.joinerHandler 23), .tick] = some q ∧
    q.state.main = .blocked ∧ q.state.enables = [] :=
  ⟨_, rfl, (joiner_waits 0 [.act .register, .act (.startJoiner true)]
    [.tick, .tick, .act (.joinerHandler 23), .tick] _ _ rfl (by decide) rfl).1 (by decide)⟩

end NcsExamples.OpenThread.Joiner
