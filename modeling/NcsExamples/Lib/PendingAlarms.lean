import NcsExamples.Lib.AlarmClock
import NcsExamples.Lib.Scheduler

/-! # Machines with several pending alarms

A machine that sets any number of alarms of one kind, cancels the first one or all of them, or has
one go off, run against a clock. An alarm does not go off before it is due, and not more than
`slack` ticks later. What an input does to the alarms may depend on the state, and is a list of
operations; the clock keeps when each pending alarm is due, in the order in which they were set. -/

namespace NcsExamples

/-- What is done to the pending alarms. -/
inductive AlarmOp
  /-- One more alarm is set. -/
  | set (delay : ℕ)
  /-- The first alarm is cancelled, or all of them. -/
  | cancel (mode : CancelMode)
  /-- The `j`-th alarm goes off. -/
  | fire (j : ℕ)
  deriving DecidableEq, Repr

namespace AlarmOp

/-- When the alarms are due after an operation, if it can come `now`. -/
def dues? (now : ℕ) (dues : List ℕ) : AlarmOp → Option (List ℕ)
  | .set delay => some (dues ++ [now + delay])
  | .cancel .first => some dues.tail
  | .cancel .all => some []
  | .fire j => if ∃ d ∈ dues[j]?, d ≤ now then some (dues.eraseIdx j) else none

/-- The number of alarms after an operation. -/
def count (n : ℕ) : AlarmOp → ℕ
  | .set _ => n + 1
  | .cancel mode => mode.leaves n
  | .fire _ => n - 1

variable {now d : ℕ} {dues dues' : List ℕ} {op : AlarmOp} {ops : List AlarmOp}

/-- An operation changes the number of alarms as it says. -/
theorem length_of_dues? (h : op.dues? now dues = some dues') :
    dues'.length = op.count dues.length := by
  cases op with
  | set delay =>
    obtain rfl := Option.some.inj h
    exact List.length_append
  | cancel mode =>
    cases mode with
    | first =>
      obtain rfl := Option.some.inj h
      exact List.length_tail
    | all =>
      obtain rfl := Option.some.inj h
      rfl
  | fire j =>
    obtain ⟨⟨d, hd, -⟩, rfl⟩ := Machine.guarded_eq_some.mp h
    obtain ⟨hj, -⟩ := List.getElem?_eq_some_iff.mp hd
    exact List.length_eraseIdx_of_lt hj

/-- An alarm that is pending after an operation was so before it, or has been set by it. -/
theorem mem_of_dues? (h : op.dues? now dues = some dues') (hd : d ∈ dues') :
    d ∈ dues ∨ ∃ delay, op = .set delay ∧ d = now + delay := by
  cases op with
  | set delay =>
    obtain rfl := Option.some.inj h
    rcases List.mem_append.mp hd with hd | hd
    · exact .inl hd
    · exact .inr ⟨delay, rfl, List.mem_singleton.mp hd⟩
  | cancel mode =>
    cases mode with
    | first =>
      obtain rfl := Option.some.inj h
      exact .inl (List.mem_of_mem_tail hd)
    | all =>
      obtain rfl := Option.some.inj h
      cases hd
  | fire j =>
    obtain ⟨-, rfl⟩ := Machine.guarded_eq_some.mp h
    exact .inl (List.mem_of_mem_eraseIdx hd)

/-- Operations one after the other change the number of alarms as they say. -/
theorem length_of_foldlM (h : ops.foldlM (dues? now) dues = some dues') :
    dues'.length = ops.foldl count dues.length := by
  induction ops generalizing dues with
  | nil =>
    obtain rfl : dues = dues' := Option.some.inj h
    rfl
  | cons op ops ih =>
    rw [List.foldlM_cons] at h
    obtain ⟨dues₁, hop, hops⟩ := Option.bind_eq_some_iff.mp h
    rw [ih hops, length_of_dues? hop, List.foldl_cons]

/-- An alarm that is pending after operations was so before them, or has been set by one of them. -/
theorem mem_of_foldlM (h : ops.foldlM (dues? now) dues = some dues') (hd : d ∈ dues') :
    d ∈ dues ∨ ∃ delay, .set delay ∈ ops ∧ d = now + delay := by
  induction ops generalizing dues with
  | nil =>
    obtain rfl : dues = dues' := Option.some.inj h
    exact .inl hd
  | cons op ops ih =>
    rw [List.foldlM_cons] at h
    obtain ⟨dues₁, hop, hops⟩ := Option.bind_eq_some_iff.mp h
    rcases ih hops with hd | ⟨delay, hset, rfl⟩
    · rcases mem_of_dues? hop hd with hd | ⟨delay, rfl, rfl⟩
      · exact .inl hd
      · exact .inr ⟨delay, List.mem_cons_self, rfl⟩
    · exact .inr ⟨delay, List.mem_cons_of_mem op hset, rfl⟩

end AlarmOp

/-- The `j`-th of the entries that satisfy `p` stands at some place. -/
theorem exists_countP_take_eq {α : Type*} {p : α → Bool} {l : List α} {j : ℕ}
    (h : j < l.countP p) : ∃ i a, l[i]? = some a ∧ p a = true ∧ (l.take i).countP p = j := by
  induction l generalizing j with
  | nil => cases h
  | cons b l ih =>
    cases hb : p b with
    | true =>
      cases j with
      | zero => exact ⟨0, b, rfl, hb, rfl⟩
      | succ j =>
        -- the first entry is not the one, but counts
        rw [List.countP_cons_of_pos hb] at h
        obtain ⟨i, a, hi, ha, hcount⟩ := ih (Nat.lt_of_succ_lt_succ h)
        refine ⟨i + 1, a, hi, ha, ?_⟩
        rw [List.take_succ_cons, List.countP_cons_of_pos hb, hcount]
    | false =>
      have hneg : ¬ p b = true := by rw [hb]; exact Bool.false_ne_true
      rw [List.countP_cons_of_neg hneg] at h
      obtain ⟨i, a, hi, ha, hcount⟩ := ih h
      refine ⟨i + 1, a, hi, ha, ?_⟩
      rw [List.take_succ_cons, List.countP_cons_of_neg hneg, hcount]

/-- A state with the time and the pending alarms. -/
structure Alarmed (σ : Type*) where
  state : σ
  /-- The number of ticks so far. -/
  now : ℕ
  /-- When the pending alarms are due. -/
  dues : List ℕ

namespace Machine

variable {σ ι : Type*}

/-- The machine with a clock, where `ops` says what its inputs do to the alarms. -/
def alarmed (M : Machine σ ι) (ops : σ → ι → List AlarmOp) (slack : ℕ) :
    Machine (Alarmed σ) (ClockInput ι) where
  init := ⟨M.init, 0, []⟩
  step s
    | .tick => if ∀ d ∈ s.dues, s.now < d + slack then some { s with now := s.now + 1 } else none
    | .act i => ((ops s.state i).foldlM (AlarmOp.dues? s.now) s.dues).bind fun dues =>
        (M.step s.state i).map fun state => ⟨state, s.now, dues⟩

variable {M : Machine σ ι} {ops : σ → ι → List AlarmOp} {slack : ℕ} {s t : Alarmed σ} {i : ι}
  {is : List (ClockInput ι)}

/-- A tick comes when no alarm is overdue. -/
theorem alarmed_tick_eq_some : (M.alarmed ops slack).step s .tick = some t ↔
    (∀ d ∈ s.dues, s.now < d + slack) ∧ { s with now := s.now + 1 } = t :=
  guarded_eq_some

/-- An input is a step of the machine at a time when the alarms admit it. -/
theorem alarmed_act_eq_some : (M.alarmed ops slack).step s (.act i) = some t ↔
    (ops s.state i).foldlM (AlarmOp.dues? s.now) s.dues = some t.dues ∧
      M.step s.state i = some t.state ∧ t.now = s.now := by
  simp only [alarmed, Option.bind_eq_some_iff, Option.map_eq_some_iff]
  constructor
  · rintro ⟨dues, hdues, state, hstate, rfl⟩
    exact ⟨hdues, hstate, rfl⟩
  · rintro ⟨hdues, hstate, hnow⟩
    refine ⟨t.dues, hdues, t.state, hstate, ?_⟩
    rw [← hnow]

/-- A property of the states that every step of the machine keeps holds in every run with the clock.
-/
theorem invariant_alarmed (P : σ → Prop) (hinit : P M.init)
    (hstep : ∀ s i t, P s → M.step s i = some t → P t)
    (hrun : (M.alarmed ops slack).run is = some s) : P s.state := by
  refine invariant_run (M := M.alarmed ops slack) (fun s => P s.state) ?_ hinit hrun
  intro s i t h hs
  cases i with
  | tick =>
    obtain ⟨-, rfl⟩ := alarmed_tick_eq_some.mp hs
    exact h
  | act i =>
    obtain ⟨-, hstate, -⟩ := alarmed_act_eq_some.mp hs
    exact hstep s.state i t.state h hstate

/-- The time is the number of ticks. -/
theorem now_of_alarmed (hrun : (M.alarmed ops slack).runFrom s is = some t) :
    t.now = s.now + ticks is := by
  induction is generalizing s with
  | nil =>
    obtain rfl : s = t := Option.some.inj hrun
    rfl
  | cons i is ih =>
    obtain ⟨u, hu, hrest⟩ := (M.alarmed ops slack).runFrom_cons_eq_some.mp hrun
    rw [ih hrest]
    cases i with
    | tick =>
      obtain ⟨-, rfl⟩ := alarmed_tick_eq_some.mp hu
      rw [ticks_cons_tick]
      exact Nat.add_right_comm s.now 1 (ticks is)
    | act i =>
      obtain ⟨-, -, hnow⟩ := alarmed_act_eq_some.mp hu
      rw [ticks_cons_act, hnow]

/-- **The alarms are on time.** In every state that a run reaches, no more than the slack has passed
since a pending alarm was due. -/
theorem onTime_of_alarmed (hrun : (M.alarmed ops slack).run is = some s) :
    ∀ d ∈ s.dues, s.now ≤ d + slack := by
  have hinit : ∀ d ∈ (M.alarmed ops slack).init.dues, 0 ≤ d + slack := nofun
  refine invariant_run (M := M.alarmed ops slack) (fun s => ∀ d ∈ s.dues, s.now ≤ d + slack) ?_
    hinit hrun
  intro s i t h hs d hd
  cases i with
  | tick =>
    obtain ⟨hearly, rfl⟩ := alarmed_tick_eq_some.mp hs
    exact hearly d hd
  | act i =>
    obtain ⟨hdues, -, hnow⟩ := alarmed_act_eq_some.mp hs
    rw [hnow]
    rcases AlarmOp.mem_of_foldlM hdues hd with hd | ⟨delay, -, rfl⟩
    · exact h d hd
    · omega

/-- Where the operations account for what the machine counts, the clock has as many alarms. -/
theorem length_dues_of_alarmed (pending : σ → ℕ) (hinit : pending M.init = 0)
    (hstep : ∀ s i t, M.step s i = some t → pending t = (ops s i).foldl AlarmOp.count (pending s))
    (hrun : (M.alarmed ops slack).run is = some s) : s.dues.length = pending s.state := by
  have hempty : (M.alarmed ops slack).init.dues.length = pending (M.alarmed ops slack).init.state :=
    hinit.symm
  refine invariant_run (M := M.alarmed ops slack) (fun s => s.dues.length = pending s.state) ?_
    hempty hrun
  intro s i t h hs
  cases i with
  | tick =>
    obtain ⟨-, rfl⟩ := alarmed_tick_eq_some.mp hs
    exact h
  | act i =>
    obtain ⟨hdues, hstate, -⟩ := alarmed_act_eq_some.mp hs
    rw [AlarmOp.length_of_foldlM hdues, hstep s.state i t.state hstate, h]

/-- **Where a pending alarm comes from.** An alarm that is pending was set by an input, and its
delay ends when it is due. -/
theorem exists_set_of_mem_dues (hrun : (M.alarmed ops slack).run is = some s) : ∀ d ∈ s.dues,
    ∃ js i since u delay, is = js ++ .act i :: since ∧ (M.alarmed ops slack).run js = some u ∧
      .set delay ∈ ops u.state i ∧ d + ticks since = s.now + delay := by
  have hinit : ∀ d ∈ (M.alarmed ops slack).init.dues, ∃ js i since u delay,
      [] = js ++ .act i :: since ∧ (M.alarmed ops slack).run js = some u ∧
      .set delay ∈ ops u.state i ∧ d + ticks since = 0 + delay := nofun
  refine invariant_history_run (M := M.alarmed ops slack) (fun is s => ∀ d ∈ s.dues,
    ∃ js i since u delay, is = js ++ .act i :: since ∧ (M.alarmed ops slack).run js = some u ∧
      .set delay ∈ ops u.state i ∧ d + ticks since = s.now + delay) hinit ?_ hrun
  intro is s i t hrun h hs d hd
  cases i with
  | tick =>
    obtain ⟨-, rfl⟩ := alarmed_tick_eq_some.mp hs
    obtain ⟨js, i, since, u, delay, rfl, hjs, hset, hsum⟩ := h d hd
    refine ⟨js, i, since ++ [.tick], u, delay, by simp, hjs, hset, ?_⟩
    rw [ticks_append, ticks_cons_tick, ticks_nil]
    show d + (ticks since + (0 + 1)) = s.now + 1 + delay
    omega
  | act i =>
    obtain ⟨hdues, -, hnow⟩ := alarmed_act_eq_some.mp hs
    -- it was pending before this input, or this input has set it
    rcases AlarmOp.mem_of_foldlM hdues hd with hd | ⟨delay, hset, rfl⟩
    · obtain ⟨js, j, since, u, delay, rfl, hjs, hset, hsum⟩ := h d hd
      refine ⟨js, j, since ++ [.act i], u, delay, by simp, hjs, hset, ?_⟩
      rw [ticks_append, ticks_cons_act, ticks_nil, hnow]
      exact hsum
    · refine ⟨is, i, [], s, delay, rfl, hrun, hset, ?_⟩
      rw [ticks_nil, hnow]
      rfl

/-- Time passes until an alarm is overdue. -/
theorem runFrom_replicate_tick {n : ℕ} (h : ∀ d ∈ s.dues, s.now + n ≤ d + slack) :
    (M.alarmed ops slack).runFrom s (List.replicate n .tick) =
      some { s with now := s.now + n } := by
  induction n generalizing s with
  | zero => rfl
  | succ n ih =>
    rw [List.replicate_succ, runFrom_cons_eq_some]
    have hearly : ∀ d ∈ s.dues, s.now < d + slack := fun d hd => by
      have hle := h d hd
      omega
    refine ⟨_, alarmed_tick_eq_some.mpr ⟨hearly, rfl⟩, ?_⟩
    have hlater : ∀ d ∈ s.dues, s.now + 1 + n ≤ d + slack := fun d hd => by
      have hle := h d hd
      omega
    rw [ih hlater]
    simp only [Option.some.injEq, Alarmed.mk.injEq, and_true, true_and]
    omega

/-- The clock never stops for good: if it does not tick, an alarm can go off, as long as the machine
has a step for that. -/
theorem exists_alarmed_step (hfire : ∀ j < s.dues.length, ∃ i,
      ops s.state i = [.fire j] ∧ M.step s.state i ≠ none) :
    (∃ t, (M.alarmed ops slack).step s .tick = some t) ∨
      ∃ i j t, ops s.state i = [.fire j] ∧ (M.alarmed ops slack).step s (.act i) = some t := by
  by_cases hearly : ∀ d ∈ s.dues, s.now < d + slack
  · exact .inl ⟨_, alarmed_tick_eq_some.mpr ⟨hearly, rfl⟩⟩
  · -- one of them may not be left waiting for another tick
    push Not at hearly
    obtain ⟨d, hd, hle⟩ := hearly
    obtain ⟨j, hj, rfl⟩ := List.getElem_of_mem hd
    obtain ⟨i, hops, hstep⟩ := hfire j hj
    obtain ⟨state, hstate⟩ := Option.ne_none_iff_exists'.mp hstep
    refine .inr ⟨i, j, ⟨state, s.now, s.dues.eraseIdx j⟩, hops,
      alarmed_act_eq_some.mpr ⟨?_, hstate, rfl⟩⟩
    rw [hops, List.foldlM_cons]
    refine Option.bind_eq_some_iff.mpr ⟨_, if_pos ⟨_, List.getElem?_eq_getElem hj, ?_⟩, rfl⟩
    omega

end Machine

end NcsExamples
