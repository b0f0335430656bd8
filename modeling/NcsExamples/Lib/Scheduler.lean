import Mathlib.Data.List.Perm.Basic
import Mathlib.Data.Nat.Basic
import Mathlib.Tactic.Common

/-! # Schedulers: queued callbacks and pending alarms

A scheduler of one thread keeps two kinds of work: callbacks, which run in the order in which they
were queued, and alarms, which fire at some later time. An entry stands for a function with its
parameter. An alarm can be cancelled while it is pending; a queued callback cannot. The entries that
satisfy a predicate are counted, and each operation says what it does to the counts. -/

namespace NcsExamples

/-- How many of the matching alarms one call of the cancel function removes. -/
inductive CancelMode
  | first
  | all
  deriving DecidableEq, Repr

/-- The number of matching alarms that one call leaves of `n`. -/
def CancelMode.leaves : CancelMode → ℕ → ℕ
  | .first, n => n - 1
  | .all, _ => 0

/-- What the scheduler does next: it runs the first callback, or the `i`-th alarm fires. -/
inductive Turn
  | callback
  | alarm (i : ℕ)
  deriving DecidableEq, Repr

/-- The work that waits. -/
structure Scheduler (κ : Type*) where
  /-- The queued callbacks, the next one first. -/
  callbacks : List κ
  /-- The pending alarms. -/
  alarms : List κ
  deriving DecidableEq, Repr

namespace Scheduler

variable {κ : Type*}

/-- No work. -/
def empty : Scheduler κ := ⟨[], []⟩

/-- A callback is queued. -/
def scheduleCallback (c : κ) (s : Scheduler κ) : Scheduler κ :=
  { s with callbacks := s.callbacks ++ [c] }

/-- An alarm is set. -/
def scheduleAlarm (c : κ) (s : Scheduler κ) : Scheduler κ := { s with alarms := s.alarms ++ [c] }

/-- The alarms that satisfy `p` are cancelled, all of them or the first one. -/
def cancelAlarm (mode : CancelMode) (p : κ → Bool) (s : Scheduler κ) : Scheduler κ :=
  match mode with
  | .first => { s with alarms := s.alarms.eraseP p }
  | .all => { s with alarms := s.alarms.filter fun c => !p c }

/-- The entry whose turn it is, and the work that is left. -/
def pop (s : Scheduler κ) : Turn → Option (κ × Scheduler κ)
  | .callback => match s.callbacks with
    | [] => none
    | c :: cs => some (c, { s with callbacks := cs })
  | .alarm i => s.alarms[i]?.map fun c => (c, { s with alarms := s.alarms.eraseIdx i })

/-- The number of queued callbacks that satisfy `p`. -/
def queued (p : κ → Bool) (s : Scheduler κ) : ℕ := s.callbacks.countP p

/-- The number of pending alarms that satisfy `p`. -/
def pending (p : κ → Bool) (s : Scheduler κ) : ℕ := s.alarms.countP p

variable {p : κ → Bool} {s t : Scheduler κ} {c : κ}

@[simp] theorem queued_empty : (empty : Scheduler κ).queued p = 0 := rfl

@[simp] theorem pending_empty : (empty : Scheduler κ).pending p = 0 := rfl

@[simp] theorem queued_scheduleCallback :
    (s.scheduleCallback c).queued p = s.queued p + if p c then 1 else 0 := by
  rw [queued, scheduleCallback, List.countP_append, List.countP_singleton, queued]

@[simp] theorem pending_scheduleCallback :
    (s.scheduleCallback c).pending p = s.pending p := rfl

@[simp] theorem queued_scheduleAlarm : (s.scheduleAlarm c).queued p = s.queued p := rfl

@[simp] theorem pending_scheduleAlarm :
    (s.scheduleAlarm c).pending p = s.pending p + if p c then 1 else 0 := by
  rw [pending, scheduleAlarm, List.countP_append, List.countP_singleton, pending]

/-! ## Cancelling -/

/-- A queued callback is not cancelled. -/
@[simp] theorem queued_cancelAlarm (mode : CancelMode) {q : κ → Bool} :
    (s.cancelAlarm mode q).queued p = s.queued p := by
  cases mode <;> rfl

/-- One matching alarm is cancelled, or all of them. -/
@[simp] theorem pending_cancelAlarm (mode : CancelMode) :
    (s.cancelAlarm mode p).pending p = mode.leaves (s.pending p) := by
  cases mode with
  | first =>
    show (s.alarms.eraseP p).countP p = s.alarms.countP p - 1
    induction s.alarms with
    | nil => rfl
    | cons a as ih =>
      cases ha : p a with
      | true => rw [List.eraseP_cons_of_pos ha, List.countP_cons_of_pos ha, Nat.add_sub_cancel]
      | false =>
        have hna : ¬ p a = true := by rw [ha]; decide
        rw [List.eraseP_cons_of_neg hna, List.countP_cons_of_neg hna, List.countP_cons_of_neg hna,
          ih]
  | all =>
    show (s.alarms.filter _).countP p = 0
    rw [List.countP_eq_zero]
    intro c hc
    simpa using (List.mem_filter.mp hc).2

/-- An alarm that does not match is not cancelled. -/
theorem pending_cancelAlarm_of_disjoint (mode : CancelMode) {q : κ → Bool}
    (hpq : ∀ c, q c = true → ¬ p c = true) :
    (s.cancelAlarm mode q).pending p = s.pending p := by
  cases mode with
  | first =>
    show (s.alarms.eraseP q).countP p = s.alarms.countP p
    induction s.alarms with
    | nil => rfl
    | cons a as ih =>
      cases ha : q a with
      | true => rw [List.eraseP_cons_of_pos ha, List.countP_cons_of_neg (hpq a ha)]
      | false =>
        rw [List.eraseP_cons_of_neg (by rw [ha]; decide), List.countP_cons, List.countP_cons, ih]
  | all =>
    show (s.alarms.filter _).countP p = s.alarms.countP p
    rw [List.countP_filter]
    apply List.countP_congr
    intro c _
    cases hc : q c with
    | true => simp [hpq c hc]
    | false => simp

/-! ## Turns -/

/-- A callback that runs is the first one of the queue. -/
theorem pop_callback_eq_some :
    s.pop .callback = some (c, t) ↔ s.callbacks = c :: t.callbacks ∧ s.alarms = t.alarms := by
  obtain ⟨cs, as⟩ := s
  obtain ⟨ds, bs⟩ := t
  cases cs with
  | nil => simp [pop]
  | cons a cs => simp [pop, and_assoc]

/-- A callback that runs is taken from the queue. -/
theorem queued_pop_callback (h : s.pop .callback = some (c, t)) :
    s.queued p = t.queued p + if p c then 1 else 0 := by
  rw [queued, (pop_callback_eq_some.mp h).1, List.countP_cons, queued]

theorem pending_pop_callback (h : s.pop .callback = some (c, t)) : s.pending p = t.pending p := by
  rw [pending, (pop_callback_eq_some.mp h).2, pending]

theorem queued_pop_alarm {i : ℕ} (h : s.pop (.alarm i) = some (c, t)) :
    s.queued p = t.queued p := by
  obtain ⟨_, _, heq⟩ := Option.map_eq_some_iff.mp h
  obtain ⟨rfl, rfl⟩ := Prod.mk.inj heq
  rfl

/-- An alarm that fires is not pending any more. -/
theorem pending_pop_alarm {i : ℕ} (h : s.pop (.alarm i) = some (c, t)) :
    s.pending p = t.pending p + if p c then 1 else 0 := by
  obtain ⟨a, ha, heq⟩ := Option.map_eq_some_iff.mp h
  obtain ⟨rfl, rfl⟩ := Prod.mk.inj heq
  obtain ⟨hi, rfl⟩ := List.getElem?_eq_some_iff.mp ha
  have hperm := List.getElem_cons_eraseIdx_perm hi
  rw [pending, ← hperm.countP_eq p, List.countP_cons, pending]

/-- If no entry that satisfies `p` waits, none is taken and none is left. -/
theorem pop_of_none_waits {turn : Turn} (hqueued : s.queued p = 0) (hpending : s.pending p = 0)
    (h : s.pop turn = some (c, t)) : p c = false ∧ t.queued p = 0 ∧ t.pending p = 0 := by
  cases turn with
  | callback =>
    rw [queued_pop_callback h] at hqueued
    rw [pending_pop_callback h] at hpending
    obtain ⟨hqueued, hc⟩ := Nat.add_eq_zero_iff.mp hqueued
    exact ⟨by simpa using hc, hqueued, hpending⟩
  | alarm i =>
    rw [queued_pop_alarm h] at hqueued
    rw [pending_pop_alarm h] at hpending
    obtain ⟨hpending, hc⟩ := Nat.add_eq_zero_iff.mp hpending
    exact ⟨by simpa using hc, hqueued, hpending⟩

/-- A pending alarm can fire next. -/
theorem exists_pop_of_pending_pos (h : 0 < s.pending p) :
    ∃ i c t, s.pop (.alarm i) = some (c, t) ∧ p c = true := by
  obtain ⟨c, hc, hpc⟩ := List.countP_pos_iff.mp h
  obtain ⟨i, hi, rfl⟩ := List.getElem_of_mem hc
  refine ⟨i, s.alarms[i], { s with alarms := s.alarms.eraseIdx i }, ?_, hpc⟩
  rw [pop, List.getElem?_eq_getElem hi, Option.map_some]

end Scheduler

end NcsExamples
