import Mathlib.Data.List.Nodup
import Mathlib.Tactic.Common

/-! # Work queues with delayable items

A thread takes the items of a queue in the order in which they were submitted, and runs their
handlers one after the other. An item is in the queue at most once: a second submission does nothing.
It can wait for a delay before it is submitted. To cancel it takes it out of the queue; its handler
goes on if it is running, and until it has returned the item is not submitted again. -/

namespace NcsExamples

/-- A work queue and its items. -/
structure DelayQueue (κ : Type*) where
  /-- The thread has been started. Nothing is submitted before. -/
  started : Bool
  /-- The items that wait for their delay. -/
  delayed : List κ
  /-- The items in the queue, the next one first. -/
  pending : List κ
  nodup : pending.Nodup
  /-- The item whose handler is running. -/
  running : Option κ
  /-- The item that is running has been cancelled. -/
  canceling : Bool
  deriving DecidableEq, Repr

namespace DelayQueue

variable {κ : Type*} [DecidableEq κ]

/-- A queue without work. -/
def empty (started : Bool) : DelayQueue κ := ⟨started, [], [], List.nodup_nil, none, false⟩

/-- A submission of the item takes effect. -/
def Accepts (q : DelayQueue κ) (k : κ) : Prop :=
  q.started = true ∧ k ∉ q.pending ∧ ¬ (q.running = some k ∧ q.canceling = true)

instance (q : DelayQueue κ) (k : κ) : Decidable (q.Accepts k) :=
  inferInstanceAs (Decidable (_ ∧ _ ∧ _))

/-- The item is submitted. -/
def submit (k : κ) (q : DelayQueue κ) : DelayQueue κ :=
  if h : q.Accepts k then
    { q with
      pending := q.pending ++ [k]
      nodup := q.nodup.append (List.nodup_singleton k)
        (List.disjoint_singleton.mpr h.2.1) }
  else q

/-- The delay of the item is given up. -/
def unschedule (k : κ) (q : DelayQueue κ) : DelayQueue κ :=
  { q with delayed := q.delayed.filter (· ≠ k) }

/-- The item is submitted at once, whatever delay it was waiting for. -/
def rescheduleNoWait (k : κ) (q : DelayQueue κ) : DelayQueue κ := (q.unschedule k).submit k

/-- The item waits for a delay, from now on. -/
def rescheduleDelayed (k : κ) (q : DelayQueue κ) : DelayQueue κ :=
  { q with delayed := q.delayed.filter (· ≠ k) ++ [k] }

/-- The delay of the item is over, if it was waiting for one. -/
def expire (k : κ) (q : DelayQueue κ) : Option (DelayQueue κ) :=
  if k ∈ q.delayed then some ((q.unschedule k).submit k) else none

/-- The item is cancelled. -/
def cancel (k : κ) (q : DelayQueue κ) : DelayQueue κ :=
  { q.unschedule k with
    pending := q.pending.filter (· ≠ k)
    nodup := q.nodup.filter _
    canceling := q.canceling || decide (q.running = some k) }

/-- The thread takes the next item, if no handler is running. -/
def take (q : DelayQueue κ) : Option (κ × DelayQueue κ) :=
  if q.running = none then
    q.pending.head?.map fun k =>
      (k, { q with pending := q.pending.tail, nodup := q.nodup.tail, running := some k })
  else none

/-- The handler returns, which ends a cancellation. -/
def finish (q : DelayQueue κ) : DelayQueue κ := { q with running := none, canceling := false }

variable {q r : DelayQueue κ} {k j : κ}

@[simp] theorem unschedule_started : (q.unschedule k).started = q.started := rfl

@[simp] theorem unschedule_running : (q.unschedule k).running = q.running := rfl

@[simp] theorem rescheduleDelayed_started : (q.rescheduleDelayed k).started = q.started := rfl

@[simp] theorem rescheduleDelayed_running : (q.rescheduleDelayed k).running = q.running := rfl

/-! ## Submissions -/

@[simp] theorem submit_started : (q.submit k).started = q.started := by
  unfold submit
  split <;> rfl

@[simp] theorem submit_running : (q.submit k).running = q.running := by
  unfold submit
  split <;> rfl

@[simp] theorem rescheduleNoWait_started : (q.rescheduleNoWait k).started = q.started := by
  rw [rescheduleNoWait, submit_started, unschedule_started]

@[simp] theorem rescheduleNoWait_running : (q.rescheduleNoWait k).running = q.running := by
  rw [rescheduleNoWait, submit_running, unschedule_running]

/-- Nothing is submitted before the thread is started. -/
theorem submit_of_stopped (h : q.started = false) : q.submit k = q := by
  have hrefused : ¬ q.Accepts k := by
    rintro ⟨hstarted, -⟩
    rw [h] at hstarted
    cases hstarted
  rw [submit, dif_neg hrefused]

theorem pending_submit :
    (q.submit k).pending = if q.Accepts k then q.pending ++ [k] else q.pending := by
  unfold submit
  split <;> rfl

/-- What is in the queue after a submission was there before, or was submitted. -/
theorem eq_or_mem_of_mem_submit (h : j ∈ (q.submit k).pending) : j = k ∨ j ∈ q.pending := by
  rw [pending_submit] at h
  split at h
  · rw [List.mem_append, List.mem_singleton] at h
    exact h.symm
  · exact .inr h

@[simp] theorem submit_delayed : (q.submit k).delayed = q.delayed := by
  unfold submit
  split <;> rfl

@[simp] theorem submit_canceling : (q.submit k).canceling = q.canceling := by
  unfold submit
  split <;> rfl

/-- A submission leaves what was next the next. -/
theorem head?_submit (h : q.pending.head? = some j) : (q.submit k).pending.head? = some j := by
  rw [pending_submit]
  split
  · rw [List.head?_append, h, Option.some_or]
  · exact h

/-- An item is next once it is submitted, if nothing else is in the queue and it is not being
cancelled. -/
theorem head?_submit_self (hstarted : q.started = true) (hcanceling : q.canceling = false)
    (h : ∀ l ∈ q.pending, l = k) : (q.submit k).pending.head? = some k := by
  rw [pending_submit]
  cases hpending : q.pending with
  | nil =>
    have haccepts : q.Accepts k := ⟨hstarted, by simp [hpending], by simp [hcanceling]⟩
    rw [if_pos haccepts]
    rfl
  | cons l ls =>
    obtain rfl : l = k := h l (by rw [hpending]; exact List.mem_cons_self)
    split <;> rfl

omit [DecidableEq κ] in
/-- What the thread takes is the next item. -/
theorem take_eq_some : q.take = some (k, r) ↔ q.running = none ∧ q.pending.head? = some k ∧
    r = { q with pending := q.pending.tail, nodup := q.nodup.tail, running := some k } := by
  rw [take, Option.ite_none_right_eq_some, Option.map_eq_some_iff]
  constructor
  · rintro ⟨hrunning, l, hhead, hl⟩
    obtain ⟨rfl, rfl⟩ := Prod.mk.inj hl
    exact ⟨hrunning, hhead, rfl⟩
  · rintro ⟨hrunning, hhead, rfl⟩
    exact ⟨hrunning, k, hhead, rfl⟩

end DelayQueue

end NcsExamples
