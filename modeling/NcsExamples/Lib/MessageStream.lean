import Mathlib.Data.List.Basic
import Mathlib.Order.Basic
import Mathlib.Data.Nat.Basic
import Mathlib.Data.List.Flatten
import Mathlib.Tactic.Common

/-! # Streams of one repeated message

A sender offers the same message again and again, and each time some number of its first elements is
taken. The receiver can follow the stream as long as it is a sequence of whole messages with at most
the beginning of one more at its end. If the first element of the message does not occur in it
again, this holds exactly if nothing is taken after the message was taken in part. -/

namespace NcsExamples

variable {α : Type*}

/-- The elements taken, when `counts` are the numbers of elements taken of each offer of `m`. -/
def taken (m : List α) (counts : List ℕ) : List α := counts.flatMap fun n => m.take n

/-- Whole messages, and at most the beginning of one more. -/
def Framed (m xs : List α) : Prop :=
  ∃ k p, p <+: m ∧ p ≠ m ∧ xs = (List.replicate k m).flatten ++ p

/-- No element is taken after an offer of `len` elements was taken in part. -/
def NoneAfterShort (len : ℕ) (counts : List ℕ) : Prop :=
  counts.Pairwise fun a b => 0 < a → a < len → b = 0

instance (len : ℕ) (counts : List ℕ) : Decidable (NoneAfterShort len counts) :=
  inferInstanceAs (Decidable (List.Pairwise _ _))

@[simp] theorem taken_nil (m : List α) : taken m [] = [] := rfl

@[simp] theorem taken_cons (m : List α) (n : ℕ) (counts : List ℕ) :
    taken m (n :: counts) = m.take n ++ taken m counts := rfl

theorem taken_append (m : List α) (counts counts' : List ℕ) :
    taken m (counts ++ counts') = taken m counts ++ taken m counts' := by
  unfold taken
  rw [List.flatMap_append]

/-- Nothing is taken of a message that has an element exactly if every count is 0. -/
theorem taken_eq_nil_iff {m : List α} (hm : m ≠ []) {counts : List ℕ} :
    taken m counts = [] ↔ ∀ n ∈ counts, n = 0 := by
  unfold taken
  rw [List.flatMap_eq_nil_iff]
  simp only [List.take_eq_nil_iff, hm, or_false]

/-- What is taken starts with the first element of the message. -/
theorem exists_cons_of_taken_ne_nil {a : α} {r : List α} {counts : List ℕ}
    (h : taken (a :: r) counts ≠ []) : ∃ ys, taken (a :: r) counts = a :: ys := by
  induction counts with
  | nil => exact absurd rfl h
  | cons n counts ih =>
    cases n with
    | zero => exact ih h
    | succ n => exact ⟨_, rfl⟩

/-! ## Framing -/

/-- The empty stream is framed. -/
theorem framed_nil {m : List α} (hm : m ≠ []) : Framed m [] :=
  ⟨0, [], List.nil_prefix, hm.symm, rfl⟩

/-- A whole message in front changes nothing. -/
theorem framed_append_iff {m xs : List α} : Framed m (m ++ xs) ↔ Framed m xs := by
  constructor
  · rintro ⟨k, p, hp, hne, heq⟩
    cases k with
    | zero =>
      -- the message would be a beginning of itself that is not all of it
      have hle := hp.length_le
      have hlen := congrArg List.length heq
      simp only [List.replicate_zero, List.flatten_nil, List.nil_append, List.length_append] at hlen
      exact absurd (hp.eq_of_length (by omega)) hne
    | succ k =>
      rw [List.replicate_succ, List.flatten_cons, List.append_assoc] at heq
      exact ⟨k, p, hp, hne, List.append_cancel_left heq⟩
  · rintro ⟨k, p, hp, hne, rfl⟩
    refine ⟨k + 1, p, hp, hne, ?_⟩
    rw [List.replicate_succ, List.flatten_cons, List.append_assoc]

/-- Inside the first message a framed stream is the message. -/
theorem Framed.getElem?_eq {m xs : List α} (h : Framed m xs) {i : ℕ} (hi : i < m.length) {a : α}
    (ha : xs[i]? = some a) : m[i]? = some a := by
  obtain ⟨k, p, ⟨q, rfl⟩, -, rfl⟩ := h
  cases k with
  | zero =>
    have hlt : i < p.length := by
      by_contra hge
      simp [List.getElem?_eq_none (not_lt.mp hge)] at ha
    rw [List.getElem?_append_left hlt]
    simpa using ha
  | succ k =>
    rwa [List.replicate_succ, List.flatten_cons, List.append_assoc,
      List.getElem?_append_left hi] at ha

/-- A beginning of the message can be followed by nothing, if the first element of the message does
not occur in it again. -/
theorem framed_take_append_iff {a : α} {r : List α} (ha : a ∉ r) {n : ℕ} (hpos : 0 < n)
    (hlt : n < (a :: r).length) {counts : List ℕ} :
    Framed (a :: r) ((a :: r).take n ++ taken (a :: r) counts) ↔ taken (a :: r) counts = [] := by
  have hlen : ((a :: r).take n).length = n := List.length_take_of_le hlt.le
  constructor
  · intro h
    by_contra hne
    obtain ⟨ys, hys⟩ := exists_cons_of_taken_ne_nil hne
    have hn : ((a :: r).take n ++ taken (a :: r) counts)[n]? = some a := by
      rw [hys, List.getElem?_append_right hlen.le, hlen, Nat.sub_self, List.getElem?_cons_zero]
    have hat := h.getElem?_eq hlt hn
    obtain ⟨n, rfl⟩ := Nat.exists_eq_add_of_lt hpos
    rw [Nat.zero_add, List.getElem?_cons_succ] at hat
    exact ha (List.mem_of_getElem? hat)
  · intro hnil
    rw [hnil, List.append_nil]
    refine ⟨0, (a :: r).take n, List.take_prefix _ _, ?_, rfl⟩
    intro heq
    rw [heq] at hlen
    omega

/-- **Framing.** If the first element of the message does not occur in it again, the stream taken is
framed exactly if nothing is taken after an offer was taken in part. -/
theorem framed_taken_iff {a : α} {r : List α} (ha : a ∉ r) {counts : List ℕ}
    (hle : ∀ n ∈ counts, n ≤ (a :: r).length) :
    Framed (a :: r) (taken (a :: r) counts) ↔ NoneAfterShort (a :: r).length counts := by
  induction counts with
  | nil => exact iff_of_true (framed_nil (List.cons_ne_nil a r)) List.Pairwise.nil
  | cons n counts ih =>
    have hrest := ih fun k hk => hle k (List.mem_cons_of_mem n hk)
    rw [taken_cons, NoneAfterShort, List.pairwise_cons]
    rcases Nat.eq_zero_or_pos n with rfl | hpos
    · -- nothing is taken of the first offer
      rw [List.take_zero, List.nil_append, hrest]
      exact ⟨fun h => ⟨fun _ _ hlt => absurd hlt (lt_irrefl 0), h⟩, fun h => h.2⟩
    · rcases (hle n List.mem_cons_self).lt_or_eq with hlt | rfl
      · -- the first offer is taken in part
        rw [framed_take_append_iff ha hpos hlt, taken_eq_nil_iff (List.cons_ne_nil a r)]
        constructor
        · intro hzero
          refine ⟨fun k hk _ _ => hzero k hk, ?_⟩
          exact List.pairwise_of_forall_mem_list fun _ _ k hk _ _ => hzero k hk
        · rintro ⟨hzero, -⟩ k hk
          exact hzero k hk hpos hlt
      · -- the first offer is taken as a whole
        rw [List.take_length, framed_append_iff, hrest]
        exact ⟨fun h => ⟨fun _ _ _ hlt => absurd hlt (lt_irrefl _), h⟩, fun h => h.2⟩

/-- What is taken, if nothing is taken after an offer was taken in part: the whole offers, and the
beginning of the one that was not. -/
theorem exists_taken_eq {m : List α} (hm : m ≠ []) {counts : List ℕ}
    (hle : ∀ n ∈ counts, n ≤ m.length) (h : NoneAfterShort m.length counts) :
    ∃ p, p <+: m ∧ p ≠ m ∧
      taken m counts = (List.replicate (counts.count m.length) m).flatten ++ p := by
  induction counts with
  | nil => exact ⟨[], List.nil_prefix, hm.symm, rfl⟩
  | cons n counts ih =>
    obtain ⟨hfirst, hrest⟩ := List.pairwise_cons.mp h
    obtain ⟨hn, hcounts⟩ := List.forall_mem_cons.mp hle
    rcases hn.lt_or_eq with hlt | rfl
    · have hcount : (n :: counts).count m.length = counts.count m.length :=
        List.count_cons_of_ne hlt.ne
      rw [taken_cons, hcount]
      rcases Nat.eq_zero_or_pos n with rfl | hpos
      · -- nothing is taken of the first offer
        rw [List.take_zero, List.nil_append]
        exact ih hcounts hrest
      · -- the first offer is taken in part, so it is the last
        have hnil : taken m counts = [] :=
          (taken_eq_nil_iff hm).mpr fun k hk => hfirst k hk hpos hlt
        have hnone : counts.count m.length = 0 := by
          rw [List.count_eq_zero]
          intro hmem
          have hzero := hfirst m.length hmem hpos hlt
          omega
        refine ⟨m.take n, List.take_prefix n m, ?_, ?_⟩
        · intro heq
          have hlength := congrArg List.length heq
          rw [List.length_take] at hlength
          omega
        · rw [hnil, hnone, List.append_nil]
          rfl
    · -- the first offer is taken as a whole
      obtain ⟨p, hp, hne, htaken⟩ := ih hcounts hrest
      refine ⟨p, hp, hne, ?_⟩
      rw [taken_cons, List.take_length, htaken, List.count_cons_self, List.replicate_succ,
        List.flatten_cons, List.append_assoc]

end NcsExamples
