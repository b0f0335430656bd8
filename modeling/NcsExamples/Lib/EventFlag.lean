import Mathlib.Data.List.Basic
import Mathlib.Tactic.Common

/-! # Flags that follow the latest event

A flag is set by the events of one kind, cleared by those of another, and left alone by the rest.
Whether it is set after a list of events can be told from the events alone: one of the first kind has
occurred, and after each of the second kind there was one of the first again. -/

namespace NcsExamples

variable {ι : Type*} (up down : ι → Prop) [DecidablePred up] [DecidablePred down]

/-- The flag after one more event. -/
def flagStep (flag : Bool) (i : ι) : Bool := if up i then true else if down i then false else flag

/-- The flag after a list of events, from a value before them. -/
def flagFrom (flag : Bool) (is : List ι) : Bool := is.foldl (flagStep up down) flag

/-- Every event that clears the flag is followed by one that sets it. -/
def Restored : List ι → Prop
  | [] => True
  | i :: is => (down i → ∃ j ∈ is, up j) ∧ Restored is

instance : DecidablePred (Restored up down)
  | [] => isTrue trivial
  | i :: is =>
      have := instDecidablePredListRestored is
      inferInstanceAs (Decidable ((down i → ∃ j ∈ is, up j) ∧ Restored up down is))

variable {up down} {flag : Bool} {i : ι} {is : List ι}

theorem flagFrom_append_singleton :
    flagFrom up down flag (is ++ [i]) = flagStep up down (flagFrom up down flag is) i := by
  rw [flagFrom, List.foldl_append, List.foldl_cons, List.foldl_nil, flagFrom]

theorem flagStep_of_up (h : up i) : flagStep up down flag i = true := if_pos h

theorem flagStep_of_down (hup : ¬ up i) (hdown : down i) : flagStep up down flag i = false := by
  rw [flagStep, if_neg hup, if_pos hdown]

theorem flagStep_of_neither (hup : ¬ up i) (hdown : ¬ down i) :
    flagStep up down flag i = flag := by
  rw [flagStep, if_neg hup, if_neg hdown]

/-- **The flag and the events.** The flag is set exactly if it was set before or an event has set it,
and every event that clears it is followed by one that sets it. -/
theorem flagFrom_eq_true_iff (hdisjoint : ∀ i, up i → ¬ down i) :
    flagFrom up down flag is = true ↔
      (flag = true ∨ ∃ i ∈ is, up i) ∧ Restored up down is := by
  induction is generalizing flag with
  | nil => simp [flagFrom, Restored]
  | cons i is ih =>
    have hcons : flagFrom up down flag (i :: is) =
      flagFrom up down (flagStep up down flag i) is := rfl
    rw [hcons, ih, Restored]
    simp only [List.mem_cons, exists_eq_or_imp]
    by_cases hup : up i
    · rw [flagStep_of_up hup]
      simp [hup, hdisjoint i hup]
    · by_cases hdown : down i
      · -- the flag is cleared, so one of the later events has to set it
        rw [flagStep_of_down hup hdown]
        simp [hup, hdown]
        tauto
      · rw [flagStep_of_neither hup hdown]
        simp [hup, hdown]

/-- Once an event has set the flag, it is set exactly if every event that clears it is followed by
one that sets it. -/
theorem flagFrom_eq_true_iff_restored (hdisjoint : ∀ i, up i → ¬ down i) (hup : ∃ i ∈ is, up i) :
    flagFrom up down flag is = true ↔ Restored up down is := by
  rw [flagFrom_eq_true_iff hdisjoint]
  exact and_iff_right (.inr hup)

end NcsExamples
