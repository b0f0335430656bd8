import NcsExamples.Lib.Machine

/-! # Transactions: inputs that restore an invariant

A list of inputs may break an invariant on its way and have it back at the end. Such lists compose,
so a program that is made of them keeps the invariant between them, and what each of them guarantees
on its way holds all along. -/

namespace NcsExamples

namespace Machine

variable {σ ι α : Type*} {M : Machine σ ι} {Inv : σ → Prop} {q : σ → ι → σ → Prop}
  {is js : List ι} {f : α → List ι} {as : List α}

/-- From every state with the invariant the inputs run, to a state that has it again, and every step
on the way satisfies `q`. -/
structure Restores (M : Machine σ ι) (Inv : σ → Prop) (q : σ → ι → σ → Prop) (is : List ι) :
    Prop where
  runs : ∀ s, Inv s → ∃ t, M.runFrom s is = some t ∧ Inv t
  along : ∀ s, Inv s → M.Along q s is

/-- Nothing is to be restored. -/
theorem Restores.nil : M.Restores Inv q [] where
  runs s hs := ⟨s, rfl, hs⟩
  along _ _ := trivial

/-- A step that keeps the invariant. -/
theorem Restores.of_step {i : ι} (h : ∀ s, Inv s → ∃ t, M.step s i = some t ∧ Inv t ∧ q s i t) :
    M.Restores Inv q [i] where
  runs s hs := by
    obtain ⟨t, ht, hinv, -⟩ := h s hs
    exact ⟨t, M.runFrom_cons_eq_some.mpr ⟨t, ht, rfl⟩, hinv⟩
  along s hs := by
    obtain ⟨t, ht, -, hq⟩ := h s hs
    exact (along_cons ht).mpr ⟨hq, trivial⟩

/-- One transaction after the other. -/
theorem Restores.append (his : M.Restores Inv q is) (hjs : M.Restores Inv q js) :
    M.Restores Inv q (is ++ js) where
  runs s hs := by
    obtain ⟨t, ht, hinv⟩ := his.runs s hs
    obtain ⟨u, hu, hinv'⟩ := hjs.runs t hinv
    exact ⟨u, runFrom_trans ht hu, hinv'⟩
  along s hs := by
    obtain ⟨t, ht, hinv⟩ := his.runs s hs
    exact (along_append ht).mpr ⟨his.along s hs, hjs.along t hinv⟩

/-- A transaction for each element of a list. -/
theorem Restores.flatMap (h : ∀ a ∈ as, M.Restores Inv q (f a)) :
    M.Restores Inv q (as.flatMap f) := by
  induction as with
  | nil => exact Restores.nil
  | cons a as ih =>
    rw [List.flatMap_cons]
    exact (h a List.mem_cons_self).append (ih fun b hb => h b (List.mem_cons_of_mem a hb))

/-- **Transactions from the start.** If the initial state has the invariant, then the inputs run and
restore it, with `q` all along. -/
theorem Restores.run (h : M.Restores Inv q is) (hinit : Inv M.init) :
    ∃ t, M.run is = some t ∧ Inv t ∧ M.Along q M.init is := by
  obtain ⟨t, ht, hinv⟩ := h.runs M.init hinit
  exact ⟨t, ht, hinv, h.along M.init hinit⟩

end Machine

end NcsExamples
