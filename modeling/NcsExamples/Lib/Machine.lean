import Mathlib.Tactic.Common
import Mathlib.Logic.Function.Basic
import Mathlib.Order.Defs.PartialOrder

/-! # Machines: partial deterministic step functions and their runs

A `Machine` is an initial state and a step function `σ → ι → Option σ`: the input `ι` resolves every
choice (which party moves, what a call of the environment returns), and `none` says that the input
is not possible in the state. A run is a list of inputs. The file gives the runs, the predicate
`Along` (every step taken along a run satisfies a relation of its source, input and target), the
invariant rule for runs whose steps all meet a condition, the temporal operator `Since`, the rule for
inputs that come to an end, and the projection of the runs of one machine onto the runs of a second
one. -/

namespace NcsExamples

/-- A machine with states `σ` and inputs `ι`: `step s i = none` where `i` cannot happen in `s`. -/
structure Machine (σ ι : Type*) where
  /-- The state every run starts in. -/
  init : σ
  /-- The state after one input, if the input is possible. -/
  step : σ → ι → Option σ

namespace Machine

variable {σ ι : Type*} (M : Machine σ ι)

/-- The state reached from `s` by the inputs in order, if each of them is possible in its turn. -/
def runFrom : σ → List ι → Option σ
  | s, [] => some s
  | s, i :: is => (M.step s i).bind fun t => runFrom t is

/-- The state a run from the initial state reaches. -/
def run (is : List ι) : Option σ := M.runFrom M.init is

/-- A step with a guard leads to its target if the guard holds. -/
theorem guarded_eq_some {p : Prop} {_ : Decidable p} {s t : σ} :
    (if p then some s else none) = some t ↔ p ∧ s = t := by
  rw [Option.ite_none_right_eq_some, Option.some.injEq]

@[simp] theorem runFrom_nil (s : σ) : M.runFrom s [] = some s := rfl

/-- A run that starts with `i` takes the step `i` and goes on from its target. -/
theorem runFrom_cons_eq_some {s u : σ} {i : ι} {is : List ι} :
    M.runFrom s (i :: is) = some u ↔ ∃ t, M.step s i = some t ∧ M.runFrom t is = some u := by
  simp only [runFrom, Option.bind_eq_some_iff]

/-- A run over two lists of inputs is one over the first and then one over the second. -/
theorem runFrom_append_eq_some {s u : σ} {is js : List ι} : M.runFrom s (is ++ js) = some u ↔
    ∃ t, M.runFrom s is = some t ∧ M.runFrom t js = some u := by
  induction is generalizing s with
  | nil => simp
  | cons i is ih =>
      simp only [List.cons_append, runFrom_cons_eq_some, ih]
      constructor
      · rintro ⟨v, hv, t, ht, hu⟩
        exact ⟨t, ⟨v, hv, ht⟩, hu⟩
      · rintro ⟨t, ⟨v, hv, ht⟩, hu⟩
        exact ⟨v, hv, t, ht, hu⟩

/-- A run that ends with `i` takes the step `i` from the state that the other inputs lead to. -/
theorem runFrom_snoc_eq_some {s u : σ} {is : List ι} {i : ι} : M.runFrom s (is ++ [i]) = some u ↔
    ∃ t, M.runFrom s is = some t ∧ M.step t i = some u := by
  rw [runFrom_append_eq_some]
  refine exists_congr fun t => and_congr_right fun _ => ?_
  simp [runFrom_cons_eq_some]

/-- Runs compose: the second one starts where the first one ends. -/
theorem runFrom_trans {M : Machine σ ι} {s t u : σ} {is js : List ι} (his : M.runFrom s is = some t)
    (hjs : M.runFrom t js = some u) : M.runFrom s (is ++ js) = some u :=
  M.runFrom_append_eq_some.mpr ⟨t, his, hjs⟩

/-- A run goes on from each state that it has reached. -/
theorem exists_step_of_runFrom_append {s u w : σ} {js ls : List ι} {i : ι}
    (hrun : M.runFrom s (js ++ i :: ls) = some w) (hjs : M.runFrom s js = some u) :
    ∃ v, M.step u i = some v ∧ M.runFrom v ls = some w := by
  obtain ⟨u', hu', hrest⟩ := M.runFrom_append_eq_some.mp hrun
  obtain rfl := Option.some.inj (hjs.symm.trans hu')
  exact M.runFrom_cons_eq_some.mp hrest

/-- Every step that the inputs take from `s` satisfies `p` of its source, its input and its target.
The steps after an impossible input are not taken, so nothing is said about them. -/
def Along (p : σ → ι → σ → Prop) : σ → List ι → Prop
  | _, [] => True
  | s, i :: is => ∀ t, M.step s i = some t → p s i t ∧ Along p t is

/-- Every step of the run `is` is taken in a state and on an input that `ok` admits. -/
def Meets (ok : σ → ι → Prop) (is : List ι) : Prop := M.Along (fun s i _ => ok s i) M.init is

variable {M} {p q : σ → ι → σ → Prop}

/-- Over a first step that is known, `Along` splits into that step and the rest. -/
theorem along_cons {s t : σ} {i : ι} {is : List ι} (h : M.step s i = some t) :
    M.Along p s (i :: is) ↔ p s i t ∧ M.Along p t is := by
  simp only [Along, h, Option.some.injEq, forall_eq']

/-- Whether a decidable relation holds along a run can be computed. -/
instance decidableAlong [∀ s i t, Decidable (p s i t)] :
    ∀ (s : σ) (is : List ι), Decidable (M.Along p s is)
  | _, [] => isTrue trivial
  | s, i :: is =>
      match h : M.step s i with
      | none => isTrue fun t ht => by rw [h] at ht; cases ht
      | some t =>
          have := decidableAlong t is
          decidable_of_iff (p s i t ∧ M.Along p t is) (along_cons h).symm

instance {ok : σ → ι → Prop} [∀ s i, Decidable (ok s i)] (is : List ι) :
    Decidable (M.Meets ok is) :=
  decidableAlong M.init is

/-- **Invariant rule, from any state.** A property preserved by every step that `p` admits holds in
every state that a run of such steps reaches. -/
theorem invariant_from (Inv : σ → Prop)
    (hstep : ∀ s i t, Inv s → p s i t → M.step s i = some t → Inv t) {is : List ι} :
    ∀ {s u : σ}, Inv s → M.Along p s is → M.runFrom s is = some u → Inv u := by
  -- the first step leads to a state with the invariant, from which the rest of the inputs run
  induction is with
  | nil =>
      intro s u hs _ hrun
      obtain rfl : s = u := Option.some.inj hrun
      exact hs
  | cons i is ih =>
      intro s u hs halong hrun
      obtain ⟨t, ht, hrun⟩ := M.runFrom_cons_eq_some.mp hrun
      obtain ⟨hp, halong⟩ := (along_cons ht).mp halong
      exact ih (hstep s i t hs hp ht) halong hrun

/-- **Invariant rule.** A property that the initial state has and that every admitted step preserves
holds in every state reached by a run whose steps are all admitted. -/
theorem invariant (Inv : σ → Prop) {ok : σ → ι → Prop} (hinit : Inv M.init)
    (hstep : ∀ s i t, Inv s → ok s i → M.step s i = some t → Inv t) {is : List ι} {u : σ}
    (hok : M.Meets ok is) (hrun : M.run is = some u) : Inv u :=
  invariant_from Inv (p := fun s i _ => ok s i) hstep hinit hok hrun

/-- A property that all inputs have holds along the run. -/
theorem along_of_forall_mem {r : ι → Prop} {is : List ι} (h : ∀ i ∈ is, r i) (s : σ) :
    M.Along (fun _ i _ => r i) s is := by
  induction is generalizing s with
  | nil => trivial
  | cons i is ih =>
      intro t _
      exact ⟨h i List.mem_cons_self, ih (fun j hj => h j (List.mem_cons_of_mem i hj)) t⟩

/-- **Invariant rule, for inputs of a kind.** A property preserved by every step on an input that
`r` admits holds in every state that a run of such inputs reaches. -/
theorem invariant_inputs (Inv : σ → Prop) {r : ι → Prop}
    (hstep : ∀ s i t, Inv s → r i → M.step s i = some t → Inv t) {is : List ι}
    (his : ∀ i ∈ is, r i) {s u : σ} (hs : Inv s) (hrun : M.runFrom s is = some u) : Inv u :=
  invariant_from Inv hstep hs (along_of_forall_mem his s) hrun

/-- **Invariant rule, without a condition.** A property preserved by every step holds in every state
that a run from a state with it reaches. -/
theorem invariant_run (Inv : σ → Prop) (hstep : ∀ s i t, Inv s → M.step s i = some t → Inv t)
    {is : List ι} {s u : σ} (hs : Inv s) (hrun : M.runFrom s is = some u) : Inv u :=
  invariant_inputs Inv (r := fun _ => True) (fun s i t hs _ ht => hstep s i t hs ht)
    (fun _ _ => trivial) hs hrun

/-- **Invariant rule, with the history, for inputs of a kind.** A property of the inputs so far and
the state they lead to, which every step on an input that `r` admits preserves, holds at the end of
every run of such inputs. -/
theorem invariant_history_inputs (Inv : List ι → σ → Prop) {r : ι → Prop}
    (hstep : ∀ js s i t, Inv js s → r i → M.step s i = some t → Inv (js ++ [i]) t) {is : List ι} :
    ∀ {js : List ι} {s u : σ}, (∀ i ∈ is, r i) → Inv js s → M.runFrom s is = some u →
      Inv (js ++ is) u := by
  -- the first input moves from the inputs to come to those of the past
  induction is with
  | nil =>
      intro js s u _ hs hrun
      obtain rfl : s = u := Option.some.inj hrun
      rw [List.append_nil]
      exact hs
  | cons i is ih =>
      intro js s u his hs hrun
      obtain ⟨hi, his⟩ := List.forall_mem_cons.mp his
      obtain ⟨t, ht, hrest⟩ := M.runFrom_cons_eq_some.mp hrun
      rw [List.append_cons]
      exact ih his (hstep js s i t hs hi ht) hrest

/-- **Invariant rule, with the history.** A property of the inputs so far and the state they lead
to, which every step preserves, holds at the end of every run. -/
theorem invariant_history (Inv : List ι → σ → Prop)
    (hstep : ∀ js s i t, Inv js s → M.step s i = some t → Inv (js ++ [i]) t) {is js : List ι}
    {s u : σ} (hs : Inv js s) (hrun : M.runFrom s is = some u) : Inv (js ++ is) u :=
  invariant_history_inputs Inv (r := fun _ => True) (fun js s i t hs _ ht => hstep js s i t hs ht)
    (fun _ _ => trivial) hs hrun

/-- A relation that every step between invariant states satisfies holds along every run. -/
theorem along_of_invariant (Inv : σ → Prop)
    (hstep : ∀ s i t, Inv s → p s i t → M.step s i = some t → Inv t)
    (hq : ∀ s i t, Inv s → p s i t → M.step s i = some t → q s i t) {is : List ι} :
    ∀ {s : σ}, Inv s → M.Along p s is → M.Along q s is := by
  induction is with
  | nil => intro s _ _; trivial
  | cons i is ih =>
      intro s hs halong t ht
      obtain ⟨hp, halong⟩ := (along_cons ht).mp halong
      exact ⟨hq s i t hs hp ht, ih (hstep s i t hs hp ht) halong⟩

/-- **Equivalence along runs.** Two relations that agree on every step from an invariant state, and
that keep the invariant, hold along the same runs. -/
theorem along_congr (Inv : σ → Prop)
    (hiff : ∀ s i t, Inv s → M.step s i = some t → (p s i t ↔ q s i t))
    (hstep : ∀ s i t, Inv s → p s i t → M.step s i = some t → Inv t) {is : List ι} :
    ∀ {s : σ}, Inv s → (M.Along p s is ↔ M.Along q s is) := by
  -- a step that meets one relation meets the other, so the invariant is there for the rest
  induction is with
  | nil => intro s _; exact Iff.rfl
  | cons i is ih =>
      intro s hs
      refine forall_congr' fun t => forall_congr' fun ht => ?_
      have hpq := hiff s i t hs ht
      constructor
      · rintro ⟨hp, halong⟩
        exact ⟨hpq.mp hp, (ih (hstep s i t hs hp ht)).mp halong⟩
      · rintro ⟨hq, halong⟩
        exact ⟨hpq.mpr hq, (ih (hstep s i t hs (hpq.mpr hq) ht)).mpr halong⟩

/-- Over inputs that lead to a known state, `Along` splits. -/
theorem along_append {s t : σ} {is js : List ι} (his : M.runFrom s is = some t) :
    M.Along p s (is ++ js) ↔ M.Along p s is ∧ M.Along p t js := by
  induction is generalizing s with
  | nil =>
      obtain rfl : s = t := Option.some.inj his
      exact (and_iff_right trivial).symm
  | cons i is ih =>
      obtain ⟨v, hv, hrest⟩ := M.runFrom_cons_eq_some.mp his
      rw [List.cons_append, along_cons hv, along_cons hv, ih hrest, and_assoc]

/-- A relation holds along a run exactly if it holds of the step after each of its prefixes. -/
theorem along_iff_forall_append {s : σ} {is : List ι} : M.Along p s is ↔ ∀ js i ls t u,
    is = js ++ i :: ls → M.runFrom s js = some t → M.step t i = some u → p t i u := by
  constructor
  · rintro halong js i ls t u rfl hjs hstep
    obtain ⟨-, halong⟩ := (along_append hjs).mp halong
    exact ((along_cons hstep).mp halong).1
  · intro h
    induction is generalizing s with
    | nil => trivial
    | cons i is ih =>
        intro t ht
        refine ⟨h [] i is s t rfl rfl ht, ih ?_⟩
        rintro js j ls v u rfl hjs hstep
        exact h (i :: js) j ls v u rfl (M.runFrom_cons_eq_some.mpr ⟨t, ht, hjs⟩) hstep

/-- **Invariant rule, with the history, along a run.** A property of the inputs so far and of the state
they lead to, which every step that `p` admits preserves, holds at the end of every run of such
steps. -/
theorem invariant_history_along (Inv : List ι → σ → Prop) (hinit : Inv [] M.init)
    (hstep : ∀ js s i t, M.run js = some s → Inv js s → p s i t → M.step s i = some t →
      Inv (js ++ [i]) t) {is : List ι} {u : σ} (halong : M.Along p M.init is)
    (hrun : M.run is = some u) : Inv is u := by
  have hstart : M.run [] = some M.init ∧ ([] <+: is → Inv [] M.init) := ⟨rfl, fun _ => hinit⟩
  -- the history says where on the way the step is taken, and with that what is known of it
  refine (M.invariant_history (fun js s => M.run js = some s ∧ (js <+: is → Inv js s)) ?_ hstart
    hrun).2 List.prefix_rfl
  rintro js s i t ⟨hjs, h⟩ hs
  refine ⟨M.runFrom_snoc_eq_some.mpr ⟨s, hjs, hs⟩, ?_⟩
  rintro ⟨ls, his⟩
  have hsplit : is = js ++ i :: ls := by rw [← his, List.append_assoc, List.singleton_append]
  exact hstep js s i t hjs (h ⟨i :: ls, hsplit.symm⟩)
    (along_iff_forall_append.mp halong js i ls s t hsplit hjs hs) hs

/-- **Invariant rule, with the history, from the start.** The step lemma may use that the state has been
reached. -/
theorem invariant_history_run (Inv : List ι → σ → Prop) (hinit : Inv [] M.init)
    (hstep : ∀ js s i t, M.run js = some s → Inv js s → M.step s i = some t → Inv (js ++ [i]) t)
    {is : List ι} {u : σ} (hrun : M.run is = some u) : Inv is u :=
  invariant_history_along Inv hinit (p := fun _ _ _ => True)
    (fun js s i t hjs h _ hs => hstep js s i t hjs h hs)
    (along_of_forall_mem (r := fun _ => True) (fun _ _ => trivial) M.init) hrun

/-- Two relations that hold along a run hold together along it. -/
theorem along_and {s : σ} {is : List ι} (hp : M.Along p s is) (hq : M.Along q s is) :
    M.Along (fun s i t => p s i t ∧ q s i t) s is := by
  induction is generalizing s with
  | nil => trivial
  | cons i is ih => exact fun t ht => ⟨⟨(hp t ht).1, (hq t ht).1⟩, ih (hp t ht).2 (hq t ht).2⟩

/-- **Measure rule.** Where no step lowers a measure, and a step keeps it exactly if it satisfies `p`,
a run keeps the measure exactly if `p` holds along it. -/
theorem along_iff_measure_eq {α : Type*} [PartialOrder α] (f : σ → α) (Inv : σ → Prop)
    (hstep : ∀ s i t, Inv s → M.step s i = some t → Inv t)
    (hf : ∀ s i t, Inv s → M.step s i = some t → f s ≤ f t ∧ (p s i t ↔ f s = f t)) {is : List ι} :
    ∀ {s u : σ}, Inv s → M.runFrom s is = some u → f s ≤ f u ∧ (M.Along p s is ↔ f s = f u) := by
  induction is with
  | nil =>
      intro s u _ hrun
      obtain rfl : s = u := Option.some.inj hrun
      exact ⟨le_rfl, iff_of_true trivial rfl⟩
  | cons i is ih =>
      intro s u hs hrun
      obtain ⟨t, ht, hrest⟩ := M.runFrom_cons_eq_some.mp hrun
      obtain ⟨hst, hp⟩ := hf s i t hs ht
      obtain ⟨htu, halong⟩ := ih (hstep s i t hs ht) hrest
      refine ⟨le_trans hst htu, ?_⟩
      rw [along_cons ht, hp, halong]
      constructor
      · rintro ⟨heq, heq'⟩
        exact heq.trans heq'
      · intro heq
        -- the measure of `t` is between two that are equal
        have hts : f t ≤ f s := heq ▸ htu
        exact ⟨le_antisymm hst hts, le_antisymm htu (heq ▸ hst)⟩

/-- A property of the inputs that holds along a run holds of all its inputs. -/
theorem forall_mem_of_along {r : ι → Prop} {s t : σ} {is : List ι}
    (halong : M.Along (fun _ i _ => r i) s is) (hrun : M.runFrom s is = some t) :
    ∀ i ∈ is, r i := by
  induction is generalizing s with
  | nil => exact nofun
  | cons i is ih =>
      obtain ⟨v, hv, hrest⟩ := M.runFrom_cons_eq_some.mp hrun
      obtain ⟨hi, halong⟩ := (along_cons hv).mp halong
      exact List.forall_mem_cons.mpr ⟨hi, ih halong hrest⟩

/-! ## The past -/

section Past

variable {P Q : List ι → List ι → Prop} {s t : σ} {i : ι} {is : List ι}

/-- The temporal operator "`p` since `q`": some step of the run has satisfied `q`, and all steps after
it have satisfied `p`. The inputs before that step and those after it are as `P` says. -/
def Since (M : Machine σ ι) (p q : σ → ι → σ → Prop) (P : List ι → List ι → Prop)
    (is : List ι) : Prop :=
  ∃ js i since s t, is = js ++ i :: since ∧ M.run js = some s ∧ M.step s i = some t ∧ q s i t ∧
    M.Along p t since ∧ P js since

/-- It begins with the step that satisfies `q`. -/
theorem Since.now (hrun : M.run is = some s) (hs : M.step s i = some t) (hq : q s i t)
    (hP : P is []) : M.Since p q P (is ++ [i]) :=
  ⟨is, i, [], s, t, rfl, hrun, hs, hq, trivial, hP⟩

/-- It goes on with every step that satisfies `p`. -/
theorem Since.snoc (h : M.Since p q P is) (hrun : M.run is = some s) (hs : M.step s i = some t)
    (hp : p s i t) (hPQ : ∀ js since, P js since → Q js (since ++ [i])) :
    M.Since p q Q (is ++ [i]) := by
  obtain ⟨js, k, since, u, v, rfl, hjs, hk, hq, halong, hP⟩ := h
  obtain ⟨v', hv', hsince⟩ := M.exists_step_of_runFrom_append hrun hjs
  obtain rfl := Option.some.inj (hk.symm.trans hv')
  refine ⟨js, k, since ++ [i], u, v, by rw [List.append_assoc, List.cons_append], hjs, hk, hq, ?_,
    hPQ js since hP⟩
  exact (along_append hsince).mpr ⟨halong, (along_cons hs).mpr ⟨hp, trivial⟩⟩

/-- What is said of the inputs can be weakened. -/
theorem Since.mono (h : M.Since p q P is) (hPQ : ∀ js since, P js since → Q js since) :
    M.Since p q Q is := by
  obtain ⟨js, i, since, s, t, his, hjs, hs, hq, halong, hP⟩ := h
  exact ⟨js, i, since, s, t, his, hjs, hs, hq, halong, hPQ js since hP⟩

/-- Over inputs that lead somewhere, either no step satisfies `q`, or one of them is the last one. -/
theorem along_or_exists_last (hrun : M.runFrom s is = some t) :
    M.Along (fun s i t => ¬ q s i t) s is ∨ ∃ js i ls u v, is = js ++ i :: ls ∧
      M.runFrom s js = some u ∧ M.step u i = some v ∧ q u i v ∧
        M.Along (fun s i t => ¬ q s i t) v ls := by
  induction is generalizing s with
  | nil => exact .inl trivial
  | cons i is ih =>
      obtain ⟨u, hu, hrest⟩ := M.runFrom_cons_eq_some.mp hrun
      rcases ih hrest with hnone | ⟨js, k, ls, v, w, rfl, hjs, hw, hq, hnone⟩
      · -- only the first step is left
        by_cases hq : q s i u
        · exact .inr ⟨[], i, is, s, u, rfl, rfl, hu, hq, hnone⟩
        · exact .inl ((along_cons hu).mpr ⟨hq, hnone⟩)
      · exact .inr ⟨i :: js, k, ls, v, w, rfl, M.runFrom_cons_eq_some.mpr ⟨u, hu, hjs⟩, hw, hq,
          hnone⟩

/-- After a step that satisfied `q` there is a last one, with no more inputs after it. -/
theorem Since.last (h : M.Since p q P is) (hrun : M.run is = some s) :
    M.Since (fun s i t => ¬ q s i t) q
      (fun _ since => ∃ js since', P js since' ∧ since <:+ since') is := by
  obtain ⟨js, i, since, u, v, rfl, hjs, hv, hq, -, hP⟩ := h
  obtain ⟨v', hv', hsince⟩ := M.exists_step_of_runFrom_append hrun hjs
  obtain rfl := Option.some.inj (hv.symm.trans hv')
  rcases along_or_exists_last (q := q) hsince with hnone | ⟨ks, k, ls, w, x, rfl, hks, hx, hq', hnone⟩
  · exact ⟨js, i, since, u, v, rfl, hjs, hv, hq, hnone, js, since, hP, List.suffix_refl since⟩
  · refine ⟨js ++ i :: ks, k, ls, w, x, by rw [List.append_assoc, List.cons_append], ?_, hx, hq',
      hnone, js, ks ++ k :: ls, hP, ⟨ks ++ [k], by simp⟩⟩
    exact runFrom_trans hjs (M.runFrom_cons_eq_some.mpr ⟨v, hv, hks⟩)

end Past

/-! ## Settling -/

section Settling

variable {r : ι → Prop} {rest : σ → Prop} {s : σ} {n : ℕ}

/-- From `s` the inputs of the kind `r` come to an end: in whatever order they happen, there are at
most `n` of them, and as long as the state is not at `rest` another one can happen. -/
def ComesToRest (M : Machine σ ι) (r : ι → Prop) (rest : σ → Prop) (n : ℕ) (s : σ) : Prop :=
  ∀ is t, (∀ i ∈ is, r i) → M.runFrom s is = some t →
    is.length ≤ n ∧ (rest t ∨ ∃ i u, r i ∧ M.step t i = some u)

/-- **Settling rule.** Where every step of the kind lowers a measure, and one can be taken from every
state that is not at rest, the inputs of the kind come to an end. -/
theorem comesToRest_of_measure (Inv : σ → Prop) (f : σ → ℕ)
    (hstep : ∀ s i t, Inv s → r i → M.step s i = some t → Inv t ∧ f t < f s)
    (hgoes : ∀ s, Inv s → ¬ rest s → ∃ i t, r i ∧ M.step s i = some t) (hs : Inv s) :
    M.ComesToRest r rest (f s) s := by
  intro is
  induction is generalizing s with
  | nil =>
      intro t _ hrun
      obtain rfl : s = t := Option.some.inj hrun
      exact ⟨Nat.zero_le (f s), or_iff_not_imp_left.mpr (hgoes s hs)⟩
  | cons i is ih =>
      intro t his hrun
      obtain ⟨u, hu, hrest⟩ := M.runFrom_cons_eq_some.mp hrun
      obtain ⟨hi, his⟩ := List.forall_mem_cons.mp his
      obtain ⟨hinv, hlt⟩ := hstep s i u hs hi hu
      obtain ⟨hle, hend⟩ := ih hinv t his hrest
      exact ⟨Nat.succ_le_of_lt (Nat.lt_of_le_of_lt hle hlt), hend⟩

/-- Inputs that come to an end can be run to it. -/
theorem ComesToRest.exists_run (h : M.ComesToRest r rest n s) :
    ∃ is t, (∀ i ∈ is, r i) ∧ M.runFrom s is = some t ∧ rest t := by
  by_contra hnever
  push Not at hnever
  -- otherwise there are runs of any length
  have hlong : ∀ m, ∃ is t, (∀ i ∈ is, r i) ∧ M.runFrom s is = some t ∧ is.length = m := by
    intro m
    induction m with
    | zero => exact ⟨[], s, nofun, rfl, rfl⟩
    | succ m ih =>
        obtain ⟨is, t, his, hrun, hlength⟩ := ih
        obtain ⟨i, u, hi, hstep⟩ := (h is t his hrun).2.resolve_left (hnever is t his hrun)
        refine ⟨is ++ [i], u, ?_, M.runFrom_snoc_eq_some.mpr ⟨t, hrun, hstep⟩, ?_⟩
        · exact List.forall_mem_append.mpr ⟨his, List.forall_mem_singleton.mpr hi⟩
        · rw [List.length_append, hlength, List.length_singleton]
  obtain ⟨is, t, his, hrun, hlength⟩ := hlong (n + 1)
  have hle := (h is t his hrun).1
  omega

end Settling

/-! ## Projections -/

section Projection

variable {τ κ : Type*} {N : Machine τ κ} {view : σ → τ} {label : σ → ι → Option κ}

/-- The labels of the steps that the inputs take from `s`. A step without a label leaves none. -/
def labels (M : Machine σ ι) (label : σ → ι → Option κ) : σ → List ι → List κ
  | _, [] => []
  | s, i :: is => match M.step s i with
    | none => []
    | some t => (label s i).toList ++ labels M label t is

/-- `M` projects onto `N`: seen through `view`, each step of `M` is the step of `N` that its label
names, and changes nothing if it has no label. -/
structure Projects (M : Machine σ ι) (N : Machine τ κ) (view : σ → τ) (label : σ → ι → Option κ) :
    Prop where
  init : view M.init = N.init
  step : ∀ s i t, M.step s i = some t → N.runFrom (view s) (label s i).toList = some (view t)

/-- A step without a label changes nothing of the view. -/
theorem Projects.view_eq_of_step (h : M.Projects N view label) {s t : σ} {i : ι}
    (hs : M.step s i = some t) (hlabel : label s i = none) : view s = view t := by
  have hview := h.step s i t hs
  rw [hlabel] at hview
  exact Option.some.inj hview

/-- A step with a label is, seen through the view, the step of the second machine. -/
theorem Projects.step_eq_some (h : M.Projects N view label) {s t : σ} {i : ι} {k : κ}
    (hs : M.step s i = some t) (hlabel : label s i = some k) :
    N.step (view s) k = some (view t) := by
  have hview := h.step s i t hs
  rw [hlabel] at hview
  obtain ⟨u, hu, hnil⟩ := N.runFrom_cons_eq_some.mp hview
  rw [hu]
  exact hnil

/-- **Projection rule.** The labels of a run are a run of the second machine, to the view of the
state reached. -/
theorem Projects.runFrom (h : M.Projects N view label) {s t : σ} {is : List ι}
    (hrun : M.runFrom s is = some t) :
    N.runFrom (view s) (M.labels label s is) = some (view t) := by
  induction is generalizing s with
  | nil =>
      obtain rfl : s = t := Option.some.inj hrun
      rfl
  | cons i is ih =>
      obtain ⟨v, hv, hrest⟩ := M.runFrom_cons_eq_some.mp hrun
      simp only [labels, hv]
      exact runFrom_trans (h.step s i v hv) (ih hrest)

/-- Where the label of a step is that of its input, the labels of a run are those of its inputs. -/
theorem labels_eq_filterMap {label : ι → Option κ} {s t : σ} {is : List ι}
    (hrun : M.runFrom s is = some t) : M.labels (fun _ => label) s is = is.filterMap label := by
  induction is generalizing s with
  | nil => rfl
  | cons i is ih =>
      obtain ⟨u, hu, hrest⟩ := M.runFrom_cons_eq_some.mp hrun
      simp only [labels, hu, ih hrest]
      cases hi : label i with
      | none => rw [List.filterMap_cons_none hi, Option.toList_none, List.nil_append]
      | some k => rw [List.filterMap_cons_some hi, Option.toList_some, List.singleton_append]

/-- The projection rule, where the label of a step is that of its input. -/
theorem Projects.runFrom_filterMap {label : ι → Option κ}
    (h : M.Projects N view fun _ => label) {s t : σ} {is : List ι}
    (hrun : M.runFrom s is = some t) : N.runFrom (view s) (is.filterMap label) = some (view t) := by
  rw [← labels_eq_filterMap hrun]
  exact h.runFrom hrun

/-- What holds along a run of `M` carries over to its labels step by step. -/
theorem Projects.along (h : M.Projects N view label) {p : σ → ι → σ → Prop} {q : τ → κ → τ → Prop}
    (hpq : ∀ s i t, M.step s i = some t → p s i t → N.Along q (view s) (label s i).toList)
    {s : σ} {is : List ι} (halong : M.Along p s is) : N.Along q (view s) (M.labels label s is) := by
  -- the label of the first step is at most one step of `N`, which leads to the view of its target
  induction is generalizing s with
  | nil => trivial
  | cons i is ih =>
      simp only [labels]
      split
      · trivial
      · next t ht =>
        obtain ⟨hp, hrest⟩ := (along_cons ht).mp halong
        exact (along_append (h.step s i t ht)).mpr ⟨hpq s i t ht hp, ih hrest⟩

end Projection

end Machine

end NcsExamples
