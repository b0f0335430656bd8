import NcsExamples.PeripheralUart.TransmitOrder
import NcsExamples.PeripheralUart.TransmitResume

/-! # BLE to UART: errors of `uart_tx`

`bt_receive_cb` takes every error of `uart_tx` for a busy UART and queues the chunk, so a chunk that
is refused while the UART is idle waits in the FIFO for a completion that may never come. `uart_cb`
only logs the error: the chunk it has taken from the FIFO is in no place any more. No chunk is lost
exactly if a call of `bt_receive_cb` on an idle UART has one of its chunks accepted, and the
completion's `uart_tx` succeeds. -/

namespace NcsExamples.PeripheralUart

/-- A chunk is freed, in flight or queued. -/
def Reachable (s : TxState) (c : UartData) : Prop :=
  some c ∈ s.freed ∨ (∃ t ∈ s.flight, t.buf.chunk = c) ∨ c ∈ s.fifo

instance (s : TxState) : DecidablePred (Reachable s) := fun c =>
  inferInstanceAs (Decidable (some c ∈ s.freed ∨ (∃ t ∈ s.flight, t.buf.chunk = c) ∨ c ∈ s.fifo))

/-- No chunk is lost and no queue stalls. -/
structure LosesNone (s : TxState) : Prop where
  /-- A chunk that is not freed is in flight or queued. -/
  reachable : ∀ c ∈ s.built, Reachable s c
  /-- While a chunk is queued, a transfer is in flight whose completion takes the head of the FIFO. -/
  popped : s.fifo ≠ [] → ∃ t, s.flight = some t ∧
    ∀ refuses, (uartCbTxDone refuses t { s with flight := none }).fifo = s.fifo.tail

/-- The condition on a callback. A call of `bt_receive_cb` with nothing in flight that gets a first
chunk has a chunk `k` that `uart_tx` does not refuse: the payload is longer than the chunks before
it, and `k_malloc` succeeds up to it. A completion that finds a chunk in the FIFO has it accepted. -/
def KeepsChunks (size : ℕ) (s : CbState) : CbInput → Prop
  | .receive p answers => s.tx.flight = none → p.len ≠ 0 → (answers 0).mallocOk = true →
      ∃ k < p.len, k * (size - 1) < p.len ∧ (∀ j ≤ k, (answers j).mallocOk = true) ∧
        (answers k).refuses = false
  | .txDone refuses => s.tx.fifo ≠ [] → refuses = false
  | .txAborted _ => True

instance (size : ℕ) (s : CbState) : DecidablePred (KeepsChunks size s)
  | .receive p answers => inferInstanceAs (Decidable (s.tx.flight = none → p.len ≠ 0 →
      (answers 0).mallocOk = true → ∃ k < p.len, k * (size - 1) < p.len ∧
        (∀ j ≤ k, (answers j).mallocOk = true) ∧ (answers k).refuses = false))
  | .txDone refuses => inferInstanceAs (Decidable (s.tx.fifo ≠ [] → refuses = false))
  | .txAborted _ => isTrue trivial

variable {size : ℕ} {refuses : Bool} {s t : CbState}

/-- Every transfer that callbacks have in flight takes the head of the FIFO when it is done. -/
theorem CbInv.losesNone_iff (h : CbInv s) :
    LosesNone s.tx ↔ (∀ c ∈ s.tx.built, Reachable s.tx c) ∧
      (s.tx.fifo ≠ [] → s.tx.flight ≠ none) := by
  constructor
  · rintro ⟨hreach, hpop⟩
    refine ⟨hreach, fun hne hnone => ?_⟩
    obtain ⟨t, ht, -⟩ := hpop hne
    rw [hnone] at ht
    cases ht
  · rintro ⟨hreach, hbusy⟩
    refine ⟨hreach, fun hne => ?_⟩
    obtain ⟨t, ht⟩ := Option.ne_none_iff_exists'.mp (hbusy hne)
    refine ⟨t, ht, fun refuses => ?_⟩
    have hdone := doneStep h ht refuses
    revert hdone
    generalize uartCbTxDone refuses t { s.tx with flight := none } = v
    intro hdone
    cases hdone with
    | nil hfifo => exact absurd hfifo hne
    | start c rest hfifo => rw [hfifo]; rfl
    | lost c rest hfifo => rw [hfifo]; rfl

/-! ## `bt_receive_cb` -/

/-- What is handed over can be reached, and what could be reached still can. -/
theorem Reachable.handOver {tx : UartData} {u : TxState} (h : ∀ c ∈ u.built, Reachable u c) :
    ∀ c ∈ (handOver refuses tx u).built, Reachable (handOver refuses tx u) c := by
  intro c hc
  rw [handOver_built, List.mem_append, List.mem_singleton] at hc
  cases herr : u.flight.isSome || refuses with
  | false =>
    have hflight : u.flight = none := flight_eq_none_of_start herr
    rw [handOver_of_start herr]
    rcases hc with hc | rfl
    · rcases h c hc with hfreed | ⟨t, ht, -⟩ | hfifo
      · exact .inl hfreed
      · rw [hflight] at ht
        cases ht
      · exact .inr (.inr hfifo)
    · exact .inr (.inl ⟨_, rfl, rfl⟩)
  | true =>
    rw [handOver_of_error herr]
    rcases hc with hc | rfl
    · rcases h c hc with hfreed | hflight | hfifo
      · exact .inl hfreed
      · exact .inr (.inl hflight)
      · exact .inr (.inr (List.mem_append_left _ hfifo))
    · exact .inr (.inr (List.mem_append_right _ (List.mem_singleton.mpr rfl)))

/-- The state before iteration `k`: something is in flight unless every chunk so far was refused by
an idle UART, and then all of them are queued. -/
structure Offered (size : ℕ) (answers : ℕ → LoopAnswer) (p : Payload) (s : CbState) (k pos : ℕ)
    (u : TxState) : Prop where
  inv : CbInv { s with tx := u }
  first : k = 0 → u = s.tx
  reachable : ∀ c ∈ u.built, Reachable u c
  pos_eq : pos = min (k * (size - 1)) p.len
  before : ∀ j < k, j * (size - 1) < p.len ∧ (answers j).mallocOk = true
  idle : u.flight = none → s.tx.flight = none ∧ (∀ j < k, (answers j).refuses = true) ∧
    (k ≠ 0 → u.fifo ≠ [])
  busy : u.flight ≠ none → s.tx.flight ≠ none ∨ ∃ j < k, (answers j).refuses = false

/-- One iteration offers one chunk. -/
theorem Offered.step (h2 : 2 ≤ size) (hsize : size ≤ 65535) {answers : ℕ → LoopAnswer} {p : Payload}
    {k pos : ℕ} {u : TxState} (hpos : pos < p.len) (hok : (answers k).mallocOk)
    (h : Offered size answers p s k pos u) :
    Offered size answers p s (k + 1) (pos + p.cut size pos)
      (handOver (answers k).refuses (p.chunk size u.allocs pos) u) := by
  obtain ⟨hlen, hle⟩ := Payload.chunk_len_mem h2 u.allocs hpos
  have hk : pos = k * (size - 1) := by
    have := h.pos_eq
    omega
  constructor
  · exact h.inv.handOver ⟨hlen, by omega, rfl⟩ rfl _
  · intro hzero
    exact absurd hzero (Nat.succ_ne_zero k)
  · exact Reachable.handOver h.reachable
  · rw [Nat.succ_mul, ← hk]
    unfold Payload.cut
    omega
  · intro j hj
    rcases Nat.lt_succ_iff_lt_or_eq.mp hj with hlt | rfl
    · exact h.before j hlt
    · exact ⟨hk ▸ hpos, hok⟩
  · intro hnone
    cases herr : u.flight.isSome || (answers k).refuses with
    | false =>
      rw [handOver_of_start herr] at hnone
      cases hnone
    | true =>
      rw [handOver_of_error herr] at hnone ⊢
      obtain ⟨hs, hall, -⟩ := h.idle hnone
      have hrefuses : (answers k).refuses = true := by
        rw [show u.flight = none from hnone] at herr
        exact herr
      refine ⟨hs, fun j hj => ?_, fun _ => List.append_ne_nil_of_right_ne_nil _ (List.cons_ne_nil _ _)⟩
      rcases Nat.lt_succ_iff_lt_or_eq.mp hj with hlt | rfl
      · exact hall j hlt
      · exact hrefuses
  · intro hsome
    cases herr : u.flight.isSome || (answers k).refuses with
    | false =>
      exact .inr ⟨k, Nat.lt_succ_self k, (Bool.or_eq_false_iff.mp herr).2⟩
    | true =>
      rw [handOver_of_error herr] at hsome
      rcases h.busy hsome with hs | ⟨j, hj, hno⟩
      · exact .inl hs
      · exact .inr ⟨j, Nat.lt_succ_of_lt hj, hno⟩

/-- A call of `bt_receive_cb` loses no chunk exactly if the condition is met. -/
theorem CbInv.receive_losesNone_iff (h2 : 2 ≤ size) (hsize : size ≤ 65535) (h : CbInv s)
    (hloses : LosesNone s.tx) {p : Payload} {answers : ℕ → LoopAnswer} {u : TxState}
    (hu : btReceiveCb size answers p s.tx = some u) :
    LosesNone u ↔ KeepsChunks size s (.receive p answers) := by
  obtain ⟨k, pos, hoff, hend⟩ := receiveLoop_invariant (Offered size answers p s) hsize
    (fun v k pos hpos hok hv => hv.step h2 hsize hpos hok) (Nat.zero_le _)
    ⟨h, fun _ => rfl, hloses.reachable, by simp, by simp, fun hnone => ⟨hnone, by simp, by simp⟩,
      fun hsome => .inl hsome⟩ hu
  -- the chunks offered are those the payload and `k_malloc` give
  have hoffered : ∀ j, j < k ↔ j * (size - 1) < p.len ∧ ∀ i ≤ j, (answers i).mallocOk = true := by
    intro j
    constructor
    · intro hj
      exact ⟨(hoff.before j hj).1, fun i hi => (hoff.before i (by omega)).2⟩
    · rintro ⟨hlt, hall⟩
      by_contra hge
      rcases hend with hlast | ⟨-, hfail⟩
      · have hmul : k * (size - 1) ≤ j * (size - 1) := Nat.mul_le_mul_right _ (not_lt.mp hge)
        have := hoff.pos_eq
        omega
      · exact hfail (hall k (not_lt.mp hge))
  rw [(show CbInv { s with tx := u } from hoff.inv).losesNone_iff]
  constructor
  · rintro ⟨-, hbusy⟩ hs hne hmalloc
    have hzero : 0 < k := (hoffered 0).mpr ⟨by omega, fun i hi => by
      rw [Nat.le_zero.mp hi]
      exact hmalloc⟩
    have hflight : u.flight ≠ none := fun hnone =>
      hbusy ((hoff.idle hnone).2.2 (by omega)) hnone
    rcases hoff.busy hflight with hs' | ⟨j, hj, hno⟩
    · exact absurd hs hs'
    · obtain ⟨hlt, hall⟩ := (hoffered j).mp hj
      have hj' : j ≤ j * (size - 1) := Nat.le_mul_of_pos_right j (by omega)
      exact ⟨j, by omega, hlt, hall, hno⟩
  · intro hok
    refine ⟨hoff.reachable, fun hne hnone => ?_⟩
    obtain ⟨hs, hall, hfifo⟩ := hoff.idle hnone
    by_cases hk : k = 0
    · -- no chunk was offered, so the FIFO is what it was
      obtain rfl := hoff.first hk
      exact (h.losesNone_iff.mp hloses).2 hne hnone
    · obtain ⟨hlt, hmalloc⟩ := (hoffered 0).mp (by omega)
      obtain ⟨j, -, hj, hm, hno⟩ := hok hs (by omega) (hmalloc 0 (le_refl 0))
      have hrefused := hall j ((hoffered j).mpr ⟨hj, hm⟩)
      rw [hno] at hrefused
      cases hrefused

/-! ## `uart_cb` -/

/-- An abort leaves every chunk where it was. -/
theorem CbInv.txAborted_losesNone (h : CbInv s) (hloses : LosesNone s.tx) {len : ℕ}
    (hs : cbStep size s (.txAborted len) = some t) : LosesNone t.tx := by
  rw [(h.txAborted hs).losesNone_iff]
  obtain ⟨evt, hflight, hlt, rfl⟩ := cbStep_txAborted_eq_some hs
  have hmem : evt.buf.chunk ∈ s.tx.built := h.owned_built _ (by simp [CbState.owned, hflight])
  rw [uartCbTxAborted_eq h hflight hlt (h.chunk _ hmem).2.1]
  refine ⟨fun c hc => ?_, fun _ hnone => by cases hnone⟩
  rcases hloses.reachable c hc with hfreed | ⟨t, ht, hchunk⟩ | hfifo
  · exact .inl hfreed
  · rw [hflight] at ht
    obtain rfl := Option.some.inj ht
    exact .inr (.inl ⟨_, rfl, hchunk⟩)
  · exact .inr (.inr hfifo)

/-- The chunk that `uart_tx` refuses after a completion is lost. -/
theorem not_reachable_of_lost (h : CbInv s) {evt : Transfer} (hflight : s.tx.flight = some evt)
    {c : UartData} {rest : List UartData} (hfifo : s.tx.fifo = c :: rest) :
    ¬ Reachable { s.tx.release evt.buf.chunk with fifo := rest } c := by
  have hnodup := h.owned_nodup
  rw [CbState.owned, hflight, hfifo, List.append_assoc, Option.toList_some, List.map_singleton,
    List.singleton_append] at hnodup
  obtain ⟨-, hrest, hdisj⟩ := List.nodup_append.mp hnodup
  obtain ⟨hne, hcons⟩ := List.nodup_cons.mp hrest
  rintro (hfreed | ⟨t, ht, -⟩ | hmem)
  · have hfreed' : some c ∈ (s.completed.map fun cb => some cb.1) ++ [some evt.buf.chunk] := by
      rw [← h.freed]
      exact hfreed
    rcases List.mem_append.mp hfreed' with hdone | hlast
    · obtain ⟨cb, hcb, heq⟩ := List.mem_map.mp hdone
      refine hdisj c ?_ c (List.mem_cons_of_mem _ List.mem_cons_self) rfl
      exact List.mem_map.mpr ⟨cb, hcb, Option.some.inj heq⟩
    · rw [← Option.some.inj (List.mem_singleton.mp hlast)] at hne
      exact hne List.mem_cons_self
  · cases ht
  · exact (List.nodup_cons.mp hcons).1 hmem

/-- A completion loses no chunk exactly if `uart_tx` takes the head of the FIFO, if there is one. -/
theorem CbInv.txDone_losesNone_iff (h : CbInv s) (hloses : LosesNone s.tx)
    (hs : cbStep size s (.txDone refuses) = some t) :
    LosesNone t.tx ↔ KeepsChunks size s (.txDone refuses) := by
  have ht := h.txDone hs
  rw [ht.losesNone_iff]
  obtain ⟨evt, hflight, rfl⟩ := cbStep_txDone_eq_some hs
  have hdone := doneStep h hflight refuses
  dsimp only
  revert hdone
  generalize uartCbTxDone refuses evt { s.tx with flight := none } = v
  intro hdone
  -- the chunk in flight is freed, the others are where they were
  have hold : ∀ c ∈ s.tx.built, some c ∈ s.tx.freed ++ [some evt.buf.chunk] ∨ c ∈ s.tx.fifo := by
    intro c hc
    rcases hloses.reachable c hc with hfreed | ⟨t, ht, rfl⟩ | hfifo
    · exact .inl (List.mem_append_left _ hfreed)
    · rw [hflight] at ht
      obtain rfl := Option.some.inj ht
      exact .inl (List.mem_append_right _ (List.mem_singleton.mpr rfl))
    · exact .inr hfifo
  cases hdone with
  | nil hfifo =>
    refine iff_of_true ⟨fun c hc => ?_, fun hne => absurd hfifo hne⟩ fun hne => absurd hfifo hne
    exact (hold c hc).imp id .inr
  | start c rest hfifo hacc =>
    refine iff_of_true ⟨fun d hd => ?_, fun _ hnone => by cases hnone⟩ fun _ => hacc
    rcases hold d hd with hfreed | hmem
    · exact .inl hfreed
    · rw [hfifo] at hmem
      rcases List.mem_cons.mp hmem with rfl | hmem
      · exact .inr (.inl ⟨_, rfl, rfl⟩)
      · exact .inr (.inr hmem)
  | lost c rest hfifo hrefuses =>
    refine iff_of_false (fun hall => ?_) fun hok => ?_
    · have hbuilt : c ∈ s.tx.built := h.owned_built c (by simp [CbState.owned, hfifo])
      exact not_reachable_of_lost h hflight hfifo (hall.1 c hbuilt)
    · have hacc := hok (by rw [hfifo]; exact List.cons_ne_nil c rest)
      rw [hrefuses] at hacc
      cases hacc

/-! ## Runs -/

/-- A callback loses no chunk exactly if it meets the condition. -/
theorem CbInv.step_losesNone_iff (h2 : 2 ≤ size) (hsize : size ≤ 65535) (h : CbInv s)
    (hloses : LosesNone s.tx) {i : CbInput} (hs : cbStep size s i = some t) :
    LosesNone t.tx ↔ KeepsChunks size s i := by
  cases i with
  | receive p answers =>
    obtain ⟨u, hu, rfl⟩ := Option.map_eq_some_iff.mp hs
    exact h.receive_losesNone_iff h2 hsize hloses hu
  | txDone refuses => exact h.txDone_losesNone_iff hloses hs
  | txAborted len => exact iff_of_true (h.txAborted_losesNone hloses hs) trivial

/-- **No chunk is lost.** After every callback of a run all chunks are freed, in flight or queued
behind a transfer that takes them, exactly if each callback meets the condition. -/
theorem transmit_losesNone_iff (size : ℕ) (h2 : 2 ≤ size) (hsize : size ≤ 65535)
    (is : List CbInput) :
    (callbacks size).Along (fun _ _ t => LosesNone t.tx) (callbacks size).init is ↔
      (callbacks size).Meets (KeepsChunks size) is :=
  Machine.along_congr (fun s => CbInv s ∧ LosesNone s.tx)
    (fun _ _ _ h hs => h.1.step_losesNone_iff h2 hsize h.2 hs)
    (fun _ _ _ h ht hs => ⟨h.1.step h2 hsize hs, ht⟩)
    ⟨cbInv_init, ⟨by simp [callbacks, txInit], by simp [callbacks, txInit]⟩⟩

/-- The answers to a call of `bt_receive_cb` that gets all its chunks and finds `uart_tx` willing. -/
def willing : ℕ → LoopAnswer := fun _ => ⟨true, false⟩

/-- The answers to one that finds `uart_tx` refusing everything. -/
def refusing : ℕ → LoopAnswer := fun _ => ⟨true, true⟩

/-- Two chunks, the second one started by the completion of the first one. -/
theorem transmit_losesNone_twoChunks :
    (callbacks 20).Along (fun _ _ t => LosesNone t.tx) (callbacks 20).init
      [.receive twoChunks willing, .txDone false, .txDone false] :=
  (transmit_losesNone_iff 20 (by decide) (by decide) _).mpr (by decide)

/-- A chunk that is refused by an idle UART stays in the FIFO with nothing in flight; and one that is
refused after a completion is in no place any more. -/
theorem transmit_not_losesNone :
    (∃ s, (callbacks 20).run [.receive ⟨[65], by decide⟩ refusing] = some s ∧ ¬ LosesNone s.tx) ∧
      (∃ s, (callbacks 20).run [.receive twoChunks willing, .txDone true] = some s ∧
        ¬ LosesNone s.tx) := by
  constructor
  · refine ⟨_, rfl, fun h => ?_⟩
    obtain ⟨t, ht, -⟩ := h.popped (by decide)
    cases ht
  · refine ⟨_, rfl, fun h => ?_⟩
    exact absurd h.reachable (by decide)

end NcsExamples.PeripheralUart
