import NcsExamples.PeripheralUart.Callbacks
import NcsExamples.PeripheralUart.TransmitOrder

/-! # BLE to UART: `bt_receive_cb` as a whole

One call of `bt_receive_cb` ends, whatever `k_malloc` and `uart_tx` return. The chunks it builds are
the payload's chunks up to the first `k_malloc` that fails, and each of them goes to `uart_tx` or to
the FIFO. The call is a run of the machine of single calls in which no completion comes. -/

namespace NcsExamples.PeripheralUart

variable {size : ℕ} {answers : ℕ → LoopAnswer} {p : Payload} {s t : TxState}

/-! ## The positions of the loop -/

/-- The values of `pos` at the loop tests of a call that gets all its chunks. -/
inductive LoopPos (size : ℕ) (p : Payload) : ℕ → Prop
  | start : LoopPos size p 0
  | next {pos : ℕ} : LoopPos size p pos → pos ≠ p.len → LoopPos size p (fillChunk size 0 p pos).2

/-- Every position is inside the payload. -/
theorem LoopPos.le (hsize : size ≤ 65535) {pos : ℕ} (h : LoopPos size p pos) : pos ≤ p.len := by
  induction h with
  | start => exact Nat.zero_le _
  | next _ hne ih =>
    rw [fillChunk_eq hsize 0 (lt_of_le_of_ne ih hne)]
    exact Payload.add_cut_le ih

/-- The conversions and sums of an iteration at `pos` are exact: `len - pos` as a `size_t`, the
length of the chunk before and after the LF, and the next position. -/
def NoWrap (size : ℕ) (p : Payload) (pos : ℕ) : Prop :=
  toSizeT ((p.len : ℤ) - pos) = p.len - pos ∧
    chunkLen size p.len pos = min (size - 1) (p.len - pos) ∧
    chunkLen size p.len pos + 1 < 65536 ∧ pos + chunkLen size p.len pos < 65536

/-- No iteration inside the payload wraps. -/
theorem noWrap_of_lt (hsize : size ≤ 65535) (h2 : 2 ≤ size) {pos : ℕ} (hpos : pos < p.len) :
    NoWrap size p pos := by
  have hlen : p.len < 65536 := p.length_lt
  have hchunk := chunkLen_eq hsize hpos.le hlen
  refine ⟨toSizeT_sub hpos.le hlen, hchunk, ?_, ?_⟩ <;> rw [hchunk] <;> omega

/-! ## One iteration -/

/-- The chunk is started or queued. -/
theorem handOver_perm (refuses : Bool) (tx : UartData) (s : TxState) :
    ((handOver refuses tx s).started ++ (handOver refuses tx s).fifo).Perm
      (s.started ++ s.fifo ++ [tx]) := by
  cases h : s.flight.isSome || refuses with
  | false =>
    rw [handOver_of_start h]
    simp only [TxState.started, List.map_append, List.map_cons, List.map_nil, List.append_assoc]
    exact List.Perm.append_left _ List.perm_append_comm
  | true =>
    rw [handOver_of_error h, List.append_assoc]
    exact List.Perm.refl _

/-! ## The whole call -/

/-- What a call of `bt_receive_cb` in state `s` has done in state `t`. -/
structure Received (size : ℕ) (answers : ℕ → LoopAnswer) (p : Payload) (s t : TxState) : Prop where
  /-- The chunks of the payload are not empty and fit into `tx->data`. -/
  len_mem : ∀ c ∈ p.chunks size s.allocs 0, 1 ≤ c.len ∧ c.len ≤ size
  /-- The bytes written to `tx->data` are those up to `tx->len`. -/
  data_length : ∀ c ∈ p.chunks size s.allocs 0, c.data.length = c.len
  /-- The bytes of the chunks are the payload, and an LF exactly after a CR at its end. -/
  bytes : (p.chunks size s.allocs 0).flatMap UartData.data =
    p.data ++ if p.data.getLast? = some cr then [lf] else []
  /-- Without a failing `k_malloc` these are the chunks built. -/
  built_of_ok : (∀ k, (answers k).mallocOk) → t.built = s.built ++ p.chunks size s.allocs 0
  /-- With the first failure at chunk `k` the first `k` of them are. -/
  built_of_fail : ∀ k, (∀ j < k, (answers j).mallocOk) → ¬ (answers k).mallocOk →
    t.built = s.built ++ (p.chunks size s.allocs 0).take k
  /-- The chunks built are handed over, to `uart_tx` or to the FIFO. -/
  handed : ∃ new, t.built = s.built ++ new ∧
    (t.started ++ t.fifo).Perm (s.started ++ s.fifo ++ new)
  /-- No iteration of the loop wraps. -/
  noWrap : ∀ pos, LoopPos size p pos → pos ≠ p.len → NoWrap size p pos

/-- The state before iteration `k`, at position `pos`: `k` chunks are built and handed over, and the
others are those from `pos` on. -/
structure AtIteration (size : ℕ) (answers : ℕ → LoopAnswer) (p : Payload) (s : TxState) (k pos : ℕ)
    (u : TxState) : Prop where
  built : u.built = s.built ++ (p.chunks size s.allocs 0).take k
  rest : p.chunks size u.allocs pos = (p.chunks size s.allocs 0).drop k
  ok : ∀ j < k, (answers j).mallocOk
  handed : (u.started ++ u.fifo).Perm (s.started ++ s.fifo ++ (p.chunks size s.allocs 0).take k)

/-- The next chunk of the list is the one the iteration builds. -/
theorem AtIteration.step (h2 : 2 ≤ size) {k pos : ℕ} {u : TxState} (hpos : pos < p.len)
    (hok : (answers k).mallocOk) (h : AtIteration size answers p s k pos u) :
    AtIteration size answers p s (k + 1) (pos + p.cut size pos)
      (handOver (answers k).refuses (p.chunk size u.allocs pos) u) := by
  have hcons : (p.chunks size s.allocs 0).drop k =
      p.chunk size u.allocs pos :: p.chunks size (u.allocs + 1) (pos + p.cut size pos) := by
    rw [← h.rest, Payload.chunks_cons h2 _ hpos]
  have hk : k < (p.chunks size s.allocs 0).length := by
    by_contra hge
    rw [List.drop_of_length_le (not_lt.mp hge)] at hcons
    cases hcons
  have htake : (p.chunks size s.allocs 0).take (k + 1) =
      (p.chunks size s.allocs 0).take k ++ [p.chunk size u.allocs pos] := by
    rw [List.take_succ_eq_append_getElem hk]
    rw [List.drop_eq_getElem_cons hk] at hcons
    rw [(List.cons.inj hcons).1]
  constructor
  · rw [handOver_built, h.built, htake, List.append_assoc]
  · rw [handOver_allocs, ← List.drop_drop, hcons, List.drop_succ_cons, List.drop_zero]
  · intro j hj
    rcases Nat.lt_succ_iff_lt_or_eq.mp hj with hlt | rfl
    · exact h.ok j hlt
    · exact hok
  · rw [htake, ← List.append_assoc]
    exact (handOver_perm _ _ u).trans (h.handed.append_right _)

/-- The loop ends with all chunks built, or with the chunks before the first failure. -/
theorem AtIteration.exists_end (h2 : 2 ≤ size) (hsize : size ≤ 65535)
    (ht : btReceiveCb size answers p s = some t) :
    ∃ k pos, AtIteration size answers p s k pos t ∧
      (pos = p.len ∨ pos < p.len ∧ ¬ (answers k).mallocOk) := by
  refine receiveLoop_invariant (AtIteration size answers p s) hsize ?_ (Nat.zero_le _) ?_ ht
  · intro u k pos hpos hok hu
    exact hu.step h2 hpos hok
  · constructor
    · rw [List.take_zero, List.append_nil]
    · rfl
    · intro j hj
      cases hj
    · rw [List.take_zero, List.append_nil]

/-- The number of chunks built: all of them, or those before the first failure. -/
theorem AtIteration.take_eq (h2 : 2 ≤ size) {k pos m : ℕ}
    (h : AtIteration size answers p s k pos t)
    (hend : pos = p.len ∨ pos < p.len ∧ ¬ (answers k).mallocOk)
    (hm : ∀ j < m, (answers j).mallocOk)
    (hlast : (p.chunks size s.allocs 0).length ≤ m ∨ ¬ (answers m).mallocOk) :
    (p.chunks size s.allocs 0).take k = (p.chunks size s.allocs 0).take m := by
  rcases hend with rfl | ⟨hlt, hfail⟩
  · -- nothing is left, and no `k_malloc` before chunk `k` failed
    have hk : (p.chunks size s.allocs 0).length ≤ k := by
      rw [← List.drop_eq_nil_iff, ← h.rest, Payload.chunks_nil]
    have hkm : (p.chunks size s.allocs 0).length ≤ m := by
      rcases hlast with hle | hfail
      · exact hle
      · exact hk.trans (not_lt.mp fun hmk => hfail (h.ok m hmk))
    rw [List.take_of_length_le hk, List.take_of_length_le hkm]
  · -- `k_malloc` failed for chunk `k`, which is a chunk of the payload
    have hk : k < (p.chunks size s.allocs 0).length := by
      by_contra hge
      have hnil := h.rest
      rw [List.drop_of_length_le (not_lt.mp hge), Payload.chunks_cons h2 _ hlt] at hnil
      cases hnil
    have hmk : m ≤ k := not_lt.mp fun hkm => hfail (hm k hkm)
    rcases hlast with hle | hfail'
    · omega
    · have hkm : k ≤ m := not_lt.mp fun hlt => hfail' (h.ok m hlt)
      rw [Nat.le_antisymm hkm hmk]

/-- **Chunking.** A call of `bt_receive_cb` ends, and has built and handed over the chunks of its
payload up to the first `k_malloc` that failed. -/
theorem receive_chunks (size : ℕ) (h2 : 2 ≤ size) (hsize : size ≤ 65535) (p : Payload)
    (answers : ℕ → LoopAnswer) (s : TxState) :
    ∃ t, btReceiveCb size answers p s = some t ∧ Received size answers p s t := by
  have hends : ∃ t, btReceiveCb size answers p s = some t :=
    receiveLoop_isSome h2 hsize (Nat.zero_le p.len) (Nat.lt_succ_self _)
  obtain ⟨t, ht⟩ := hends
  obtain ⟨k, pos, hat, hend⟩ := AtIteration.exists_end h2 hsize ht
  refine ⟨t, ht, ?_⟩
  constructor
  · intro c hc
    obtain ⟨-, alloc, pos, hpos, rfl⟩ := Payload.exists_of_mem_chunks hc
    exact Payload.chunk_len_mem h2 alloc hpos
  · intro c hc
    obtain ⟨-, alloc, pos, -, rfl⟩ := Payload.exists_of_mem_chunks hc
    rfl
  · rcases Nat.eq_zero_or_pos p.len with hzero | hpos
    · have hnil : p.data = [] := List.length_eq_zero_iff.mp hzero
      rw [← hzero, Payload.chunks_nil, hnil]
      rfl
    · rw [Payload.flatMap_chunks h2 hpos, List.drop_zero]
      rfl
  · intro hok
    rw [hat.built, hat.take_eq h2 hend (fun j _ => hok j) (.inl (le_refl _)), List.take_length]
  · intro m hm hfail
    rw [hat.built, hat.take_eq h2 hend hm (.inr hfail)]
  · exact ⟨_, hat.built, hat.handed⟩
  · intro pos hpos hne
    exact noWrap_of_lt hsize h2 (lt_of_le_of_ne (hpos.le hsize) hne)

/-- A payload that ends in CR: two chunks, the LF in the second one. -/
theorem receive_chunks_line :
    ∃ t, btReceiveCb 3 (fun _ => ⟨true, false⟩) ⟨[72, 105, 13], by decide⟩ txInit = some t ∧
      Received 3 (fun _ => ⟨true, false⟩) ⟨[72, 105, 13], by decide⟩ txInit t :=
  receive_chunks 3 (by decide) (by decide) ⟨[72, 105, 13], by decide⟩ (fun _ => ⟨true, false⟩) txInit

/-! ## The call as a run of single calls -/

/-- `handOver` leaves `bt_receive_cb` where it stands. -/
theorem handOver_receiveCb (refuses : Bool) (tx : UartData) (cb : ReceiveCb) (s : TxState) :
    { handOver refuses tx s with receiveCb := cb } =
      handOver refuses tx { s with receiveCb := cb } := by
  cases h : s.flight.isSome || refuses with
  | false => rw [handOver_of_start h, handOver_of_start (s := { s with receiveCb := cb }) h]
  | true => rw [handOver_of_error h, handOver_of_error (s := { s with receiveCb := cb }) h]

/-- One iteration is `k_malloc`, `uart_tx` and, after an error, `k_fifo_put`. -/
theorem exists_run_iteration (hsize : size ≤ 65535) {pos : ℕ} (hpos : pos < p.len)
    (hcb : s.receiveCb = .malloc p pos) :
    ∃ is, (transmit size).runFrom s is =
        some { handOver false (p.chunk size s.allocs pos) s with
          receiveCb := .loop p (pos + p.cut size pos) } ∧
      ∀ i ∈ is, i ≠ .txDone := by
  have hmalloc : (transmit size).step s .kMalloc = some { s with
      receiveCb := .uartTx p (pos + p.cut size pos) (p.chunk size s.allocs pos)
      allocs := s.allocs + 1
      built := s.built ++ [p.chunk size s.allocs pos] } := by
    simp only [transmit, txStep, hcb, fillChunk_eq hsize _ hpos]
  cases hflight : s.flight with
  | none =>
    refine ⟨[.kMalloc, .uartTx], ?_, by simp⟩
    rw [Machine.runFrom_cons_eq_some]
    refine ⟨_, hmalloc, ?_⟩
    rw [handOver_of_start (by simp [hflight])]
    simp [Machine.runFrom, transmit, txStep, uartTx, hflight]
  | some evt =>
    refine ⟨[.kMalloc, .uartTx, .kFifoPut], ?_, by simp⟩
    rw [Machine.runFrom_cons_eq_some]
    refine ⟨_, hmalloc, ?_⟩
    rw [handOver_of_error (by simp [hflight])]
    simp [Machine.runFrom, transmit, txStep, uartTx, hflight]

/-- **Refinement.** With a `k_malloc` that succeeds and a `uart_tx` that fails only while a transfer
is in flight, a call of `bt_receive_cb` is a run of its single calls without a completion. -/
theorem exists_run_of_btReceiveCb (hsize : size ≤ 65535) (hidle : s.receiveCb = .idle)
    (hok : ∀ k, (answers k).mallocOk) (hbusy : ∀ k, (answers k).refuses = false)
    (ht : btReceiveCb size answers p s = some t) :
    ∃ is, (transmit size).runFrom s (.receive p :: is) = some { t with receiveCb := .idle } ∧
      ∀ i ∈ is, i ≠ .txDone := by
  have hreceive : (transmit size).step s (.receive p) =
      some { s with receiveCb := .loop p 0 } := by
    simp only [transmit, txStep, hidle]
  -- before each iteration the single calls have led to the same state, at the loop test
  let P : ℕ → ℕ → TxState → Prop := fun _ pos u =>
    ∃ is, (transmit size).runFrom { s with receiveCb := .loop p 0 } is =
        some { u with receiveCb := .loop p pos } ∧ ∀ i ∈ is, i ≠ .txDone
  have hstep : ∀ u k pos, pos < p.len → (answers k).mallocOk → P k pos u →
      P (k + 1) (pos + p.cut size pos)
        (handOver (answers k).refuses (p.chunk size u.allocs pos) u) := by
    rintro u k pos hpos - ⟨is, hrun, hno⟩
    have hloop : ReceiveCb.loop p pos = .malloc p pos := if_pos hpos.ne
    obtain ⟨js, hjs, hno'⟩ := exists_run_iteration
      (s := { u with receiveCb := .loop p pos }) hsize hpos hloop
    refine ⟨is ++ js, ?_, ?_⟩
    · rw [hbusy k]
      rw [← handOver_receiveCb] at hjs
      exact Machine.runFrom_trans hrun hjs
    · intro i hi
      rcases List.mem_append.mp hi with hi | hi
      · exact hno i hi
      · exact hno' i hi
  obtain ⟨k, pos, ⟨is, hrun, hno⟩, hend⟩ :=
    receiveLoop_invariant P hsize hstep (Nat.zero_le _) ⟨[], rfl, by simp⟩ ht
  refine ⟨is, ?_, hno⟩
  rw [Machine.runFrom_cons_eq_some]
  refine ⟨_, hreceive, ?_⟩
  rcases hend with rfl | ⟨-, hfail⟩
  · rw [hrun]
    simp [ReceiveCb.loop]
  · exact absurd (hok k) hfail

end NcsExamples.PeripheralUart
