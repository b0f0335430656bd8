import NcsExamples.PeripheralUart.Chunking
import Mathlib.Data.List.Nodup

/-! # BLE to UART: the order of the chunks

`bt_receive_cb` learns from `uart_tx` that the UART is busy and puts the chunk in
`fifo_uart_tx_data` in a later step. A `UART_TX_DONE` that runs between the two and finds the FIFO
empty starts nothing, so the chunk is queued behind a transfer that is already over: it is overtaken
by the next chunk or left stranded. Without such a completion the chunks started are a prefix of the
chunks built, and an idle UART leaves no chunk in the FIFO. -/

namespace NcsExamples.PeripheralUart

/-! ## Every chunk is non-empty and the loop position stays inside the payload -/

/-- One iteration builds a non-empty chunk with the allocation's number and leaves `pos` within the
payload. -/
theorem fillChunk_spec {size pos : ℕ} {p : Payload} (alloc : ℕ) (h2 : 2 ≤ size)
    (hsize : size ≤ 65535) (hpos : pos < p.len) :
    (fillChunk size alloc p pos).1.alloc = alloc ∧ 0 < (fillChunk size alloc p pos).1.len ∧
      (fillChunk size alloc p pos).2 ≤ p.len := by
  rw [fillChunk_eq hsize alloc hpos]
  exact ⟨rfl, (Payload.chunk_len_mem h2 alloc hpos).1, Payload.add_cut_le hpos.le⟩

/-- The position of a running invocation is inside the payload, strictly so before `k_malloc`. -/
def ReceiveCb.InRange : ReceiveCb → Prop
  | .idle => True
  | .malloc p pos => pos < p.len
  | .uartTx p pos _ | .fifoPut p pos _ => pos ≤ p.len

/-- The loop test keeps the position in range. -/
theorem ReceiveCb.inRange_loop {p : Payload} {pos : ℕ} (h : pos ≤ p.len) :
    (ReceiveCb.loop p pos).InRange := by
  unfold ReceiveCb.loop
  split
  · exact lt_of_le_of_ne h ‹_›
  · trivial

/-- `uart_tx` has reported an error and the chunk is not in the FIFO yet. -/
def ReceiveCb.PutPending : ReceiveCb → Prop
  | .fifoPut _ _ _ => True
  | _ => False

instance : DecidablePred ReceiveCb.PutPending := fun cb => by
  cases cb <;> unfold ReceiveCb.PutPending <;> infer_instance

/-- The loop test leads to `k_malloc` or ends the invocation, so no put is pending. -/
@[simp] theorem ReceiveCb.not_putPending_loop (p : Payload) (pos : ℕ) :
    ¬ (ReceiveCb.loop p pos).PutPending := by
  unfold ReceiveCb.loop
  split <;> exact id

/-! ## The driver call and the completion callback -/

/-- `uart_tx` starts the transfer when nothing is in flight. -/
theorem uartTx_of_idle {buf : DataPtr} {len : ℕ} {s : TxState} (h : s.flight = none) :
    uartTx false buf len s =
      (false, { s with flight := some ⟨buf, len⟩, transfers := s.transfers ++ [⟨buf, len⟩] }) := by
  simp [uartTx, h]

/-- `uart_tx` fails and changes nothing while a transfer is in flight. -/
theorem uartTx_of_busy {buf : DataPtr} {len : ℕ} {s : TxState} {t : Transfer}
    (h : s.flight = some t) : uartTx false buf len s = (true, s) := by
  simp [uartTx, h]

/-- A completion that finds the FIFO empty frees the chunk and starts nothing. -/
theorem uartCbTxDone_nil {evt : Transfer} {s : TxState} (hlen : 0 < evt.len)
    (ha : s.abortedBuf = none) (hfifo : s.fifo = []) :
    uartCbTxDone false evt s = { s with freed := s.freed ++ [evt.buf.containerOf] } := by
  simp [uartCbTxDone, kFree, hlen.ne', ha, hfifo]

/-- A completion that finds a chunk queued frees the chunk sent and starts the queued one. -/
theorem uartCbTxDone_cons {evt : Transfer} {s : TxState} {c : UartData} {rest : List UartData}
    (hlen : 0 < evt.len) (ha : s.abortedBuf = none) (hfifo : s.fifo = c :: rest)
    (hflight : s.flight = none) :
    uartCbTxDone false evt s =
      { s with
        freed := s.freed ++ [evt.buf.containerOf]
        fifo := rest
        flight := some ⟨⟨c, 0⟩, c.len⟩
        transfers := s.transfers ++ [⟨⟨c, 0⟩, c.len⟩] } := by
  simp [uartCbTxDone, kFree, uartTx, hlen.ne', ha, hfifo, hflight]

/-! ## The invariant -/

/-- The order property of one state: the chunks whose transmission has started are a prefix of the
chunks built and pairwise different, and with `bt_receive_cb` not running and nothing in flight
the FIFO is empty. -/
structure TxOrdered (s : TxState) : Prop where
  /-- No chunk overtakes an earlier one. -/
  started_prefix : s.started <+: s.built
  /-- No chunk is sent twice. -/
  started_nodup : s.started.Nodup
  /-- No chunk is left stranded. -/
  drained : s.receiveCb = .idle → s.flight = none → s.fifo = []

/-- What every step keeps as long as no completion comes between a busy `uart_tx` and the put. -/
structure TxInv (s : TxState) : Prop where
  /-- The chunks built are those started, then those queued, then the one in hand. -/
  history : s.built = s.started ++ s.fifo ++ s.receiveCb.holding
  /-- The chunks carry the numbers of their allocations. -/
  allocs : s.built.map UartData.alloc = List.range s.allocs
  /-- While something is queued or about to be queued a transfer is in flight. -/
  busy : s.flight = none → s.fifo = [] ∧ ¬ s.receiveCb.PutPending
  /-- Every chunk has at least one byte. -/
  chunk_pos : ∀ c ∈ s.built, 0 < c.len
  /-- Every transfer has at least one byte. -/
  flight_pos : ∀ t, s.flight = some t → 0 < t.len
  /-- Nothing was aborted. -/
  aborted : s.abortedBuf = none
  /-- The position of `bt_receive_cb` is inside its payload. -/
  inRange : s.receiveCb.InRange

/-- The invariant gives the order property. -/
theorem TxInv.ordered {s : TxState} (h : TxInv s) : TxOrdered s where
  started_prefix := ⟨s.fifo ++ s.receiveCb.holding, by rw [h.history, List.append_assoc]⟩
  started_nodup := by
    have hnodup : s.built.Nodup := List.Nodup.of_map _ (h.allocs ▸ List.nodup_range)
    rw [h.history, List.append_assoc] at hnodup
    exact hnodup.of_append_left
  drained _ hflight := (h.busy hflight).1

/-- The condition on a step: `UART_TX_DONE` does not come between a `uart_tx` that reported an error
and the `k_fifo_put` of its chunk while the FIFO is empty. -/
def NoLateCompletion (s : TxState) : TxInput → Prop
  | .txDone => s.receiveCb.PutPending → s.fifo ≠ []
  | _ => True

instance : ∀ s i, Decidable (NoLateCompletion s i)
  | s, .txDone => inferInstanceAs (Decidable (s.receiveCb.PutPending → s.fifo ≠ []))
  | _, .receive _ | _, .kMalloc | _, .uartTx | _, .kFifoPut => inferInstanceAs (Decidable True)

/-- The transmit path starts with the invariant. -/
theorem txInv_init : TxInv txInit where
  history := rfl
  allocs := rfl
  busy _ := ⟨rfl, id⟩
  chunk_pos _ h := nomatch h
  flight_pos _ h := nomatch h
  aborted := rfl
  inRange := trivial

section Steps

variable {size : ℕ} {s t : TxState}

/-- A call of `bt_receive_cb` only sets its position. -/
theorem TxInv.receive {p : Payload} (h : TxInv s) (hs : txStep size s (.receive p) = some t) :
    TxInv t := by
  simp only [txStep] at hs
  split at hs
  · next hcb =>
    obtain rfl := Option.some.inj hs
    refine { h with history := ?_, busy := ?_, inRange := ReceiveCb.inRange_loop (Nat.zero_le _) }
    · have hbuilt := h.history
      rw [hcb] at hbuilt
      rw [ReceiveCb.holding_loop]
      exact hbuilt
    · intro hflight
      exact ⟨(h.busy hflight).1, ReceiveCb.not_putPending_loop p 0⟩
  · cases hs

/-- `k_malloc` and the filling of the chunk put the new chunk in hand. -/
theorem TxInv.kMalloc (h2 : 2 ≤ size) (hsize : size ≤ 65535) (h : TxInv s)
    (hs : txStep size s .kMalloc = some t) : TxInv t := by
  simp only [txStep] at hs
  split at hs
  · next p pos hcb =>
    obtain rfl := Option.some.inj hs
    have hpos : pos < p.len := by simpa [hcb, ReceiveCb.InRange] using h.inRange
    obtain ⟨halloc, htx, hpos'⟩ := fillChunk_spec s.allocs h2 hsize hpos
    have hbuilt : s.built = s.started ++ s.fifo := by
      simpa [hcb, ReceiveCb.holding] using h.history
    refine { h with history := ?_, allocs := ?_, busy := ?_, chunk_pos := ?_, inRange := hpos' }
    · simp [hbuilt, TxState.started, ReceiveCb.holding]
    · simp [h.allocs, halloc, List.range_succ]
    · intro hflight
      exact ⟨(h.busy hflight).1, id⟩
    · intro c hc
      rcases List.mem_append.mp hc with hc | hc
      · exact h.chunk_pos c hc
      · rw [List.mem_singleton.mp hc]
        exact htx
  · cases hs

/-- `uart_tx` starts the chunk in hand if nothing is in flight, and else leaves it in hand. -/
theorem TxInv.uartTx (h : TxInv s) (hs : txStep size s .uartTx = some t) : TxInv t := by
  simp only [txStep] at hs
  split at hs
  · next p pos tx hcb =>
    have hpos : pos ≤ p.len := by simpa [hcb, ReceiveCb.InRange] using h.inRange
    have hbuilt : s.built = s.started ++ s.fifo ++ [tx] := by
      simpa [hcb, ReceiveCb.holding] using h.history
    cases hflight : s.flight with
    | none =>
      -- the FIFO is empty, so the chunk in hand is the next one to start
      rw [uartTx_of_idle hflight] at hs
      obtain rfl := Option.some.inj hs
      have hfifo := (h.busy hflight).1
      refine
        { h with
          history := ?_, busy := ?_, flight_pos := ?_, inRange := ReceiveCb.inRange_loop hpos }
      · simp [hbuilt, hfifo, TxState.started]
      · intro hnone
        cases hnone
      · intro _ ht
        obtain rfl := Option.some.inj ht
        exact h.chunk_pos tx (by simp [hbuilt])
    | some evt =>
      rw [uartTx_of_busy hflight] at hs
      obtain rfl := Option.some.inj hs
      refine { h with history := ?_, busy := ?_, inRange := hpos }
      · simpa [TxState.started, ReceiveCb.holding] using hbuilt
      · intro hnone
        rw [hflight] at hnone
        cases hnone
  · cases hs

/-- `k_fifo_put` moves the chunk in hand to the end of the FIFO. -/
theorem TxInv.kFifoPut (h : TxInv s) (hs : txStep size s .kFifoPut = some t) : TxInv t := by
  simp only [txStep] at hs
  split at hs
  · next p pos tx hcb =>
    obtain rfl := Option.some.inj hs
    have hpos : pos ≤ p.len := by simpa [hcb, ReceiveCb.InRange] using h.inRange
    have hbuilt : s.built = s.started ++ s.fifo ++ [tx] := by
      simpa [hcb, ReceiveCb.holding] using h.history
    refine { h with history := ?_, busy := ?_, inRange := ReceiveCb.inRange_loop hpos }
    · simp [hbuilt, TxState.started]
    · -- a pending put means a transfer in flight
      intro hnone
      exact absurd trivial (by simpa [hcb, ReceiveCb.PutPending] using (h.busy hnone).2)
  · cases hs

/-- A completion starts the head of the FIFO, or ends with an empty FIFO and no put pending. -/
theorem TxInv.txDone (h : TxInv s) (hok : NoLateCompletion s .txDone)
    (hs : txStep size s .txDone = some t) : TxInv t := by
  simp only [txStep] at hs
  split at hs
  · next evt hflight =>
    obtain rfl := Option.some.inj hs
    have hlen := h.flight_pos evt hflight
    by_cases hfifo : s.fifo = []
    · -- nothing to start, and by the condition no chunk is about to be queued
      rw [uartCbTxDone_nil (s := { s with flight := none }) hlen h.aborted hfifo]
      refine { h with busy := ?_, flight_pos := fun _ ht => nomatch ht }
      intro _
      exact ⟨hfifo, fun hput => hok hput hfifo⟩
    · -- the head of the FIFO is the next chunk in order
      obtain ⟨c, rest, hfifo⟩ := List.exists_cons_of_ne_nil hfifo
      rw [uartCbTxDone_cons (s := { s with flight := none }) hlen h.aborted hfifo rfl]
      have hbuilt := h.history
      rw [hfifo] at hbuilt
      refine { h with history := ?_, busy := ?_, flight_pos := ?_ }
      · simp [hbuilt, TxState.started]
      · intro hnone
        cases hnone
      · intro _ ht
        obtain rfl := Option.some.inj ht
        exact h.chunk_pos c (by simp [hbuilt])
  · cases hs

/-- Every admitted step keeps the invariant. -/
theorem TxInv.step (h2 : 2 ≤ size) (hsize : size ≤ 65535) (h : TxInv s) {i : TxInput}
    (hok : NoLateCompletion s i) (hs : txStep size s i = some t) : TxInv t := by
  cases i with
  | receive p => exact h.receive hs
  | kMalloc => exact h.kMalloc h2 hsize hs
  | uartTx => exact h.uartTx hs
  | kFifoPut => exact h.kFifoPut hs
  | txDone => exact h.txDone hok hs

end Steps

/-! ## Runs -/

/-- In every run in which no `UART_TX_DONE` comes between a busy `uart_tx` and the put of its chunk
into an empty FIFO, every state is ordered. -/
theorem transmit_ordered (size : ℕ) (h2 : 2 ≤ size) (hsize : size ≤ 65535) (is : List TxInput)
    {s : TxState} (hok : (transmit size).Meets NoLateCompletion is)
    (hrun : (transmit size).run is = some s) : TxOrdered s :=
  (Machine.invariant (M := transmit size) TxInv txInv_init
    (fun _ _ _ hinv hstep hs => hinv.step h2 hsize hstep hs) hok hrun).ordered

/-- A payload that fills two chunks of 19 and 1 bytes. -/
def twoChunks : Payload := ⟨List.replicate 20 65, by decide⟩

/-- A payload that fills three chunks of 19, 19 and 1 bytes. -/
def threeChunks : Payload := ⟨List.replicate 39 65, by decide⟩

/-- Two chunks sent in order: the completion of the first one comes after the second one has been
queued and starts it. -/
theorem transmit_ordered_twoChunks :
    ∃ s, (transmit 20).run [.receive twoChunks, .kMalloc, .uartTx, .kMalloc, .uartTx, .kFifoPut,
      .txDone] = some s ∧ TxOrdered s :=
  ⟨_, rfl, transmit_ordered 20 (by decide) (by decide) [.receive twoChunks, .kMalloc, .uartTx,
    .kMalloc, .uartTx, .kFifoPut, .txDone] (by decide) rfl⟩

/-- With the completion of the first chunk between the busy `uart_tx` and the `k_fifo_put` of the
second one, the second chunk is stranded in the FIFO; with a third chunk to come, the third chunk is
started before the second one. -/
theorem transmit_not_ordered :
    (∃ s, (transmit 20).run [.receive twoChunks, .kMalloc, .uartTx, .kMalloc, .uartTx, .txDone,
        .kFifoPut] = some s ∧ s.receiveCb = .idle ∧ s.flight = none ∧ s.fifo ≠ []) ∧
      (∃ s, (transmit 20).run [.receive threeChunks, .kMalloc, .uartTx, .kMalloc, .uartTx, .txDone,
        .kFifoPut, .kMalloc, .uartTx] = some s ∧ ¬ s.started <+: s.built) :=
  ⟨⟨_, rfl, rfl, rfl, by decide⟩, ⟨_, rfl, by decide⟩⟩

/-- A late completion and the put after it: the chunk is alone in the FIFO and nothing is in flight.
-/
theorem late_completion_put (size : ℕ) {s : TxState} (h : TxInv s) {p : Payload} {pos : ℕ}
    {tx : UartData} (hcb : s.receiveCb = .fifoPut p pos tx) (hfifo : s.fifo = []) {evt : Transfer}
    (hflight : s.flight = some evt) :
    (transmit size).runFrom s [.txDone, .kFifoPut] =
      some { s with
        fifo := [tx]
        flight := none
        receiveCb := .loop p pos
        freed := s.freed ++ [evt.buf.containerOf] } := by
  obtain ⟨fifo, abortedBuf, abortedLen, flight, cb, allocs, built, transfers, freed⟩ := s
  obtain rfl : fifo = [] := hfifo
  obtain rfl : flight = some evt := hflight
  obtain rfl : cb = .fifoPut p pos tx := hcb
  obtain rfl : abortedBuf = none := h.aborted
  have hlen := h.flight_pos evt rfl
  simp [Machine.runFrom, transmit, txStep, uartCbTxDone, kFree, hlen.ne']

/-- With nothing in flight, an iteration builds the next chunk and starts it at once. -/
theorem kMalloc_uartTx_of_idle {size : ℕ} {s : TxState} {p : Payload} {pos : ℕ}
    (hcb : s.receiveCb = .malloc p pos) (hflight : s.flight = none) :
    (transmit size).runFrom s [.kMalloc, .uartTx] =
      some { s with
        flight := some
          ⟨⟨(fillChunk size s.allocs p pos).1, 0⟩, (fillChunk size s.allocs p pos).1.len⟩
        receiveCb := .loop p (fillChunk size s.allocs p pos).2
        allocs := s.allocs + 1
        built := s.built ++ [(fillChunk size s.allocs p pos).1]
        transfers := s.transfers ++
          [⟨⟨(fillChunk size s.allocs p pos).1, 0⟩, (fillChunk size s.allocs p pos).1.len⟩] } := by
  simp [Machine.runFrom, transmit, txStep, uartTx, hcb, hflight]

/-- **A late completion always breaks the order.** When it comes with the FIFO empty, the rest of
the iteration is forced, and it ends with the chunk stranded or with the next chunk started before
it. -/
theorem late_completion_breaks_order {size : ℕ} {s : TxState} (h : TxInv s) {p : Payload} {pos : ℕ}
    {tx : UartData} (hcb : s.receiveCb = .fifoPut p pos tx) (hfifo : s.fifo = []) {evt : Transfer}
    (hflight : s.flight = some evt) :
    ∃ is t, (transmit size).runFrom s ([.txDone, .kFifoPut] ++ is) = some t ∧ ¬ TxOrdered t := by
  have hput := late_completion_put size h hcb hfifo hflight
  have hbuilt : s.built = s.started ++ [tx] := by
    simpa [hcb, hfifo, ReceiveCb.holding] using h.history
  by_cases hlast : pos = p.len
  · -- the last chunk of the payload: `bt_receive_cb` returns and nothing will pop the FIFO
    refine ⟨[], _, by rw [List.append_nil]; exact hput, fun hord => ?_⟩
    have hidle : ReceiveCb.loop p pos = .idle := by simp [ReceiveCb.loop, hlast]
    exact List.cons_ne_nil _ _ (hord.drained hidle rfl)
  · -- another chunk follows: it is started at once
    have hloop : ReceiveCb.loop p pos = .malloc p pos := by simp [ReceiveCb.loop, hlast]
    refine ⟨[.kMalloc, .uartTx], _, Machine.runFrom_trans hput (kMalloc_uartTx_of_idle hloop rfl),
      fun hord => ?_⟩
    have hprefix := hord.started_prefix
    have htx : (fillChunk size s.allocs p pos).1 = tx := by
      simpa [TxState.started, hbuilt] using hprefix
    -- but the two chunks come from different allocations
    have hmem : tx.alloc ∈ s.built.map UartData.alloc := by simp [hbuilt]
    rw [h.allocs, List.mem_range] at hmem
    have halloc : (fillChunk size s.allocs p pos).1.alloc = s.allocs := by
      simp only [fillChunk]
      split <;> rfl
    rw [htx] at halloc
    omega

end NcsExamples.PeripheralUart
