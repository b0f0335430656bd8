import NcsExamples.PeripheralUart.TransmitResume

/-! # BLE to UART: the byte stream

The transmit path from end to end. With a driver that takes a chunk whenever it has none, the UART
sends the payloads one after the other, each followed by LF if it ends in CR, whatever is aborted on
the way. A `k_malloc` that fails cuts the rest of its payload off, at a chunk. -/

namespace NcsExamples.PeripheralUart

/-! ## What goes in and what comes out -/

/-- The first iteration of `bt_receive_cb` that gets no chunk. -/
def Payload.firstFailure (size : ℕ) (answers : ℕ → LoopAnswer) (p : Payload) : Option ℕ :=
  (List.range p.len).find? fun k => k * (size - 1) < p.len ∧ (answers k).mallocOk = false

/-- The bytes of a payload that `bt_receive_cb` accepts: all of them and the end of the line, or the
whole chunks before the first `k_malloc` that fails. -/
def Payload.accepted (size : ℕ) (answers : ℕ → LoopAnswer) (p : Payload) : List UInt8 :=
  match p.firstFailure size answers with
  | none => p.data ++ p.lineEnd
  | some k => p.data.take (k * (size - 1))

/-- The bytes that a callback adds to the stream. -/
def CbInput.accepted (size : ℕ) : CbInput → List UInt8
  | .receive p answers => p.accepted size answers
  | .txDone _ | .txAborted _ => []

/-- The driver takes a chunk when it has none. -/
def CbInput.Willing : CbInput → Prop
  | .receive _ answers => ∀ k, (answers k).refuses = false
  | .txDone refuses => refuses = false
  | .txAborted _ => True

/-- The bytes reported sent. -/
def CbState.sentBytes (s : CbState) : List UInt8 := s.completed.flatMap Prod.snd ++ s.reported

/-- The bytes to send: the rest of the chunk in flight and the chunks in the FIFO. -/
def TxState.waitingBytes (s : TxState) : List UInt8 :=
  (s.flight.toList.flatMap fun t => t.buf.bytes t.len) ++ s.fifo.flatMap UartData.data

variable {size k pos : ℕ} {answers : ℕ → LoopAnswer} {p : Payload} {s t : CbState}

/-- No iteration fails if all those whose chunk starts in the payload get it. -/
theorem Payload.firstFailure_eq_none (h : ∀ j, j * (size - 1) < p.len → (answers j).mallocOk) :
    p.firstFailure size answers = none := by
  rw [Payload.firstFailure, List.find?_eq_none]
  intro j _ hj
  obtain ⟨hlt, hfail⟩ := of_decide_eq_true hj
  rw [h j hlt] at hfail
  cases hfail

/-- The iteration after those that get their chunks is the first failure if it gets none. -/
theorem Payload.firstFailure_eq_some (h2 : 2 ≤ size) (hk : k * (size - 1) < p.len)
    (hok : ∀ j < k, (answers j).mallocOk) (hfail : ¬ (answers k).mallocOk) :
    p.firstFailure size answers = some k := by
  have hle : k * 1 ≤ k * (size - 1) := Nat.mul_le_mul_left k (by omega)
  rw [Payload.firstFailure, List.find?_range_eq_some]
  refine ⟨decide_eq_true ⟨hk, eq_false_of_ne_true hfail⟩, List.mem_range.mpr (by omega), ?_⟩
  intro j hj
  simp [hok j hj]

/-- The chunk that starts at `pos` goes on with the payload, up to its end or up to the next chunk.
-/
theorem Payload.take_append_chunkBytes (size : ℕ) (p : Payload) (pos : ℕ) :
    p.data.take pos ++ p.chunkBytes size pos =
      p.data.take (pos + p.cut size pos) ++
        if pos + p.cut size pos = p.len then p.lineEnd else [] := by
  rw [Payload.chunkBytes, ← List.append_assoc, ← List.take_add]

/-! ## `bt_receive_cb` -/

/-- What keeps the stream in order: the invariant of the callbacks, and a FIFO that is empty while
nothing is in flight. -/
structure InOrder (s : CbState) : Prop where
  inv : CbInv s
  idle : s.tx.flight = none → s.tx.fifo = []

/-- A chunk that is handed over is at the end of what is to be sent. -/
theorem waitingBytes_handOver (tx : UartData) (hdata : tx.data.length = tx.len) {u : TxState}
    (hidle : u.flight = none → u.fifo = []) :
    (handOver false tx u).waitingBytes = u.waitingBytes ++ tx.data := by
  cases hflight : u.flight with
  | none =>
    have hstart : (u.flight.isSome || false) = false := by simp [hflight]
    rw [handOver_of_start hstart]
    simp [TxState.waitingBytes, hflight, hidle hflight, DataPtr.bytes, ← hdata]
  | some evt =>
    have herror : (u.flight.isSome || false) = true := by simp [hflight]
    rw [handOver_of_error herror]
    simp [TxState.waitingBytes, hflight]

/-- A chunk that is handed over is in flight, or behind the one that is. -/
theorem flight_handOver_ne_none (tx : UartData) (u : TxState) :
    (handOver false tx u).flight ≠ none := by
  cases hflight : u.flight with
  | none =>
    rw [handOver_of_start (by simp [hflight])]
    exact Option.some_ne_none _
  | some evt =>
    rw [handOver_of_error (by simp [hflight])]
    simp [hflight]

/-- The state before iteration `k`, at position `pos`: the payload up to there is to be sent. -/
structure Streamed (size : ℕ) (answers : ℕ → LoopAnswer) (p : Payload) (s : CbState) (k pos : ℕ)
    (u : TxState) : Prop where
  inOrder : InOrder { s with tx := u }
  pos_eq : pos = min (k * (size - 1)) p.len
  ok : ∀ j < k, (answers j).mallocOk
  waiting : u.waitingBytes = s.tx.waitingBytes ++
    (p.data.take pos ++ if pos = p.len then p.lineEnd else [])

/-- One iteration adds one chunk. -/
theorem Streamed.step (h2 : 2 ≤ size) (hsize : size ≤ 65535) {u : TxState} (hpos : pos < p.len)
    (hok : (answers k).mallocOk) (hwilling : (answers k).refuses = false)
    (h : Streamed size answers p s k pos u) :
    Streamed size answers p s (k + 1) (pos + p.cut size pos)
      (handOver (answers k).refuses (p.chunk size u.allocs pos) u) := by
  obtain ⟨hlen, hle⟩ := Payload.chunk_len_mem h2 u.allocs hpos
  have hk : pos = k * (size - 1) := by
    have := h.pos_eq
    omega
  rw [hwilling]
  refine ⟨⟨h.inOrder.inv.handOver ⟨hlen, by omega, rfl⟩ rfl false, ?_⟩, ?_, ?_, ?_⟩
  · intro hnone
    exact absurd hnone (flight_handOver_ne_none _ u)
  · rw [hk, Payload.cut, Nat.succ_mul]
    omega
  · intro j hj
    rcases Nat.lt_succ_iff_lt_or_eq.mp hj with hlt | rfl
    · exact h.ok j hlt
    · exact hok
  · have hchunk : (p.chunk size u.allocs pos).data = p.chunkBytes size pos := rfl
    rw [waitingBytes_handOver _ rfl h.inOrder.idle, h.waiting, if_neg hpos.ne, List.append_nil,
      List.append_assoc, hchunk, Payload.take_append_chunkBytes]

/-- A call of `bt_receive_cb` adds what it accepts. -/
theorem InOrder.receive (h2 : 2 ≤ size) (hsize : size ≤ 65535) (h : InOrder s)
    (hwilling : ∀ k, (answers k).refuses = false) {u : TxState}
    (hu : btReceiveCb size answers p s.tx = some u) :
    InOrder { s with tx := u } ∧
      u.waitingBytes = s.tx.waitingBytes ++ p.accepted size answers := by
  -- the loop starts with nothing accepted
  have hstart : Streamed size answers p s 0 0 s.tx := by
    refine ⟨h, by simp, by simp, ?_⟩
    rw [List.take_zero, List.nil_append]
    split
    · next hnil => simp [Payload.lineEnd, List.length_eq_zero_iff.mp hnil.symm]
    · simp
  obtain ⟨k, pos, hend, hcase⟩ := receiveLoop_invariant (Streamed size answers p s) hsize
    (fun v k pos hpos hok hv => hv.step h2 hsize hpos hok (hwilling k)) (Nat.zero_le _) hstart hu
  refine ⟨hend.inOrder, ?_⟩
  rw [hend.waiting, Payload.accepted]
  have hpos_eq := hend.pos_eq
  rcases hcase with hlast | ⟨hlt, hfail⟩
  · -- the payload has been cut to its end: each chunk that starts in it is one of these `k`
    have hnone : p.firstFailure size answers = none := by
      refine Payload.firstFailure_eq_none fun j hj => hend.ok j ?_
      have hjk : j * (size - 1) < k * (size - 1) := by omega
      exact Nat.lt_of_mul_lt_mul_right hjk
    rw [hnone, if_pos hlast, hlast, List.take_length]
  · have hk : pos = k * (size - 1) := by omega
    have hsome := Payload.firstFailure_eq_some h2 (hk ▸ hlt) hend.ok hfail
    rw [hsome, if_neg hlt.ne, List.append_nil, hk]

/-! ## `uart_cb` -/

/-- An abort moves bytes from those to send to those sent. -/
theorem InOrder.txAborted (h : InOrder s) {len : ℕ} (hs : cbStep size s (.txAborted len) = some t) :
    InOrder t ∧ t.sentBytes ++ t.tx.waitingBytes = s.sentBytes ++ s.tx.waitingBytes := by
  have hinv := h.inv.txAborted hs
  obtain ⟨evt, hflight, hlt, rfl⟩ := cbStep_txAborted_eq_some hs
  obtain ⟨-, hlen, -⟩ := h.inv.attempt evt hflight
  have hmem : evt.buf.chunk ∈ s.tx.built := h.inv.owned_built _ (by simp [CbState.owned, hflight])
  have haborted := uartCbTxAborted_eq h.inv hflight hlt (h.inv.chunk _ hmem).2.1
  refine ⟨⟨hinv, ?_⟩, ?_⟩
  · rw [haborted]
    intro hnone
    cases hnone
  · -- the attempt is what was reported of it and the rest
    have hsplit : evt.buf.bytes evt.len = evt.buf.bytes len ++
        (evt.buf.chunk.data.drop (evt.buf.off + len)).take
          (evt.buf.chunk.len - (evt.buf.off + len)) := by
      have hrest : evt.len = len + (evt.buf.chunk.len - (evt.buf.off + len)) := by omega
      rw [DataPtr.bytes, DataPtr.bytes, ← List.drop_drop, ← List.take_add, ← hrest]
    rw [haborted]
    simp only [CbState.sentBytes, TxState.waitingBytes, hflight, Option.toList_some,
      List.flatMap_cons, List.flatMap_nil, List.append_nil, List.append_assoc, hsplit]
    rfl

/-- A completion sends the rest of its chunk, and the head of the FIFO is the next to be sent. -/
theorem InOrder.txDone (h : InOrder s) (hs : cbStep size s (.txDone false) = some t) :
    InOrder t ∧ t.sentBytes ++ t.tx.waitingBytes = s.sentBytes ++ s.tx.waitingBytes := by
  have hinv := h.inv.txDone hs
  obtain ⟨evt, hflight, rfl⟩ := cbStep_txDone_eq_some hs
  have hdone := doneStep h.inv hflight false
  revert hinv hdone
  generalize uartCbTxDone false evt { s.tx with flight := none } = v
  intro hinv hdone
  cases hdone with
  | nil hfifo =>
    refine ⟨⟨hinv, fun _ => hfifo⟩, ?_⟩
    simp [CbState.sentBytes, TxState.waitingBytes, TxState.release, hflight, hfifo]
  | start c rest hfifo =>
    refine ⟨⟨hinv, fun hnone => by cases hnone⟩, ?_⟩
    have hc : c ∈ s.tx.built := h.inv.owned_built c (by simp [CbState.owned, hfifo])
    have hdata : c.data.take c.len = c.data :=
      List.take_of_length_le (h.inv.chunk c hc).2.2.le
    simp [CbState.sentBytes, TxState.waitingBytes, TxState.release, TxState.start, hflight, hfifo,
      DataPtr.bytes, hdata]
  | lost c rest hfifo hrefuses => cases hrefuses

/-- Every callback adds what it accepts to the stream. -/
theorem InOrder.step (h2 : 2 ≤ size) (hsize : size ≤ 65535) (h : InOrder s) {i : CbInput}
    (hi : i.Willing) (hs : cbStep size s i = some t) :
    InOrder t ∧ t.sentBytes ++ t.tx.waitingBytes =
      s.sentBytes ++ s.tx.waitingBytes ++ i.accepted size := by
  cases i with
  | receive p answers =>
    obtain ⟨u, hu, rfl⟩ := Option.map_eq_some_iff.mp hs
    obtain ⟨horder, hwaiting⟩ := h.receive h2 hsize hi hu
    refine ⟨horder, ?_⟩
    have hsent : CbState.sentBytes { s with tx := u } = s.sentBytes := rfl
    rw [hsent, hwaiting, List.append_assoc]
    rfl
  | txDone refuses =>
    obtain rfl : refuses = false := hi
    obtain ⟨horder, hstream⟩ := h.txDone hs
    exact ⟨horder, hstream.trans (List.append_nil _).symm⟩
  | txAborted len =>
    obtain ⟨horder, hstream⟩ := h.txAborted hs
    exact ⟨horder, hstream.trans (List.append_nil _).symm⟩

/-! ## Runs -/

/-- **The UART sends what the peer wrote.** In every state of a run whose driver takes a chunk
whenever it has none, the bytes reported sent and those still to be sent are the payloads accepted
so far, in order, and with nothing in flight all of them are sent. -/
theorem uart_sends_payloads (size : ℕ) (h2 : 2 ≤ size) (hsize : size ≤ 65535) (is : List CbInput)
    (hwilling : ∀ i ∈ is, i.Willing) (s : CbState) (hrun : (callbacks size).run is = some s) :
    s.sentBytes ++ s.tx.waitingBytes = is.flatMap (CbInput.accepted size) ∧
      (s.tx.flight = none → s.sentBytes = is.flatMap (CbInput.accepted size)) := by
  have hinit : InOrder (callbacks size).init ∧
      (callbacks size).init.sentBytes ++ (callbacks size).init.tx.waitingBytes =
        ([] : List CbInput).flatMap (CbInput.accepted size) :=
    ⟨⟨cbInv_init, fun _ => rfl⟩, rfl⟩
  obtain ⟨horder, hstream⟩ := Machine.invariant_history_inputs
    (fun js s => InOrder s ∧ s.sentBytes ++ s.tx.waitingBytes = js.flatMap (CbInput.accepted size))
    (r := CbInput.Willing)
    (fun js s i t h hi hs => by
      obtain ⟨horder, hstream⟩ := h.1.step h2 hsize hi hs
      refine ⟨horder, ?_⟩
      rw [hstream, h.2, List.flatMap_append, List.flatMap_singleton])
    hwilling hinit hrun
  rw [List.nil_append] at hstream
  refine ⟨hstream, fun hnone => ?_⟩
  have hwaiting : s.tx.waitingBytes = [] := by
    simp [TxState.waitingBytes, hnone, horder.idle hnone]
  rw [← hstream, hwaiting, List.append_nil]

/-- A line of two chunks, the first one aborted after a byte, and a payload of which `k_malloc`
cuts the second chunk off. -/
theorem uart_sends_payloads_line :
    (((callbacks 3).run [.receive ⟨[72, 105, cr], by decide⟩ fun _ => ⟨true, false⟩, .txAborted 1,
        .receive ⟨[79, 107, 33], by decide⟩ fun k => ⟨k = 0, false⟩, .txDone false, .txDone false,
        .txDone false]).get (by rfl)).sentBytes = [72, 105, cr, lf, 79, 107] :=
  (uart_sends_payloads 3 (by decide) (by decide) _ (by simp [CbInput.Willing]) _
    (Option.some_get _).symm).2 (by rfl)

end NcsExamples.PeripheralUart
