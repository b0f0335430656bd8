import NcsExamples.PeripheralUart.Chunking

/-! # BLE to UART: callbacks that run to completion

The transmit path seen from outside: `bt_receive_cb` runs from its first `k_malloc` to its last
`uart_tx` without a callback of the driver in between, and so does each branch of `uart_cb`. The
state is that of the transmit path, with what `uart_cb` reports about the chunk in flight. A transfer
may be aborted any number of times before it is done: the branch `UART_TX_ABORTED` starts the rest of
the chunk again. -/

namespace NcsExamples.PeripheralUart

/-! ## `bt_receive_cb` -/

/-- What the calls of one iteration of the loop return. -/
structure LoopAnswer where
  /-- `k_malloc` returns a chunk. -/
  mallocOk : Bool
  /-- `uart_tx` reports an error although no transfer is in flight. -/
  refuses : Bool

/-- The end of one iteration: the chunk goes to `uart_tx`, and to the FIFO if that reports an error.
-/
def handOver (refuses : Bool) (tx : UartData) (s : TxState) : TxState :=
  let s := { s with allocs := s.allocs + 1, built := s.built ++ [tx] }
  let (err, s) := uartTx refuses ⟨tx, 0⟩ tx.len s
  if err then { s with fifo := s.fifo ++ [tx] } else s

/-- The loop of `bt_receive_cb` from iteration `k` and position `pos` on, for at most as many loop
tests as the first number: `none` if there would be more. -/
def receiveLoop (size : ℕ) (answers : ℕ → LoopAnswer) (p : Payload) :
    ℕ → ℕ → ℕ → TxState → Option TxState
  | 0, _, _, _ => none
  | fuel + 1, k, pos, s =>
      if pos ≠ p.len then
        -- a failing `k_malloc` is logged, and the rest of the payload is dropped
        if (answers k).mallocOk then
          let (tx, pos) := fillChunk size s.allocs p pos
          receiveLoop size answers p fuel (k + 1) pos (handOver (answers k).refuses tx s)
        else some s
      else some s

/-- `bt_receive_cb`, with one loop test more than the payload has bytes. -/
def btReceiveCb (size : ℕ) (answers : ℕ → LoopAnswer) (p : Payload) (s : TxState) :
    Option TxState :=
  receiveLoop size answers p (p.len + 1) 0 0 s

/-! ## `uart_cb` -/

/-- The bytes of the array from the pointer on. -/
def DataPtr.bytes (buf : DataPtr) (len : ℕ) : List UInt8 := (buf.chunk.data.drop buf.off).take len

/-- The branch `UART_TX_ABORTED` of `uart_cb`, for the event with `tx.buf` and `tx.len` of `evt`. -/
def uartCbTxAborted (refuses : Bool) (evt : Transfer) (s : TxState) : TxState :=
  let abortedBuf := s.abortedBuf.getD evt.buf
  let abortedLen := (s.abortedLen + evt.len) % 4294967296
  let s := { s with abortedBuf := some abortedBuf, abortedLen }
  match abortedBuf.containerOf with
  | some buf => (uartTx refuses ⟨buf, abortedLen⟩ (toSizeT ((buf.len : ℤ) - abortedLen)) s).2
  -- the pointer is into no structure
  | none => s

/-! ## The callbacks as a machine -/

/-- The state of the transmit path and what the driver has reported. -/
structure CbState where
  tx : TxState
  /-- The number of aborts of the chunk in flight. -/
  aborts : ℕ
  /-- The bytes of the chunk in flight that were reported sent, over all its attempts so far. -/
  reported : List UInt8
  /-- History: the chunks reported done, with the bytes reported sent over all their attempts. -/
  completed : List (UartData × List UInt8)

/-- What happens next. -/
inductive CbInput
  /-- The stack calls `bt_receive_cb`. -/
  | receive (p : Payload) (answers : ℕ → LoopAnswer)
  /-- The attempt in flight ends with `UART_TX_DONE`. If the FIFO holds a chunk, `uart_tx` may refuse
  it. -/
  | txDone (refuses : Bool)
  /-- The attempt in flight ends with `UART_TX_ABORTED`, with fewer bytes sent than asked for.
  `uart_tx` accepts the rest. -/
  | txAborted (len : ℕ)

/-- One callback. -/
def cbStep (size : ℕ) (s : CbState) : CbInput → Option CbState
  | .receive p answers => (btReceiveCb size answers p s.tx).map fun tx => { s with tx }
  | .txDone refuses => match s.tx.flight with
    | some evt => some {
        tx := uartCbTxDone refuses evt { s.tx with flight := none }
        aborts := 0
        reported := []
        completed := s.completed ++ [(evt.buf.chunk, s.reported ++ evt.buf.bytes evt.len)] }
    | none => none
  | .txAborted len => match s.tx.flight with
    | some evt =>
        if len < evt.len then some { s with
          tx := uartCbTxAborted false ⟨evt.buf, len⟩ { s.tx with flight := none }
          aborts := s.aborts + 1
          reported := s.reported ++ evt.buf.bytes len }
        else none
    | none => none

/-- The callbacks after boot. -/
def callbacks (size : ℕ) : Machine CbState CbInput := ⟨⟨txInit, 0, [], []⟩, cbStep size⟩

/-- A completion is one of a transfer in flight. -/
theorem cbStep_txDone_eq_some {size : ℕ} {s t : CbState} {refuses : Bool}
    (hs : cbStep size s (.txDone refuses) = some t) : ∃ evt, s.tx.flight = some evt ∧ t = {
      tx := uartCbTxDone refuses evt { s.tx with flight := none }
      aborts := 0
      reported := []
      completed := s.completed ++ [(evt.buf.chunk, s.reported ++ evt.buf.bytes evt.len)] } := by
  simp only [cbStep] at hs
  split at hs
  · next evt hflight => exact ⟨evt, hflight, (Option.some.inj hs).symm⟩
  · cases hs

/-- An abort is one of a transfer in flight, before its last byte. -/
theorem cbStep_txAborted_eq_some {size : ℕ} {s t : CbState} {len : ℕ}
    (hs : cbStep size s (.txAborted len) = some t) :
    ∃ evt, s.tx.flight = some evt ∧ len < evt.len ∧ t = { s with
      tx := uartCbTxAborted false ⟨evt.buf, len⟩ { s.tx with flight := none }
      aborts := s.aborts + 1
      reported := s.reported ++ evt.buf.bytes len } := by
  simp only [cbStep] at hs
  split at hs
  · next evt hflight =>
    obtain ⟨hlt, rfl⟩ := Machine.guarded_eq_some.mp hs
    exact ⟨evt, hflight, hlt, rfl⟩
  · cases hs

/-! ## The loop against the driver -/

/-- A `uart_tx` that succeeds finds nothing in flight. -/
theorem flight_eq_none_of_start {refuses : Bool} {s : TxState}
    (h : (s.flight.isSome || refuses) = false) : s.flight = none := by
  obtain ⟨hflight, -⟩ := Bool.or_eq_false_iff.mp h
  rwa [Option.isSome_eq_false_iff, Option.isNone_iff_eq_none] at hflight

/-- A chunk that `uart_tx` takes is in flight. -/
theorem handOver_of_start {refuses : Bool} {tx : UartData} {s : TxState}
    (h : (s.flight.isSome || refuses) = false) :
    handOver refuses tx s =
      { s with
        allocs := s.allocs + 1
        built := s.built ++ [tx]
        flight := some ⟨⟨tx, 0⟩, tx.len⟩
        transfers := s.transfers ++ [⟨⟨tx, 0⟩, tx.len⟩] } := by
  simp [handOver, uartTx, h]

/-- A chunk that `uart_tx` does not take is queued. -/
theorem handOver_of_error {refuses : Bool} {tx : UartData} {s : TxState}
    (h : (s.flight.isSome || refuses) = true) :
    handOver refuses tx s =
      { s with allocs := s.allocs + 1, built := s.built ++ [tx], fifo := s.fifo ++ [tx] } := by
  simp [handOver, uartTx, h]

@[simp] theorem handOver_built (refuses : Bool) (tx : UartData) (s : TxState) :
    (handOver refuses tx s).built = s.built ++ [tx] := by
  cases h : s.flight.isSome || refuses with
  | false => rw [handOver_of_start h]
  | true => rw [handOver_of_error h]

@[simp] theorem handOver_allocs (refuses : Bool) (tx : UartData) (s : TxState) :
    (handOver refuses tx s).allocs = s.allocs + 1 := by
  cases h : s.flight.isSome || refuses with
  | false => rw [handOver_of_start h]
  | true => rw [handOver_of_error h]

@[simp] theorem handOver_freed (refuses : Bool) (tx : UartData) (s : TxState) :
    (handOver refuses tx s).freed = s.freed := by
  cases h : s.flight.isSome || refuses with
  | false => rw [handOver_of_start h]
  | true => rw [handOver_of_error h]

variable {size : ℕ} {answers : ℕ → LoopAnswer} {p : Payload}

/-- An iteration that gets a chunk hands it over, and the loop goes on behind it. -/
theorem receiveLoop_of_mallocOk (hsize : size ≤ 65535) {fuel k pos : ℕ} (hpos : pos < p.len)
    (hok : (answers k).mallocOk) (s : TxState) :
    receiveLoop size answers p (fuel + 1) k pos s =
      receiveLoop size answers p fuel (k + 1) (pos + p.cut size pos)
        (handOver (answers k).refuses (p.chunk size s.allocs pos) s) := by
  rw [receiveLoop, if_pos hpos.ne, if_pos hok, fillChunk_eq hsize _ hpos]

/-- An iteration that gets no chunk ends the loop. -/
theorem receiveLoop_of_not_mallocOk {fuel k pos : ℕ} (hpos : pos < p.len)
    (hfail : ¬ (answers k).mallocOk) (s : TxState) :
    receiveLoop size answers p (fuel + 1) k pos s = some s := by
  rw [receiveLoop, if_pos hpos.ne, if_neg hfail]

/-- The loop ends at the end of the payload. -/
theorem receiveLoop_of_end (fuel k : ℕ) (s : TxState) :
    receiveLoop size answers p (fuel + 1) k p.len s = some s := by
  rw [receiveLoop, if_neg (not_not.mpr rfl)]

/-- **Loop rule.** What each iteration inside the payload keeps, `bt_receive_cb` keeps. -/
theorem receiveLoop_invariant (P : ℕ → ℕ → TxState → Prop) (hsize : size ≤ 65535)
    (hstep : ∀ s k pos, pos < p.len → (answers k).mallocOk → P k pos s →
      P (k + 1) (pos + p.cut size pos)
        (handOver (answers k).refuses (p.chunk size s.allocs pos) s)) {fuel : ℕ} :
    ∀ {k pos : ℕ} {s t : TxState}, pos ≤ p.len → P k pos s →
      receiveLoop size answers p fuel k pos s = some t →
      ∃ k' pos', P k' pos' t ∧ (pos' = p.len ∨ pos' < p.len ∧ ¬ (answers k').mallocOk) := by
  induction fuel with
  | zero =>
      intro k pos s t _ _ ht
      cases ht
  | succ fuel ih =>
      intro k pos s t hpos hs ht
      rcases hpos.eq_or_lt with rfl | hlt
      · rw [receiveLoop_of_end] at ht
        obtain rfl := Option.some.inj ht
        exact ⟨k, p.len, hs, .inl rfl⟩
      · by_cases hok : (answers k).mallocOk
        · rw [receiveLoop_of_mallocOk hsize hlt hok] at ht
          exact ih (Payload.add_cut_le hlt.le) (hstep s k pos hlt hok hs) ht
        · rw [receiveLoop_of_not_mallocOk hlt hok] at ht
          obtain rfl := Option.some.inj ht
          exact ⟨k, pos, hs, .inr ⟨hlt, hok⟩⟩

/-- The loop ends: each iteration takes a byte of the payload at least. -/
theorem receiveLoop_isSome (h2 : 2 ≤ size) (hsize : size ≤ 65535) {fuel : ℕ} :
    ∀ {k pos : ℕ} {s : TxState}, pos ≤ p.len → p.len - pos < fuel →
      ∃ t, receiveLoop size answers p fuel k pos s = some t := by
  induction fuel with
  | zero =>
      intro k pos s _ hfuel
      cases hfuel
  | succ fuel ih =>
      intro k pos s hpos hfuel
      rcases hpos.eq_or_lt with rfl | hlt
      · exact ⟨s, receiveLoop_of_end fuel k s⟩
      · by_cases hok : (answers k).mallocOk
        · rw [receiveLoop_of_mallocOk hsize hlt hok]
          have hcut := Payload.cut_pos h2 hlt
          exact ih (Payload.add_cut_le hlt.le) (by omega)
        · exact ⟨s, receiveLoop_of_not_mallocOk hlt hok s⟩

end NcsExamples.PeripheralUart
