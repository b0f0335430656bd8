import NcsExamples.PeripheralUart.Callbacks
import Mathlib.Data.List.Nodup

/-! # BLE to UART: aborted transfers

An aborted transfer goes on where it stopped: `aborted_buf` keeps the start of the chunk, and
`aborted_len` what was sent of it. The invariant ties the two to the attempt in flight and to the
bytes that were reported sent, over any number of aborts. The completion of the last attempt finds
the chunk through `aborted_buf` and clears both. -/

namespace NcsExamples.PeripheralUart

/-- The chunks that are accounted for: done, in flight and queued. -/
def CbState.owned (s : CbState) : List UartData :=
  s.completed.map Prod.fst ++ (s.tx.flight.toList.map fun t => t.buf.chunk) ++ s.tx.fifo

/-- The attempt `t` sends the rest of its chunk, from the byte on that was not reported sent. -/
structure Attempt (s : CbState) (t : Transfer) : Prop where
  /-- Something is left to send. -/
  off_lt : t.buf.off < t.buf.chunk.len
  /-- All of it is sent. -/
  len_eq : t.len = t.buf.chunk.len - t.buf.off
  /-- The bytes before were reported sent. -/
  reported : s.reported = t.buf.chunk.data.take t.buf.off
  /-- `aborted_len` counts them. -/
  abortedLen : s.tx.abortedLen = t.buf.off
  /-- `aborted_buf` is the start of the chunk, if there was an abort. -/
  abortedBuf : s.tx.abortedBuf = if s.aborts = 0 then none else some ⟨t.buf.chunk, 0⟩
  /-- Without an abort the attempt starts at the first byte. -/
  off_eq : s.aborts = 0 → t.buf.off = 0

/-- What every callback keeps. -/
structure CbInv (s : CbState) : Prop where
  /-- The chunks have bytes, as many as `len` says. -/
  chunk : ∀ c ∈ s.tx.built, 0 < c.len ∧ c.len < 65536 ∧ c.data.length = c.len
  /-- Their allocations are past. -/
  alloc_lt : ∀ c ∈ s.tx.built, c.alloc < s.tx.allocs
  /-- What is accounted for was built. -/
  owned_built : ∀ c ∈ s.owned, c ∈ s.tx.built
  /-- Every chunk is accounted for once. -/
  owned_nodup : s.owned.Nodup
  /-- The chunks done are those freed. -/
  freed : s.tx.freed = s.completed.map fun cb => some cb.1
  /-- All of their bytes were reported sent. -/
  sent : ∀ cb ∈ s.completed, cb.2 = cb.1.data
  /-- The transfer in flight is an attempt. -/
  attempt : ∀ t, s.tx.flight = some t → Attempt s t
  /-- With nothing in flight nothing is left over. -/
  idle : s.tx.flight = none →
    s.aborts = 0 ∧ s.reported = [] ∧ s.tx.abortedBuf = none ∧ s.tx.abortedLen = 0

variable {size : ℕ} {refuses : Bool} {s t : CbState}

/-- The callbacks start with the invariant. -/
theorem cbInv_init : CbInv (callbacks size).init where
  chunk := by simp [callbacks, txInit]
  alloc_lt := by simp [callbacks, txInit]
  owned_built := by simp [callbacks, txInit, CbState.owned]
  owned_nodup := by simp [callbacks, txInit, CbState.owned]
  freed := rfl
  sent := by simp [callbacks]
  attempt _ h := by cases h
  idle _ := ⟨rfl, rfl, rfl, rfl⟩

/-! ## `bt_receive_cb` -/

/-- What is handed over is accounted for. -/
theorem owned_handOver_perm (refuses : Bool) (tx : UartData) (s : CbState) :
    ({ s with tx := handOver refuses tx s.tx } : CbState).owned.Perm (tx :: s.owned) := by
  cases herr : s.tx.flight.isSome || refuses with
  | false =>
    have hflight : s.tx.flight = none := flight_eq_none_of_start herr
    rw [handOver_of_start herr]
    simp only [CbState.owned, hflight, Option.toList_some, Option.toList_none, List.map_cons,
      List.map_nil, List.append_assoc, List.nil_append, List.cons_append]
    exact List.perm_middle
  | true =>
    rw [handOver_of_error herr]
    simp only [CbState.owned, ← List.append_assoc]
    exact List.perm_append_singleton _ _

/-- A new chunk without an abort before it is an attempt from its first byte on. -/
theorem attempt_handOver {tx : UartData} (h : CbInv s) (hpos : 0 < tx.len)
    (herr : (s.tx.flight.isSome || refuses) = false) :
    Attempt { s with tx := handOver refuses tx s.tx } ⟨⟨tx, 0⟩, tx.len⟩ := by
  have hflight : s.tx.flight = none := flight_eq_none_of_start herr
  obtain ⟨haborts, hreported, hbuf, hlen⟩ := h.idle hflight
  rw [handOver_of_start herr]
  exact ⟨hpos, rfl, hreported, hlen, by rw [if_pos haborts]; exact hbuf, fun _ => rfl⟩

/-- A chunk of a new allocation, started or queued, is accounted for once. -/
theorem CbInv.handOver {tx : UartData} (h : CbInv s)
    (hchunk : 0 < tx.len ∧ tx.len < 65536 ∧ tx.data.length = tx.len) (halloc : tx.alloc = s.tx.allocs)
    (refuses : Bool) : CbInv { s with tx := handOver refuses tx s.tx } := by
  have hperm := owned_handOver_perm refuses tx s
  have hnew : tx ∉ s.owned := by
    intro hmem
    have hlt := h.alloc_lt tx (h.owned_built tx hmem)
    rw [halloc] at hlt
    exact lt_irrefl _ hlt
  constructor
  · intro c hc
    rw [handOver_built, List.mem_append, List.mem_singleton] at hc
    rcases hc with hc | rfl
    · exact h.chunk c hc
    · exact hchunk
  · intro c hc
    rw [handOver_built, List.mem_append, List.mem_singleton] at hc
    rw [handOver_allocs]
    rcases hc with hc | rfl
    · exact Nat.lt_succ_of_lt (h.alloc_lt c hc)
    · rw [halloc]
      exact Nat.lt_succ_self _
  · intro c hc
    rw [handOver_built, List.mem_append, List.mem_singleton]
    rcases List.mem_cons.mp (hperm.mem_iff.mp hc) with rfl | hc
    · exact .inr rfl
    · exact .inl (h.owned_built c hc)
  · rw [hperm.nodup_iff, List.nodup_cons]
    exact ⟨hnew, h.owned_nodup⟩
  · rw [handOver_freed]
    exact h.freed
  · exact h.sent
  · intro t ht
    cases herr : s.tx.flight.isSome || refuses with
    | false =>
      rw [handOver_of_start herr] at ht
      obtain rfl := Option.some.inj ht
      exact attempt_handOver h hchunk.1 herr
    | true =>
      rw [handOver_of_error herr] at ht ⊢
      exact { h.attempt t ht with }
  · intro hnone
    cases herr : s.tx.flight.isSome || refuses with
    | false =>
      rw [handOver_of_start herr] at hnone
      cases hnone
    | true =>
      rw [handOver_of_error herr] at hnone ⊢
      exact h.idle hnone

/-- A call of `bt_receive_cb` keeps the invariant. -/
theorem CbInv.receive (h2 : 2 ≤ size) (hsize : size ≤ 65535) (h : CbInv s) {p : Payload}
    {answers : ℕ → LoopAnswer} {u : TxState} (hu : btReceiveCb size answers p s.tx = some u) :
    CbInv { s with tx := u } := by
  obtain ⟨-, -, hinv, -⟩ := receiveLoop_invariant (fun _ _ v => CbInv { s with tx := v }) hsize
    (fun v k pos hpos _ hv => by
      obtain ⟨hpos', hle⟩ := Payload.chunk_len_mem h2 v.allocs hpos
      exact hv.handOver ⟨hpos', by omega, rfl⟩ rfl _)
    (Nat.zero_le _) h hu
  exact hinv

/-! ## `UART_TX_ABORTED` -/

/-- The branch `UART_TX_ABORTED` starts the rest of the chunk. -/
theorem uartCbTxAborted_eq (h : CbInv s) {evt : Transfer} (hflight : s.tx.flight = some evt)
    {len : ℕ} (hlen : len < evt.len) (hchunk : evt.buf.chunk.len < 65536) :
    uartCbTxAborted false ⟨evt.buf, len⟩ { s.tx with flight := none } =
      { s.tx with
        abortedBuf := some ⟨evt.buf.chunk, 0⟩
        abortedLen := evt.buf.off + len
        flight := some ⟨⟨evt.buf.chunk, evt.buf.off + len⟩, evt.buf.chunk.len - (evt.buf.off + len)⟩
        transfers := s.tx.transfers ++
          [⟨⟨evt.buf.chunk, evt.buf.off + len⟩, evt.buf.chunk.len - (evt.buf.off + len)⟩] } := by
  obtain ⟨hoff, hrest, -, habortedLen, habortedBuf, hzero⟩ := h.attempt evt hflight
  have hstart : s.tx.abortedBuf.getD evt.buf = ⟨evt.buf.chunk, 0⟩ := by
    rw [habortedBuf]
    by_cases hno : s.aborts = 0
    · rw [if_pos hno, Option.getD_none, ← hzero hno]
    · rw [if_neg hno, Option.getD_some]
  have hmod : (evt.buf.off + len) % 4294967296 = evt.buf.off + len :=
    Nat.mod_eq_of_lt (by omega)
  have hsub : toSizeT ((evt.buf.chunk.len : ℤ) - ((evt.buf.off + len : ℕ) : ℤ)) =
      evt.buf.chunk.len - (evt.buf.off + len) := toSizeT_sub (by omega) hchunk
  simp only [uartCbTxAborted, hstart, habortedLen, hmod, hsub, DataPtr.containerOf, if_true, uartTx,
    Option.isSome_none, Bool.or_self, Bool.false_eq_true, if_false]

/-- An abort leaves the rest of the chunk in flight. -/
theorem CbInv.txAborted (h : CbInv s) {len : ℕ} (hs : cbStep size s (.txAborted len) = some t) :
    CbInv t := by
  obtain ⟨evt, hflight, hlt, rfl⟩ := cbStep_txAborted_eq_some hs
  have hatt := h.attempt evt hflight
  have hmem : evt.buf.chunk ∈ s.tx.built := h.owned_built _ (by simp [CbState.owned, hflight])
  obtain ⟨hpos, hchunk, hdata⟩ := h.chunk _ hmem
  have hrest := hatt.len_eq
  rw [uartCbTxAborted_eq h hflight hlt hchunk]
  refine { h with owned_built := ?_, owned_nodup := ?_, attempt := ?_, idle := ?_ }
  · intro c hc
    exact h.owned_built c (by simpa [CbState.owned, hflight] using hc)
  · simpa [CbState.owned, hflight] using h.owned_nodup
  · intro t ht
    obtain rfl := Option.some.inj ht
    have hoff : evt.buf.off + len < evt.buf.chunk.len := by omega
    refine ⟨hoff, rfl, ?_, rfl, ?_, ?_⟩
    · show s.reported ++ (evt.buf.chunk.data.drop evt.buf.off).take len =
        evt.buf.chunk.data.take (evt.buf.off + len)
      rw [hatt.reported, List.take_add]
    · exact (if_neg (Nat.succ_ne_zero _)).symm
    · intro hzero
      exact absurd hzero (Nat.succ_ne_zero _)
  · intro hnone
    cases hnone

/-! ## `UART_TX_DONE` -/

/-- The state after the chunk was freed and the statics were cleared. -/
def TxState.release (chunk : UartData) (s : TxState) : TxState :=
  { s with
    flight := none
    abortedBuf := none
    abortedLen := 0
    freed := s.freed ++ [some chunk] }

/-- The state after a chunk of the FIFO was started. -/
def TxState.start (chunk : UartData) (s : TxState) : TxState :=
  { s with
    flight := some ⟨⟨chunk, 0⟩, chunk.len⟩
    transfers := s.transfers ++ [⟨⟨chunk, 0⟩, chunk.len⟩] }

/-- What the branch `UART_TX_DONE` does for the chunk of an attempt: it frees it and starts the head
of the FIFO, which is in no place any more if `uart_tx` does not take it. -/
inductive DoneStep (chunk : UartData) (refuses : Bool) (s : TxState) : TxState → Prop
  /-- The FIFO is empty. -/
  | nil : s.fifo = [] → DoneStep chunk refuses s (s.release chunk)
  /-- The head of the FIFO is started. -/
  | start (c : UartData) (rest : List UartData) : s.fifo = c :: rest → refuses = false →
      DoneStep chunk refuses s ({ s.release chunk with fifo := rest }.start c)
  /-- The head of the FIFO is lost. -/
  | lost (c : UartData) (rest : List UartData) : s.fifo = c :: rest → refuses = true →
      DoneStep chunk refuses s { s.release chunk with fifo := rest }

/-- The branch `UART_TX_DONE` finds the chunk of the attempt in flight, through `aborted_buf` if it
was aborted. -/
theorem doneStep (h : CbInv s) {evt : Transfer} (hflight : s.tx.flight = some evt)
    (refuses : Bool) :
    DoneStep evt.buf.chunk refuses s.tx
      (uartCbTxDone refuses evt { s.tx with flight := none }) := by
  obtain ⟨hoff, hrest, -, habortedLen, habortedBuf, hzero⟩ := h.attempt evt hflight
  have hlen : evt.len ≠ 0 := by omega
  -- the pointer to free is `aborted_buf`, or that of an attempt from the first byte on
  have hbuf : s.tx.abortedBuf = none ∧ s.tx.abortedLen = 0 ∧ evt.buf.off = 0 ∨
      s.tx.abortedBuf = some ⟨evt.buf.chunk, 0⟩ := by
    by_cases hno : s.aborts = 0
    · exact .inl ⟨by rw [habortedBuf, if_pos hno], by rw [habortedLen, hzero hno], hzero hno⟩
    · exact .inr (by rw [habortedBuf, if_neg hno])
  cases hfifo : s.tx.fifo with
  | nil =>
    have hdone : uartCbTxDone refuses evt { s.tx with flight := none } =
        s.tx.release evt.buf.chunk := by
      rcases hbuf with ⟨hnone, hlen0, hzero⟩ | hsome
      · simp [uartCbTxDone, hlen, hnone, kFree, DataPtr.containerOf, hzero, hlen0,
          TxState.release, hfifo]
      · simp [uartCbTxDone, hlen, hsome, kFree, DataPtr.containerOf, TxState.release, hfifo]
    rw [hdone]
    exact .nil hfifo
  | cons c rest =>
    have hdone : uartCbTxDone refuses evt { s.tx with flight := none } =
        (uartTx refuses ⟨c, 0⟩ c.len { s.tx.release evt.buf.chunk with fifo := rest }).2 := by
      rcases hbuf with ⟨hnone, hlen0, hzero⟩ | hsome
      · simp [uartCbTxDone, hlen, hnone, kFree, DataPtr.containerOf, hzero, hlen0,
          TxState.release, hfifo]
      · simp [uartCbTxDone, hlen, hsome, kFree, DataPtr.containerOf, TxState.release, hfifo]
    rw [hdone]
    cases refuses with
    | false => exact .start c rest hfifo rfl
    | true => exact .lost c rest hfifo rfl

/-- What the branch `UART_TX_DONE` frees, clears and leaves. -/
theorem DoneStep.frame {chunk : UartData} {u v : TxState} (h : DoneStep chunk refuses u v) :
    v.built = u.built ∧ v.allocs = u.allocs ∧ v.freed = u.freed ++ [some chunk] ∧
      v.abortedBuf = none ∧ v.abortedLen = 0 := by
  cases h <;> exact ⟨rfl, rfl, rfl, rfl, rfl⟩

/-- After a completion the same chunks are accounted for, but for one that `uart_tx` refuses. -/
theorem DoneStep.owned_sublist {evt : Transfer} (hflight : s.tx.flight = some evt) {v : TxState}
    (h : DoneStep evt.buf.chunk refuses s.tx v) (bytes : List UInt8) :
    List.Sublist (CbState.owned ⟨v, 0, [], s.completed ++ [(evt.buf.chunk, bytes)]⟩) s.owned := by
  cases h with
  | nil hfifo => simp [CbState.owned, TxState.release, hflight, hfifo]
  | start c rest hfifo => simp [CbState.owned, TxState.release, TxState.start, hflight, hfifo]
  | lost c rest hfifo => simp [CbState.owned, TxState.release, hflight, hfifo]

/-- The chunk that a completion starts is an attempt from its first byte on. -/
theorem DoneStep.attempt (h : CbInv s) {chunk : UartData} {v : TxState}
    (hdone : DoneStep chunk refuses s.tx v) {u : Transfer} (hu : v.flight = some u)
    (completed : List (UartData × List UInt8)) : Attempt ⟨v, 0, [], completed⟩ u := by
  cases hdone with
  | nil hfifo => cases hu
  | start c rest hfifo =>
    obtain rfl := Option.some.inj hu
    have hmem : c ∈ s.tx.built := h.owned_built c (by simp [CbState.owned, hfifo])
    exact ⟨(h.chunk c hmem).1, rfl, rfl, rfl, rfl, fun _ => rfl⟩
  | lost c rest hfifo => cases hu

/-- A completion frees the chunk, all of whose bytes were reported sent. -/
theorem CbInv.txDone (h : CbInv s) (hs : cbStep size s (.txDone refuses) = some t) : CbInv t := by
  obtain ⟨evt, hflight, rfl⟩ := cbStep_txDone_eq_some hs
  have hatt := h.attempt evt hflight
  have hmem : evt.buf.chunk ∈ s.tx.built := h.owned_built _ (by simp [CbState.owned, hflight])
  obtain ⟨-, -, hdata⟩ := h.chunk _ hmem
  have hsent : s.reported ++ evt.buf.bytes evt.len = evt.buf.chunk.data := by
    rw [hatt.reported, DataPtr.bytes, hatt.len_eq, ← List.take_add,
      Nat.add_sub_cancel' hatt.off_lt.le, ← hdata, List.take_length]
  have hdone := doneStep h hflight refuses
  have hsub := hdone.owned_sublist hflight evt.buf.chunk.data
  obtain ⟨hbuilt, hallocs, hfreed, hbuf, hlen⟩ := hdone.frame
  rw [hsent]
  constructor
  · rw [hbuilt]
    exact h.chunk
  · rw [hbuilt, hallocs]
    exact h.alloc_lt
  · rw [hbuilt]
    intro c hc
    exact h.owned_built c (hsub.subset hc)
  · exact hsub.nodup h.owned_nodup
  · rw [hfreed, h.freed, List.map_append]
    rfl
  · intro cb hcb
    rcases List.mem_append.mp hcb with hcb | hcb
    · exact h.sent cb hcb
    · rw [List.mem_singleton.mp hcb]
  · intro u hu
    exact hdone.attempt h hu _
  · intro _
    exact ⟨rfl, rfl, hbuf, hlen⟩

/-- Every callback keeps the invariant. -/
theorem CbInv.step (h2 : 2 ≤ size) (hsize : size ≤ 65535) (h : CbInv s) {i : CbInput}
    (hs : cbStep size s i = some t) : CbInv t := by
  cases i with
  | receive p answers =>
    obtain ⟨u, hu, rfl⟩ := Option.map_eq_some_iff.mp hs
    exact h.receive h2 hsize hu
  | txDone refuses => exact h.txDone hs
  | txAborted len => exact h.txAborted hs

/-! ## Runs -/

/-- The chunks are sent exactly, whatever was aborted. -/
structure Resumed (s : CbState) : Prop where
  /-- An attempt addresses a range inside its chunk that is not empty, and starts behind the bytes
  that were reported sent. -/
  attempt : ∀ t, s.tx.flight = some t → 0 < t.len ∧ t.buf.off + t.len ≤ t.buf.chunk.len ∧
    s.reported = t.buf.chunk.data.take t.buf.off
  /-- A chunk that was aborted is in flight again. -/
  retried : s.aborts ≠ 0 → s.tx.flight ≠ none
  /-- Of a chunk that is done all bytes were reported sent, in order. -/
  sent : ∀ cb ∈ s.completed, cb.2 = cb.1.data ∧ cb.1.data.length = cb.1.len
  /-- The structures freed are those of the chunks done. -/
  freed : s.tx.freed = s.completed.map fun cb => some cb.1
  /-- None is freed twice. -/
  freed_nodup : s.tx.freed.Nodup
  /-- Without an abort of the chunk in flight, `aborted_buf` and `aborted_len` have their initial
  values. -/
  reset : s.aborts = 0 → s.tx.abortedBuf = none ∧ s.tx.abortedLen = 0

/-- The invariant gives the property. -/
theorem CbInv.resumed (h : CbInv s) : Resumed s where
  attempt t ht := by
    obtain ⟨hoff, hlen, hreported, -⟩ := h.attempt t ht
    exact ⟨by omega, by omega, hreported⟩
  retried haborts hnone := haborts (h.idle hnone).1
  sent cb hcb := by
    have hmem : cb.1 ∈ s.owned := by
      simp only [CbState.owned, List.append_assoc, List.mem_append, List.mem_map]
      exact .inl ⟨cb, hcb, rfl⟩
    exact ⟨h.sent cb hcb, (h.chunk cb.1 (h.owned_built _ hmem)).2.2⟩
  freed := h.freed
  freed_nodup := by
    have hnodup : (s.completed.map Prod.fst).Nodup :=
      (List.nodup_append.mp (List.nodup_append.mp h.owned_nodup).1).1
    have hmap : s.tx.freed = (s.completed.map Prod.fst).map some := by
      rw [h.freed, List.map_map]
      rfl
    rw [hmap]
    exact hnodup.map fun _ _ => Option.some.inj
  reset haborts := by
    cases hflight : s.tx.flight with
    | none => exact (h.idle hflight).2.2
    | some t =>
      have hatt := h.attempt t hflight
      constructor
      · rw [hatt.abortedBuf, if_pos haborts]
      · rw [hatt.abortedLen, hatt.off_eq haborts]

/-- **Aborted transfers resume.** In every state that callbacks reach, with any number of aborts of
each chunk, the chunks are sent exactly. -/
theorem aborted_resume (size : ℕ) (h2 : 2 ≤ size) (hsize : size ≤ 65535) (is : List CbInput)
    (s : CbState) (hrun : (callbacks size).run is = some s) : Resumed s :=
  (Machine.invariant_run CbInv (fun _ _ _ h hs => h.step h2 hsize hs) cbInv_init hrun).resumed

/-- A chunk of three bytes that is aborted twice, the second time before any byte, and a second chunk
behind it. -/
theorem aborted_resume_twice :
    Resumed (((callbacks 4).run [
      .receive ⟨[72, 105, 33], by decide⟩ fun _ => ⟨true, false⟩, .txAborted 1, .txAborted 0,
      .receive ⟨[10], by decide⟩ fun _ => ⟨true, false⟩, .txDone false]).get (by rfl)) :=
  aborted_resume 4 (by decide) (by decide) _ _ (Option.some_get _).symm

end NcsExamples.PeripheralUart
