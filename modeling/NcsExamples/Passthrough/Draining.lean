import NcsExamples.Passthrough.Bridge

/-! # UART passthrough: the bytes that stay

A ring is drained by the TX interrupt of the device it goes to. `uart_cb` is called for that
interrupt with the context of the device that raised it, and this context drains the other ring: a
TX interrupt serves no byte of its own device. A ring is drained only as long as bytes come in with
it, and as long as every fill takes some. -/

namespace NcsExamples.Passthrough

/-- While a ring holds bytes, the TX interrupt of the device they go to is enabled. -/
def TxEnabled (s : State) : Prop :=
  ∀ d, (s.rings (callbackCtx d).rxRingBuf).contents ≠ [] → s.irqTx (callbackCtx d).txDev = true

/-- An invocation for a TX-ready interrupt serves the ring whose bytes go to the device that raised
it: it offers a byte to that device, or disables the interrupt if there is none. -/
def ServesRaised (s : State) (i : Irq) : Prop :=
  i.txRaised = true → ∀ d, (callbackCtx d).txDev = i.dev →
    if (s.rings (callbackCtx d).rxRingBuf).contents = [] then .irqTxDisable i.dev ∈ (uartCb i s).2
    else ∃ n, 0 < n ∧ .fifoFill i.dev n ∈ (uartCb i s).2

/-- An invocation strands no byte. -/
def StrandsNone (s : State) (i : Irq) (t : State) : Prop := TxEnabled t ∧ ServesRaised s i

/-- No TX-ready interrupt is raised, and a transmitter that is ready while its ring holds bytes, or
gets some, takes at least one. -/
def FillsTake (s : State) (i : Irq) : Prop :=
  i.txRaised = false ∧
    (i.txReady = true → (s.rings (callbackCtx i.dev).rxRingBuf).contents ≠ [] ∨ i.Reads →
      0 < i.fifoFill)

variable {s t : State} {i : Irq}

/-! ## A TX interrupt serves the other device -/

/-- A call that fills a FIFO or disables an interrupt is about the transmitter of the bridge. -/
theorem txDev_of_mem_calls {d : Dev} (hc : (∃ n, .fifoFill d n ∈ (uartCb i s).2) ∨
    .irqTxDisable d ∈ (uartCb i s).2) : d = (callbackCtx i.dev).txDev := by
  rcases hc with ⟨n, hc⟩ | hc <;> rcases List.mem_append.mp hc with hc | hc
  · exact (ofRx_of_mem_uartCbRx hc).elim
  · rcases of_mem_uartCbTx hc with ⟨m, hm⟩ | hm
    · exact (Call.fifoFill.inj hm).1
    · cases hm
  · exact (ofRx_of_mem_uartCbRx hc).elim
  · rcases of_mem_uartCbTx hc with ⟨m, hm⟩ | hm
    · cases hm
    · exact Call.irqTxDisable.inj hm

/-- **A TX interrupt is not served.** -/
theorem not_servesRaised (h : i.txRaised = true) : ¬ ServesRaised s i := fun hserves => by
  obtain ⟨e, he⟩ := exists_txDev i.dev
  have hring := hserves h e he
  split at hring
  · exact txDev_ne i.dev (txDev_of_mem_calls (.inr hring)).symm
  · obtain ⟨n, -, hn⟩ := hring
    exact txDev_ne i.dev (txDev_of_mem_calls (.inl ⟨n, hn⟩)).symm

/-! ## The invariant -/

/-- The rings are valid, no claim of a consumer is open, and the TX interrupts are enabled. -/
structure Drained (s : State) : Prop where
  valid : ∀ rb, (s.rings rb).Valid
  finished : ∀ rb, (s.rings rb).getHead = (s.rings rb).getTail
  enabled : TxEnabled s

theorem drained_init : Drained init where
  valid := fun _ => ReservationRing.valid_empty (by decide) 0
  finished := fun _ => rfl
  enabled := fun _ h => absurd rfl h

/-- The first half of `uart_cb` keeps the invariant: bytes that come in enable the TX interrupt. -/
theorem Drained.uartCbRx (h : Drained s) : Drained (uartCbRx (callbackCtx i.dev) i s).1 where
  valid := by
    have hvalid := h.valid (callbackCtx i.dev).rxRingBuf
    have hcases := uartCbRx_cases (callbackCtx i.dev) i s
    generalize Passthrough.uartCbRx (callbackCtx i.dev) i s = result at hcases
    cases hcases with
    | skip => exact h.valid
    | claim => exact State.setRing_forall h.valid _ (hvalid.putClaim _)
    | put =>
      exact State.setRing_forall h.valid _ (((hvalid.putClaim _).write _ _).putFinish _)
  finished := fun rb => by
    obtain ⟨hhead, htail⟩ := uartCbRx_get (callbackCtx i.dev) i s rb
    rw [hhead, htail, h.finished rb]
  enabled := fun d hd => by
    have hcases := uartCbRx_cases (callbackCtx i.dev) i s
    generalize Passthrough.uartCbRx (callbackCtx i.dev) i s = result at hcases hd
    by_cases hdev : d = i.dev
    · subst hdev
      cases hcases with
      | skip => exact h.enabled _ hd
      | claim => exact h.enabled _ (by simpa [State.setRing] using hd)
      | put => simp
    · have hring := mt rxRingBuf_inj hdev
      have htx := mt txDev_inj hdev
      cases hcases with
      | skip => exact h.enabled _ hd
      | claim => exact h.enabled _ (by simpa [State.setRing, hring] using hd)
      | put =>
        simpa [State.setRing, hring, htx] using h.enabled d
          (by simpa [State.setRing, hring] using hd)

/-- With the invariant, a ring has bytes for its transmitter exactly if it holds some. -/
theorem Drained.getLen_pos (h : Drained s) (rb : RingBuf) :
    0 < (s.rings rb).getLen ringBufSize ↔ (s.rings rb).contents ≠ [] :=
  ReservationRing.getLen_pos (h.valid rb) (h.finished rb) (by decide)

/-- After the first half of `uart_cb` there is something to claim exactly if the ring held bytes
before, or bytes were read. -/
theorem Drained.getLen_uartCbRx_pos (h : Drained s) (hi : Possible s i) :
    0 < ((Passthrough.uartCbRx (callbackCtx i.dev) i s).1.rings
        (callbackCtx i.dev).rxRingBuf).getLen ringBufSize ↔
      (s.rings (callbackCtx i.dev).rxRingBuf).contents ≠ [] ∨ i.Reads := by
  rw [(h.uartCbRx (i := i)).getLen_pos]
  have hcases := uartCbRx_cases (callbackCtx i.dev) i s
  generalize Passthrough.uartCbRx (callbackCtx i.dev) i s = result at hcases
  cases hcases with
  | skip hno => simp [hno]
  | claim calls hlen =>
    have hno : ¬ i.Reads := fun hreads => by
      obtain ⟨b, bs, hread⟩ := hreads.2
      have hle := hi.read _ hread
      simp [hlen hreads] at hle
    simp [State.setRing, hno]
  | put b bs calls hreads hread =>
    have hvalid := h.valid (callbackCtx i.dev).rxRingBuf
    have hle := hi.read _ hread
    have hput := hvalid.putTail_le
    refine iff_of_true ?_ (.inr hreads)
    simp only [State.setRing, Function.update_self]
    exact ReservationRing.contents_putFinish_ne_nil ((hvalid.putClaim ringBufSize).write _ _)
      (Nat.succ_pos _) (by simp only [ReservationRing.write, ReservationRing.putClaim]; omega)

/-- The second half of `uart_cb` keeps the invariant if a fill takes a byte. -/
theorem Drained.uartCbTx (h : Drained s)
    (hfill : i.fifoFill ≤ (s.rings (callbackCtx i.dev).rxRingBuf).getLen ringBufSize)
    (htake : i.txReady = true → 0 < (s.rings (callbackCtx i.dev).rxRingBuf).getLen ringBufSize →
      0 < i.fifoFill) : Drained (uartCbTx (callbackCtx i.dev) i s).1 := by
  have hvalid := h.valid (callbackCtx i.dev).rxRingBuf
  have hopen := h.finished (callbackCtx i.dev).rxRingBuf
  have hcases := uartCbTx_cases (callbackCtx i.dev) i s
  generalize Passthrough.uartCbTx (callbackCtx i.dev) i s = result at hcases
  cases hcases with
  | skip => exact h
  | get hready hlen hpos =>
    refine ⟨State.setRing_forall h.valid _ ((hvalid.getClaim _).getFinish _),
      State.setRing_forall (p := fun r => r.getHead = r.getTail) h.finished _ ?_, fun d hd => ?_⟩
    · exact ReservationRing.getHead_getFinish (by simp only [ReservationRing.getClaim]; omega)
    · by_cases hdev : d = i.dev
      · subst hdev
        exact h.enabled _ ((h.getLen_pos _).mp hlen)
      · exact h.enabled d (by simpa [State.setRing, mt rxRingBuf_inj hdev] using hd)
  | refused hready hlen hneg => exact absurd (htake hready hlen) (not_lt.mpr hneg)
  | done hready hlen =>
    refine ⟨State.setRing_forall h.valid _ (hvalid.getClaim _),
      State.setRing_forall (p := fun r => r.getHead = r.getTail) h.finished _ ?_, fun d hd => ?_⟩
    · simpa [ReservationRing.getClaim, hlen] using hopen
    · by_cases hdev : d = i.dev
      · subst hdev
        have hempty := (h.getLen_pos _).not.mp (Nat.not_lt.mpr hlen.le)
        simp [State.setRing, not_not.mp hempty] at hd
      · have henabled := h.enabled d (by simpa [State.setRing, mt rxRingBuf_inj hdev] using hd)
        simpa [mt txDev_inj hdev] using henabled

/-! ## Steps and runs -/

/-- A fill that takes nothing leaves bytes behind without an interrupt. -/
theorem not_txEnabled_of_refused (h : Drained s) (hready : i.txReady = true)
    (hlen : 0 < (s.rings (callbackCtx i.dev).rxRingBuf).getLen ringBufSize)
    (hfill : i.fifoFill ≤ 0) : ¬ TxEnabled (uartCbTx (callbackCtx i.dev) i s).1 := by
  have hcontents := (h.getLen_pos _).mp hlen
  have hcases := uartCbTx_cases (callbackCtx i.dev) i s
  generalize Passthrough.uartCbTx (callbackCtx i.dev) i s = result at hcases
  cases hcases with
  | skip hskip => simp [hready] at hskip
  | get _ _ hpos => omega
  | done _ hzero => omega
  | refused =>
    intro henabled
    have hoff := henabled i.dev (by simpa [State.setRing] using hcontents)
    simp at hoff

/-- An invocation strands no byte exactly if it is not for a TX-ready interrupt and a fill takes a
byte; then the invariant is kept. -/
theorem strandsNone_iff (h : Drained s) (hi : Possible s i) :
    StrandsNone s i (uartCb i s).1 ↔ FillsTake s i := by
  have hrx := h.uartCbRx (i := i)
  constructor
  · rintro ⟨henabled, hserves⟩
    refine ⟨eq_false_of_ne_true fun hraised => not_servesRaised hraised hserves,
      fun hready hbytes => ?_⟩
    by_contra hfill
    have hlen := (h.getLen_uartCbRx_pos hi).mpr hbytes
    exact not_txEnabled_of_refused hrx hready hlen (not_lt.mp hfill) henabled
  · rintro ⟨hraised, htake⟩
    have hkeep := hrx.uartCbTx hi.fill fun hready hlen =>
      htake hready ((h.getLen_uartCbRx_pos hi).mp hlen)
    exact ⟨hkeep.enabled, fun htrue => absurd (hraised.symm.trans htrue) nofun⟩

/-- **Stranded bytes.** Along a run of the passthrough no byte is ever stranded, exactly if no
TX-ready interrupt is raised in it and every `uart_fifo_fill` that is called takes at least a byte.
-/
theorem passthrough_strandsNone_iff (is : List Irq) :
    passthrough.Along StrandsNone passthrough.init is ↔ passthrough.Meets FillsTake is := by
  have hstep : ∀ s i t, passthrough.step s i = some t → Possible s i ∧ t = (uartCb i s).1 := by
    intro s i t hstep
    obtain ⟨hi, ht⟩ := Option.ite_none_right_eq_some.mp hstep
    exact ⟨hi, (Option.some.inj ht).symm⟩
  refine Machine.along_congr Drained ?_ ?_ drained_init
  · intro s i t h hs
    obtain ⟨hi, rfl⟩ := hstep s i t hs
    exact strandsNone_iff h hi
  · intro s i t h hnone hs
    obtain ⟨hi, rfl⟩ := hstep s i t hs
    have htake := ((strandsNone_iff h hi).mp hnone).2
    exact h.uartCbRx.uartCbTx hi.fill fun hready hlen =>
      htake hready ((h.getLen_uartCbRx_pos hi).mp hlen)

/-- A TX-ready interrupt of the other device: the byte for it stays, and its interrupt is not
disabled. -/
theorem passthrough_strands : ¬ ∀ is : List Irq,
    passthrough.Along StrandsNone passthrough.init is := fun h => by
  have hmeets := h [⟨.console, false, true, true, 0, some [104], false, 0⟩,
    ⟨.other, true, true, false, 0, none, true, 0⟩]
  obtain ⟨⟨-, hserves⟩, -⟩ := (hmeets _ rfl).2 _ rfl
  exact not_servesRaised rfl hserves

end NcsExamples.Passthrough
