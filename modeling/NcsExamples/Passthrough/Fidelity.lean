import NcsExamples.Passthrough.Bridge

/-! # UART passthrough: the bytes that go through

As long as every claim on a ring is finished before bytes move again on its side, each direction is
a queue: what came in is what went out and what is still in the ring. `uart_cb` does not finish a
claim when the UART has taken or given nothing; the next positive count then commits or consumes
bytes from the wrong place. -/

namespace NcsExamples.Passthrough

open ReservationRing (contents_putClaim contents_getClaim take_area_append_contents)

/-- In both directions, the bytes received are the bytes accepted by the other device and then the
bytes in the ring. -/
def StreamFaithful (s : State) : Prop :=
  ∀ d, s.received (callbackCtx d).rxDev =
    s.accepted (callbackCtx d).txDev ++ (s.rings (callbackCtx d).rxRingBuf).contents

/-- Bytes move only while the claims of their side are finished: `uart_fifo_read` gives bytes only
if no claim of the producer is open, and `uart_fifo_fill` takes some only if none of the consumer
is. -/
structure ClaimsFinished (s : State) (i : Irq) : Prop where
  put : i.Reads →
    (s.rings (callbackCtx i.dev).rxRingBuf).putHead =
      (s.rings (callbackCtx i.dev).rxRingBuf).putTail
  get : i.txReady = true → 0 < i.fifoFill →
    (s.rings (callbackCtx i.dev).rxRingBuf).getHead =
      (s.rings (callbackCtx i.dev).rxRingBuf).getTail

instance (s : State) (i : Irq) : Decidable (ClaimsFinished s i) :=
  decidable_of_iff (_ ∧ _) ⟨fun ⟨hput, hget⟩ => ⟨hput, hget⟩, fun h => ⟨h.put, h.get⟩⟩

variable {s : State} {i : Irq}

/-! ## The invariant -/

/-- The rings are valid and the streams are whole. -/
structure Faithful (s : State) : Prop where
  valid : ∀ rb, (s.rings rb).Valid
  stream : StreamFaithful s

theorem faithful_init : Faithful init where
  valid := fun _ => ReservationRing.valid_empty (by decide) 0
  stream := fun _ => rfl

/-- A step of `d`'s bridge on its ring, its histories and the TX interrupts: the streams stay whole
if that bridge's own stream does. -/
theorem Faithful.of_bridge (h : Faithful s) (d : Dev) {r : ReservationRing UInt8} (hr : r.Valid)
    (irqTx : Dev → Bool) (received accepted : List UInt8)
    (hstream : received = accepted ++ r.contents) :
    Faithful { s.setRing (callbackCtx d).rxRingBuf r with
      irqTx
      received := Function.update s.received (callbackCtx d).rxDev received
      accepted := Function.update s.accepted (callbackCtx d).txDev accepted } where
  valid := State.setRing_forall h.valid _ hr
  stream := fun e => by
    by_cases hde : e = d
    · subst hde
      simpa [State.setRing] using hstream
    · simpa [State.setRing, mt rxRingBuf_inj hde, mt rxDev_inj hde, mt txDev_inj hde]
        using h.stream e

/-- A claim alone moves no byte. -/
theorem Faithful.setRing (h : Faithful s) (d : Dev) {r : ReservationRing UInt8} (hr : r.Valid)
    (hcontents : r.contents = (s.rings (callbackCtx d).rxRingBuf).contents) (irqTx : Dev → Bool) :
    Faithful { s.setRing (callbackCtx d).rxRingBuf r with irqTx } := by
  have hbridge := h.of_bridge d hr irqTx (s.received (callbackCtx d).rxDev)
    (s.accepted (callbackCtx d).txDev) (hcontents ▸ h.stream d)
  rw [Function.update_eq_self, Function.update_eq_self] at hbridge
  exact hbridge

/-- The first half of `uart_cb` keeps the streams whole. -/
theorem Faithful.uartCbRx (h : Faithful s) (hi : Possible s i) (hok : ClaimsFinished s i) :
    Faithful (uartCbRx (callbackCtx i.dev) i s).1 := by
  have hvalid := h.valid (callbackCtx i.dev).rxRingBuf
  have hcases := uartCbRx_cases (callbackCtx i.dev) i s
  generalize Passthrough.uartCbRx (callbackCtx i.dev) i s = result at hcases
  cases hcases with
  | skip => exact h
  | claim =>
    exact h.setRing i.dev (hvalid.putClaim ringBufSize) (contents_putClaim _ _) s.irqTx
  | put b bs calls hreads hread =>
    have hput := ReservationRing.contents_putFinish hvalid (hok.put hreads)
      (hi.read _ hread)
    have hbridge := h.of_bridge i.dev
      ((((hvalid.putClaim ringBufSize).write _ (b :: bs)).putFinish _))
      (Function.update s.irqTx (callbackCtx i.dev).txDev true)
      (s.received (callbackCtx i.dev).rxDev ++ b :: bs) (s.accepted (callbackCtx i.dev).txDev)
      (by rw [hput, h.stream i.dev, List.append_assoc])
    rw [Function.update_eq_self] at hbridge
    exact hbridge

/-- The second half of `uart_cb` keeps the streams whole. -/
theorem Faithful.uartCbTx (h : Faithful s)
    (hfill : i.fifoFill ≤ (s.rings (callbackCtx i.dev).rxRingBuf).getLen ringBufSize)
    (hopen : i.txReady = true → 0 < i.fifoFill → (s.rings (callbackCtx i.dev).rxRingBuf).getHead =
      (s.rings (callbackCtx i.dev).rxRingBuf).getTail) :
    Faithful (uartCbTx (callbackCtx i.dev) i s).1 := by
  have hvalid := h.valid (callbackCtx i.dev).rxRingBuf
  have hcases := uartCbTx_cases (callbackCtx i.dev) i s
  generalize Passthrough.uartCbTx (callbackCtx i.dev) i s = result at hcases
  cases hcases with
  | skip => exact h
  | get hready hlen hpos =>
    have hle : i.fifoFill.toNat ≤ (s.rings (callbackCtx i.dev).rxRingBuf).getLen ringBufSize := by
      omega
    have htake := take_area_append_contents hvalid (hopen hready hpos) hle
    have hbridge := h.of_bridge i.dev ((hvalid.getClaim ringBufSize).getFinish i.fifoFill.toNat)
      s.irqTx (s.received (callbackCtx i.dev).rxDev) _
      (by rw [h.stream i.dev, ← htake, ← List.append_assoc])
    rw [Function.update_eq_self] at hbridge
    exact hbridge
  | refused | done => exact h.setRing i.dev (hvalid.getClaim ringBufSize) (contents_getClaim _ _) _

/-- An invocation of `uart_cb` keeps the streams whole. -/
theorem Faithful.uartCb (h : Faithful s) (hi : Possible s i) (hok : ClaimsFinished s i) :
    Faithful (uartCb i s).1 := by
  have hrx := h.uartCbRx hi hok
  obtain ⟨hhead, htail⟩ := uartCbRx_get (callbackCtx i.dev) i s (callbackCtx i.dev).rxRingBuf
  exact hrx.uartCbTx hi.fill fun hready hpos => by rw [hhead, htail, hok.get hready hpos]

/-! ## Runs -/

/-- **Fidelity.** In every state reached by invocations that find the claims finished when bytes
move, both directions have the bytes in order, each once. -/
theorem passthrough_faithful (is : List Irq) (hok : passthrough.Meets ClaimsFinished is) (s : State)
    (hrun : passthrough.run is = some s) : StreamFaithful s := by
  refine (Machine.invariant Faithful faithful_init ?_ hok hrun).stream
  intro s i t h hok hstep
  obtain ⟨hi, rfl⟩ := Machine.guarded_eq_some.mp hstep
  exact h.uartCb hi hok

/-- Two bytes from the console, of which the other device takes one, then a byte back. -/
theorem passthrough_faithful_both : StreamFaithful
    ((passthrough.run [⟨.console, false, true, true, 0, some [104, 105], false, 0⟩,
      ⟨.console, false, true, false, 0, none, true, 1⟩,
      ⟨.other, false, true, true, 0, some [106], true, 1⟩]).get (by decide)) :=
  passthrough_faithful _ (by decide) _ (Option.some_get _).symm

/-- The other device takes nothing of the first two bytes. When it takes a byte after the next one
has come in, it gets that one, and the ring gives up the first. -/
theorem passthrough_not_faithful : ¬ ∀ (is : List Irq) (s : State), passthrough.run is = some s →
    StreamFaithful s := fun h => by
  have hconsole := h [⟨.console, false, true, true, 0, some [104, 105], true, 0⟩,
    ⟨.console, false, true, true, 0, some [106], true, 1⟩] _ rfl .console
  exact absurd hconsole (by decide)

end NcsExamples.Passthrough
