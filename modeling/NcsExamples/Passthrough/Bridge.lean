import NcsExamples.Lib.ReservationRing
import NcsExamples.Lib.Machine

/-! # UART passthrough: `uart_cb` and its two bridges

The interrupt callback of the passthrough sample. Each of the two UARTs has a bridge that receives
on it and transmits on the other one, through a ring of its own. An invocation of `uart_cb` is one
step: the answers of the UART functions are its input, and the calls that change something outside
the rings are recorded in order. -/

namespace NcsExamples.Passthrough

/-- The two UARTs: `zephyr_console` and `uart_passthrough`. -/
inductive Dev
  | console
  | other
  deriving DecidableEq, Repr

/-- The two rings declared in the file. -/
inductive RingBuf
  | rbConsole
  | rbOther
  deriving DecidableEq, Repr

/-- `RING_BUF_SIZE`. -/
def ringBufSize : ℕ := 1024

/-- A `struct uart_bridge`. -/
structure UartBridge where
  name : String
  rxDev : Dev
  txDev : Dev
  rxRingBuf : RingBuf
  deriving DecidableEq

/-- `bridge_c2o`. -/
def bridgeC2o : UartBridge := ⟨"c2o", .console, .other, .rbConsole⟩

/-- `bridge_o2c`. -/
def bridgeO2c : UartBridge := ⟨"o2c", .other, .console, .rbOther⟩

/-- The context that `main` registers for the callback of a device. -/
def callbackCtx : Dev → UartBridge
  | .console => bridgeC2o
  | .other => bridgeO2c

/-- A call that `uart_cb` makes, as far as it can be seen outside the rings. -/
inductive Call
  /-- `printk("<<%s: UART error: 0x%x>>\n", name, err)`. -/
  | uartError (name : String) (err : ℕ)
  /-- `printk("<<%s: Ring buffer overflow>>\n", name)`. -/
  | overflow (name : String)
  /-- `uart_fifo_read(dev, buf, len)`. -/
  | fifoRead (dev : Dev) (len : ℕ)
  /-- `uart_irq_tx_enable(dev)`. -/
  | irqTxEnable (dev : Dev)
  /-- `uart_fifo_fill(dev, buf, len)`. -/
  | fifoFill (dev : Dev) (len : ℕ)
  /-- `uart_irq_tx_disable(dev)`. -/
  | irqTxDisable (dev : Dev)
  deriving DecidableEq

/-- The rings and the TX interrupts, with the histories of the bytes that came in and went out. -/
structure State where
  rings : RingBuf → ReservationRing UInt8
  /-- The TX interrupt of a device is enabled. -/
  irqTx : Dev → Bool
  /-- History: the bytes read from a device. -/
  received : Dev → List UInt8
  /-- History: the bytes a device has accepted. -/
  accepted : Dev → List UInt8

/-- An invocation of `uart_cb`, with the answers of the UART functions it may call. -/
structure Irq where
  /-- The device that raised the interrupt. -/
  dev : Dev
  /-- The device raised it because it can take bytes to transmit. -/
  txRaised : Bool
  /-- `uart_irq_update(rx_dev)`. -/
  update : Bool
  /-- `uart_irq_rx_ready(rx_dev)`. -/
  rxReady : Bool
  /-- `uart_err_check(rx_dev)`. -/
  errCheck : ℕ
  /-- `uart_fifo_read(rx_dev, ..)`: an error, or the bytes it has put in the buffer. -/
  fifoRead : Option (List UInt8)
  /-- `uart_irq_tx_ready(tx_dev)`. -/
  txReady : Bool
  /-- `uart_fifo_fill(tx_dev, ..)`. -/
  fifoFill : ℤ
  deriving DecidableEq

/-- The invocation reads bytes from the device that receives. -/
def Irq.Reads (i : Irq) : Prop :=
  (i.update && i.rxReady) = true ∧ ∃ b bs, i.fifoRead = some (b :: bs)

instance : DecidablePred Irq.Reads := fun i =>
  have : Decidable (∃ b bs, i.fifoRead = some (b :: bs)) :=
    match i.fifoRead with
    | some (b :: bs) => isTrue ⟨b, bs, rfl⟩
    | some [] | none => isFalse (by simp)
  inferInstanceAs (Decidable (_ ∧ _))

/-- One ring is replaced. -/
def State.setRing (s : State) (rb : RingBuf) (r : ReservationRing UInt8) : State :=
  { s with rings := Function.update s.rings rb r }

/-- A property of all rings holds after one is replaced if the new one has it. -/
theorem State.setRing_forall {p : ReservationRing UInt8 → Prop} {s : State}
    (h : ∀ rb, p (s.rings rb))
    (rb : RingBuf) {r : ReservationRing UInt8} (hr : p r) : ∀ rb', p ((s.setRing rb r).rings rb') :=
  fun rb' => by
    by_cases hrb : rb' = rb
    · subst hrb
      simpa [State.setRing] using hr
    · simpa [State.setRing, hrb] using h rb'

/-! ## The two directions do not meet -/

theorem rxRingBuf_inj {d e : Dev} (h : (callbackCtx d).rxRingBuf = (callbackCtx e).rxRingBuf) :
    d = e := by
  cases d <;> cases e <;> first | rfl | cases h

theorem rxDev_inj {d e : Dev} (h : (callbackCtx d).rxDev = (callbackCtx e).rxDev) : d = e := by
  cases d <;> cases e <;> first | rfl | cases h

theorem txDev_inj {d e : Dev} (h : (callbackCtx d).txDev = (callbackCtx e).txDev) : d = e := by
  cases d <;> cases e <;> first | rfl | cases h

/-- No device transmits what it receives. -/
theorem txDev_ne (d : Dev) : (callbackCtx d).txDev ≠ d := by cases d <;> decide

/-- Every device transmits the bytes of a bridge. -/
theorem exists_txDev (d : Dev) : ∃ e, (callbackCtx e).txDev = d := by
  cases d with
  | console => exact ⟨.other, rfl⟩
  | other => exact ⟨.console, rfl⟩

/-! ## The two halves of `uart_cb` -/

/-- The first half of `uart_cb`: received bytes go into the ring. -/
def uartCbRx (bridge : UartBridge) (i : Irq) (s : State) : State × List Call :=
  if i.update && i.rxReady then
    let ring := s.rings bridge.rxRingBuf
    let len := ring.putLen ringBufSize
    let s := s.setRing bridge.rxRingBuf (ring.putClaim ringBufSize)
    -- an error is printed, and the bytes are read all the same
    let errors := if i.errCheck ≠ 0 then [Call.uartError bridge.name i.errCheck] else []
    if len = 0 then (s, errors ++ [.overflow bridge.name])
    else match i.fifoRead with
      | some (b :: bs) =>
          ({ s.setRing bridge.rxRingBuf (((ring.putClaim ringBufSize).write
              (ring.putHead % ring.size) (b :: bs)).putFinish (b :: bs).length) with
              irqTx := Function.update s.irqTx bridge.txDev true
              received :=
                Function.update s.received bridge.rxDev (s.received bridge.rxDev ++ b :: bs) },
            errors ++ [.fifoRead bridge.rxDev len, .irqTxEnable bridge.txDev])
      -- an error, or no byte: the claim is not finished
      | _ => (s, errors ++ [.fifoRead bridge.rxDev len])
  else (s, [])

/-- The second half of `uart_cb`: bytes of the ring go to the transmitter. -/
def uartCbTx (bridge : UartBridge) (i : Irq) (s : State) : State × List Call :=
  if i.txReady then
    let ring := s.rings bridge.rxRingBuf
    let len := ring.getLen ringBufSize
    let s := s.setRing bridge.rxRingBuf (ring.getClaim ringBufSize)
    if 0 < len then
      if 0 < i.fifoFill then
        ({ s.setRing bridge.rxRingBuf ((ring.getClaim ringBufSize).getFinish i.fifoFill.toNat) with
            accepted := Function.update s.accepted bridge.txDev (s.accepted bridge.txDev ++
              (ring.area (ring.getHead % ring.size) len).take i.fifoFill.toNat) },
          [.fifoFill bridge.txDev len])
      else
        -- nothing was taken: the claim is not finished, and the interrupt is disabled
        ({ s with irqTx := Function.update s.irqTx bridge.txDev false },
          [.fifoFill bridge.txDev len, .irqTxDisable bridge.txDev])
    else
      ({ s with irqTx := Function.update s.irqTx bridge.txDev false }, [.irqTxDisable bridge.txDev])
  else (s, [])

/-- `uart_cb` with the context of the device that raised the interrupt. -/
def uartCb (i : Irq) (s : State) : State × List Call :=
  let (s, callsRx) := uartCbRx (callbackCtx i.dev) i s
  let (s, callsTx) := uartCbTx (callbackCtx i.dev) i s
  (s, callsRx ++ callsTx)

/-! ## What the two halves do -/

/-- The calls of the first half, none of which is about transmitting to a FIFO. -/
def Call.ofRx : Call → Prop
  | .fifoFill _ _ | .irqTxDisable _ => False
  | _ => True

/-- What the first half does: nothing, a claim on the ring that brings no byte, or a put. -/
inductive RxHalf (bridge : UartBridge) (i : Irq) (s : State) : State × List Call → Prop
  | skip : ¬ i.Reads → RxHalf bridge i s (s, [])
  | claim (calls : List Call) : (i.Reads → (s.rings bridge.rxRingBuf).putLen ringBufSize = 0) →
      (∀ c ∈ calls, c.ofRx) →
      RxHalf bridge i s
        (s.setRing bridge.rxRingBuf ((s.rings bridge.rxRingBuf).putClaim ringBufSize), calls)
  | put (b : UInt8) (bs : List UInt8) (calls : List Call) : i.Reads → i.fifoRead = some (b :: bs) →
      (∀ c ∈ calls, c.ofRx) →
      RxHalf bridge i s
        ({ s.setRing bridge.rxRingBuf ((((s.rings bridge.rxRingBuf).putClaim ringBufSize).write
              ((s.rings bridge.rxRingBuf).putHead % (s.rings bridge.rxRingBuf).size)
              (b :: bs)).putFinish (b :: bs).length) with
            irqTx := Function.update s.irqTx bridge.txDev true
            received :=
              Function.update s.received bridge.rxDev (s.received bridge.rxDev ++ b :: bs) }, calls)

/-- The first half does one of these. -/
theorem uartCbRx_cases (bridge : UartBridge) (i : Irq) (s : State) :
    RxHalf bridge i s (uartCbRx bridge i s) := by
  have herrors : ∀ c ∈ (if i.errCheck ≠ 0 then [Call.uartError bridge.name i.errCheck] else []),
      c.ofRx := by
    intro c hc
    split at hc
    · rw [List.mem_singleton.mp hc]
      trivial
    · cases hc
  have hcalls : ∀ last : List Call, (∀ c ∈ last, c.ofRx) → ∀ c ∈ (if i.errCheck ≠ 0 then
      [Call.uartError bridge.name i.errCheck] else []) ++ last, c.ofRx := fun last hlast c hc =>
    (List.mem_append.mp hc).elim (herrors c) (hlast c)
  unfold uartCbRx
  split
  · next hready =>
    dsimp only
    split
    · next hlen => exact .claim _ (fun _ => hlen) (hcalls _ (by simp [Call.ofRx]))
    · split
      · next b bs hread =>
        have hput := @RxHalf.put bridge i s b bs _ ⟨hready, b, bs, hread⟩ hread
          (hcalls [.fifoRead bridge.rxDev ((s.rings bridge.rxRingBuf).putLen ringBufSize),
            .irqTxEnable bridge.txDev] (by simp [Call.ofRx]))
        simpa only [State.setRing, Function.update_idem] using hput
      · next hno =>
        exact .claim _ (fun ⟨_, b, bs, hread⟩ => absurd hread (hno b bs))
          (hcalls _ (by simp [Call.ofRx]))
  · next hready => exact .skip fun hreads => hready hreads.1

/-- The first half transmits nothing. -/
theorem ofRx_of_mem_uartCbRx {bridge : UartBridge} {i : Irq} {s : State} {c : Call}
    (hc : c ∈ (uartCbRx bridge i s).2) : c.ofRx := by
  have hcases := uartCbRx_cases bridge i s
  generalize uartCbRx bridge i s = result at hcases hc
  cases hcases with
  | skip => cases hc
  | claim calls hlen hcalls | put b bs calls hreads hread hcalls => exact hcalls c hc

/-- The first half of `uart_cb` does not touch the consumer's side. -/
theorem uartCbRx_get (bridge : UartBridge) (i : Irq) (s : State) (rb : RingBuf) :
    ((uartCbRx bridge i s).1.rings rb).getHead = (s.rings rb).getHead ∧
      ((uartCbRx bridge i s).1.rings rb).getTail = (s.rings rb).getTail := by
  have hcases := uartCbRx_cases bridge i s
  generalize uartCbRx bridge i s = result at hcases
  have hset : ∀ r : ReservationRing UInt8, r.getHead = (s.rings bridge.rxRingBuf).getHead →
      r.getTail = (s.rings bridge.rxRingBuf).getTail →
      ((s.setRing bridge.rxRingBuf r).rings rb).getHead = (s.rings rb).getHead ∧
        ((s.setRing bridge.rxRingBuf r).rings rb).getTail = (s.rings rb).getTail := by
    intro r hhead htail
    by_cases hrb : rb = bridge.rxRingBuf
    · subst hrb
      simpa [State.setRing] using ⟨hhead, htail⟩
    · simp [State.setRing, hrb]
  cases hcases with
  | skip => exact ⟨rfl, rfl⟩
  | claim => exact hset _ rfl rfl
  | put =>
    refine hset _ ?_ ?_ <;>
      · unfold ReservationRing.putFinish
        split <;> rfl

/-- What the second half does: nothing, a get, a get that the device refuses, or the end of a
transmission. -/
inductive TxHalf (bridge : UartBridge) (i : Irq) (s : State) : State × List Call → Prop
  | skip : i.txReady = false → TxHalf bridge i s (s, [])
  | get : i.txReady = true → 0 < (s.rings bridge.rxRingBuf).getLen ringBufSize → 0 < i.fifoFill →
      TxHalf bridge i s
        ({ s.setRing bridge.rxRingBuf
              (((s.rings bridge.rxRingBuf).getClaim ringBufSize).getFinish i.fifoFill.toNat) with
            accepted := Function.update s.accepted bridge.txDev (s.accepted bridge.txDev ++
              ((s.rings bridge.rxRingBuf).area
                ((s.rings bridge.rxRingBuf).getHead % (s.rings bridge.rxRingBuf).size)
                ((s.rings bridge.rxRingBuf).getLen ringBufSize)).take i.fifoFill.toNat) },
          [.fifoFill bridge.txDev ((s.rings bridge.rxRingBuf).getLen ringBufSize)])
  | refused : i.txReady = true → 0 < (s.rings bridge.rxRingBuf).getLen ringBufSize →
      i.fifoFill ≤ 0 →
      TxHalf bridge i s
        ({ s.setRing bridge.rxRingBuf ((s.rings bridge.rxRingBuf).getClaim ringBufSize) with
            irqTx := Function.update s.irqTx bridge.txDev false },
          [.fifoFill bridge.txDev ((s.rings bridge.rxRingBuf).getLen ringBufSize),
            .irqTxDisable bridge.txDev])
  | done : i.txReady = true → (s.rings bridge.rxRingBuf).getLen ringBufSize = 0 →
      TxHalf bridge i s
        ({ s.setRing bridge.rxRingBuf ((s.rings bridge.rxRingBuf).getClaim ringBufSize) with
            irqTx := Function.update s.irqTx bridge.txDev false }, [.irqTxDisable bridge.txDev])

/-- The second half does one of these. -/
theorem uartCbTx_cases (bridge : UartBridge) (i : Irq) (s : State) :
    TxHalf bridge i s (uartCbTx bridge i s) := by
  unfold uartCbTx
  split
  · next hready =>
    dsimp only
    split
    · next hlen =>
      split
      · next hfill =>
        have hget := @TxHalf.get bridge i s hready hlen hfill
        simpa only [State.setRing, Function.update_idem] using hget
      · next hfill => exact .refused hready hlen (not_lt.mp hfill)
    · next hlen => exact .done hready (Nat.eq_zero_of_not_pos hlen)
  · next hready => exact .skip (eq_false_of_ne_true hready)

/-- The second half fills the FIFO of its transmitter and disables its interrupt, no others. -/
theorem of_mem_uartCbTx {bridge : UartBridge} {i : Irq} {s : State} {c : Call}
    (hc : c ∈ (uartCbTx bridge i s).2) :
    (∃ n, c = .fifoFill bridge.txDev n) ∨ c = .irqTxDisable bridge.txDev := by
  have hcases := uartCbTx_cases bridge i s
  generalize uartCbTx bridge i s = result at hcases hc
  cases hcases with
  | skip => cases hc
  | get => exact .inl ⟨_, List.mem_singleton.mp hc⟩
  | refused =>
    rcases List.mem_cons.mp hc with hc | hc
    exacts [.inl ⟨_, hc⟩, .inr (List.mem_singleton.mp hc)]
  | done => exact .inr (List.mem_singleton.mp hc)

/-! ## The machine -/

/-- The interrupt can be raised and the answers are possible: no function returns more than it was
asked for, and the TX interrupt that is raised is enabled. -/
structure Possible (s : State) (i : Irq) : Prop where
  read : ∀ bytes ∈ i.fifoRead,
    bytes.length ≤ (s.rings (callbackCtx i.dev).rxRingBuf).putLen ringBufSize
  fill : i.fifoFill ≤
    ((uartCbRx (callbackCtx i.dev) i s).1.rings (callbackCtx i.dev).rxRingBuf).getLen ringBufSize
  raised : i.txRaised = true → s.irqTx i.dev = true

instance (s : State) (i : Irq) : Decidable (Possible s i) :=
  decidable_of_iff
    ((∀ bytes ∈ i.fifoRead,
        bytes.length ≤ (s.rings (callbackCtx i.dev).rxRingBuf).putLen ringBufSize) ∧
      i.fifoFill ≤ ((uartCbRx (callbackCtx i.dev) i s).1.rings
        (callbackCtx i.dev).rxRingBuf).getLen ringBufSize ∧
      (i.txRaised = true → s.irqTx i.dev = true))
    ⟨fun ⟨hread, hfill, hraised⟩ => ⟨hread, hfill, hraised⟩, fun h => ⟨h.read, h.fill, h.raised⟩⟩

/-- The state that `main` leaves to the interrupts. -/
def init : State :=
  ⟨fun _ => .empty ringBufSize 0, fun _ => false, fun _ => [], fun _ => []⟩

/-- The passthrough as a machine. -/
def passthrough : Machine State Irq where
  init := init
  step s i := if Possible s i then some (uartCb i s).1 else none

end NcsExamples.Passthrough
