import NcsExamples.Passthrough.Bridge

/-! # UART passthrough: after a fill that takes nothing

A `uart_fifo_fill` that takes nothing leaves a claim open, and from then on the wrong bytes may go
out. Two things can still be said, of every run. The counts are right: a ring gives up one byte for
each byte that is transmitted, and none that was never put into its memory. And the bytes under the
open claim are not offered again before the claim is finished: if it covers the whole ring, nothing
is transmitted until another byte comes in. -/

namespace NcsExamples.Passthrough

variable {s t : State} {i : Irq} {d : Dev}

/-! ## What the operations on a ring keep -/

/-- A property of a ring and of the bytes received for it and transmitted from it is kept by the
operations of `uart_cb`, whatever the reads and the fills return. -/
structure KeptByRing (R : ReservationRing UInt8 → List UInt8 → List UInt8 → Prop) : Prop where
  putClaim : ∀ {r received accepted}, R r received accepted →
    R (r.putClaim ringBufSize) received accepted
  put : ∀ {r received accepted} {bytes : List UInt8}, R r received accepted →
    bytes.length ≤ r.putLen ringBufSize →
    R (((r.putClaim ringBufSize).write (r.putHead % r.size) bytes).putFinish bytes.length)
      (received ++ bytes) accepted
  getClaim : ∀ {r received accepted}, R r received accepted →
    R (r.getClaim ringBufSize) received accepted
  get : ∀ {r received accepted} {n : ℕ}, R r received accepted → n ≤ r.getLen ringBufSize →
    R ((r.getClaim ringBufSize).getFinish n) received
      (accepted ++ (r.area (r.getHead % r.size) (r.getLen ringBufSize)).take n)

/-- The property holds of the ring and the histories of each bridge. -/
def EachBridge (R : ReservationRing UInt8 → List UInt8 → List UInt8 → Prop) (s : State) : Prop :=
  ∀ d, R (s.rings (callbackCtx d).rxRingBuf) (s.received (callbackCtx d).rxDev)
    (s.accepted (callbackCtx d).txDev)

variable {R : ReservationRing UInt8 → List UInt8 → List UInt8 → Prop}

/-- A step of one bridge on its ring and its histories leaves those of the other alone. -/
theorem EachBridge.of_bridge (h : EachBridge R s) (d : Dev) (irqTx : Dev → Bool)
    {r : ReservationRing UInt8} {received accepted : List UInt8} (hr : R r received accepted) :
    EachBridge R { s.setRing (callbackCtx d).rxRingBuf r with
      irqTx
      received := Function.update s.received (callbackCtx d).rxDev received
      accepted := Function.update s.accepted (callbackCtx d).txDev accepted } := by
  intro e
  by_cases hde : e = d
  · subst hde
    simpa [State.setRing] using hr
  · simpa [State.setRing, mt rxRingBuf_inj hde, mt rxDev_inj hde, mt txDev_inj hde] using h e

/-- The first half of `uart_cb` keeps what the ring's operations keep. -/
theorem KeptByRing.uartCbRx (hR : KeptByRing R) (h : EachBridge R s) (hi : Possible s i) :
    EachBridge R (uartCbRx (callbackCtx i.dev) i s).1 := by
  have hcases := uartCbRx_cases (callbackCtx i.dev) i s
  generalize Passthrough.uartCbRx (callbackCtx i.dev) i s = result at hcases
  cases hcases with
  | skip => exact h
  | claim =>
    have hclaim := h.of_bridge i.dev s.irqTx (hR.putClaim (h i.dev))
    rw [Function.update_eq_self, Function.update_eq_self] at hclaim
    exact hclaim
  | put b bs calls hreads hread =>
    have hput := h.of_bridge i.dev (Function.update s.irqTx (callbackCtx i.dev).txDev true)
      (hR.put (h i.dev) (hi.read _ hread))
    rw [Function.update_eq_self] at hput
    exact hput

/-- So does the second half. -/
theorem KeptByRing.uartCbTx (hR : KeptByRing R) (h : EachBridge R s)
    (hfill : i.fifoFill ≤ (s.rings (callbackCtx i.dev).rxRingBuf).getLen ringBufSize) :
    EachBridge R (uartCbTx (callbackCtx i.dev) i s).1 := by
  have hcases := uartCbTx_cases (callbackCtx i.dev) i s
  generalize Passthrough.uartCbTx (callbackCtx i.dev) i s = result at hcases
  cases hcases with
  | skip => exact h
  | get hready hlen hpos =>
    have hle : i.fifoFill.toNat ≤ (s.rings (callbackCtx i.dev).rxRingBuf).getLen ringBufSize := by
      omega
    have hget := h.of_bridge i.dev s.irqTx (hR.get (h i.dev) hle)
    rw [Function.update_eq_self] at hget
    exact hget
  | refused | done =>
    have hclaim := h.of_bridge i.dev (Function.update s.irqTx (callbackCtx i.dev).txDev false)
      (hR.getClaim (h i.dev))
    rw [Function.update_eq_self, Function.update_eq_self] at hclaim
    exact hclaim

theorem KeptByRing.step (hR : KeptByRing R) (h : EachBridge R s)
    (hs : passthrough.step s i = some t) : EachBridge R t := by
  obtain ⟨hi, rfl⟩ := Machine.guarded_eq_some.mp hs
  exact hR.uartCbTx (hR.uartCbRx h hi) hi.fill

/-- **Bridge rule.** What the operations on a ring keep holds of both bridges in every state that is
reached. -/
theorem KeptByRing.run (hR : KeptByRing R) (hinit : R (.empty ringBufSize 0) [] [])
    {is : List Irq} (hrun : passthrough.run is = some s) : EachBridge R s :=
  Machine.invariant_run (EachBridge R) (fun _ _ _ h hs => hR.step h hs) (fun _ => hinit) hrun

/-! ## Counts and sources -/

/-- As many bytes were received as were transmitted and are in the ring. -/
structure Counted (r : ReservationRing UInt8) (received accepted : List UInt8) : Prop where
  valid : r.Valid
  size : r.size = ringBufSize
  count : received.length = accepted.length + r.contents.length

theorem counted_empty : Counted (.empty ringBufSize 0) [] [] :=
  ⟨ReservationRing.valid_empty (by decide) 0, rfl, rfl⟩

/-- A finish commits and gives back as many bytes as it is told to, whatever has been claimed. -/
theorem keptByRing_counted : KeptByRing Counted where
  putClaim h := ⟨h.valid.putClaim ringBufSize, h.size, h.count⟩
  put {r received accepted bytes} h hlen := by
    have hwritten := (h.valid.putClaim ringBufSize).write (r.putHead % r.size) bytes
    have hclaimed : bytes.length ≤ r.putHead + r.putLen ringBufSize - r.putTail := by
      have hput := h.valid.putTail_le
      omega
    refine ⟨hwritten.putFinish bytes.length, (ReservationRing.size_putFinish _ _).trans h.size, ?_⟩
    rw [hwritten.length_contents_putFinish hclaimed, ReservationRing.length_contents_write,
      ReservationRing.contents_putClaim, List.length_append, h.count, Nat.add_assoc]
  getClaim h := ⟨h.valid.getClaim ringBufSize, h.size, h.count⟩
  get {r received accepted n} h hlen := by
    have hclaimed : n ≤ r.getHead + r.getLen ringBufSize - r.getTail := by
      have hget := h.valid.getTail_le
      omega
    have hgiven := (h.valid.getClaim ringBufSize).length_contents_getFinish hclaimed
    rw [ReservationRing.contents_getClaim] at hgiven
    refine ⟨(h.valid.getClaim ringBufSize).getFinish n,
      (ReservationRing.size_getFinish _ _).trans h.size, ?_⟩
    rw [h.count, ← hgiven, List.length_append, List.length_take, ReservationRing.length_area,
      Nat.min_eq_left hlen, Nat.add_assoc]

/-- Each slot of the ring, and each byte transmitted, is one that was received or the zero that the
memory of the ring starts with. -/
structure Sourced (r : ReservationRing UInt8) (received accepted : List UInt8) : Prop where
  slots : ∀ j, r.slots j = 0 ∨ r.slots j ∈ received
  accepted : ∀ b ∈ accepted, b = 0 ∨ b ∈ received

/-- Only bytes that have been received are written to the slots, and only slots are transmitted. -/
theorem keptByRing_sourced : KeptByRing Sourced where
  putClaim h := ⟨h.slots, h.accepted⟩
  put {r received accepted bytes} h _ := by
    constructor
    · intro j
      rw [ReservationRing.slots_putFinish]
      rcases ReservationRing.slots_write_cases (r.putClaim ringBufSize) (r.putHead % r.size) bytes j
        with hnew | hold
      · exact .inr (List.mem_append_right _ hnew)
      · rw [hold]
        exact (h.slots j).imp_right (List.mem_append_left _)
    · intro b hb
      exact (h.accepted b hb).imp_right (List.mem_append_left _)
  getClaim h := ⟨h.slots, h.accepted⟩
  get {r received accepted n} h _ := by
    constructor
    · intro j
      rw [ReservationRing.slots_getFinish]
      exact h.slots j
    · intro b hb
      rcases List.mem_append.mp hb with hb | hb
      · exact h.accepted b hb
      · obtain ⟨j, -, rfl⟩ := List.mem_map.mp (List.mem_of_mem_take hb)
        exact h.slots _

/-- **What can still be said.** In every state that is reached, whatever the reads and the fills
have returned, as many bytes have been received in each direction as have been transmitted and are
in the ring; these are no more than the ring has room for; and a byte that has been transmitted was
received from the other device, or is a zero. -/
theorem passthrough_counted (is : List Irq) (s : State) (hrun : passthrough.run is = some s)
    (d : Dev) :
    (s.received (callbackCtx d).rxDev).length = (s.accepted (callbackCtx d).txDev).length +
        (s.rings (callbackCtx d).rxRingBuf).contents.length ∧
      (s.rings (callbackCtx d).rxRingBuf).contents.length ≤ ringBufSize ∧
      ∀ b ∈ s.accepted (callbackCtx d).txDev, b = 0 ∨ b ∈ s.received (callbackCtx d).rxDev := by
  have hcounted := keptByRing_counted.run counted_empty hrun d
  have hsourced := keptByRing_sourced.run
    ⟨fun _ => .inl rfl, fun _ hb => absurd hb List.not_mem_nil⟩ hrun d
  exact ⟨hcounted.count, hcounted.size ▸ hcounted.valid.length_contents_le, hsourced.accepted⟩

/-- The other device takes nothing of the first two bytes, and then the third one in the place of
the first: two bytes are left. -/
theorem passthrough_counted_refused : ∃ s, passthrough.run
      [⟨.console, false, true, true, 0, some [104, 105], true, 0⟩,
        ⟨.console, false, true, true, 0, some [106], true, 1⟩] = some s ∧
    (s.received .console).length = (s.accepted .other).length +
      (s.rings .rbConsole).contents.length :=
  ⟨_, rfl, (passthrough_counted [⟨.console, false, true, true, 0, some [104, 105], true, 0⟩,
    ⟨.console, false, true, true, 0, some [106], true, 1⟩] _ rfl .console).1⟩

/-! ## Bytes that wait -/

/-- There are bytes in the ring of `d`'s bridge, and all of them are under the claim of the
consumer. -/
def Wedged (s : State) (d : Dev) : Prop :=
  (s.rings (callbackCtx d).rxRingBuf).contents ≠ [] ∧
    (s.rings (callbackCtx d).rxRingBuf).putTail ≤ (s.rings (callbackCtx d).rxRingBuf).getHead

instance (s : State) (d : Dev) : Decidable (Wedged s d) := inferInstanceAs (Decidable (_ ∧ _))

/-- The ring of `d`'s bridge can be emptied without another byte from `d`. -/
def Flushable (s : State) (d : Dev) : Prop :=
  ∃ is t, (∀ i ∈ is, i.dev = d → ¬ i.Reads) ∧ passthrough.runFrom s is = some t ∧
    (t.rings (callbackCtx d).rxRingBuf).contents = []

/-- The interrupts of the other device leave the ring alone. -/
theorem rings_uartCb_of_ne (hd : i.dev ≠ d) :
    (uartCb i s).1.rings (callbackCtx d).rxRingBuf = s.rings (callbackCtx d).rxRingBuf := by
  have hne : (callbackCtx d).rxRingBuf ≠ (callbackCtx i.dev).rxRingBuf :=
    fun heq => hd (rxRingBuf_inj heq).symm
  have hrx : (uartCbRx (callbackCtx i.dev) i s).1.rings (callbackCtx d).rxRingBuf =
      s.rings (callbackCtx d).rxRingBuf := by
    have hcases := uartCbRx_cases (callbackCtx i.dev) i s
    generalize uartCbRx (callbackCtx i.dev) i s = result at hcases
    cases hcases with
    | skip => rfl
    | claim | put => exact Function.update_of_ne hne _ _
  have htx : ∀ u : State, (uartCbTx (callbackCtx i.dev) i u).1.rings (callbackCtx d).rxRingBuf =
      u.rings (callbackCtx d).rxRingBuf := by
    intro u
    have hcases := uartCbTx_cases (callbackCtx i.dev) i u
    generalize uartCbTx (callbackCtx i.dev) i u = result at hcases
    cases hcases with
    | skip => rfl
    | get | refused | done => exact Function.update_of_ne hne _ _
  exact (htx _).trans hrx

/-- A ring whose bytes are all claimed offers none. -/
theorem Wedged.getLen_eq_zero (h : Wedged s d) :
    (s.rings (callbackCtx d).rxRingBuf).getLen ringBufSize = 0 := by
  have hclaimed := h.2
  rw [ReservationRing.getLen, ReservationRing.available]
  omega

/-- The ring of `d`'s bridge holds the same bytes in both states. -/
def SameContents (s t : State) (d : Dev) : Prop :=
  (t.rings (callbackCtx d).rxRingBuf).contents = (s.rings (callbackCtx d).rxRingBuf).contents

/-- A claim of no byte, and one of the producer, leave a wedged ring as it is. -/
theorem Wedged.setRing (h : Wedged s d) {r : ReservationRing UInt8} {irqTx : Dev → Bool}
    (hcontents : r.contents = (s.rings (callbackCtx d).rxRingBuf).contents)
    (htail : r.putTail = (s.rings (callbackCtx d).rxRingBuf).putTail)
    (hhead : (s.rings (callbackCtx d).rxRingBuf).getHead ≤ r.getHead) :
    Wedged { s.setRing (callbackCtx d).rxRingBuf r with irqTx } d ∧
      SameContents s { s.setRing (callbackCtx d).rxRingBuf r with irqTx } d := by
  have hring : (s.setRing (callbackCtx d).rxRingBuf r).rings (callbackCtx d).rxRingBuf = r :=
    Function.update_self _ _ _
  unfold Wedged SameContents
  rw [hring, hcontents, htail]
  exact ⟨⟨h.1, h.2.trans hhead⟩, rfl⟩

/-- The first half of `uart_cb` unwedges a ring only if it reads bytes. -/
theorem Wedged.uartCbRx (h : Wedged s i.dev) (hi : ¬ i.Reads) :
    Wedged (uartCbRx (callbackCtx i.dev) i s).1 i.dev ∧
      SameContents s (Passthrough.uartCbRx (callbackCtx i.dev) i s).1 i.dev := by
  have hcases := uartCbRx_cases (callbackCtx i.dev) i s
  generalize Passthrough.uartCbRx (callbackCtx i.dev) i s = result at hcases
  cases hcases with
  | skip => exact ⟨h, rfl⟩
  | claim =>
    exact h.setRing (r := (s.rings (callbackCtx i.dev).rxRingBuf).putClaim ringBufSize) rfl rfl
      le_rfl
  | put b bs calls hreads => exact absurd hreads hi

/-- The second half of `uart_cb` has nothing to offer from a wedged ring. -/
theorem Wedged.uartCbTx (h : Wedged s i.dev) :
    Wedged (uartCbTx (callbackCtx i.dev) i s).1 i.dev ∧
      SameContents s (Passthrough.uartCbTx (callbackCtx i.dev) i s).1 i.dev := by
  have hcases := uartCbTx_cases (callbackCtx i.dev) i s
  generalize Passthrough.uartCbTx (callbackCtx i.dev) i s = result at hcases
  cases hcases with
  | skip => exact ⟨h, rfl⟩
  | get _ hlen | refused _ hlen => exact absurd h.getLen_eq_zero hlen.ne'
  | done =>
    exact h.setRing (r := (s.rings (callbackCtx i.dev).rxRingBuf).getClaim ringBufSize) rfl rfl
      (Nat.le_add_right _ _)

/-- **A wedged ring stays wedged** until another byte comes in, and keeps its bytes. -/
theorem Wedged.step (h : Wedged s d) (hi : i.dev = d → ¬ i.Reads)
    (hs : passthrough.step s i = some t) : Wedged t d ∧ SameContents s t d := by
  obtain ⟨-, rfl⟩ := Machine.guarded_eq_some.mp hs
  by_cases hd : i.dev = d
  · subst hd
    obtain ⟨hrx, hsame⟩ := h.uartCbRx (hi rfl)
    obtain ⟨htx, hsame'⟩ := hrx.uartCbTx
    exact ⟨htx, hsame'.trans hsame⟩
  · rw [Wedged, SameContents, rings_uartCb_of_ne hd]
    exact ⟨h, rfl⟩

/-- The same for a run. -/
theorem Wedged.runFrom {js : List Irq} (h : Wedged s d)
    (hjs : ∀ i ∈ js, i.dev = d → ¬ i.Reads) (hrun : passthrough.runFrom s js = some t) :
    Wedged t d ∧ SameContents s t d := by
  refine Machine.invariant_inputs (fun u => Wedged u d ∧ SameContents s u d) ?_ hjs ⟨h, rfl⟩ hrun
  rintro u i v ⟨hu, hsame⟩ hi hs
  obtain ⟨hv, hsame'⟩ := hu.step hi hs
  exact ⟨hv, hsame'.trans hsame⟩

/-- `d` raises an interrupt with which nothing comes in, and the transmitter of its bridge takes `n`
bytes. -/
def flush (d : Dev) (n : ℤ) : Irq := ⟨d, false, true, false, 0, none, true, n⟩

/-- It can take any number of the bytes that are offered. -/
theorem possible_flush {n : ℤ}
    (hn : n ≤ (s.rings (callbackCtx d).rxRingBuf).getLen ringBufSize) : Possible s (flush d n) where
  read bytes hbytes := by cases hbytes
  fill := hn
  raised hraised := by cases hraised

/-- The ring gives them up. -/
theorem rings_flush {n : ℤ} (hpos : 0 < n)
    (hn : n ≤ (s.rings (callbackCtx d).rxRingBuf).getLen ringBufSize) :
    (uartCb (flush d n) s).1.rings (callbackCtx d).rxRingBuf =
      ((s.rings (callbackCtx d).rxRingBuf).getClaim ringBufSize).getFinish n.toNat := by
  show (uartCbTx (callbackCtx d) (flush d n) s).1.rings _ = _
  have hcases := uartCbTx_cases (callbackCtx d) (flush d n) s
  generalize uartCbTx (callbackCtx d) (flush d n) s = result at hcases
  cases hcases with
  | skip hskip => cases hskip
  | get => exact Function.update_self _ _ _
  | refused _ _ hneg => exact absurd hneg (not_le.mpr hpos)
  | done _ hzero => omega

/-- A ring that is not wedged gives up bytes, and is not wedged then. -/
theorem flush_step (h : EachBridge Counted s) {n : ℤ} (hpos : 0 < n)
    (hs : passthrough.step s (flush d n) = some t) : ¬ Wedged t d ∧
      (t.rings (callbackCtx d).rxRingBuf).contents.length <
        (s.rings (callbackCtx d).rxRingBuf).contents.length := by
  obtain ⟨hi, rfl⟩ := Machine.guarded_eq_some.mp hs
  have hn : n ≤ (s.rings (callbackCtx d).rxRingBuf).getLen ringBufSize := hi.fill
  have hvalid := (h d).valid
  have hclaimed : n.toNat ≤ ((s.rings (callbackCtx d).rxRingBuf).getClaim ringBufSize).getHead -
      ((s.rings (callbackCtx d).rxRingBuf).getClaim ringBufSize).getTail := by
    have hget := hvalid.getTail_le
    show n.toNat ≤ (s.rings (callbackCtx d).rxRingBuf).getHead +
      (s.rings (callbackCtx d).rxRingBuf).getLen ringBufSize -
        (s.rings (callbackCtx d).rxRingBuf).getTail
    omega
  have hlength := (hvalid.getClaim ringBufSize).length_contents_getFinish hclaimed
  rw [ReservationRing.contents_getClaim] at hlength
  constructor
  · rintro ⟨hne, hle⟩
    rw [rings_flush hpos hn] at hne hle
    -- the claim has been finished
    rw [ReservationRing.getHead_getFinish hclaimed] at hle
    exact hne (ReservationRing.contents_eq_nil.mpr hle)
  · rw [rings_flush hpos hn]
    omega

/-- A ring that is neither empty nor wedged offers bytes. -/
theorem exists_flush_step (h : EachBridge Counted s) (hwedged : ¬ Wedged s d)
    (hne : (s.rings (callbackCtx d).rxRingBuf).contents ≠ []) :
    ∃ n t, 0 < n ∧ passthrough.step s (flush d n) = some t := by
  have hsize := (h d).valid.size_pos
  have hfree : (s.rings (callbackCtx d).rxRingBuf).getHead <
      (s.rings (callbackCtx d).rxRingBuf).putTail := not_le.mp fun hle => hwedged ⟨hne, hle⟩
  have hwrap := Nat.mod_lt (s.rings (callbackCtx d).rxRingBuf).getHead hsize
  have hlen : 0 < (s.rings (callbackCtx d).rxRingBuf).getLen ringBufSize := by
    simp only [ReservationRing.getLen, ReservationRing.available, ringBufSize]
    omega
  exact ⟨(s.rings (callbackCtx d).rxRingBuf).getLen ringBufSize, _, Int.natCast_pos.mpr hlen,
    if_pos (possible_flush le_rfl)⟩

/-- **A ring that is not wedged drains**, however many bytes each fill takes. -/
theorem comesToRest_flush (h : EachBridge Counted s) (hwedged : ¬ Wedged s d) :
    passthrough.ComesToRest (fun i => ∃ n, 0 < n ∧ i = flush d n)
      (fun t => (t.rings (callbackCtx d).rxRingBuf).contents = [])
      (s.rings (callbackCtx d).rxRingBuf).contents.length s := by
  refine Machine.comesToRest_of_measure (fun u => EachBridge Counted u ∧ ¬ Wedged u d)
    (fun u => (u.rings (callbackCtx d).rxRingBuf).contents.length) ?_ ?_ ⟨h, hwedged⟩
  · rintro u _ v ⟨hu, -⟩ ⟨n, hpos, rfl⟩ hs
    obtain ⟨hfree, hlt⟩ := flush_step hu hpos hs
    exact ⟨⟨keptByRing_counted.step hu hs, hfree⟩, hlt⟩
  · rintro u ⟨hu, hfree⟩ hne
    obtain ⟨n, v, hpos, hs⟩ := exists_flush_step hu hfree hne
    exact ⟨_, v, ⟨n, hpos, rfl⟩, hs⟩

/-- **When bytes wait for the next one.** From a state that is reached, the bytes of a ring can be
transmitted without another byte from the device that fills it exactly if not all of them are under
a claim that a fill has left open. If they are, they stay in the ring in every run in which the
device brings no byte. -/
theorem passthrough_flushable_iff (is : List Irq) (s : State) (hrun : passthrough.run is = some s)
    (d : Dev) : (Flushable s d ↔ ¬ Wedged s d) ∧
      ∀ js t, Wedged s d → (∀ i ∈ js, i.dev = d → ¬ i.Reads) →
        passthrough.runFrom s js = some t → SameContents s t d := by
  refine ⟨⟨?_, ?_⟩, fun js t hwedged hjs hrest => (hwedged.runFrom hjs hrest).2⟩
  · rintro ⟨js, t, hjs, hflush, hempty⟩ hwedged
    exact (hwedged.runFrom hjs hflush).1.1 hempty
  · intro hwedged
    obtain ⟨js, t, hjs, hflush, hempty⟩ :=
      (comesToRest_flush (keptByRing_counted.run counted_empty hrun) hwedged).exists_run
    refine ⟨js, t, fun i hi _ => ?_, hflush, hempty⟩
    obtain ⟨n, -, rfl⟩ := hjs i hi
    -- nothing is ready to be read
    rintro ⟨hready, -⟩
    cases hready

/-- The other device takes nothing of two bytes: they wait for a third one, and are still there after
an interrupt that brings none. -/
theorem passthrough_flushable_refused : ∃ s t, passthrough.run
      [⟨.console, false, true, true, 0, some [104, 105], true, 0⟩] = some s ∧
    passthrough.runFrom s [flush .console 0] = some t ∧
    ¬ Flushable s .console ∧ SameContents s t .console := by
  obtain ⟨s, hrun, hwedged, t, hflush⟩ : ∃ s, passthrough.run
      [⟨.console, false, true, true, 0, some [104, 105], true, 0⟩] = some s ∧
    Wedged s .console ∧ ∃ t, passthrough.runFrom s [flush .console 0] = some t :=
    ⟨_, rfl, by decide, _, rfl⟩
  obtain ⟨hflushable, hkept⟩ := passthrough_flushable_iff
    [⟨.console, false, true, true, 0, some [104, 105], true, 0⟩] s hrun .console
  refine ⟨s, t, hrun, hflush, fun h => hflushable.mp h hwedged, hkept _ t hwedged ?_ hflush⟩
  intro i hi _
  obtain rfl := List.mem_singleton.mp hi
  decide

end NcsExamples.Passthrough
