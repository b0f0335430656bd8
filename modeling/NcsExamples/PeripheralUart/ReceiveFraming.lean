import NcsExamples.PeripheralUart.ReceiveInvariant
import NcsExamples.Lib.Machine

/-! # UART to BLE: framing of the received stream

With a driver that reports nothing more once reception was disabled, and that stops for no other
reason than a full buffer without a successor, the buffers in `fifo_uart_rx_data` are the received
stream cut at line ends and at full buffers, and a spare buffer that was never filled is freed when
the driver releases it. -/

namespace NcsExamples.PeripheralUart

/-- Reception has stopped in a buffer that the driver has not released yet. -/
def Driver.isStopping : Driver → Bool
  | .stopping _ _ _ _ => true
  | _ => false

/-- The driver reports nothing after `uart_rx_disable`, and there is no line error. -/
def QuietWhenDisabled (s : RxState) : RxInput → Prop
  | .rxRdy _ => s.driver.isStopping = false
  | .lineError => False
  | _ => True

instance (s : RxState) : DecidablePred (QuietWhenDisabled s)
  | .rxRdy _ => inferInstanceAs (Decidable (_ = _))
  | .lineError => isFalse id
  | .rxBufRequest _ | .rxBufReleased _ | .rxDisabled _ | .work _ | .writerGet | .writerFree =>
      isTrue trivial

/-- A buffer is non-empty, at most full, and either full or the end of a line. -/
def Framed (size : ℕ) (contents : List UInt8) : Prop :=
  contents ≠ [] ∧ contents.length ≤ size ∧ (contents.length = size ∨ EndsLine contents)

/-- What the FIFO and the driver's buffers say about the stream. -/
structure RxFramed (size : ℕ) (s : RxState) : Prop where
  /-- The queued buffers and the partly filled one hold the bytes reported. -/
  stream : (s.queued.map s.contents).flatten ++ s.partialBytes = s.reported
  /-- No buffer is queued twice. -/
  once : s.queued.Nodup
  /-- Every queued buffer is cut at a line end or full. -/
  framed : ∀ b ∈ s.queued, Framed size (s.contents b)
  /-- A buffer without data is freed exactly once when the driver no longer holds it, and not
  before. -/
  spare : ∀ b < s.count, (s.cells b).data = [] →
    s.freed.count b = if b ∈ s.driver.held then 0 else 1

/-- The framing with the facts that keep it. -/
structure Framing (size : ℕ) (s : RxState) : Prop extends RxBase size s, RxStatics s where
  stream : (s.queued.map s.contents).flatten ++ s.partialBytes = s.reported
  once : s.queued.Nodup
  framed : ∀ b ∈ s.queued, Framed size (s.contents b)
  /-- Reception stops at a line end only: the current buffer was queued, the spare is to be freed.
  -/
  stopped : ∀ cur filled next late, s.driver = .stopping cur filled next late →
    cur ∈ s.queued ∧ s.bufRelease = true
  /-- A buffer that was neither queued nor is held was freed once. -/
  returned : ∀ b < s.count, b ∉ s.driver.held → b ∉ s.queued → s.freed.count b = 1

variable {size : ℕ} {s t : RxState}

/-- The invariant gives the framing. -/
theorem Framing.rxFramed (h : Framing size s) : RxFramed size s where
  stream := h.stream
  once := h.once
  framed := h.framed
  spare := fun b hb hdata => by
    have hbq : b ∉ s.queued := fun hq => (h.framed b hq).1 (by simp [RxState.contents, hdata])
    split
    · next hheld => exact List.count_eq_zero.mpr (h.live b hheld hbq)
    · next hheld => exact h.returned b hb hheld hbq

/-- Reception starts with the invariant. -/
theorem framing_init {size a : ℕ} (hsize : 0 < size) : Framing size (rxInit a) where
  toRxBase := rxBase_init hsize
  toRxStatics := ⟨nofun, nofun⟩
  stream := rfl
  once := List.nodup_nil
  framed := nofun
  stopped := nofun
  returned := fun b hb hheld => absurd (by simp [rxInit, Driver.held] at hb ⊢; exact hb) hheld

/-- When the first buffer is released, the static variables say which one was queued. -/
theorem Framing.tellsQueued (h : Framing size s) : s.TellsQueued := by
  unfold RxState.TellsQueued
  split
  · next cur filled next late hd =>
    obtain ⟨hq, hrelease⟩ := h.stopped cur filled next late hd
    rw [if_pos hq]
    exact .inr hrelease
  · trivial

/-! ## Reports -/

/-- A report extends the contents of its buffer. -/
theorem RxState.contents_counted_self {cur filled : ℕ} {bytes : List UInt8} {d : Driver}
    (hlen : (s.cells cur).len = filled) (hdata : (s.cells cur).data.length = filled)
    (hle : filled + bytes.length < 65536) :
    (s.counted cur bytes d).contents cur = s.contents cur ++ bytes := by
  have hcount : (filled + bytes.length) % 65536 = ((s.cells cur).data ++ bytes).length := by
    rw [Nat.mod_eq_of_lt hle, List.length_append, hdata]
  rw [RxState.contents, s.counted_cells_self, hlen, hcount, List.take_length, RxState.contents,
    hlen, ← hdata, List.take_length]

/-- A report on a buffer that is not queued leaves the queued ones alone. -/
theorem RxState.map_contents_counted (s : RxState) {cur : ℕ} (bytes : List UInt8) (d : Driver)
    (hcur : cur ∉ s.queued) :
    s.queued.map (s.counted cur bytes d).contents = s.queued.map s.contents := by
  apply List.map_congr_left
  intro b hb
  rw [RxState.contents, s.counted_cells_of_ne (ne_of_mem_of_not_mem hb hcur), RxState.contents]

/-- The report ends a buffer that the driver was receiving into: it is queued. -/
theorem Framing.queue (hsize : size ≤ 65535) (h : Framing size s) {cur filled : ℕ} {next : Option ℕ}
    {bytes : List UInt8} {d : Driver} (hd : s.driver = .receiving cur filled next) (hb : bytes ≠ [])
    (hle : filled + bytes.length ≤ size) (hend : filled + bytes.length = size ∨ EndsLine bytes) :
    ((s.queued ++ [cur]).map (s.counted cur bytes d).contents).flatten = s.reported ++ bytes ∧
      ∀ b ∈ s.queued ++ [cur], Framed size ((s.counted cur bytes d).contents b) := by
  obtain ⟨hcur, -⟩ := h.receiving cur filled next hd
  obtain ⟨hlen, hdata, -⟩ := h.fill cur filled (by rw [hd]; rfl)
  have hself :=
    RxState.contents_counted_self (d := d) hlen hdata (by omega : filled + bytes.length < 65536)
  have hpart : s.partialBytes = s.contents cur := by simp [RxState.partialBytes, hd]
  have hlength : (s.contents cur ++ bytes).length = filled + bytes.length := by
    rw [List.length_append, RxState.contents, hlen, ← hdata, List.take_length]
  constructor
  · rw [List.map_append, s.map_contents_counted bytes d hcur, List.map_singleton, hself,
      List.flatten_append, List.flatten_singleton, ← List.append_assoc, ← hpart, h.stream]
  · intro b hbq
    rcases List.mem_append.mp hbq with hbq | hbq
    · rw [RxState.contents, s.counted_cells_of_ne (ne_of_mem_of_not_mem hbq hcur)]
      exact h.framed b hbq
    · rw [List.mem_singleton.mp hbq, hself]
      refine ⟨by simp [hb], hlength ▸ hle, ?_⟩
      rcases hend with hend | hend
      · exact .inl (hlength.trans hend)
      · right
        rwa [EndsLine, List.getLast?_append_of_ne_nil _ hb]

/-- `UART_RX_RDY` keeps the framing. -/
theorem Framing.rxRdy (hsize : size ≤ 65535) (h : Framing size s) {bytes : List UInt8}
    (hb : bytes ≠ [])
    (hquiet : s.driver.isStopping = false) (hbase : RxBase size t) (hst : RxStatics t)
    (hs : RxRdyStep size s bytes t) : Framing size t := by
  have hnot : ∀ {cur filled next late}, s.driver ≠ .stopping cur filled next late := by
    intro cur filled next late hd
    rw [hd] at hquiet
    cases hquiet
  -- the buffers that are neither queued nor held stay so
  have hreturned : ∀ b < t.count, b ∉ t.driver.held → b ∉ t.queued → t.freed.count b = 1 := by
    obtain ⟨cur, filled, hr⟩ := hs.reported
    intro b hlt hheld hbq
    rw [hr.freed]
    exact h.returned b (hr.count ▸ hlt) (hr.held ▸ hheld) fun hq => hbq (hr.queued_of_mem hq)
  cases hs with
  | full cur filled next hd hf =>
    obtain ⟨hcur, -⟩ := h.receiving cur filled next hd
    obtain ⟨hstream, hframed⟩ := h.queue hsize (d := .full cur next) hd hb hf.le (.inl hf)
    exact
      { hbase, hst with
        stream := (List.append_nil _).trans hstream, once := nodup_put h.once hcur
        framed := hframed, stopped := nofun, returned := hreturned }
  | line cur filled next hd hlt hl =>
    obtain ⟨hcur, -⟩ := h.receiving cur filled next hd
    obtain ⟨hstream, hframed⟩ :=
      h.queue hsize (d := .stopping cur (filled + bytes.length) next true)
      hd hb hlt.le (.inr hl)
    refine
      { hbase, hst with
        stream := (List.append_nil _).trans hstream, once := nodup_put h.once hcur
        framed := hframed, stopped := ?_, returned := hreturned }
    rintro _ _ _ _ ⟨⟩
    exact ⟨List.mem_append_right _ (List.mem_singleton_self cur), rfl⟩
  | more cur filled next hd hlt hl =>
    obtain ⟨hcur, -⟩ := h.receiving cur filled next hd
    obtain ⟨hlen, hdata, -⟩ := h.fill cur filled (by rw [hd]; rfl)
    have hself := RxState.contents_counted_self (d := .receiving cur (filled + bytes.length) next)
      hlen hdata (by omega : filled + bytes.length < 65536)
    have hpart : s.partialBytes = s.contents cur := by simp [RxState.partialBytes, hd]
    refine
      { hbase, hst with
        stream := ?_, once := h.once, framed := ?_, stopped := nofun, returned := hreturned }
    · have hmap := s.map_contents_counted bytes (.receiving cur (filled + bytes.length) next) hcur
      change (s.queued.map _).flatten ++ (s.counted cur bytes _).contents cur = s.reported ++ bytes
      rw [hmap, hself, ← List.append_assoc, ← hpart, h.stream]
    · intro b hbq
      rw [RxState.contents, s.counted_cells_of_ne (ne_of_mem_of_not_mem hbq hcur)]
      exact h.framed b hbq
  | lateFull cur filled next hd hf => exact absurd hd hnot
  | lateLine cur filled next hd hlt hl => exact absurd hd hnot
  | lateMore cur filled next hd hlt hl => exact absurd hd hnot

/-! ## Releases and allocations -/

/-- No buffer is partly filled around a release. -/
theorem partialBytes_of_release {b : ℕ} {d : Driver} (h : RxBase size s)
    (hr : ReleaseStep b s.driver d) :
    s.partialBytes = [] ∧ ({ s with driver := d } : RxState).partialBytes = [] := by
  constructor
  · generalize hd : s.driver = d₀ at hr
    cases hr <;> simp [RxState.partialBytes, hd]
  · rcases hr.target with ⟨c, hc, rfl⟩ | ⟨left, rfl⟩
    · obtain ⟨-, hlen, -⟩ := h.spare c hc
      change s.contents c = []
      rw [RxState.contents, hlen, List.take_zero]
    · rfl

/-- `UART_RX_BUF_RELEASED` keeps the framing. -/
theorem Framing.rxBufReleased (h : Framing size s) {b : ℕ} {d : Driver}
    (hbase : RxBase size (uartCbRxBufReleased b { s with driver := d }))
    (hst : RxStatics (uartCbRxBufReleased b { s with driver := d }))
    (hr : ReleaseStep b s.driver d) :
    Framing size (uartCbRxBufReleased b { s with driver := d }) := by
  obtain ⟨hb, -, hheld⟩ := hr.held h.held_nodup
  obtain ⟨hpart, hpart'⟩ := partialBytes_of_release h.toRxBase hr
  have htest : ({ s with driver := d } : RxState).releaseTest b ↔ b ∉ s.queued :=
    h.releaseTest_iff h.toRxBase h.tellsQueued hr
  have hstream := h.stream
  rw [hpart, ← hpart'] at hstream
  have hstopped : ∀ cur filled next late, d ≠ .stopping cur filled next late := by
    rcases hr.target with ⟨c, -, rfl⟩ | ⟨left, rfl⟩ <;> exact nofun
  have hother : ∀ c < s.count, c ∉ d.held → c ∉ s.queued → c ≠ b → s.freed.count c = 1 :=
    fun c hlt hc hcq hcb => h.returned c hlt (fun hs => hc ((hheld c).mpr ⟨hs, hcb⟩)) hcq
  by_cases hq : b ∈ s.queued
  · -- a queued buffer is left to `ble_write_thread`
    rw [uartCbRxBufReleased, if_neg fun hf => htest.mp hf hq] at hbase hst ⊢
    exact
      { hbase, hst with
        stream := hstream, once := h.once, framed := h.framed
        stopped := fun cur filled next late hc => absurd hc (hstopped cur filled next late)
        returned := fun c hlt hc hcq => hother c hlt hc hcq fun hcb => hcq (hcb ▸ hq) }
  · -- an unused spare is freed, and was not freed before
    rw [uartCbRxBufReleased, if_pos (htest.mpr hq)] at hbase hst ⊢
    refine
      { hbase, hst with
        stream := hstream, once := h.once, framed := h.framed
        stopped := fun cur filled next late hc => absurd hc (hstopped cur filled next late)
        returned := ?_ }
    intro c hlt hc hcq
    change (s.freed ++ [b]).count c = 1
    rw [List.count_append]
    by_cases hcb : c = b
    · rw [hcb, List.count_eq_zero.mpr (h.live b hb hq), List.count_singleton_self]
    · rw [hother c hlt hc hcq hcb, List.count_singleton, if_neg (by simpa using Ne.symm hcb)]

/-- An allocation leaves the queued buffers alone. -/
theorem Framing.contents_alloc (h : Framing size s) (a : ℕ) :
    ∀ b ∈ s.queued, (s.alloc a).contents b = s.contents b := fun b hb => by
  rw [RxState.contents, s.alloc_cells_of_lt (h.queued_lt b hb), RxState.contents]

/-- A buffer is allocated and given to the driver, which holds what it held before as well. -/
theorem Framing.allocHeld (h : Framing size s) {a : ℕ} (hcells : t.cells = (s.alloc a).cells)
    (hcount : t.count = s.count + 1) (hqueued : t.queued = s.queued) (hfreed : t.freed = s.freed)
    (hreported : t.reported = s.reported) (hpart : t.partialBytes = s.partialBytes)
    (hheld : ∀ b, b ∈ t.driver.held ↔ b ∈ s.driver.held ∨ b = s.count)
    (hstopped : ∀ cur filled next late, t.driver ≠ .stopping cur filled next late)
    (hbase : RxBase size t) (hst : RxStatics t) : Framing size t := by
  have hcontents : ∀ b ∈ s.queued, t.contents b = s.contents b := fun b hb => by
    rw [RxState.contents, hcells]
    exact h.contents_alloc a b hb
  exact
    { hbase, hst with
      stream := by
        rw [hqueued, List.map_congr_left hcontents, hpart, hreported]
        exact h.stream
      once := hqueued ▸ h.once
      framed := fun b hb => by
        rw [hqueued] at hb
        rw [hcontents b hb]
        exact h.framed b hb
      stopped := fun cur filled next late hc => absurd hc (hstopped cur filled next late)
      returned := fun b hlt hc hcq => by
        have hnot := mt (hheld b).mpr hc
        have hne : b ≠ s.count := fun hb => hnot (.inr hb)
        rw [hcount] at hlt
        rw [hfreed]
        exact h.returned b (lt_of_le_of_ne (Nat.le_of_lt_succ hlt) hne) (fun hb => hnot (.inl hb))
          (hqueued ▸ hcq) }

/-! ## The steps -/

/-- Every step of a quiet driver keeps the framing. -/
theorem Framing.step (hsize : 0 < size) (hmax : size ≤ 65535) (h : Framing size s) {i : RxInput}
    (hok : QuietWhenDisabled s i) (hs : rxStep size s i = some t) : Framing size t := by
  have hstep := rxStep_cases hmax h.accounted hs
  have hbase := h.toRxBase.step hsize hmax hstep
  have hst := h.toRxStatics.step h.toRxBase (fun _ _ => h.tellsQueued) hstep
  cases hstep with
  | report bytes t hb hrdy => exact h.rxRdy hmax hb hok hbase hst hrdy
  | noSpare => exact h
  | spare cur filled a hd hfresh =>
    have hcur : cur < s.count := h.held_lt cur (by simp [hd, Driver.held])
    refine h.allocHeld (a := a) rfl rfl rfl rfl rfl ?_ ?_ (by rintro _ _ _ _ ⟨⟩) hbase hst
    · simp [RxState.partialBytes, hd, RxState.contents, s.alloc_cells_of_lt hcur]
    · simp [Driver.held, hd]
  | lineError cur filled next hd => exact absurd hok id
  | released b d hr => exact h.rxBufReleased hbase hst hr
  | disabled hd =>
    have hpart : s.partialBytes = [] := by simp [RxState.partialBytes, hd]
    have hstream := h.stream
    rw [hpart] at hstream
    exact
      { hbase, hst with
        stream := hstream, once := h.once, framed := h.framed, stopped := by rintro _ _ _ _ ⟨⟩
        returned := fun b hlt _ hbq => h.returned b hlt (by simp [hd, Driver.held]) hbq }
  | restart a hd hfresh | enable a hd hfresh =>
    refine h.allocHeld (a := a) rfl rfl rfl rfl rfl ?_ ?_ (by rintro _ _ _ _ ⟨⟩) hbase hst
    · simp [RxState.partialBytes, hd, RxState.contents, RxState.alloc]
    · simp [Driver.held, hd]
  | retry hd => exact h
  | writerGet b rest hw hf =>
    exact
      { hbase, hst with
        stream := h.stream, once := h.once, framed := h.framed, stopped := h.stopped
        returned := h.returned }
  | writerFree b hw =>
    -- the buffer was queued, so this is not about a spare
    have hbq := h.writer_queued b hw
    refine
      { hbase, hst with
        stream := h.stream, once := h.once, framed := h.framed, stopped := h.stopped
        returned := ?_ }
    intro c hlt hc hcq
    change (s.freed ++ [b]).count c = 1
    rw [List.count_append, h.returned c hlt hc hcq, List.count_singleton,
      if_neg (by simpa using ne_of_mem_of_not_mem hbq hcq)]

/-! ## Runs -/

/-- **Framing.** In every state that a run with a quiet driver reaches, the queued buffers cut the
reported bytes at line ends and full buffers, and unused spare buffers are freed once. -/
theorem receive_framed (size a : ℕ) (hsize : 1 ≤ size ∧ size ≤ 65535) (is : List RxInput)
    (hok : (receive size a).Meets QuietWhenDisabled is) (s : RxState)
    (hrun : (receive size a).run is = some s) : RxFramed size s :=
  (Machine.invariant (Framing size) (framing_init hsize.1)
    (fun _ _ _ h hok hs => h.step hsize.1 hsize.2 hok hs) hok hrun).rxFramed

/-- A line `hi` CR with a spare buffer, and the start of the next line: one buffer is queued, the
spare is freed, and the next line is in a third one. -/
theorem receive_framed_line : RxFramed 4
    (((receive 4 100).run [.rxBufRequest (some 200), .rxRdy [104, 105, cr], .rxBufReleased 0,
      .rxBufReleased 1, .rxDisabled none, .work (some 200), .rxRdy [106]]).get (by decide)) :=
  receive_framed 4 100 (by decide) _ (by decide) _ (Option.some_get _).symm

end NcsExamples.PeripheralUart
