import NcsExamples.PeripheralUart.ReceiveInvariant
import NcsExamples.Lib.Machine

/-! # UART to BLE: ownership of the receive buffers

A receive buffer belongs to the driver, to `fifo_uart_rx_data`, to `ble_write_thread` or to the
heap. `uart_cb` knows who owns one through `buf_release` and `current_buf` only. They say it in a
line that ends while a spare buffer is there. They do not after a late `UART_RX_RDY`, nor after most
line errors; and `ble_write_thread` does not ask whether the driver has released its buffer. -/

namespace NcsExamples.PeripheralUart

/-- Every buffer is queued at most once, freed at most once and not too early, and has an owner. -/
structure RxOwned (s : RxState) : Prop where
  /-- No buffer is queued twice. -/
  queued_once : s.queued.Nodup
  /-- No buffer is freed twice. -/
  freed_once : s.freed.Nodup
  /-- No buffer is freed that the driver holds. -/
  held : ∀ b ∈ s.driver.held, b ∉ s.freed
  /-- No buffer is freed that is in the FIFO. -/
  fifo : ∀ b ∈ s.fifo, b ∉ s.freed
  /-- `uart_cb` writes to no freed buffer. -/
  stale : s.staleWrites = []
  /-- A buffer that the driver does not hold is in the FIFO, held by `ble_write_thread`, or freed.
  -/
  owner : ∀ b < s.count, b ∉ s.driver.held → b ∈ s.fifo ∨ s.writer = some b ∨ b ∈ s.freed

/-- `uart_cb` keeps track of the owners over an input: a late report on a buffer that was queued
neither fills it nor ends a line, the static variables tell at the first release which buffer was
queued, and `ble_write_thread` is not ahead of the driver. -/
def TracksOwners (size : ℕ) (s : RxState) : RxInput → Prop
  | .rxRdy bytes => match s.driver with
    | .stopping cur filled _ true =>
        cur ∈ s.queued → filled + bytes.length ≠ size ∧ ¬ EndsLine bytes
    | _ => True
  | .rxBufReleased _ => s.TellsQueued
  | .writerFree => ∀ b ∈ s.writer, b ∉ s.driver.held
  | _ => True

instance (s : RxState) : Decidable s.TellsQueued := by
  unfold RxState.TellsQueued
  cases s.driver <;> infer_instance

instance (size : ℕ) (s : RxState) (i : RxInput) : Decidable (TracksOwners size s i) := by
  unfold TracksOwners
  cases i with
  | rxRdy bytes => dsimp only; split <;> infer_instance
  | rxBufRequest r | lineError | rxBufReleased b | rxDisabled r | work r | writerGet | writerFree =>
    dsimp only
    infer_instance

/-- The ownership of the buffers with the facts that keep it. -/
structure Ownership (size : ℕ) (s : RxState) : Prop extends RxBase size s, RxStatics s where
  queued_once : s.queued.Nodup
  freed_once : s.freed.Nodup
  held : ∀ b ∈ s.driver.held, b ∉ s.freed
  fifo : ∀ b ∈ s.fifo, b ∉ s.freed
  stale : s.staleWrites = []
  /-- The FIFO holds different buffers. -/
  fifo_once : s.fifo.Nodup
  /-- `ble_write_thread` alone holds its buffer. -/
  writer : ∀ b, s.writer = some b → b ∉ s.fifo ∧ b ∉ s.freed
  /-- A queued buffer is in the FIFO, held by `ble_write_thread`, or freed. -/
  taken : ∀ b ∈ s.queued, b ∈ s.fifo ∨ s.writer = some b ∨ b ∈ s.freed
  /-- A buffer that was neither queued nor is held was freed. -/
  returned : ∀ b < s.count, b ∉ s.driver.held → b ∉ s.queued → b ∈ s.freed

variable {size : ℕ} {s t : RxState}

/-- The invariant gives the ownership. -/
theorem Ownership.rxOwned (h : Ownership size s) : RxOwned s where
  queued_once := h.queued_once
  freed_once := h.freed_once
  held := h.held
  fifo := h.fifo
  stale := h.stale
  owner := fun b hlt hheld => by
    by_cases hq : b ∈ s.queued
    · exact h.taken b hq
    · exact .inr (.inr (h.returned b hlt hheld hq))

/-- Reception starts with the invariant. -/
theorem ownership_init {size a : ℕ} (hsize : 0 < size) : Ownership size (rxInit a) where
  toRxBase := rxBase_init hsize
  toRxStatics := ⟨nofun, nofun⟩
  queued_once := List.nodup_nil
  freed_once := List.nodup_nil
  held := fun _ _ => List.not_mem_nil
  fifo := nofun
  stale := rfl
  fifo_once := List.nodup_nil
  writer := nofun
  taken := nofun
  returned := fun b hb hheld => absurd (by simp [rxInit, Driver.held] at hb ⊢; exact hb) hheld

/-! ## Reports -/

/-- With the owners tracked, a report queues only a buffer that was never queued. -/
theorem RxRdyStep.queued_new (h : RxBase size s) {bytes : List UInt8}
    (hok : TracksOwners size s (.rxRdy bytes)) (hs : RxRdyStep size s bytes t) {b : ℕ}
    (hb : t.queued = s.queued ++ [b]) : b ∉ s.queued := by
  have hput : ∀ {cur : ℕ}, s.queued ++ [cur] = s.queued ++ [b] → cur = b := fun heq => by
    simpa using heq
  have hmore : s.queued ≠ s.queued ++ [b] := by simp
  cases hs with
  | full cur filled next hd hf | line cur filled next hd hlt hl =>
    rw [← hput hb]
    exact (h.receiving cur filled next hd).1
  | lateFull cur filled next hd hf =>
    simp only [TracksOwners, hd] at hok
    rw [← hput hb]
    exact fun hq => (hok hq).1 hf
  | lateLine cur filled next hd hlt hl =>
    simp only [TracksOwners, hd] at hok
    rw [← hput hb]
    exact fun hq => (hok hq).2 hl
  | more cur filled next hd hlt hl | lateMore cur filled next hd hlt hl => exact absurd hb hmore

/-- `UART_RX_RDY` keeps the ownership. -/
theorem Ownership.rxRdy (h : Ownership size s) {bytes : List UInt8}
    (hok : TracksOwners size s (.rxRdy bytes)) (hbase : RxBase size t) (hst : RxStatics t)
    (hs : RxRdyStep size s bytes t) : Ownership size t := by
  obtain ⟨cur, filled, hr⟩ := hs.reported
  have hcur : cur ∉ s.freed := h.held cur hr.mem_held
  have hstale : t.staleWrites = [] := by rw [hr.staleWrites, if_neg hcur, h.stale]
  have hheld : ∀ b ∈ t.driver.held, b ∉ t.freed := by
    rw [hr.held, hr.freed]
    exact h.held
  have hreturned : ∀ b < t.count, b ∉ t.driver.held → b ∉ t.queued → b ∈ t.freed := by
    rw [hr.held, hr.count, hr.freed]
    exact fun b hlt hb hbq => h.returned b hlt hb fun hq => hbq (hr.queued_of_mem hq)
  rcases hr.queue with ⟨hf, hq⟩ | ⟨hf, hq⟩
  · -- nothing was queued
    exact
      { hbase, hst with
        queued_once := hq ▸ h.queued_once, freed_once := hr.freed ▸ h.freed_once
        held := hheld, fifo := hf ▸ hr.freed ▸ h.fifo, stale := hstale
        fifo_once := hf ▸ h.fifo_once, writer := hf ▸ hr.writer ▸ hr.freed ▸ h.writer
        taken := hf ▸ hq ▸ hr.writer ▸ hr.freed ▸ h.taken, returned := hreturned }
  · -- the buffer was queued, for the first time
    have hnew : cur ∉ s.queued := hs.queued_new h.toRxBase hok hq
    have hnofifo : cur ∉ s.fifo := fun hb => hnew (h.fifo_queued cur hb)
    refine
      { hbase, hst with
        queued_once := hq ▸ nodup_put h.queued_once hnew
        freed_once := hr.freed ▸ h.freed_once, held := hheld, fifo := ?_, stale := hstale
        fifo_once := hf ▸ nodup_put h.fifo_once hnofifo, writer := ?_, taken := ?_
        returned := hreturned }
    · rw [hf, hr.freed]
      intro b hb
      rcases List.mem_append.mp hb with hb | hb
      · exact h.fifo b hb
      · rw [List.mem_singleton.mp hb]
        exact hcur
    · rw [hf, hr.freed, hr.writer]
      intro b hw
      obtain ⟨hbf, hbfreed⟩ := h.writer b hw
      have hne : b ≠ cur := ne_of_mem_of_not_mem (h.writer_queued b hw) hnew
      exact ⟨by simp [hbf, hne], hbfreed⟩
    · rw [hf, hq, hr.freed, hr.writer]
      intro b hb
      rcases List.mem_append.mp hb with hb | hb
      · exact (h.taken b hb).imp (List.mem_append_left _) id
      · exact .inl (List.mem_append_right _ hb)

/-! ## Releases and allocations -/

/-- `UART_RX_BUF_RELEASED` keeps the ownership. -/
theorem Ownership.rxBufReleased (h : Ownership size s) {b : ℕ} {d : Driver} (hok : s.TellsQueued)
    (hbase : RxBase size (uartCbRxBufReleased b { s with driver := d }))
    (hst : RxStatics (uartCbRxBufReleased b { s with driver := d }))
    (hr : ReleaseStep b s.driver d) :
    Ownership size (uartCbRxBufReleased b { s with driver := d }) := by
  obtain ⟨hb, -, hheld⟩ := hr.held h.held_nodup
  have htest : ({ s with driver := d } : RxState).releaseTest b ↔ b ∉ s.queued :=
    h.releaseTest_iff h.toRxBase hok hr
  have hother : ∀ c < s.count, c ∉ d.held → c ∉ s.queued → c ≠ b → c ∈ s.freed :=
    fun c hlt hc hcq hcb => h.returned c hlt (fun hs => hc ((hheld c).mpr ⟨hs, hcb⟩)) hcq
  by_cases hq : b ∈ s.queued
  · -- the buffer is queued, taken or freed already
    rw [uartCbRxBufReleased, if_neg fun hf => htest.mp hf hq] at hbase hst ⊢
    exact
      { hbase, hst with
        queued_once := h.queued_once, freed_once := h.freed_once
        held := fun c hc => h.held c ((hheld c).mp hc).1, fifo := h.fifo, stale := h.stale
        fifo_once := h.fifo_once, writer := h.writer, taken := h.taken
        returned := fun c hlt hc hcq => hother c hlt hc hcq fun hcb => hcq (hcb ▸ hq) }
  · -- the buffer is freed
    rw [uartCbRxBufReleased, if_pos (htest.mpr hq)] at hbase hst ⊢
    have hfreed : ∀ c, c ∈ s.freed ++ [b] ↔ c ∈ s.freed ∨ c = b := by simp
    refine
      { hbase, hst with
        queued_once := h.queued_once, freed_once := nodup_put h.freed_once (h.held b hb)
        held := ?_, fifo := ?_, stale := h.stale
        fifo_once := h.fifo_once, writer := ?_, taken := ?_, returned := ?_ }
    · intro c hc hcf
      obtain ⟨hcheld, hcb⟩ := (hheld c).mp hc
      exact ((hfreed c).mp hcf).elim (h.held c hcheld) hcb
    · intro c hc hcf
      exact ((hfreed c).mp hcf).elim (h.fifo c hc) fun hcb => hq (hcb ▸ h.fifo_queued c hc)
    · intro c hw
      refine ⟨(h.writer c hw).1, fun hcf => ?_⟩
      exact ((hfreed c).mp hcf).elim (h.writer c hw).2 fun hcb => hq (hcb ▸ h.writer_queued c hw)
    · exact fun c hc => (h.taken c hc).imp id (Or.imp id fun hcf => (hfreed c).mpr (.inl hcf))
    · intro c hlt hc hcq
      by_cases hcb : c = b
      · exact (hfreed c).mpr (.inr hcb)
      · exact (hfreed c).mpr (.inl (hother c hlt hc hcq hcb))

/-- A buffer is allocated and given to the driver, which holds what it held before as well. -/
theorem Ownership.allocHeld (h : Ownership size s) (hcount : t.count = s.count + 1)
    (hqueued : t.queued = s.queued) (hfreed : t.freed = s.freed) (hfifo : t.fifo = s.fifo)
    (hwriter : t.writer = s.writer) (hstale : t.staleWrites = s.staleWrites)
    (hheld : ∀ b, b ∈ t.driver.held ↔ b ∈ s.driver.held ∨ b = s.count)
    (hbase : RxBase size t) (hst : RxStatics t) : Ownership size t :=
  { hbase, hst with
    queued_once := hqueued ▸ h.queued_once, freed_once := hfreed ▸ h.freed_once
    held := fun b hb => by
      rw [hfreed]
      rcases (hheld b).mp hb with hb | rfl
      exacts [h.held b hb, fun hf => (h.freed_lt _ hf).ne rfl]
    fifo := hfifo ▸ hfreed ▸ h.fifo, stale := hstale.trans h.stale
    fifo_once := hfifo ▸ h.fifo_once, writer := hfifo ▸ hwriter ▸ hfreed ▸ h.writer
    taken := hfifo ▸ hqueued ▸ hwriter ▸ hfreed ▸ h.taken
    returned := fun b hlt hc hcq => by
      have hnot := mt (hheld b).mpr hc
      have hne : b ≠ s.count := fun hb => hnot (.inr hb)
      rw [hcount] at hlt
      rw [hfreed]
      exact h.returned b (lt_of_le_of_ne (Nat.le_of_lt_succ hlt) hne) (fun hb => hnot (.inl hb))
        (hqueued ▸ hcq) }

/-! ## The steps -/

/-- Every step that keeps track of the owners keeps the ownership. -/
theorem Ownership.step (hsize : 0 < size) (hmax : size ≤ 65535) (h : Ownership size s) {i : RxInput}
    (hok : TracksOwners size s i) (hs : rxStep size s i = some t) : Ownership size t := by
  have hstep := rxStep_cases hmax h.accounted hs
  have hbase := h.toRxBase.step hsize hmax hstep
  have hst := h.toRxStatics.step h.toRxBase (by rintro b rfl; exact hok) hstep
  cases hstep with
  | report bytes t hb hrdy => exact h.rxRdy hok hbase hst hrdy
  | noSpare => exact h
  | spare cur filled a hd hfresh =>
    exact h.allocHeld rfl rfl rfl rfl rfl rfl (by simp [Driver.held, hd]) hbase hst
  | lineError cur filled next hd =>
    have hheld : s.driver.held = (Driver.stopping cur filled next true).held := by rw [hd]; rfl
    exact
      { hbase, hst with
        queued_once := h.queued_once, freed_once := h.freed_once, held := hheld ▸ h.held
        fifo := h.fifo, stale := h.stale, fifo_once := h.fifo_once, writer := h.writer
        taken := h.taken, returned := hheld ▸ h.returned }
  | released b d hr => exact h.rxBufReleased hok hbase hst hr
  | disabled hd =>
    exact
      { hbase, hst with
        queued_once := h.queued_once, freed_once := h.freed_once, held := by rintro _ ⟨⟩
        fifo := h.fifo, stale := h.stale, fifo_once := h.fifo_once, writer := h.writer
        taken := h.taken
        returned := fun b hlt _ hbq => h.returned b hlt (by simp [hd, Driver.held]) hbq }
  | restart a hd hfresh | enable a hd hfresh =>
    exact h.allocHeld rfl rfl rfl rfl rfl rfl (by simp [Driver.held, hd]) hbase hst
  | retry hd => exact h
  | writerGet b rest hw hf =>
    have hnodup := h.fifo_once
    rw [hf, List.nodup_cons] at hnodup
    refine
      { hbase, hst with
        queued_once := h.queued_once, freed_once := h.freed_once, held := h.held
        fifo := fun c hc => h.fifo c (hf ▸ List.mem_cons_of_mem b hc), stale := h.stale
        fifo_once := hnodup.2, writer := ?_, taken := ?_, returned := h.returned }
    · rintro _ ⟨⟩
      exact ⟨hnodup.1, h.fifo b (hf ▸ List.mem_cons_self)⟩
    · intro c hc
      rcases h.taken c hc with hcf | hcw | hcfreed
      · rw [hf, List.mem_cons] at hcf
        rcases hcf with rfl | hcf
        exacts [.inr (.inl rfl), .inl hcf]
      · rw [hw] at hcw
        cases hcw
      · exact .inr (.inr hcfreed)
  | writerFree b hw =>
    have hbheld : b ∉ s.driver.held := hok b hw
    obtain ⟨hbfifo, hbfreed⟩ := h.writer b hw
    have hfreed : ∀ c, c ∈ s.freed ++ [b] ↔ c ∈ s.freed ∨ c = b := by simp
    refine
      { hbase, hst with
        queued_once := h.queued_once, freed_once := nodup_put h.freed_once hbfreed
        held := ?_, fifo := ?_, stale := h.stale, fifo_once := h.fifo_once, writer := by rintro _ ⟨⟩
        taken := ?_, returned := ?_ }
    · intro c hc hcf
      exact ((hfreed c).mp hcf).elim (h.held c hc) fun hcb => hbheld (hcb ▸ hc)
    · intro c hc hcf
      exact ((hfreed c).mp hcf).elim (h.fifo c hc) fun hcb => hbfifo (hcb ▸ hc)
    · intro c hc
      rcases h.taken c hc with hcf | hcw | hcfreed
      · exact .inl hcf
      · exact .inr (.inr ((hfreed c).mpr (.inr (Option.some.inj (hcw.symm.trans hw)))))
      · exact .inr (.inr ((hfreed c).mpr (.inl hcfreed)))
    · exact fun c hlt hc hcq => (hfreed c).mpr (.inl (h.returned c hlt hc hcq))

/-! ## Runs -/

/-- **Ownership.** Every state that a run reaches whose steps all keep track of the owners has every
buffer with one owner. -/
theorem receive_owned (size a : ℕ) (hsize : 1 ≤ size ∧ size ≤ 65535) (is : List RxInput)
    (hok : (receive size a).Meets (TracksOwners size) is) (s : RxState)
    (hrun : (receive size a).run is = some s) : RxOwned s :=
  (Machine.invariant (Ownership size) (ownership_init hsize.1)
    (fun _ _ _ h hok hs => h.step hsize.1 hsize.2 hok hs) hok hrun).rxOwned

/-- A line with a spare buffer, the line after it without one, and `ble_write_thread` in between. -/
theorem receive_owned_lines : RxOwned
    (((receive 4 100).run [.rxBufRequest (some 200), .rxRdy [104, 105, cr], .writerGet,
      .rxBufReleased 0, .writerFree, .rxBufReleased 1, .rxDisabled none, .work (some 100),
      .rxRdy [106, lf], .rxBufReleased 2, .rxDisabled (some 200)]).get (by decide)) :=
  receive_owned 4 100 (by decide) _ (by decide) _ (Option.some_get _).symm

/-- A late report that ends a line queues its buffer a second time. -/
theorem receive_not_owned : ¬ ∀ (size a : ℕ), 1 ≤ size ∧ size ≤ 65535 → ∀ (is : List RxInput)
    (s : RxState), (receive size a).run is = some s → RxOwned s := fun h => by
  have howned := h 4 100 (by decide) [.rxRdy [104, cr], .rxRdy [lf]] _ rfl
  exact absurd howned.queued_once (by decide)

/-! ## Where the owners are lost -/

/-- A buffer without an owner. -/
theorem not_rxOwned_of_lost {b : ℕ} (hlt : b < s.count) (hheld : b ∉ s.driver.held)
    (hfifo : b ∉ s.fifo)
    (hwriter : s.writer ≠ some b) (hfreed : b ∉ s.freed) : ¬ RxOwned s := fun h =>
  (h.owner b hlt hheld).elim hfifo fun hb => hb.elim hwriter hfreed

/-- A buffer that was never queued and is not freed has no owner once the driver has released it. -/
theorem Ownership.not_rxOwned (h : Ownership size s) {b : ℕ} (hlt : b < s.count) (hq : b ∉ s.queued)
    (hheld : b ∉ t.driver.held) (hcount : t.count = s.count) (hfifo : t.fifo = s.fifo)
    (hwriter : t.writer = s.writer) (hfreed : b ∉ t.freed) : ¬ RxOwned t := by
  refine not_rxOwned_of_lost (hcount ▸ hlt) hheld ?_ ?_ hfreed
  · rw [hfifo]
    exact fun hb => hq (h.fifo_queued b hb)
  · rw [hwriter]
    exact fun hb => hq (h.writer_queued b hb)

/-- With `buf_release` clear, a release hands the buffer back to nobody. -/
theorem release_of_clear (size a : ℕ) {b : ℕ} {d : Driver} (hd : s.driver.release b = some d)
    (hclear : s.bufRelease = false) :
    (receive size a).step s (.rxBufReleased b) = some { s with driver := d } := by
  simp [receive, rxStep, hd, uartCbRxBufReleased, RxState.releaseTest, hclear]

/-- If the static variables do not tell which buffer was queued, a buffer is lost when the driver
has released what it holds, the current buffer first. -/
theorem Ownership.lost (h : Ownership size s) {a cur filled : ℕ} {next : Option ℕ} {late : Bool}
    (hd : s.driver = .stopping cur filled next late) (hno : ¬ s.TellsQueued) :
    ∃ is t, (receive size a).runFrom s is = some t ∧ ¬ RxOwned t := by
  have hheld : s.driver.held = cur :: next.toList := by rw [hd]; rfl
  have hcur : cur ∈ s.driver.held := hheld ▸ List.mem_cons_self
  have hnodup := h.held_nodup
  rw [hheld, List.nodup_cons] at hnodup
  have hfirst : s.driver.release cur = some (.releasing next) := by simp [hd, Driver.release]
  simp only [RxState.TellsQueued, hd] at hno
  -- the spare is lost if `buf_release` is clear once the current buffer is released
  have hspare : ∀ c t, next = some c →
      (receive size a).step s (.rxBufReleased cur) = some t → t.driver = .releasing (some c) →
      t.bufRelease = false → t.count = s.count → t.fifo = s.fifo → t.writer = s.writer →
        c ∉ t.freed →
      ∃ is u, (receive size a).runFrom s is = some u ∧ ¬ RxOwned u := by
    intro c t hc ht htd hclear hcount hfifo hwriter hfreed
    have hcq : c ∉ s.queued := (h.spare c (by rw [hd, ← hc]; rfl)).1
    have hlt : c < s.count := h.held_lt c (by simp [hheld, hc])
    have hsecond := release_of_clear size a (b := c) (d := .releasing none)
      (by rw [htd]; simp [Driver.release]) hclear
    refine ⟨[.rxBufReleased cur, .rxBufReleased c], { t with driver := .releasing none }, ?_, ?_⟩
    · rw [Machine.runFrom_cons_eq_some]
      refine ⟨t, ht, ?_⟩
      rw [Machine.runFrom_cons_eq_some]
      exact ⟨_, hsecond, rfl⟩
    · exact h.not_rxOwned hlt hcq List.not_mem_nil hcount hfifo hwriter hfreed
  by_cases hq : cur ∈ s.queued
  · -- `buf_release` was cleared by a late report
    rw [if_pos hq, not_or] at hno
    obtain ⟨c, hc⟩ := Option.ne_none_iff_exists'.mp hno.1
    have hclear : s.bufRelease = false := eq_false_of_ne_true hno.2
    refine hspare c _ hc (release_of_clear size a hfirst hclear) (by rw [hc]) hclear rfl rfl rfl ?_
    exact h.held c (by simp [hheld, hc])
  · -- reception stopped before the current buffer was queued
    rw [if_neg hq] at hno
    have hstep : (receive size a).step s (.rxBufReleased cur) =
        some (uartCbRxBufReleased cur { s with driver := .releasing next }) := by
      simp only [receive, rxStep, hfirst, Option.map_some]
    by_cases htest : s.releaseTest cur
    · -- the current buffer is freed, and with it `buf_release` is cleared
      have hbranch : ({ s with driver := .releasing next } : RxState).releaseTest cur := htest
      rw [uartCbRxBufReleased, if_pos hbranch] at hstep
      obtain ⟨c, hc⟩ := Option.ne_none_iff_exists'.mp fun hnext => hno ⟨hnext, htest⟩
      refine hspare c _ hc hstep (by rw [hc]; rfl) rfl rfl rfl rfl ?_
      have hne : c ≠ cur := fun heq => hnodup.1 (by simp [hc, heq])
      have hcfreed : c ∉ s.freed := h.held c (by simp [hheld, hc])
      simpa [RxState.kFree] using ⟨hcfreed, hne⟩
    · -- the current buffer itself is lost
      have hbranch : ¬ ({ s with driver := .releasing next } : RxState).releaseTest cur := htest
      rw [uartCbRxBufReleased, if_neg hbranch] at hstep
      refine ⟨[.rxBufReleased cur], _, Machine.runFrom_cons_eq_some _ |>.mpr ⟨_, hstep, rfl⟩, ?_⟩
      exact h.not_rxOwned (h.held_lt cur hcur) hq hnodup.1 rfl rfl rfl (h.held cur hcur)

/-- **Lost owners.** Where an input does not keep track of the owners, the ownership breaks at once,
or when the driver has released the buffers it holds. -/
theorem untracked_not_owned (h : Ownership size s) (hmax : size ≤ 65535) {a : ℕ} {i : RxInput}
    (hs : rxStep size s i = some t) (hno : ¬ TracksOwners size s i) :
    ∃ is u, (receive size a).runFrom s is = some u ∧ ¬ RxOwned u := by
  have hrun : (receive size a).runFrom s [i] = some t :=
    Machine.runFrom_cons_eq_some _ |>.mpr ⟨t, hs, rfl⟩
  cases rxStep_cases hmax h.accounted hs with
  | report bytes t hb hrdy =>
    have htwice : ∀ {cur : ℕ}, cur ∈ s.queued → t.queued = s.queued ++ [cur] → ¬ RxOwned t := by
      intro cur hq hput howned
      have honce := howned.queued_once
      rw [hput] at honce
      exact List.nodup_append.mp honce |>.2.2 cur hq cur (List.mem_singleton_self cur) rfl
    refine ⟨_, t, hrun, ?_⟩
    cases hrdy with
    | full cur filled next hd hf => simp [TracksOwners, hd] at hno
    | line cur filled next hd hlt hl => simp [TracksOwners, hd] at hno
    | more cur filled next hd hlt hl => simp [TracksOwners, hd] at hno
    | lateFull cur filled next hd hf =>
      simp only [TracksOwners, hd, not_forall] at hno
      exact htwice hno.1 rfl
    | lateLine cur filled next hd hlt hl =>
      simp only [TracksOwners, hd, not_forall] at hno
      exact htwice hno.1 rfl
    | lateMore cur filled next hd hlt hl =>
      simp only [TracksOwners, hd, not_forall] at hno
      exact absurd ⟨hlt.ne, hl⟩ hno.2
  | noSpare | spare | lineError | disabled | restart | retry | enable | writerGet =>
    exact absurd trivial hno
  | released b d hr =>
    have hstop : ∃ cur filled next late, s.driver = .stopping cur filled next late := by
      by_contra hstop
      refine hno ?_
      change s.TellsQueued
      unfold RxState.TellsQueued
      split
      · next cur filled next late hd => exact absurd ⟨cur, filled, next, late, hd⟩ hstop
      · trivial
    obtain ⟨cur, filled, next, late, hd⟩ := hstop
    exact h.lost hd hno
  | writerFree b hw =>
    refine ⟨_, _, hrun, fun howned => ?_⟩
    simp only [TracksOwners, hw, Option.mem_some_iff, forall_eq', not_not] at hno
    exact howned.held b hno (List.mem_append_right _ (List.mem_singleton_self b))

end NcsExamples.PeripheralUart
