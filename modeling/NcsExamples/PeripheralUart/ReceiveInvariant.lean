import NcsExamples.PeripheralUart.ReceiveSteps

/-! # UART to BLE: what holds in every run

The facts about the receive path that need no assumption on the driver beyond its contract: which
buffers the driver holds and how far they are filled, and that a buffer which was never queued is
not freed before the driver has released it. A second invariant says what `buf_release` and
`current_buf` know about the buffers of a driver that has stopped. -/

namespace NcsExamples.PeripheralUart

/-- What holds in every state of every run. -/
structure RxBase (size : ℕ) (s : RxState) : Prop where
  /-- The driver holds allocated buffers. -/
  held_lt : ∀ b ∈ s.driver.held, b < s.count
  /-- The driver holds different buffers. -/
  held_nodup : s.driver.held.Nodup
  /-- Only allocated buffers were queued. -/
  queued_lt : ∀ b ∈ s.queued, b < s.count
  /-- Only allocated buffers were freed. -/
  freed_lt : ∀ b ∈ s.freed, b < s.count
  /-- The FIFO holds buffers that were queued. -/
  fifo_queued : ∀ b ∈ s.fifo, b ∈ s.queued
  /-- `ble_write_thread` holds a buffer that was queued. -/
  writer_queued : ∀ b, s.writer = some b → b ∈ s.queued
  /-- A buffer that the driver holds and that was never queued is not freed. -/
  live : ∀ b ∈ s.driver.held, b ∉ s.queued → b ∉ s.freed
  /-- The spare buffer is empty and was never queued. -/
  spare : ∀ b, s.driver.next = some b → b ∉ s.queued ∧ (s.cells b).len = 0 ∧ (s.cells b).data = []
  /-- The spare buffer has an address of its own. -/
  addr_ne : ∀ c b, s.driver.cur = some c → s.driver.next = some b → s.addr c ≠ s.addr b
  /-- The field `len` of the buffer being filled counts the bytes in it. -/
  fill : ∀ c f, s.driver.fill = some (c, f) →
    (s.cells c).len = f ∧ (s.cells c).data.length = f ∧ f ≤ size
  /-- A buffer is not full and not queued while the driver receives into it. -/
  receiving : ∀ c f next, s.driver = .receiving c f next → c ∉ s.queued ∧ f < size
  /-- The work is scheduled only while reception is disabled. -/
  work : s.workPending = true → s.driver = .disabled
  /-- A full buffer is queued and the spare is not to be freed. -/
  full : ∀ c next, s.driver = .full c next → c ∈ s.queued ∧ s.bufRelease = false

variable {size : ℕ} {s t : RxState}

/-- The receive path starts with the invariant. -/
theorem rxBase_init {size a : ℕ} (hsize : 0 < size) : RxBase size (rxInit a) := by
  constructor <;> simp [rxInit, Driver.held, Driver.cur, Driver.next, Driver.fill, hsize]

/-- The invariant is what the step relation relies on. -/
theorem RxBase.accounted (h : RxBase size s) : s.Accounted where
  fill := fun c f hf => ⟨(h.fill c f hf).1, (h.fill c f hf).2.1⟩
  work := h.work

/-- A driver that has a buffer is not disabled, so no work is pending. -/
theorem RxBase.not_pending (h : RxBase size s) {d : Driver} (hd : s.driver = d)
    (hne : d ≠ .disabled) : s.workPending = false :=
  eq_false_of_ne_true fun hw => hne (hd ▸ h.work hw)

/-! ## The steps -/

/-- `UART_RX_RDY` keeps the invariant: it touches only the buffer being filled. -/
theorem RxBase.rxRdy (hsize : size ≤ 65535) (h : RxBase size s) {bytes : List UInt8}
    (hs : RxRdyStep size s bytes t) : RxBase size t := by
  obtain ⟨cur, filled, hr⟩ := hs.reported
  have hcur := cur_of_fill hr.fill
  have hle := hr.le
  obtain ⟨hlen, hdata, -⟩ := h.fill cur filled hr.fill
  have haddr : ∀ b, t.addr b = s.addr b := fun b => by
    rw [RxState.addr, hr.cells]
    exact s.counted_addr cur b bytes t.driver
  -- the spare is another buffer, so the report leaves it alone
  have hspare : ∀ b, s.driver.next = some b → b ≠ cur := by
    intro b hb heq
    have hnodup := h.held_nodup
    rw [held_of_cur hcur, hb, heq] at hnodup
    simp at hnodup
  exact
    { held_lt := by rw [hr.held, hr.count]; exact h.held_lt
      held_nodup := by rw [hr.held]; exact h.held_nodup
      queued_lt := fun b hb => by
        rw [hr.count]
        rcases hr.mem_queued hb with hb | rfl
        exacts [h.queued_lt b hb, h.held_lt b hr.mem_held]
      freed_lt := by rw [hr.freed, hr.count]; exact h.freed_lt
      fifo_queued := by
        rcases hr.queue with ⟨hf, hq⟩ | ⟨hf, hq⟩ <;> rw [hf, hq] <;> intro b hb
        · exact h.fifo_queued b hb
        · exact List.mem_append.mpr ((List.mem_append.mp hb).imp (h.fifo_queued b) id)
      writer_queued := fun b hb => hr.queued_of_mem (h.writer_queued b (hr.writer ▸ hb))
      live := fun b hb hbq => by
        rw [hr.held] at hb
        rw [hr.freed]
        exact h.live b hb fun hq => hbq (hr.queued_of_mem hq)
      spare := fun b hb => by
        rw [hr.next_eq] at hb
        obtain ⟨hbq, hempty⟩ := h.spare b hb
        rw [hr.cells, s.counted_cells_of_ne (hspare b hb)]
        exact ⟨fun hq => (hr.mem_queued hq).elim hbq (hspare b hb), hempty⟩
      addr_ne := fun c b hc hb => by
        rw [haddr, haddr]
        exact h.addr_ne c b (hcur.trans (hr.cur_eq.symm.trans hc)) (hr.next_eq ▸ hb)
      fill := fun c f hc => by
        obtain ⟨rfl, rfl⟩ := Prod.mk.inj (hr.fill_eq _ hc)
        rw [hr.cells, s.counted_cells_self, hlen]
        exact ⟨Nat.mod_eq_of_lt (by omega), by rw [List.length_append, hdata], hle⟩
      receiving := fun c f next hd => by
        obtain ⟨⟨f', hd'⟩, hq, hlt⟩ := hr.receiving c f next hd
        rw [hq]
        exact ⟨(h.receiving c f' next hd').1, hlt⟩
      work := fun hw => by
        rw [h.work (hr.workPending ▸ hw)] at hcur
        cases hcur
      full := hr.full }

/-- The driver has given back `b`, before `uart_cb` looks at it. -/
theorem RxBase.released (hsize : 0 < size) (h : RxBase size s) {b : ℕ} {d : Driver}
    (hr : ReleaseStep b s.driver d) : RxBase size { s with driver := d } := by
  obtain ⟨hb, hnodup, hheld⟩ := hr.held h.held_nodup
  have hwork : s.workPending = true → d = .disabled := fun hw => by
    rw [h.work hw] at hb
    cases hb
  have hheld_lt : ∀ c ∈ d.held, c < s.count := fun c hc => h.held_lt c ((hheld c).mp hc).1
  have hlive : ∀ c ∈ d.held, c ∉ s.queued → c ∉ s.freed :=
    fun c hc hcq => h.live c ((hheld c).mp hc).1 hcq
  rcases hr.target with ⟨c, hc, rfl⟩ | ⟨left, rfl⟩
  · -- reception goes on in the spare, which is empty and was never queued
    obtain ⟨hcq, hlen, hdata⟩ := h.spare c hc
    refine
      { h with
        held_lt := hheld_lt, held_nodup := hnodup, live := hlive, work := hwork
        spare := nofun, addr_ne := nofun, fill := ?_, receiving := ?_, full := nofun }
    · rintro _ _ ⟨⟩
      exact ⟨hlen, by rw [hdata]; rfl, Nat.zero_le _⟩
    · rintro _ _ _ ⟨⟩
      exact ⟨hcq, hsize⟩
  · exact
      { h with
        held_lt := hheld_lt, held_nodup := hnodup, live := hlive, work := hwork
        spare := nofun, addr_ne := nofun, fill := nofun, receiving := nofun, full := nofun }

/-- `UART_RX_BUF_RELEASED` keeps the invariant: it frees no buffer that the driver still holds. -/
theorem RxBase.rxBufReleased (hsize : 0 < size) (h : RxBase size s) {b : ℕ} {d : Driver}
    (hr : ReleaseStep b s.driver d) :
    RxBase size (uartCbRxBufReleased b { s with driver := d }) := by
  obtain ⟨hb, hnodup, hheld⟩ := hr.held h.held_nodup
  have hbase := h.released hsize hr
  unfold uartCbRxBufReleased
  split
  · -- the buffer is freed, which the driver no longer holds
    refine { hbase with freed_lt := ?_, live := ?_, full := ?_ }
    · intro c hc
      rcases List.mem_append.mp hc with hc | hc
      · exact h.freed_lt c hc
      · rw [List.mem_singleton.mp hc]
        exact h.held_lt b hb
    · intro c hc hcq
      simp only [RxState.kFree, List.mem_append, List.mem_singleton, not_or]
      exact ⟨hbase.live c hc hcq, ((hheld c).mp hc).2⟩
    · exact fun c next hc => ⟨(hbase.full c next hc).1, rfl⟩
  · exact hbase

/-- A driver without buffers gets a new one to receive into. -/
theorem RxBase.start (hsize : 0 < size) (h : RxBase size s) (a : ℕ) :
    RxBase size { s.alloc a with driver := .receiving s.count 0 none, workPending := false } where
  held_lt := by simp [Driver.held, RxState.alloc]
  held_nodup := by simp [Driver.held]
  queued_lt := fun b hb => Nat.lt_succ_of_lt (h.queued_lt b hb)
  freed_lt := fun b hb => Nat.lt_succ_of_lt (h.freed_lt b hb)
  fifo_queued := h.fifo_queued
  writer_queued := h.writer_queued
  live := fun b hb _ hf => by
    rw [show b = s.count by simpa [Driver.held] using hb] at hf
    exact (h.freed_lt _ hf).ne rfl
  spare := nofun
  addr_ne := nofun
  fill := by
    rintro _ _ ⟨⟩
    simp [s.alloc_cells_self]
  receiving := by
    rintro _ _ _ ⟨⟩
    exact ⟨fun hq => (h.queued_lt _ hq).ne rfl, hsize⟩
  work := nofun
  full := nofun

/-- A driver that receives without a spare gets a new one. -/
theorem RxBase.giveSpare (h : RxBase size s) {cur filled a : ℕ}
    (hd : s.driver = .receiving cur filled none) (hfresh : s.Fresh a) :
    RxBase size { s.alloc a with driver := .receiving cur filled (some s.count) } := by
  have hcur : cur < s.count := h.held_lt cur (by simp [hd, Driver.held])
  obtain ⟨hcurq, hlt⟩ := h.receiving cur filled none hd
  have hcurf : cur ∉ s.freed := h.live cur (by simp [hd, Driver.held]) hcurq
  have haddr : s.addr cur ≠ a := hfresh cur hcur hcurf
  have hnew : s.count ∉ s.queued := fun hq => (h.queued_lt _ hq).ne rfl
  have hheld : ∀ b, b ∈ (Driver.receiving cur filled (some s.count)).held →
      b = cur ∨ b = s.count := by simp [Driver.held]
  refine
    { held_lt := ?_, held_nodup := ?_
      queued_lt := fun b hb => Nat.lt_succ_of_lt (h.queued_lt b hb)
      freed_lt := fun b hb => Nat.lt_succ_of_lt (h.freed_lt b hb)
      fifo_queued := h.fifo_queued
      writer_queued := h.writer_queued
      live := ?_, spare := ?_, addr_ne := ?_, fill := ?_, receiving := ?_
      work := ?_, full := by rintro _ _ ⟨⟩ }
  · intro b hb
    rcases hheld b hb with rfl | rfl
    exacts [Nat.lt_succ_of_lt hcur, Nat.lt_succ_self _]
  · simpa [Driver.held] using hcur.ne
  · intro b hb _
    rcases hheld b hb with rfl | rfl
    exacts [hcurf, fun hf => (h.freed_lt _ hf).ne rfl]
  · rintro _ ⟨⟩
    simp [hnew, RxState.alloc]
  · rintro _ _ ⟨⟩ ⟨⟩
    simpa [RxState.addr, s.alloc_cells_self, s.alloc_cells_of_lt hcur] using haddr
  · rintro _ _ ⟨⟩
    simpa [s.alloc_cells_of_lt hcur] using h.fill cur filled (by rw [hd]; rfl)
  · rintro _ _ _ ⟨⟩
    exact ⟨hcurq, hlt⟩
  · exact fun hw => absurd hw (ne_true_of_eq_false (h.not_pending hd (by simp)))

/-- A driver that stops on a line error keeps its buffers. -/
theorem RxBase.stop (h : RxBase size s) {cur filled : ℕ} {next : Option ℕ}
    (hd : s.driver = .receiving cur filled next) :
    RxBase size { s with driver := .stopping cur filled next true } := by
  have hheld : s.driver.held = (Driver.stopping cur filled next true).held := by rw [hd]; rfl
  have hcur : s.driver.cur = (Driver.stopping cur filled next true).cur := by rw [hd]; rfl
  have hnext : s.driver.next = (Driver.stopping cur filled next true).next := by rw [hd]; rfl
  have hfill : s.driver.fill = (Driver.stopping cur filled next true).fill := by rw [hd]; rfl
  exact
    { h with
      held_lt := hheld ▸ h.held_lt, held_nodup := hheld ▸ h.held_nodup, live := hheld ▸ h.live
      spare := hnext ▸ h.spare
      addr_ne := fun c b hc hb => h.addr_ne c b (hcur.trans hc) (hnext.trans hb)
      fill := hfill ▸ h.fill, receiving := nofun
      work := fun hw => absurd hw (ne_true_of_eq_false (h.not_pending hd nofun)), full := nofun }

/-- `ble_write_thread` frees a buffer that was queued. -/
theorem RxBase.writerFree (h : RxBase size s) {b : ℕ} (hw : s.writer = some b) :
    RxBase size { s.kFree b with writer := none } := by
  have hb := h.writer_queued b hw
  refine { h with freed_lt := ?_, writer_queued := nofun, live := ?_ }
  · intro c hc
    rcases List.mem_append.mp hc with hc | hc
    · exact h.freed_lt c hc
    · rw [List.mem_singleton.mp hc]
      exact h.queued_lt b hb
  · intro c hc hcq
    simp only [RxState.kFree, List.mem_append, List.mem_singleton, not_or]
    exact ⟨h.live c hc hcq, fun hcb => hcq (hcb ▸ hb)⟩

/-- **The invariant.** Every step keeps it. -/
theorem RxBase.step (hsize : 0 < size) (hmax : size ≤ 65535) (h : RxBase size s) {i : RxInput}
    (hs : RxStep size s i t) : RxBase size t := by
  cases hs with
  | report bytes t hb hstep => exact h.rxRdy hmax hstep
  | noSpare => exact h
  | spare cur filled a hd hfresh => exact h.giveSpare hd hfresh
  | lineError cur filled next hd => exact h.stop hd
  | released b d hr => exact h.rxBufReleased hsize hr
  | disabled hd =>
    exact
      { h with
        held_lt := nofun, held_nodup := List.nodup_nil, live := nofun, spare := nofun
        addr_ne := nofun, fill := nofun, receiving := nofun, work := fun _ => rfl, full := nofun }
  | restart a hd hfresh =>
    have hw : s.workPending = false := h.not_pending hd nofun
    have heq : { s.alloc a with driver := .receiving s.count 0 none, workPending := false } =
        ({ s.alloc a with driver := .receiving s.count 0 none } : RxState) := by
      rw [← hw]
      rfl
    exact heq ▸ h.start hsize a
  | retry hd => exact h
  | enable a hd hfresh => exact h.start hsize a
  | writerGet b rest hw hf =>
    exact
      { h with
        fifo_queued := fun c hc => h.fifo_queued c (hf ▸ List.mem_cons_of_mem b hc)
        writer_queued := by
          rintro _ ⟨⟩
          exact h.fifo_queued b (hf ▸ List.mem_cons_self) }
  | writerFree b hw => exact h.writerFree hw

/-! ## What `buf_release` and `current_buf` say -/

/-- When the driver releases the first buffer after reception has stopped, the static variables say
which of the buffers it holds were queued. -/
def RxState.TellsQueued (s : RxState) : Prop :=
  match s.driver with
  | .stopping cur _ next _ =>
      if cur ∈ s.queued then next = none ∨ s.bufRelease = true else next = none ∧ s.releaseTest cur
  | _ => True

/-- What the static variables of `uart_cb` say about the buffers of a driver that has stopped. -/
structure RxStatics (s : RxState) : Prop where
  /-- If a buffer is to be released, it is another one than the current buffer, when that was
  queued. -/
  stopping : ∀ cur filled next late, s.driver = .stopping cur filled next late → cur ∈ s.queued →
    s.bufRelease = true → s.currentBuf = some cur
  /-- The release test finds out whether the second buffer was queued. -/
  releasing : ∀ b, s.driver = .releasing (some b) → (s.releaseTest b ↔ b ∉ s.queued)

/-- The release test finds out whether the released buffer was queued. -/
theorem RxStatics.releaseTest_iff (hst : RxStatics s) (h : RxBase size s) (hok : s.TellsQueued)
    {b : ℕ} {d : Driver} (hr : ReleaseStep b s.driver d) : s.releaseTest b ↔ b ∉ s.queued := by
  generalize hd : s.driver = d₀ at hr
  cases hr with
  | switch c =>
    obtain ⟨hq, hrelease⟩ := h.full b (some c) hd
    simp [RxState.releaseTest, hq, hrelease]
  | last =>
    obtain ⟨hq, hrelease⟩ := h.full b none hd
    simp [RxState.releaseTest, hq, hrelease]
  | current filled next late =>
    by_cases hq : b ∈ s.queued
    · -- a queued current buffer is `current_buf`, so the test fails for it
      have hcurrent := hst.stopping b filled next late hd hq
      simp only [hq, not_true_eq_false, iff_false]
      rintro ⟨hrelease, hne⟩
      exact hne (by rw [hcurrent hrelease]; rfl)
    · simp only [RxState.TellsQueued, hd, if_neg hq] at hok
      exact ⟨fun _ => hq, fun _ => hok.2⟩
  | spare cur filled late hne =>
    obtain ⟨hq, -⟩ := h.spare b (by rw [hd]; rfl)
    have haddr := h.addr_ne cur b (by rw [hd]; rfl) (by rw [hd]; rfl)
    simp only [RxState.TellsQueued, hd, reduceCtorEq, false_or, false_and, if_false_right] at hok
    have hcurrent := hst.stopping cur filled (some b) late hd hok.1 hok.2
    simp [RxState.releaseTest, hq, hok.2, hcurrent, haddr]
  | left => exact hst.releasing b hd

/-- The second buffer to be released is recognised in the same way. -/
theorem RxStatics.releaseTest_left (hst : RxStatics s) (h : RxBase size s) (hok : s.TellsQueued)
    {b c : ℕ} (hr : ReleaseStep b s.driver (.releasing (some c))) :
    (uartCbRxBufReleased b { s with driver := .releasing (some c) }).releaseTest c ↔
      c ∉ s.queued := by
  have htest := hst.releaseTest_iff h hok hr
  have hbranch : ({ s with driver := .releasing (some c) } : RxState).releaseTest b ↔
      s.releaseTest b :=
    Iff.rfl
  generalize hd : s.driver = d₀ at hr
  cases hr with
  | current filled next late =>
    -- the first buffer was queued and stays; the spare is recognised by its address
    simp only [RxState.TellsQueued, hd, reduceCtorEq, false_or, false_and, if_false_right] at hok
    have hcurrent := hst.stopping b filled (some c) late hd hok.1 hok.2
    obtain ⟨hcq, -⟩ := h.spare c (by rw [hd]; rfl)
    have haddr := h.addr_ne b c (by rw [hd]; rfl) (by rw [hd]; rfl)
    rw [uartCbRxBufReleased, if_neg fun hf => htest.mp (hbranch.mp hf) hok.1]
    simp only [RxState.releaseTest, hok.2, hcurrent, Option.map_some, ne_eq, Option.some.injEq,
      true_and]
    exact ⟨fun _ => hcq, fun _ => haddr⟩
  | spare cur filled late hne =>
    -- the spare came first and was freed, which cleared `buf_release` for the queued buffer
    simp only [RxState.TellsQueued, hd, reduceCtorEq, false_or, false_and, if_false_right] at hok
    obtain ⟨hbq, -⟩ := h.spare b (by rw [hd]; rfl)
    rw [uartCbRxBufReleased, if_pos (hbranch.mpr (htest.mpr hbq))]
    simp [RxState.releaseTest, hok.1]

/-- A step keeps what the static variables say, if they say it when the first buffer is released. -/
theorem RxStatics.step (hst : RxStatics s) (h : RxBase size s) {i : RxInput}
    (hok : ∀ b, i = .rxBufReleased b → s.TellsQueued) (hs : RxStep size s i t) : RxStatics t := by
  cases hs with
  | report bytes t hb hstep =>
    cases hstep with
    | full cur filled next hd hf => exact ⟨nofun, nofun⟩
    | line cur filled next hd hlt hl => exact ⟨by rintro _ _ _ _ ⟨⟩ _ _; rfl, nofun⟩
    | more cur filled next hd hlt hl => exact ⟨nofun, nofun⟩
    | lateFull cur filled next hd hf => exact ⟨fun _ _ _ _ _ _ => nofun, nofun⟩
    | lateLine cur filled next hd hlt hl => exact ⟨by rintro _ _ _ _ ⟨⟩ _ _; rfl, nofun⟩
    | lateMore cur filled next hd hlt hl => exact ⟨fun _ _ _ _ _ _ => nofun, nofun⟩
  | lineError cur filled next hd =>
    -- the buffer being filled was not queued
    refine ⟨?_, nofun⟩
    rintro _ _ _ _ ⟨⟩ hq
    exact absurd hq (h.receiving cur filled next hd).1
  | released b d hr =>
    have hqueued : (uartCbRxBufReleased b { s with driver := d }).queued = s.queued := by
      unfold uartCbRxBufReleased
      split <;> rfl
    have hdriver : (uartCbRxBufReleased b { s with driver := d }).driver = d := by
      unfold uartCbRxBufReleased
      split <;> rfl
    constructor <;> rw [hdriver]
    · rcases hr.target with ⟨c, -, rfl⟩ | ⟨left, rfl⟩ <;> exact nofun
    · rw [hqueued]
      rintro c rfl
      exact hst.releaseTest_left h (hok b rfl) hr
  | spare | disabled | restart | enable => exact ⟨nofun, nofun⟩
  | noSpare | retry => exact hst
  | writerGet | writerFree => exact ⟨hst.stopping, hst.releasing⟩

end NcsExamples.PeripheralUart
