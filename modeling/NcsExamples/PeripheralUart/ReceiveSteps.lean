import NcsExamples.PeripheralUart.Receive
import Mathlib.Data.List.Nodup

/-! # UART to BLE: the steps of the receive path

What each input can do to the state, said once for the invariants of the receive path: a report
fills its buffer, ends a line or does neither, a release takes one of the driver's buffers, and an
allocation gives the driver one. -/

namespace NcsExamples.PeripheralUart

/-- The buffer being filled, or just filled. -/
def Driver.cur : Driver → Option ℕ
  | .receiving cur _ _ | .full cur _ | .stopping cur _ _ _ => some cur
  | .disabled | .releasing _ => none

/-- The spare buffer. -/
def Driver.next : Driver → Option ℕ
  | .receiving _ _ next | .full _ next | .stopping _ _ next _ => next
  | .disabled | .releasing _ => none

/-- The buffer that may still be reported on, with the number of bytes reported. -/
def Driver.fill : Driver → Option (ℕ × ℕ)
  | .receiving cur filled _ | .stopping cur filled _ _ => some (cur, filled)
  | .disabled | .full _ _ | .releasing _ => none

/-! ## A report is counted in its buffer -/

/-- The last of the reported bytes is LF or CR. -/
def EndsLine (bytes : List UInt8) : Prop := bytes.getLast? = some lf ∨ bytes.getLast? = some cr

instance : DecidablePred EndsLine := fun _ => inferInstanceAs (Decidable (_ ∨ _))

/-- The state in the branch `UART_RX_RDY` once the report is counted in `len`. -/
def RxState.counted (s : RxState) (cur : ℕ) (bytes : List UInt8) (driver : Driver) : RxState :=
  { (s.receive cur bytes driver).addLen cur bytes.length with bufRelease := false }

/-- A report appends to the buffer it is about. -/
theorem RxState.counted_cells_self (s : RxState) (cur : ℕ) (bytes : List UInt8) (driver : Driver) :
    (s.counted cur bytes driver).cells cur =
      ⟨s.addr cur, ((s.cells cur).len + bytes.length) % 65536, (s.cells cur).data ++ bytes⟩ := by
  simp [RxState.counted, RxState.addLen, RxState.receive, RxState.addr]

/-- A report leaves the other buffers alone. -/
theorem RxState.counted_cells_of_ne (s : RxState) {cur b : ℕ} (hb : b ≠ cur) (bytes : List UInt8)
    (driver : Driver) : (s.counted cur bytes driver).cells b = s.cells b := by
  simp [RxState.counted, RxState.addLen, RxState.receive, hb]

/-- A report moves no buffer to another address. -/
@[simp] theorem RxState.counted_addr (s : RxState) (cur b : ℕ) (bytes : List UInt8)
    (driver : Driver) : (s.counted cur bytes driver).addr b = s.addr b := by
  by_cases hb : b = cur
  · rw [hb, RxState.addr, s.counted_cells_self]
  · rw [RxState.addr, s.counted_cells_of_ne hb, RxState.addr]

/-- What `UART_RX_RDY` can do: the report fills the buffer, ends a line or does neither, while the
driver receives or as the late report after reception has stopped. -/
inductive RxRdyStep (size : ℕ) (s : RxState) (bytes : List UInt8) : RxState → Prop
  | full (cur filled : ℕ) (next : Option ℕ) : s.driver = .receiving cur filled next →
      filled + bytes.length = size →
      RxRdyStep size s bytes ((s.counted cur bytes (.full cur next)).put cur)
  | line (cur filled : ℕ) (next : Option ℕ) : s.driver = .receiving cur filled next →
      filled + bytes.length < size → EndsLine bytes →
      RxRdyStep size s bytes
        { (s.counted cur bytes (.stopping cur (filled + bytes.length) next true)).put cur with
          currentBuf := some cur, bufRelease := true }
  | more (cur filled : ℕ) (next : Option ℕ) : s.driver = .receiving cur filled next →
      filled + bytes.length < size → ¬ EndsLine bytes →
      RxRdyStep size s bytes (s.counted cur bytes (.receiving cur (filled + bytes.length) next))
  | lateFull (cur filled : ℕ) (next : Option ℕ) : s.driver = .stopping cur filled next true →
      filled + bytes.length = size →
      RxRdyStep size s bytes
        ((s.counted cur bytes (.stopping cur (filled + bytes.length) next false)).put cur)
  | lateLine (cur filled : ℕ) (next : Option ℕ) : s.driver = .stopping cur filled next true →
      filled + bytes.length < size → EndsLine bytes →
      RxRdyStep size s bytes
        { (s.counted cur bytes (.stopping cur (filled + bytes.length) next false)).put cur with
          currentBuf := some cur, bufRelease := true }
  | lateMore (cur filled : ℕ) (next : Option ℕ) : s.driver = .stopping cur filled next true →
      filled + bytes.length < size → ¬ EndsLine bytes →
      RxRdyStep size s bytes
        (s.counted cur bytes (.stopping cur (filled + bytes.length) next false))

/-! ## `UART_RX_RDY` makes one of six steps -/

/-- What the step relation below relies on: the field `len` counts the bytes of the buffer being
filled, and the work is scheduled only while reception is disabled. -/
structure RxState.Accounted (s : RxState) : Prop where
  fill : ∀ c f, s.driver.fill = some (c, f) → (s.cells c).len = f ∧ (s.cells c).data.length = f
  work : s.workPending = true → s.driver = .disabled

variable {size : ℕ} {s t : RxState}

/-- With the report counted, the byte the code looks at is the last one reported. -/
theorem lineEnd_counted {cur : ℕ} {bytes : List UInt8} {d : Driver} (hb : bytes ≠ [])
    (hlen : (s.cells cur).len = (s.cells cur).data.length)
    (hlt : (s.cells cur).len + bytes.length < 65536) :
    (s.counted cur bytes d).lineEnd cur ↔ EndsLine bytes := by
  have hpos : 0 < bytes.length := List.length_pos_iff.mpr hb
  have hlast : ((s.cells cur).data ++ bytes).getD
      (((s.cells cur).len + bytes.length) % 65536 - 1) 0 = bytes.getLast hb := by
    rw [Nat.mod_eq_of_lt hlt, hlen, List.getD_eq_getElem?_getD,
      List.getElem?_append_right (by omega),
      List.getLast_eq_getElem hb, show (s.cells cur).data.length + bytes.length - 1 -
        (s.cells cur).data.length = bytes.length - 1 by omega, List.getElem?_eq_getElem (by omega)]
    rfl
  simp only [RxState.lineEnd, EndsLine, s.counted_cells_self, hlast,
    List.getLast?_eq_some_getLast hb,
    Option.some.injEq]

/-- The branch `UART_RX_RDY`, by what the report does to the buffer. -/
theorem uartCbRxRdy_receive (hsize : size ≤ 65535) {cur filled : ℕ} {bytes : List UInt8}
    {d : Driver}
    (hb : bytes ≠ []) (hle : filled + bytes.length ≤ size) (hlen : (s.cells cur).len = filled)
    (hdata : (s.cells cur).data.length = filled) :
    uartCbRxRdy size cur bytes.length (s.receive cur bytes d) =
      if filled + bytes.length = size then (s.counted cur bytes d).put cur
      else if EndsLine bytes then
        RxState.rxDisable
          { (s.counted cur bytes d).put cur with currentBuf := some cur, bufRelease := true }
      else s.counted cur bytes d := by
  have hcount : ((s.counted cur bytes d).cells cur).len = filled + bytes.length := by
    rw [s.counted_cells_self, hlen]
    exact Nat.mod_eq_of_lt (by omega)
  have hline := lineEnd_counted (s := s) (d := d) hb (hlen.trans hdata.symm) (by omega)
  have hbranch : uartCbRxRdy size cur bytes.length (s.receive cur bytes d) =
      if ((s.counted cur bytes d).cells cur).len = size then (s.counted cur bytes d).put cur
      else if (s.counted cur bytes d).lineEnd cur then
        RxState.rxDisable
          { (s.counted cur bytes d).put cur with currentBuf := some cur, bufRelease := true }
      else s.counted cur bytes d := rfl
  -- `len` is the number of bytes reported, so the two tests are about the report
  rw [hbranch, hcount]
  simp only [hline]

/-- `UART_RX_RDY` does one of the six things. -/
theorem rxRdy_cases (hsize : size ≤ 65535) (h : s.Accounted) {bytes : List UInt8}
    (hs : rxStep size s (.rxRdy bytes) = some t) : bytes ≠ [] ∧ RxRdyStep size s bytes t := by
  simp only [rxStep] at hs
  split at hs
  · -- the driver is receiving: a full buffer also changes what it does next
    next cur filled next hd =>
    obtain ⟨⟨hb, hle⟩, hs⟩ := Option.ite_none_right_eq_some.mp hs
    obtain ⟨hlen, hdata⟩ := h.fill cur filled (by simp [hd, Driver.fill])
    rw [uartCbRxRdy_receive hsize hb hle hlen hdata] at hs
    refine ⟨hb, ?_⟩
    unfold Driver.afterReport at hs
    by_cases hfull : filled + bytes.length = size
    · simp only [if_pos hfull] at hs
      exact Option.some.inj hs ▸ .full cur filled next hd hfull
    · have hlt : filled + bytes.length < size := lt_of_le_of_ne hle hfull
      simp only [if_neg hfull] at hs
      by_cases hline : EndsLine bytes
      · rw [if_pos hline] at hs
        exact Option.some.inj hs ▸ .line cur filled next hd hlt hline
      · rw [if_neg hline] at hs
        exact Option.some.inj hs ▸ .more cur filled next hd hlt hline
  · -- the late report: `uart_rx_disable` does nothing, reception has stopped
    next cur filled next hd =>
    obtain ⟨⟨hb, hle⟩, hs⟩ := Option.ite_none_right_eq_some.mp hs
    obtain ⟨hlen, hdata⟩ := h.fill cur filled (by simp [hd, Driver.fill])
    rw [uartCbRxRdy_receive hsize hb hle hlen hdata] at hs
    refine ⟨hb, ?_⟩
    by_cases hfull : filled + bytes.length = size
    · rw [if_pos hfull] at hs
      exact Option.some.inj hs ▸ .lateFull cur filled next hd hfull
    · have hlt : filled + bytes.length < size := lt_of_le_of_ne hle hfull
      rw [if_neg hfull] at hs
      by_cases hline : EndsLine bytes
      · rw [if_pos hline] at hs
        exact Option.some.inj hs ▸ .lateLine cur filled next hd hlt hline
      · rw [if_neg hline] at hs
        exact Option.some.inj hs ▸ .lateMore cur filled next hd hlt hline
  · cases hs

/-! ## What the six steps have in common -/

/-- What every report has in common: it is about the buffer being filled, which it may queue, and
leaves the rest alone. -/
structure Reported (size : ℕ) (s : RxState) (bytes : List UInt8) (t : RxState) (cur filled : ℕ) :
    Prop where
  fill : s.driver.fill = some (cur, filled)
  le : filled + bytes.length ≤ size
  cells : t.cells = (s.counted cur bytes t.driver).cells
  count : t.count = s.count
  freed : t.freed = s.freed
  writer : t.writer = s.writer
  workPending : t.workPending = s.workPending
  staleWrites : t.staleWrites = if cur ∈ s.freed then s.staleWrites ++ [cur] else s.staleWrites
  cur_eq : t.driver.cur = some cur
  next_eq : t.driver.next = s.driver.next
  fill_eq : ∀ p, t.driver.fill = some p → p = (cur, filled + bytes.length)
  queue : t.fifo = s.fifo ∧ t.queued = s.queued ∨
    t.fifo = s.fifo ++ [cur] ∧ t.queued = s.queued ++ [cur]
  receiving : ∀ c f next, t.driver = .receiving c f next →
    (∃ f', s.driver = .receiving c f' next) ∧ t.queued = s.queued ∧ f < size
  full : ∀ c next, t.driver = .full c next → c ∈ t.queued ∧ t.bufRelease = false

/-- Each of the six reports has it. -/
theorem RxRdyStep.reported {bytes : List UInt8} (hs : RxRdyStep size s bytes t) :
    ∃ cur filled, Reported size s bytes t cur filled := by
  cases hs with
  | full cur filled next hd hf =>
    refine ⟨cur, filled, by rw [hd]; rfl, hf.le, rfl, rfl, rfl, rfl, rfl, rfl, rfl, by rw [hd]; rfl,
      nofun, .inr ⟨rfl, rfl⟩, nofun, ?_⟩
    rintro _ _ ⟨⟩
    exact ⟨List.mem_append_right _ (List.mem_singleton_self cur), rfl⟩
  | line cur filled next hd hlt hl =>
    exact ⟨cur, filled, by rw [hd]; rfl, hlt.le, rfl, rfl, rfl, rfl, rfl, rfl, rfl, by rw [hd]; rfl,
      fun _ hp => (Option.some.inj hp).symm, .inr ⟨rfl, rfl⟩, nofun, nofun⟩
  | more cur filled next hd hlt hl =>
    refine ⟨cur, filled, by rw [hd]; rfl, hlt.le, rfl, rfl, rfl, rfl, rfl, rfl,
      rfl, by rw [hd]; rfl,
      fun _ hp => (Option.some.inj hp).symm, .inl ⟨rfl, rfl⟩, ?_, nofun⟩
    rintro _ _ _ ⟨⟩
    exact ⟨⟨filled, hd⟩, rfl, hlt⟩
  | lateFull cur filled next hd hf =>
    exact ⟨cur, filled, by rw [hd]; rfl, hf.le, rfl, rfl, rfl, rfl, rfl, rfl, rfl, by rw [hd]; rfl,
      fun _ hp => (Option.some.inj hp).symm, .inr ⟨rfl, rfl⟩, nofun, nofun⟩
  | lateLine cur filled next hd hlt hl =>
    exact ⟨cur, filled, by rw [hd]; rfl, hlt.le, rfl, rfl, rfl, rfl, rfl, rfl, rfl, by rw [hd]; rfl,
      fun _ hp => (Option.some.inj hp).symm, .inr ⟨rfl, rfl⟩, nofun, nofun⟩
  | lateMore cur filled next hd hlt hl =>
    exact ⟨cur, filled, by rw [hd]; rfl, hlt.le, rfl, rfl, rfl, rfl, rfl, rfl, rfl, by rw [hd]; rfl,
      fun _ hp => (Option.some.inj hp).symm, .inl ⟨rfl, rfl⟩, nofun, nofun⟩

/-- The driver's buffers are the one being filled and the spare. -/
theorem held_of_cur {d : Driver} {c : ℕ} (hc : d.cur = some c) : d.held = c :: d.next.toList := by
  cases d with
  | receiving cur filled next | full cur next | stopping cur filled next late =>
    rw [← Option.some.inj hc]
    rfl
  | disabled | releasing left => cases hc

/-- The buffer that may still be reported on is the one being filled. -/
theorem cur_of_fill {d : Driver} {c f : ℕ} (hf : d.fill = some (c, f)) : d.cur = some c := by
  cases d with
  | receiving cur filled next | stopping cur filled next late =>
    rw [← (Prod.mk.inj (Option.some.inj hf)).1]
    rfl
  | disabled | full cur next | releasing left => cases hf

/-- A report leaves the driver its buffers. -/
theorem Reported.held {bytes : List UInt8} {cur filled : ℕ}
    (hr : Reported size s bytes t cur filled) : t.driver.held = s.driver.held := by
  rw [held_of_cur hr.cur_eq, held_of_cur (cur_of_fill hr.fill), hr.next_eq]

/-- The buffer a report is about is held. -/
theorem Reported.mem_held {bytes : List UInt8} {cur filled : ℕ}
    (hr : Reported size s bytes t cur filled) : cur ∈ s.driver.held := by
  rw [held_of_cur (cur_of_fill hr.fill)]
  exact List.mem_cons_self

/-- A report queues no other buffer. -/
theorem Reported.mem_queued {bytes : List UInt8} {cur filled : ℕ}
    (hr : Reported size s bytes t cur filled) {b : ℕ} (hb : b ∈ t.queued) :
    b ∈ s.queued ∨ b = cur := by
  rcases hr.queue with ⟨-, hq⟩ | ⟨-, hq⟩ <;> rw [hq] at hb
  · exact .inl hb
  · exact (List.mem_append.mp hb).imp id List.mem_singleton.mp

/-- A report takes no buffer out of the queue. -/
theorem Reported.queued_of_mem {bytes : List UInt8} {cur filled : ℕ}
    (hr : Reported size s bytes t cur filled) {b : ℕ} (hb : b ∈ s.queued) : b ∈ t.queued := by
  rcases hr.queue with ⟨-, hq⟩ | ⟨-, hq⟩ <;> rw [hq]
  · exact hb
  · exact List.mem_append_left _ hb

/-- Queueing a buffer that is not queued yet queues no buffer twice. -/
theorem nodup_put {queued : List ℕ} {b : ℕ} (hq : queued.Nodup) (hb : b ∉ queued) :
    (queued ++ [b]).Nodup := by
  rw [← List.concat_eq_append]
  exact hq.concat hb

/-! ## A release takes a buffer from the driver -/

/-- What a release does to the driver. -/
inductive ReleaseStep (b : ℕ) : Driver → Driver → Prop
  | switch (c : ℕ) : ReleaseStep b (.full b (some c)) (.receiving c 0 none)
  | last : ReleaseStep b (.full b none) (.releasing none)
  | current (filled : ℕ) (next : Option ℕ) (late : Bool) :
      ReleaseStep b (.stopping b filled next late) (.releasing next)
  | spare (cur filled : ℕ) (late : Bool) : b ≠ cur →
      ReleaseStep b (.stopping cur filled (some b) late) (.releasing (some cur))
  | left : ReleaseStep b (.releasing (some b)) (.releasing none)

/-- A release is one of the five. -/
theorem Driver.release_cases {d d' : Driver} {b : ℕ} (hr : d.release b = some d') :
    ReleaseStep b d d' := by
  cases d with
  | disabled => cases hr
  | receiving cur filled next => cases hr
  | full cur next =>
    obtain ⟨rfl, hd⟩ := Option.ite_none_right_eq_some.mp hr
    cases next with
    | none => exact Option.some.inj hd ▸ .last
    | some c => exact Option.some.inj hd ▸ .switch c
  | stopping cur filled next late =>
    simp only [Driver.release] at hr
    by_cases hb : b = cur
    · rw [if_pos hb] at hr
      subst hb
      exact Option.some.inj hr ▸ .current filled next late
    · rw [if_neg hb] at hr
      obtain ⟨rfl, hd⟩ := Option.ite_none_right_eq_some.mp hr
      exact Option.some.inj hd ▸ .spare cur filled late hb
  | releasing left =>
    obtain ⟨rfl, hd⟩ := Option.ite_none_right_eq_some.mp hr
    exact Option.some.inj hd ▸ .left

/-- A release takes a buffer that the driver holds and leaves it the others. -/
theorem ReleaseStep.held {d d' : Driver} {b : ℕ} (hr : ReleaseStep b d d') (hn : d.held.Nodup) :
    b ∈ d.held ∧ d'.held.Nodup ∧ ∀ c, c ∈ d'.held ↔ c ∈ d.held ∧ c ≠ b := by
  cases hr <;> simp only [Driver.held, Option.toList] at hn ⊢ <;> grind

/-- After a release reception goes on in the spare buffer, or not at all. -/
theorem ReleaseStep.target {d d' : Driver} {b : ℕ} (hr : ReleaseStep b d d') :
    (∃ c, d.next = some c ∧ d' = .receiving c 0 none) ∨ ∃ left, d' = .releasing left := by
  cases hr with
  | switch c => exact .inl ⟨c, rfl, rfl⟩
  | last => exact .inr ⟨none, rfl⟩
  | current filled next late => exact .inr ⟨next, rfl⟩
  | spare cur filled late hb => exact .inr ⟨some cur, rfl⟩
  | left => exact .inr ⟨none, rfl⟩

/-! ## An allocation gives the driver an empty buffer -/

/-- An allocation leaves the buffers allocated before alone. -/
theorem RxState.alloc_cells_of_lt (s : RxState) {b : ℕ} (hb : b < s.count) (a : ℕ) :
    (s.alloc a).cells b = s.cells b := by
  simp [RxState.alloc, hb.ne]

/-- An allocated buffer is empty. -/
theorem RxState.alloc_cells_self (s : RxState) (a : ℕ) :
    (s.alloc a).cells s.count = ⟨a, 0, []⟩ := by
  simp [RxState.alloc]

/-- While reception is disabled it is enabled in a new buffer, or the work is scheduled. -/
theorem allocAndEnable_disabled (hd : s.driver = .disabled) (r : Option ℕ) :
    allocAndEnable r s = match r with
      | some a => { s.alloc a with driver := .receiving s.count 0 none }
      | none => { s with workPending := true } := by
  cases r <;> simp [allocAndEnable, RxState.reschedule, RxState.rxEnable, RxState.alloc, hd]

/-! ## Every input makes one of the steps -/

/-- The steps of the receive path. -/
inductive RxStep (size : ℕ) (s : RxState) : RxInput → RxState → Prop
  | report (bytes : List UInt8) (t : RxState) : bytes ≠ [] → RxRdyStep size s bytes t →
      RxStep size s (.rxRdy bytes) t
  | noSpare : RxStep size s (.rxBufRequest none) s
  | spare (cur filled a : ℕ) : s.driver = .receiving cur filled none → s.Fresh a →
      RxStep size s (.rxBufRequest (some a))
        { s.alloc a with driver := .receiving cur filled (some s.count) }
  | lineError (cur filled : ℕ) (next : Option ℕ) : s.driver = .receiving cur filled next →
      RxStep size s .lineError { s with driver := .stopping cur filled next true }
  | released (b : ℕ) (d : Driver) : ReleaseStep b s.driver d →
      RxStep size s (.rxBufReleased b) (uartCbRxBufReleased b { s with driver := d })
  | disabled : s.driver = .releasing none →
      RxStep size s (.rxDisabled none) { s with driver := .disabled, workPending := true }
  | restart (a : ℕ) : s.driver = .releasing none → s.Fresh a →
      RxStep size s (.rxDisabled (some a)) { s.alloc a with driver := .receiving s.count 0 none }
  | retry : s.driver = .disabled → RxStep size s (.work none) s
  | enable (a : ℕ) : s.driver = .disabled → s.Fresh a →
      RxStep size s (.work (some a))
        { s.alloc a with driver := .receiving s.count 0 none, workPending := false }
  | writerGet (b : ℕ) (rest : List ℕ) : s.writer = none → s.fifo = b :: rest →
      RxStep size s .writerGet { s with fifo := rest, writer := some b }
  | writerFree (b : ℕ) : s.writer = some b →
      RxStep size s .writerFree { s.kFree b with writer := none }

/-- Every step is one of these. -/
theorem rxStep_cases (hsize : size ≤ 65535) (h : s.Accounted) {i : RxInput}
    (hs : rxStep size s i = some t) : RxStep size s i t := by
  cases i with
  | rxRdy bytes =>
    obtain ⟨hb, hstep⟩ := rxRdy_cases hsize h hs
    exact .report bytes t hb hstep
  | rxBufRequest r =>
    simp only [rxStep] at hs
    split at hs
    · next cur filled hd =>
      obtain ⟨hfresh, rfl⟩ := Machine.guarded_eq_some.mp hs
      cases r with
      | none => exact .noSpare
      | some a =>
        have heq : uartCbRxBufRequest (some a) s =
            { s.alloc a with driver := .receiving cur filled (some s.count) } := by
          simp [uartCbRxBufRequest, RxState.rxBufRsp, RxState.alloc, hd]
        exact heq ▸ .spare cur filled a hd (hfresh a rfl)
    · cases hs
  | lineError =>
    simp only [rxStep] at hs
    split at hs
    · next cur filled next hd => exact Option.some.inj hs ▸ .lineError cur filled next hd
    · cases hs
  | rxBufReleased b =>
    obtain ⟨d, hd, rfl⟩ := Option.map_eq_some_iff.mp hs
    exact .released b d (Driver.release_cases hd)
  | rxDisabled r =>
    obtain ⟨⟨hd, hfresh⟩, rfl⟩ := Machine.guarded_eq_some.mp hs
    rw [uartCbRxDisabled, allocAndEnable_disabled rfl]
    cases r with
    | none => exact .disabled hd
    | some a => exact .restart a hd (hfresh a rfl)
  | work r =>
    obtain ⟨⟨hw, hfresh⟩, rfl⟩ := Machine.guarded_eq_some.mp hs
    have hd := h.work hw
    rw [uartWorkHandler, allocAndEnable_disabled (by exact hd)]
    cases r with
    | none =>
      -- the work is scheduled again
      have heq : { s with workPending := true } = s := by rw [← hw]
      exact heq.symm ▸ .retry hd
    | some a => exact .enable a hd (hfresh a rfl)
  | writerGet =>
    simp only [rxStep] at hs
    split at hs
    · next b rest hw hf => exact Option.some.inj hs ▸ .writerGet b rest hw hf
    · cases hs
  | writerFree =>
    simp only [rxStep] at hs
    split at hs
    · next b hw => exact Option.some.inj hs ▸ .writerFree b hw
    · cases hs

end NcsExamples.PeripheralUart
