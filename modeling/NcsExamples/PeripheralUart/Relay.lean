import NcsExamples.PeripheralUart.ReceiveFraming

/-! # UART to BLE: what the peer is sent

The receive path from end to end. `ble_write_thread` waits for `ble_init_ok`, then takes one buffer
after the other out of the FIFO, sends it with `bt_nus_send` and frees it. Anything may happen
between two of its calls. With a quiet driver the payloads are the received stream, cut at line ends
and at full buffers, and a payload that `bt_nus_send` refuses is missing as a whole. -/

namespace NcsExamples.PeripheralUart

/-! ## The thread -/

/-- The receive path with what its thread has sent. -/
structure RelayState where
  rx : RxState
  /-- `main` has given `ble_init_ok`. -/
  bleInitOk : Bool
  /-- `bt_nus_send` has been called for the buffer that the thread holds. -/
  sent : Bool
  /-- History: the payloads given to `bt_nus_send`, and whether it took them. -/
  sends : List (List UInt8 × Bool)

/-- What happens next. -/
inductive RelayInput
  /-- A step of the receive path. -/
  | rx (i : RxInput)
  /-- `main` gives `ble_init_ok`. -/
  | bleInitOk
  /-- The thread calls `bt_nus_send`, which returns 0 if it is `ok`. A failure is only logged. -/
  | btNusSend (ok : Bool)

/-- The thread has come to the call. -/
def RelayState.Admits (s : RelayState) : RxInput → Prop
  | .writerGet => s.bleInitOk = true
  | .writerFree => s.sent = true
  | _ => True

instance (s : RelayState) : DecidablePred s.Admits
  | .writerGet | .writerFree => inferInstanceAs (Decidable (_ = true))
  | .rxRdy _ | .rxBufRequest _ | .lineError | .rxBufReleased _ | .rxDisabled _ | .work _ =>
      isTrue trivial

/-- The thread holds a buffer that is sent: it does until it frees it. -/
def RxInput.keepsSent (sent : Bool) : RxInput → Bool
  | .writerFree => false
  | _ => sent

/-- One step of the receive path or of its thread. -/
def relayStep (size : ℕ) (s : RelayState) : RelayInput → Option RelayState
  | .rx i =>
      if s.Admits i then
        (rxStep size s.rx i).map fun rx => { s with rx, sent := i.keepsSent s.sent }
      else none
  | .bleInitOk => some { s with bleInitOk := true }
  | .btNusSend ok => match s.rx.writer with
    | some b =>
        if s.sent = false then
          some { s with sent := true, sends := s.sends ++ [(s.rx.contents b, ok)] }
        else none
    | none => none

/-- The receive path and its thread as a machine. -/
def relay (size a : ℕ) : Machine RelayState RelayInput :=
  ⟨⟨rxInit a, false, false, []⟩, relayStep size⟩

/-- The receive path of the relay is the receive path. -/
theorem relay_projects (size a : ℕ) : (relay size a).Projects (receive size a) RelayState.rx
    fun _ i => match i with | .rx i => some i | _ => none where
  init := rfl
  step s i t hs := by
    cases i with
    | rx i =>
      obtain ⟨-, hs⟩ := Option.ite_none_right_eq_some.mp hs
      obtain ⟨rx, hrx, rfl⟩ := Option.map_eq_some_iff.mp hs
      exact (receive size a).runFrom_cons_eq_some.mpr ⟨rx, hrx, rfl⟩
    | bleInitOk =>
      obtain rfl := Option.some.inj hs
      rfl
    | btNusSend ok =>
      simp only [relay, relayStep] at hs
      split at hs
      · obtain ⟨-, rfl⟩ := Machine.guarded_eq_some.mp hs
        rfl
      · cases hs

/-- The driver reports nothing after `uart_rx_disable`, and there is no line error. -/
def RelayState.Quiet (s : RelayState) : RelayInput → Prop
  | .rx i => QuietWhenDisabled s.rx i
  | _ => True

instance (s : RelayState) : DecidablePred s.Quiet
  | .rx i => inferInstanceAs (Decidable (QuietWhenDisabled s.rx i))
  | .bleInitOk | .btNusSend _ => isTrue trivial

/-- The buffers that are still to be sent, in order. -/
def RelayState.unsent (s : RelayState) : List ℕ :=
  (if s.sent then [] else s.rx.writer.toList) ++ s.rx.fifo

/-- The peer is sent the received stream. -/
structure Relayed (size : ℕ) (s : RelayState) : Prop where
  /-- What was sent, what is to be sent and the partly filled buffer are the bytes reported. -/
  stream : (s.sends.map Prod.fst).flatten ++ (s.unsent.map s.rx.contents).flatten ++
    s.rx.partialBytes = s.rx.reported
  /-- Each payload is cut at a line end or at a full buffer. -/
  framed : ∀ c ∈ s.sends.map Prod.fst, Framed size c
  /-- Nothing is sent before Bluetooth is up. -/
  gated : s.bleInitOk = false → s.sends = []
  /-- No buffer is freed before it is sent. -/
  unsent_live : ∀ b ∈ s.unsent, b ∉ s.rx.freed
  /-- A buffer that was sent is freed once, when the thread has let go of it. -/
  sent_freed : ∀ b ∈ s.rx.queued, b ∉ s.unsent → s.rx.writer ≠ some b → s.rx.freed.count b = 1

/-! ## The queue -/

/-- What a step of the driver does to the queue: it adds `new` buffers, and leaves those before it
as they are. -/
structure Queues (s t : RxState) (new : List ℕ) : Prop where
  queued : t.queued = s.queued ++ new
  fifo : t.fifo = s.fifo ++ new
  writer : t.writer = s.writer
  contents : ∀ b ∈ s.queued, t.contents b = s.contents b
  freed : ∀ b ∈ s.queued, t.freed.count b = s.freed.count b
  fresh : ∀ b ∈ new, b ∉ t.freed

variable {size : ℕ} {s t : RxState}

/-- A report queues the buffer it is about, or none. -/
theorem Framing.queues_report (h : Framing size s) (hquiet : s.driver.isStopping = false)
    {bytes : List UInt8} (hs : RxRdyStep size s bytes t) : ∃ new, Queues s t new := by
  obtain ⟨cur, filled, hr⟩ := hs.reported
  -- the buffer reported about is the one that the driver fills, which is not queued yet
  have hcur : cur ∉ s.queued := by
    cases hd : s.driver with
    | receiving c f next =>
      have hfill := hr.fill
      rw [hd] at hfill
      obtain ⟨rfl, -⟩ := Prod.mk.inj (Option.some.inj hfill)
      exact (h.receiving c f next hd).1
    | stopping c f next late =>
      rw [hd] at hquiet
      cases hquiet
    | disabled | full c next | releasing left =>
      have hfill := hr.fill
      rw [hd] at hfill
      cases hfill
  have hcontents : ∀ b ∈ s.queued, t.contents b = s.contents b := by
    intro b hb
    rw [RxState.contents, hr.cells, s.counted_cells_of_ne (ne_of_mem_of_not_mem hb hcur),
      RxState.contents]
  have hfreed : ∀ b ∈ s.queued, t.freed.count b = s.freed.count b := fun b _ => by rw [hr.freed]
  rcases hr.queue with ⟨hfifo, hqueued⟩ | ⟨hfifo, hqueued⟩
  · exact ⟨[], ⟨by simpa using hqueued, by simpa using hfifo, hr.writer, hcontents, hfreed,
      by simp⟩⟩
  · refine ⟨[cur], ⟨hqueued, hfifo, hr.writer, hcontents, hfreed, ?_⟩⟩
    intro b hb
    rw [List.mem_singleton.mp hb, hr.freed]
    exact h.live cur hr.mem_held hcur

/-- A release frees no buffer that was queued. -/
theorem Framing.queues_released (h : Framing size s) {b : ℕ} {d : Driver}
    (hr : ReleaseStep b s.driver d) : Queues s (uartCbRxBufReleased b { s with driver := d }) [] := by
  have htest : ({ s with driver := d } : RxState).releaseTest b ↔ b ∉ s.queued :=
    h.releaseTest_iff h.toRxBase h.tellsQueued hr
  by_cases hq : b ∈ s.queued
  · rw [uartCbRxBufReleased, if_neg fun hf => htest.mp hf hq]
    exact ⟨(List.append_nil _).symm, (List.append_nil _).symm, rfl, fun _ _ => rfl, fun _ _ => rfl,
      by simp⟩
  · rw [uartCbRxBufReleased, if_pos (htest.mpr hq)]
    refine ⟨(List.append_nil _).symm, (List.append_nil _).symm, rfl, fun _ _ => rfl, ?_, by simp⟩
    intro c hc
    change (s.freed ++ [b]).count c = s.freed.count c
    rw [List.count_append, List.count_singleton,
      if_neg (by simpa using Ne.symm (ne_of_mem_of_not_mem hc hq)), Nat.add_zero]

/-- An allocation leaves the queued buffers as they are. -/
theorem Framing.queues_alloc (h : Framing size s) (a : ℕ) {d : Driver} {pending : Bool} :
    Queues s { s.alloc a with driver := d, workPending := pending } [] where
  queued := (List.append_nil _).symm
  fifo := (List.append_nil _).symm
  writer := rfl
  contents := h.contents_alloc a
  freed _ _ := rfl
  fresh := by simp

/-- A step of a quiet driver adds to the queue, and one of the thread takes its head or frees the
buffer the thread holds. -/
theorem Framing.queue_cases (hmax : size ≤ 65535) (h : Framing size s) {i : RxInput}
    (hok : QuietWhenDisabled s i) (hs : rxStep size s i = some t) :
    ((∃ new, Queues s t new) ∧ i ≠ .writerGet ∧ i ≠ .writerFree) ∨
    (∃ b rest, i = .writerGet ∧ s.writer = none ∧ s.fifo = b :: rest ∧
      t = { s with fifo := rest, writer := some b }) ∨
    (∃ b, i = .writerFree ∧ s.writer = some b ∧ t = { s.kFree b with writer := none }) := by
  have hsame : ∀ d pending, Queues s { s with driver := d, workPending := pending } [] :=
    fun d pending => ⟨(List.append_nil _).symm, (List.append_nil _).symm, rfl, fun _ _ => rfl,
      fun _ _ => rfl, by simp⟩
  cases rxStep_cases hmax h.accounted hs with
  | report bytes t hb hrdy => exact .inl ⟨h.queues_report hok hrdy, by simp, by simp⟩
  | noSpare => exact .inl ⟨⟨[], hsame s.driver s.workPending⟩, by simp, by simp⟩
  | spare cur filled a hd hfresh => exact .inl ⟨⟨[], h.queues_alloc a⟩, by simp, by simp⟩
  | lineError cur filled next hd => exact absurd hok id
  | released b d hr => exact .inl ⟨⟨[], h.queues_released hr⟩, by simp, by simp⟩
  | disabled hd => exact .inl ⟨⟨[], hsame .disabled true⟩, by simp, by simp⟩
  | restart a hd hfresh => exact .inl ⟨⟨[], h.queues_alloc a⟩, by simp, by simp⟩
  | retry hd => exact .inl ⟨⟨[], hsame s.driver s.workPending⟩, by simp, by simp⟩
  | enable a hd hfresh => exact .inl ⟨⟨[], h.queues_alloc a⟩, by simp, by simp⟩
  | writerGet b rest hw hf => exact .inr (.inl ⟨b, rest, rfl, hw, hf, rfl⟩)
  | writerFree b hw => exact .inr (.inr ⟨b, rfl, hw, rfl⟩)

/-! ## The invariant -/

/-- The thread has let go of the buffers `done`, holds the next one or none, and the FIFO holds the
others. -/
structure Relaying (size : ℕ) (s : RelayState) (done : List ℕ) : Prop where
  framing : Framing size s.rx
  queued : s.rx.queued = done ++ s.rx.writer.toList ++ s.rx.fifo
  sends : s.sends.map Prod.fst =
    (done ++ if s.sent then s.rx.writer.toList else []).map s.rx.contents
  freed : ∀ b ∈ s.rx.queued, s.rx.freed.count b = done.count b
  gated : s.bleInitOk = false → done = [] ∧ s.rx.writer = none
  holds : s.sent = true → s.rx.writer ≠ none

variable {r u : RelayState} {done : List ℕ}

/-- The invariant says what the peer is sent. -/
theorem Relaying.relayed (h : Relaying size r done) : Relayed size r := by
  have hsplit : r.rx.queued =
      (done ++ if r.sent then r.rx.writer.toList else []) ++ r.unsent := by
    rw [h.queued, RelayState.unsent]
    cases r.sent <;> simp
  -- the thread has freed what it has let go of, and nothing else
  have hdone : ∀ b ∈ r.rx.queued, b ∉ done → b ∉ r.rx.freed := by
    intro b hb hnot
    rw [← List.count_eq_zero, h.freed b hb, List.count_eq_zero]
    exact hnot
  have hnodup := h.framing.once
  refine ⟨?_, ?_, ?_, ?_, ?_⟩
  · rw [h.sends, ← List.flatten_append, ← List.map_append, ← hsplit]
    exact h.framing.stream
  · intro c hc
    rw [h.sends] at hc
    obtain ⟨b, hb, rfl⟩ := List.mem_map.mp hc
    exact h.framing.framed b (hsplit ▸ List.mem_append_left _ hb)
  · intro hno
    obtain ⟨rfl, hwriter⟩ := h.gated hno
    have hsends := h.sends
    rw [hwriter] at hsends
    simpa using hsends
  · intro b hb
    rw [hsplit] at hnodup
    have hdisjoint := (List.nodup_append.mp hnodup).2.2
    refine hdone b (hsplit ▸ List.mem_append_right _ hb) fun hmem => ?_
    exact hdisjoint b (List.mem_append_left _ hmem) b hb rfl
  · intro b hb hunsent hwriter
    rw [h.freed b hb]
    rw [h.queued, List.append_assoc] at hnodup
    refine List.count_eq_one_of_mem (List.nodup_append.mp hnodup).1 ?_
    -- it is neither in the FIFO nor with the thread
    rw [h.queued] at hb
    rcases List.mem_append.mp hb with hb | hb
    · rcases List.mem_append.mp hb with hb | hb
      · exact hb
      · exact absurd (Option.mem_toList.mp hb) hwriter
    · exact absurd (List.mem_append_right _ hb) hunsent

/-- A step of the driver keeps the invariant. -/
theorem Relaying.queues (h : Relaying size r done) {v : RxState} {new : List ℕ}
    (hv : Queues r.rx v new) (hframing : Framing size v) :
    Relaying size { r with rx := v } done where
  framing := hframing
  queued := by
    change v.queued = done ++ v.writer.toList ++ v.fifo
    rw [hv.queued, hv.writer, hv.fifo, h.queued, List.append_assoc _ r.rx.fifo]
  sends := by
    change r.sends.map Prod.fst = (done ++ if r.sent then v.writer.toList else []).map v.contents
    rw [h.sends, hv.writer]
    -- what has been sent was queued before, so its contents have not changed
    refine List.map_congr_left fun b hb => (hv.contents b ?_).symm
    rw [h.queued]
    refine List.mem_append_left _ ?_
    cases hsent : r.sent with
    | false =>
      rw [hsent] at hb
      exact List.mem_append_left _ (by simpa using hb)
    | true => simpa [hsent] using hb
  freed b hb := by
    change b ∈ v.queued at hb
    rw [hv.queued] at hb
    rcases List.mem_append.mp hb with hb | hb
    · rw [hv.freed b hb, h.freed b hb]
    · -- a buffer that was not queued before was not sent before either
      have hnodup := hframing.once
      rw [hv.queued] at hnodup
      have hdone : b ∉ done := fun hmem => (List.nodup_append.mp hnodup).2.2 b
        (by rw [h.queued]; exact List.mem_append_left _ (List.mem_append_left _ hmem)) b hb rfl
      rw [List.count_eq_zero.mpr (hv.fresh b hb), List.count_eq_zero.mpr hdone]
  gated hno := by
    change done = [] ∧ v.writer = none
    rw [hv.writer]
    exact h.gated hno
  holds hsent := by
    change v.writer ≠ none
    rw [hv.writer]
    exact h.holds hsent

/-- The thread takes a buffer. -/
theorem Relaying.writerGet (h : Relaying size r done) {b : ℕ} {rest : List ℕ}
    (hinit : r.bleInitOk = true) (hwriter : r.rx.writer = none) (hfifo : r.rx.fifo = b :: rest)
    (hframing : Framing size { r.rx with fifo := rest, writer := some b }) :
    Relaying size { r with rx := { r.rx with fifo := rest, writer := some b } } done := by
  have hsent : r.sent = false := eq_false_of_ne_true fun hs => h.holds hs hwriter
  refine ⟨hframing, ?_, ?_, h.freed, ?_, ?_⟩
  · simpa [hwriter, hfifo] using h.queued
  · show r.sends.map Prod.fst = (done ++ if r.sent then [b] else []).map r.rx.contents
    simpa [hsent] using h.sends
  · intro hno
    rw [hinit] at hno
    cases hno
  · intro _
    exact Option.some_ne_none b

/-- The thread frees the buffer that it has sent. -/
theorem Relaying.writerFree (h : Relaying size r done) {b : ℕ} (hsent : r.sent = true)
    (hwriter : r.rx.writer = some b) (hframing : Framing size { r.rx.kFree b with writer := none }) :
    Relaying size { r with rx := { r.rx.kFree b with writer := none }, sent := false }
      (done ++ [b]) := by
  refine ⟨hframing, ?_, ?_, ?_, ?_, by simp⟩
  · show r.rx.queued = done ++ [b] ++ [] ++ r.rx.fifo
    simpa [hwriter] using h.queued
  · show r.sends.map Prod.fst = (done ++ [b] ++ []).map r.rx.contents
    simpa [hsent, hwriter] using h.sends
  · intro c hc
    change (r.rx.freed ++ [b]).count c = (done ++ [b]).count c
    rw [List.count_append, List.count_append, h.freed c hc]
  · intro hno
    have hnone := (h.gated hno).2
    rw [hwriter] at hnone
    cases hnone

/-- Every step of a quiet driver and of the thread keeps the invariant. -/
theorem Relaying.step (hsize : 0 < size) (hmax : size ≤ 65535) (h : Relaying size r done)
    {i : RelayInput} (hok : r.Quiet i) (hs : relayStep size r i = some u) :
    ∃ done, Relaying size u done := by
  cases i with
  | rx i =>
    obtain ⟨hadmits, hs⟩ := Option.ite_none_right_eq_some.mp hs
    obtain ⟨v, hv, rfl⟩ := Option.map_eq_some_iff.mp hs
    have hframing := h.framing.step hsize hmax hok hv
    -- only the last two of the cases change what the thread holds
    rcases h.framing.queue_cases hmax hok hv with
      ⟨⟨new, hnew⟩, hget, hfree⟩ | ⟨b, rest, rfl, hwriter, hfifo, rfl⟩ | ⟨b, rfl, hwriter, rfl⟩
    · have hsent : i.keepsSent r.sent = r.sent := by
        cases i <;> first | rfl | exact absurd rfl hfree
      rw [hsent]
      exact ⟨done, h.queues hnew hframing⟩
    · exact ⟨done, h.writerGet hadmits hwriter hfifo hframing⟩
    · exact ⟨done ++ [b], h.writerFree hadmits hwriter hframing⟩
  | bleInitOk =>
    obtain rfl := Option.some.inj hs
    exact ⟨done, h.framing, h.queued, h.sends, h.freed, by simp, h.holds⟩
  | btNusSend ok =>
    simp only [relayStep] at hs
    split at hs
    · next b hwriter =>
      obtain ⟨hsent, rfl⟩ := Machine.guarded_eq_some.mp hs
      refine ⟨done, h.framing, h.queued, ?_, h.freed, h.gated, ?_⟩
      · have hsends := h.sends
        simp only [hsent, Bool.false_eq_true, if_false, List.append_nil] at hsends
        simp [hsends, hwriter]
      · intro _ hnone
        rw [hwriter] at hnone
        cases hnone
    · cases hs

/-! ## Runs -/

/-- **The peer is sent the received stream.** In every state that a run with a quiet driver reaches,
the payloads given to `bt_nus_send` so far, the buffers to be sent and the partly filled one are the
bytes received, in order; and every buffer that was sent is freed once, after it was sent. -/
theorem relay_relayed (size a : ℕ) (hsize : 1 ≤ size ∧ size ≤ 65535) (is : List RelayInput)
    (hok : (relay size a).Meets RelayState.Quiet is) (s : RelayState)
    (hrun : (relay size a).run is = some s) : Relayed size s := by
  have hinit : Relaying size (relay size a).init [] := by
    refine ⟨framing_init hsize.1, rfl, rfl, ?_, fun _ => ⟨rfl, rfl⟩, by simp [relay]⟩
    intro b hb
    cases hb
  obtain ⟨done, hrelaying⟩ := Machine.invariant (fun s => ∃ done, Relaying size s done)
    ⟨[], hinit⟩
    (fun _ _ _ h hok hs => by
      obtain ⟨done, h⟩ := h
      exact h.step hsize.1 hsize.2 hok hs) hok hrun
  exact hrelaying.relayed

/-- A line that comes in before Bluetooth is up is sent when it is, and its buffer freed, while the
next line comes in. -/
theorem relay_relayed_line : Relayed 4 (((relay 4 100).run [.rx (.rxBufRequest (some 200)),
    .rx (.rxRdy [104, 105, cr]), .bleInitOk, .rx .writerGet, .rx (.rxBufReleased 0),
    .rx (.rxBufReleased 1), .rx (.rxDisabled (some 300)), .btNusSend true, .rx (.rxRdy [106]),
    .rx .writerFree]).get (by decide)) :=
  relay_relayed 4 100 (by decide) _ (by decide) _ (Option.some_get _).symm

end NcsExamples.PeripheralUart
