import NcsExamples.PeripheralUart.Transmit

/-! # UART to BLE: the receive half of `uart_cb` and `ble_write_thread`

The receive path of `peripheral_uart_set_tx` against the asynchronous UART driver. The driver fills
the buffer it was given, asks for the next one, and gives each back; the application owns a buffer
again when the driver has released it. The receive branches of `uart_cb` and `uart_work_handler` run
to completion; `ble_write_thread` takes a buffer out of `fifo_uart_rx_data` and frees it in two
steps, between which anything may happen.

A pointer to a `uart_data_t` is the number of the allocation it came from, so that the histories can
tell two buffers apart that had one address after the other. Where the code compares two pointers,
the model compares their addresses. -/

namespace NcsExamples.PeripheralUart

/-- A `struct uart_data_t` allocated for reception. -/
structure RxCell where
  /-- The address `k_malloc` returned. -/
  addr : ℕ
  /-- The field `len`. -/
  len : ℕ
  /-- The bytes the driver has written to `data`, from the first element on. -/
  data : List UInt8

/-! ## The driver -/

/-- The receiver of the asynchronous UART driver, by the events it may report next. -/
inductive Driver
  /-- Reception is disabled. -/
  | disabled
  /-- The driver fills `cur`, of which it has reported `filled` bytes, and may hold a `next` buffer.
  -/
  | receiving (cur filled : ℕ) (next : Option ℕ)
  /-- `cur` was reported full and is released next; then reception goes on in `next` or stops. -/
  | full (cur : ℕ) (next : Option ℕ)
  /-- Reception has stopped in `cur`. One more report for pending data may come if `late`, then the
  buffers are released. -/
  | stopping (cur filled : ℕ) (next : Option ℕ) (late : Bool)
  /-- The first buffer has been released; `left` is still to be released before reception is
  disabled. -/
  | releasing (left : Option ℕ)
  deriving DecidableEq

/-- The buffers the driver holds. -/
def Driver.held : Driver → List ℕ
  | .disabled => []
  | .receiving cur _ next | .full cur next | .stopping cur _ next _ => cur :: next.toList
  | .releasing left => left.toList

/-! ## The state -/

/-- The state of the receive path, with the histories that its properties speak about. -/
structure RxState where
  /-- The buffers allocated so far, by allocation number. -/
  cells : ℕ → RxCell
  /-- The number of successful `k_malloc` calls so far. -/
  count : ℕ
  /-- `fifo_uart_rx_data`, head first. -/
  fifo : List ℕ
  /-- The static `current_buf` of `uart_cb`. -/
  currentBuf : Option ℕ
  /-- The static `buf_release` of `uart_cb`. -/
  bufRelease : Bool
  /-- `uart_work` is scheduled. -/
  workPending : Bool
  /-- The driver. -/
  driver : Driver
  /-- The buffer that `ble_write_thread` has taken and not freed yet. -/
  writer : Option ℕ
  /-- History: the arguments of `k_fifo_put(&fifo_uart_rx_data, ..)`, in order. -/
  queued : List ℕ
  /-- History: the arguments of `k_free`, in order. -/
  freed : List ℕ
  /-- History: the buffers that `uart_cb` has written to after they were freed. -/
  staleWrites : List ℕ
  /-- History: the bytes the driver has reported. -/
  reported : List UInt8

namespace RxState

/-- The address of a buffer. -/
def addr (s : RxState) (b : ℕ) : ℕ := (s.cells b).addr

/-- The contents of a buffer, as far as its `len` says. -/
def contents (s : RxState) (b : ℕ) : List UInt8 := (s.cells b).data.take (s.cells b).len

/-- The bytes of the partly filled buffer that the driver is filling. -/
def partialBytes (s : RxState) : List UInt8 :=
  match s.driver with
  | .receiving cur _ _ => s.contents cur
  | _ => []

/-- The test `buf_release && (current_buf != evt->data.rx_buf.buf)`. -/
def releaseTest (s : RxState) (b : ℕ) : Prop :=
  s.bufRelease = true ∧ s.currentBuf.map s.addr ≠ some (s.addr b)

instance (s : RxState) (b : ℕ) : Decidable (s.releaseTest b) :=
  inferInstanceAs (Decidable (_ ∧ _))

/-- `k_malloc` may return the address `a`: no buffer that is still allocated has it. -/
def Fresh (s : RxState) (a : ℕ) : Prop := ∀ b < s.count, b ∉ s.freed → s.addr b ≠ a

instance (s : RxState) (a : ℕ) : Decidable (s.Fresh a) :=
  inferInstanceAs (Decidable (∀ b < s.count, _))

/-- A successful `k_malloc(sizeof(*buf))` with `buf->len = 0`: the buffer has number `s.count`. -/
def alloc (s : RxState) (a : ℕ) : RxState :=
  { s with cells := Function.update s.cells s.count ⟨a, 0, []⟩, count := s.count + 1 }

/-- `k_fifo_put(&fifo_uart_rx_data, buf)`. -/
def put (s : RxState) (b : ℕ) : RxState :=
  { s with fifo := s.fifo ++ [b], queued := s.queued ++ [b] }

/-- `k_free(buf)`. -/
def kFree (s : RxState) (b : ℕ) : RxState := { s with freed := s.freed ++ [b] }

/-- `uart_rx_enable(uart, buf->data, ..)`: reception starts in `buf`. -/
def rxEnable (s : RxState) (b : ℕ) : RxState := match s.driver with
  | .disabled => { s with driver := .receiving b 0 none }
  | _ => s

/-- `uart_rx_buf_rsp(uart, buf->data, ..)`: `buf` is the next buffer. -/
def rxBufRsp (s : RxState) (b : ℕ) : RxState := match s.driver with
  | .receiving cur filled none => { s with driver := .receiving cur filled (some b) }
  | _ => s

/-- `uart_rx_disable(uart)`: reception stops, unless it has stopped already. -/
def rxDisable (s : RxState) : RxState := match s.driver with
  | .receiving cur filled next => { s with driver := .stopping cur filled next true }
  | _ => s

/-- `k_work_reschedule(&uart_work, UART_WAIT_FOR_BUF_DELAY)`. -/
def reschedule (s : RxState) : RxState := { s with workPending := true }

end RxState

/-! ## The branches of `uart_cb` and the other functions -/

/-- `buf->len += n`, in 16 bits. -/
def RxState.addLen (s : RxState) (b n : ℕ) : RxState :=
  { s with
    cells := Function.update s.cells b { s.cells b with len := ((s.cells b).len + n) % 65536 }
    staleWrites := if b ∈ s.freed then s.staleWrites ++ [b] else s.staleWrites }

/-- The last byte of `buf->data` is a line end: `evt->data.rx.buf[buf->len - 1]` is LF or CR. -/
def RxState.lineEnd (s : RxState) (b : ℕ) : Prop :=
  (s.cells b).data.getD ((s.cells b).len - 1) 0 = lf ∨
    (s.cells b).data.getD ((s.cells b).len - 1) 0 = cr

instance (s : RxState) (b : ℕ) : Decidable (s.lineEnd b) := inferInstanceAs (Decidable (_ ∨ _))

/-- The branch `UART_RX_RDY` of `uart_cb`, for a report of `n` bytes in `buf`. -/
def uartCbRxRdy (size buf n : ℕ) (s : RxState) : RxState :=
  let s := { s.addLen buf n with bufRelease := false }
  -- the buffer is queued on each such report: nothing tells that it is queued already
  if (s.cells buf).len = size then s.put buf
  else if s.lineEnd buf then
    RxState.rxDisable { s.put buf with currentBuf := some buf, bufRelease := true }
  else s

/-- The allocation of a buffer in `UART_RX_DISABLED` and in `uart_work_handler`: reception is
enabled in it, or the work is scheduled to try again. -/
def allocAndEnable (result : Option ℕ) (s : RxState) : RxState := match result with
  | some a => (s.alloc a).rxEnable s.count
  | none => s.reschedule

/-- The branch `UART_RX_DISABLED` of `uart_cb`. -/
def uartCbRxDisabled (result : Option ℕ) (s : RxState) : RxState := allocAndEnable result s

/-- The branch `UART_RX_BUF_REQUEST` of `uart_cb`. -/
def uartCbRxBufRequest (result : Option ℕ) (s : RxState) : RxState := match result with
  | some a => (s.alloc a).rxBufRsp s.count
  | none => s

/-- The branch `UART_RX_BUF_RELEASED` of `uart_cb`. -/
def uartCbRxBufReleased (buf : ℕ) (s : RxState) : RxState :=
  if s.releaseTest buf then { s.kFree buf with bufRelease := false, currentBuf := none } else s

/-- `uart_work_handler`. -/
def uartWorkHandler (result : Option ℕ) (s : RxState) : RxState := allocAndEnable result s

/-! ## The machine -/

/-- What happens next. The results of `k_malloc` are inputs: `none`, or an address. -/
inductive RxInput
  /-- The driver has received `bytes` and reports them with `UART_RX_RDY`. -/
  | rxRdy (bytes : List UInt8)
  /-- The driver asks for the next buffer with `UART_RX_BUF_REQUEST`. -/
  | rxBufRequest (result : Option ℕ)
  /-- Reception stops on a line error. -/
  | lineError
  /-- The driver gives back a buffer with `UART_RX_BUF_RELEASED`. -/
  | rxBufReleased (buf : ℕ)
  /-- The driver has released every buffer and reports `UART_RX_DISABLED`. -/
  | rxDisabled (result : Option ℕ)
  /-- The scheduled `uart_work` runs. -/
  | work (result : Option ℕ)
  /-- `ble_write_thread` takes the head of the FIFO. -/
  | writerGet
  /-- `ble_write_thread` has sent its buffer and frees it. -/
  | writerFree

/-- A result of `k_malloc` is possible: the address is not in use. -/
def RxState.CanReturn (s : RxState) (result : Option ℕ) : Prop := ∀ a ∈ result, s.Fresh a

instance (s : RxState) : DecidablePred s.CanReturn
  | none => isTrue nofun
  | some a => decidable_of_iff (s.Fresh a) (by simp [RxState.CanReturn])

/-- The driver writes `bytes` to the array of `buf` and counts them as reported. -/
def RxState.receive (s : RxState) (buf : ℕ) (bytes : List UInt8) (driver : Driver) : RxState :=
  { s with
    cells := Function.update s.cells buf { s.cells buf with data := (s.cells buf).data ++ bytes }
    reported := s.reported ++ bytes
    driver }

/-- The driver's place after it has reported a buffer filled up to `filled` while receiving. -/
def Driver.afterReport (size cur filled : ℕ) (next : Option ℕ) : Driver :=
  if filled = size then .full cur next else .receiving cur filled next

/-- The driver gives back `buf`, which it holds: its place after that. -/
def Driver.release (buf : ℕ) : Driver → Option Driver
  | .full cur next =>
      -- the spare is filled next, from its start
      if buf = cur then
        some (match next with | some b => .receiving b 0 none | none => .releasing none)
      else none
  | .stopping cur _ next _ =>
      if buf = cur then some (.releasing next)
      else if next = some buf then some (.releasing (some cur))
      else none
  | .releasing left => if left = some buf then some (.releasing none) else none
  | .disabled | .receiving _ _ _ => none

/-- One step of the receive path, for `UART_BUF_SIZE = size`. -/
def rxStep (size : ℕ) (s : RxState) : RxInput → Option RxState
  | .rxRdy bytes => match s.driver with
    -- the driver writes the bytes before it reports them
    | .receiving cur filled next =>
        if bytes ≠ [] ∧ filled + bytes.length ≤ size then
          some (uartCbRxRdy size cur bytes.length
            (s.receive cur bytes (.afterReport size cur (filled + bytes.length) next)))
        else none
    -- the one late report
    | .stopping cur filled next true =>
        if bytes ≠ [] ∧ filled + bytes.length ≤ size then
          some (uartCbRxRdy size cur bytes.length
            (s.receive cur bytes (.stopping cur (filled + bytes.length) next false)))
        else none
    | _ => none
  | .rxBufRequest result => match s.driver with
    | .receiving _ _ none => if s.CanReturn result then some (uartCbRxBufRequest result s) else none
    | _ => none
  | .lineError => match s.driver with
    | .receiving cur filled next => some { s with driver := .stopping cur filled next true }
    | _ => none
  | .rxBufReleased buf =>
      (s.driver.release buf).map fun driver => uartCbRxBufReleased buf { s with driver }
  | .rxDisabled result =>
      if s.driver = .releasing none ∧ s.CanReturn result then
        some (uartCbRxDisabled result { s with driver := .disabled })
      else none
  | .work result =>
      if s.workPending = true ∧ s.CanReturn result then
        some (uartWorkHandler result { s with workPending := false })
      else none
  | .writerGet => match s.writer, s.fifo with
    | none, b :: rest => some { s with fifo := rest, writer := some b }
    | _, _ => none
  | .writerFree => match s.writer with
    | some b => some { s.kFree b with writer := none }
    | none => none

/-- The receive path after `uart_init`, whose `k_malloc` has returned `a`. -/
def rxInit (a : ℕ) : RxState :=
  ⟨fun _ => ⟨a, 0, []⟩, 1, [], none, false, false, .receiving 0 0 none, none, [], [], [], []⟩

/-- The receive path as a machine. -/
def receive (size a : ℕ) : Machine RxState RxInput := ⟨rxInit a, rxStep size⟩

end NcsExamples.PeripheralUart
