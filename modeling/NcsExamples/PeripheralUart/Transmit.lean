import NcsExamples.Lib.Machine
import Mathlib.Data.List.Range

/-! # BLE to UART: `bt_receive_cb` and the transmit half of `uart_cb`

The transmit path of `peripheral_uart_set_tx`. `bt_receive_cb` cuts a BLE payload into chunks, hands
each to `uart_tx` and puts it in `fifo_uart_tx_data` when `uart_tx` reports an error; the
`UART_TX_DONE` branch of `uart_cb` frees the chunk that was sent and starts the next queued one. The
driver is a single transfer in flight: `uart_tx` fails while there is one. `k_malloc`, `uart_tx` and
`k_fifo_put` are single steps of `bt_receive_cb`, and `uart_cb` runs to completion between them. -/

namespace NcsExamples.PeripheralUart

/-- The character `'\r'`. -/
def cr : UInt8 := 13

/-- The character `'\n'`. -/
def lf : UInt8 := 10

/-- The arguments `data`, `len` of `bt_receive_cb`: `len` is a `uint16_t`. -/
structure Payload where
  /-- The bytes `data[0 .. len-1]`. -/
  data : List UInt8
  /-- `len` fits in 16 bits. -/
  length_lt : data.length < 65536

/-- The parameter `len` of `bt_receive_cb`. -/
abbrev Payload.len (p : Payload) : ℕ := p.data.length

/-- A `struct uart_data_t` that `bt_receive_cb` has filled. -/
structure UartData where
  /-- The number of the `k_malloc` call that returned it, so that two chunks with the same bytes are
  still two chunks. -/
  alloc : ℕ
  /-- The bytes written to the array `data`, from its first element on. -/
  data : List UInt8
  /-- The field `len`. -/
  len : ℕ
  deriving DecidableEq

/-- A pointer `&chunk->data[off]`. -/
structure DataPtr where
  /-- The structure pointed into. -/
  chunk : UartData
  /-- The index in its array `data`. -/
  off : ℕ
  deriving DecidableEq

/-- `CONTAINER_OF(p, struct uart_data_t, data)`: the structure, where `p` is the start of its array,
and no structure at all elsewhere. -/
def DataPtr.containerOf (p : DataPtr) : Option UartData := if p.off = 0 then some p.chunk else none

/-- A transfer that `uart_tx` has accepted: its arguments `buf` and `len`. -/
structure Transfer where
  /-- The first byte to send. -/
  buf : DataPtr
  /-- The number of bytes to send. -/
  len : ℕ
  deriving DecidableEq

/-! ## The loop of `bt_receive_cb` -/

/-- The conversion of an `int` to the 32-bit `size_t`. -/
def toSizeT (x : ℤ) : ℕ := (x % 4294967296).toNat

/-- On an `int` that is a difference of 16-bit values and not negative the conversion to `size_t`
changes nothing. -/
theorem toSizeT_sub {a b : ℕ} (hab : b ≤ a) (ha : a < 65536) : toSizeT ((a : ℤ) - b) = a - b := by
  unfold toSizeT
  omega

/-- `tx->len` before the LF: the rest of the payload, or all of `tx->data` but its last byte. -/
def chunkLen (size len pos : ℕ) : ℕ :=
  let txDataSize := size - 1
  if toSizeT ((len : ℤ) - pos) > txDataSize then txDataSize % 65536
  else ((len : ℤ) - pos).toNat % 65536

/-- One iteration of the loop, from the `k_malloc` that returned allocation number `alloc` up to the
call of `uart_tx`: the chunk and the new `pos`. -/
def fillChunk (size alloc : ℕ) (p : Payload) (pos : ℕ) : UartData × ℕ :=
  let n := chunkLen size p.len pos
  let bytes := (p.data.drop pos).take n
  let pos := (pos + n) % 65536
  -- the LF character goes in when the CR character triggered transmission from the peer
  if pos = p.len ∧ p.data.getD (p.len - 1) 0 = cr then
    (⟨alloc, bytes ++ [lf], (n + 1) % 65536⟩, pos)
  else (⟨alloc, bytes, n⟩, pos)

/-- Where an invocation of `bt_receive_cb` stands, named by the call it makes next. -/
inductive ReceiveCb
  /-- No invocation is running. -/
  | idle
  /-- In the loop, before `k_malloc`. -/
  | malloc (p : Payload) (pos : ℕ)
  /-- The chunk is filled and `uart_tx` is called next. -/
  | uartTx (p : Payload) (pos : ℕ) (tx : UartData)
  /-- `uart_tx` reported an error and `k_fifo_put` is called next. -/
  | fifoPut (p : Payload) (pos : ℕ) (tx : UartData)

/-- The loop test `pos != len`. -/
def ReceiveCb.loop (p : Payload) (pos : ℕ) : ReceiveCb :=
  if pos ≠ p.len then .malloc p pos else .idle

/-- The chunk that `bt_receive_cb` has built and not handed over yet. -/
def ReceiveCb.holding : ReceiveCb → List UartData
  | .idle | .malloc _ _ => []
  | .uartTx _ _ tx | .fifoPut _ _ tx => [tx]

/-- The loop test leaves no chunk in hand. -/
@[simp] theorem ReceiveCb.holding_loop (p : Payload) (pos : ℕ) :
    (ReceiveCb.loop p pos).holding = [] := by
  unfold ReceiveCb.loop
  split <;> rfl

/-! ## The state and the driver -/

/-- The state of the transmit path, with the histories that its properties speak about. -/
structure TxState where
  /-- `fifo_uart_tx_data`, head first. -/
  fifo : List UartData
  /-- The static `aborted_buf` of `uart_cb`. -/
  abortedBuf : Option DataPtr
  /-- The static `aborted_len` of `uart_cb`. -/
  abortedLen : ℕ
  /-- The transfer the driver has in flight. -/
  flight : Option Transfer
  /-- The running invocation of `bt_receive_cb`. -/
  receiveCb : ReceiveCb
  /-- The number of successful `k_malloc` calls so far. -/
  allocs : ℕ
  /-- History: the chunks `bt_receive_cb` has built, in order. -/
  built : List UartData
  /-- History: the transfers `uart_tx` has accepted, in order. -/
  transfers : List Transfer
  /-- History: the arguments of `k_free`, in order; `none` is an address that is no allocation. -/
  freed : List (Option UartData)

/-- The chunks whose transmission has started, in order. -/
def TxState.started (s : TxState) : List UartData := s.transfers.map fun t => t.buf.chunk

/-- `uart_tx(uart, buf, len)`: an error while a transfer is in flight or when the driver `refuses`,
otherwise the transfer is in flight. -/
def uartTx (refuses : Bool) (buf : DataPtr) (len : ℕ) (s : TxState) : Bool × TxState :=
  if s.flight.isSome || refuses then (true, s)
  else (false, { s with flight := some ⟨buf, len⟩, transfers := s.transfers ++ [⟨buf, len⟩] })

/-- `k_free(buf)`. -/
def kFree (buf : Option UartData) (s : TxState) : TxState := { s with freed := s.freed ++ [buf] }

/-- The branch `UART_TX_DONE` of `uart_cb`, for the event with `tx.buf` and `tx.len` of `evt`. -/
def uartCbTxDone (refuses : Bool) (evt : Transfer) (s : TxState) : TxState :=
  -- the test for a null `tx.buf` never fails: a transfer has a chunk
  if evt.len = 0 then s
  else
    let (buf, s) := match s.abortedBuf with
      | some p => (p.containerOf, { s with abortedBuf := none, abortedLen := 0 })
      | none => (evt.buf.containerOf, s)
    let s := kFree buf s
    match s.fifo with
    | [] => s
    -- a failing `uart_tx` is logged, and the chunk is lost
    | c :: rest => (uartTx refuses ⟨c, 0⟩ c.len { s with fifo := rest }).2

/-! ## The steps of `bt_receive_cb` against completions -/

/-- What happens next: the next call of `bt_receive_cb`, or a `UART_TX_DONE` between two calls. -/
inductive TxInput
  /-- The stack calls `bt_receive_cb`. -/
  | receive (p : Payload)
  /-- `bt_receive_cb` calls `k_malloc`, which succeeds, and fills the chunk. -/
  | kMalloc
  /-- `bt_receive_cb` calls `uart_tx`. -/
  | uartTx
  /-- `bt_receive_cb` calls `k_fifo_put`. -/
  | kFifoPut
  /-- The transfer in flight completes and `uart_cb` runs for `UART_TX_DONE`. -/
  | txDone

/-- One step of the transmit path, for `UART_BUF_SIZE = size`. -/
def txStep (size : ℕ) (s : TxState) : TxInput → Option TxState
  | .receive p => match s.receiveCb with
    | .idle => some { s with receiveCb := .loop p 0 }
    | _ => none
  | .kMalloc => match s.receiveCb with
    | .malloc p pos =>
        let (tx, pos) := fillChunk size s.allocs p pos
        some { s with
          receiveCb := .uartTx p pos tx
          allocs := s.allocs + 1
          built := s.built ++ [tx] }
    | _ => none
  | .uartTx => match s.receiveCb with
    | .uartTx p pos tx =>
        let (err, s) := PeripheralUart.uartTx false ⟨tx, 0⟩ tx.len s
        some { s with receiveCb := if err then .fifoPut p pos tx else .loop p pos }
    | _ => none
  | .kFifoPut => match s.receiveCb with
    | .fifoPut p pos tx => some { s with fifo := s.fifo ++ [tx], receiveCb := .loop p pos }
    | _ => none
  | .txDone => match s.flight with
    | some evt => some (uartCbTxDone false evt { s with flight := none })
    | none => none

/-- The transmit path after boot: nothing queued, nothing in flight. -/
def txInit : TxState := ⟨[], none, 0, none, .idle, 0, [], [], []⟩

/-- The transmit path as a machine. -/
def transmit (size : ℕ) : Machine TxState TxInput := ⟨txInit, txStep size⟩

end NcsExamples.PeripheralUart
