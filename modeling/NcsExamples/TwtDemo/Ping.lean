import Mathlib.Data.Int.Notation
import NcsExamples.Lib.Machine

/-! # TWT demo: the ping

Button 2 of the demo schedules a ping. One work queue runs `ping_work_handler`, which sends it and
waits up to a second, and `ping_response_timeout_handler`; the echo reply is handled in the receive
thread of the network stack, at any point of the other two. A handler is a step for each of its
parts that another thread may come between. -/

namespace NcsExamples.TwtDemo.Ping

/-- An echo reply, as `handle_ping_reply` sees it. -/
structure Packet where
  /-- `net_pkt_get_data` finds the echo header. -/
  header : Bool
  /-- `net_pkt_remaining_data` after the header. -/
  remaining : ℕ
  /-- `net_pkt_read_be32` fails. -/
  readFails : Bool
  /-- The field `sequence` of the header. -/
  sequence : UInt16
  deriving DecidableEq

/-- The reply is dropped: it has no echo header, or a timestamp that cannot be read. A reply that is
too short for a timestamp is not. -/
def Packet.Dropped (p : Packet) : Prop := p.header = false ∨ 4 ≤ p.remaining ∧ p.readFails = true

instance : DecidablePred Packet.Dropped := fun _ => inferInstanceAs (Decidable (_ ∨ _))

/-- What the work queue is executing. -/
inductive WorkQueue
  /-- Nothing. -/
  | idle
  /-- `ping_work_handler`, past its first test. -/
  | passed
  /-- `ping_work_handler`, before `net_icmp_init_ctx`. -/
  | initCtx
  /-- `ping_work_handler`, before `net_icmp_send_echo_request`. -/
  | sending
  /-- `ping_work_handler`, in `k_sem_take`. -/
  | waiting
  /-- `ping_response_timeout_handler`, before `net_icmp_cleanup_ctx`. -/
  | timeout
  /-- `ping_response_timeout_handler`, before its assignment to `sequence`. -/
  | cleaned
  deriving DecidableEq, Repr

/-- What the receive thread is executing. -/
inductive Receive
  /-- Nothing. -/
  | idle
  /-- `handle_ping_reply`, past the cancellation of the timeout. -/
  | started (pkt : Packet)
  /-- `handle_ping_reply`, before `net_icmp_cleanup_ctx`. -/
  | accepted (pkt : Packet)
  /-- `handle_ping_reply`, before `k_sem_give`. -/
  | cleaned (pkt : Packet)
  deriving DecidableEq

/-- The variables of the file, its work items, and where its handlers are. -/
structure State where
  sequence : ℤ
  recvSeq : ℤ
  /-- `ctx` is in the list of ICMP handlers. -/
  registered : Bool
  /-- `sem_wait`. -/
  semWait : ℕ
  /-- LED 2. -/
  led2 : Bool
  /-- `ping_work` is scheduled. -/
  workPending : Bool
  /-- `ping_response_timeout` is scheduled, on account of a ping. -/
  timeoutPending : Option ℕ
  workQueue : WorkQueue
  receive : Receive
  /-- History: the number of pings begun. The last one has this number. -/
  pings : ℕ
  /-- History: a reply with the sequence number of the last ping has been accepted. -/
  answered : Bool
  deriving DecidableEq

/-! ## `handle_ping_reply` -/

/-- The 16 bits of `sequence` that are sent. -/
def State.sentSequence (s : State) : ℤ := s.sequence % 65536

/-- Cancels the timeout and switches the LED off. -/
def replyStart (pkt : Packet) (s : State) : State :=
  { s with timeoutPending := none, led2 := false, receive := .started pkt }

/-- Drops the packet, or assigns its number to `recv_seq`. -/
def replyAccept (pkt : Packet) (s : State) : State :=
  if pkt.Dropped then { s with receive := .idle }
  else
    { s with
      recvSeq := pkt.sequence.toNat
      receive := .accepted pkt
      answered := s.answered || (pkt.sequence.toNat : ℤ) = s.sentSequence }

/-- `net_icmp_cleanup_ctx`. -/
def replyCleanup (pkt : Packet) (s : State) : State :=
  { s with registered := false, receive := .cleaned pkt }

/-- `k_sem_give`. -/
def replyGive (s : State) : State := { s with semWait := 1, receive := .idle }

/-! ## `ping_response_timeout_handler` -/

/-- The work queue takes the timeout. -/
def timeoutStart (s : State) : State := { s with timeoutPending := none, workQueue := .timeout }

/-- `net_icmp_cleanup_ctx`. -/
def timeoutCleanup (s : State) : State := { s with registered := false, workQueue := .cleaned }

/-- Assigns `recv_seq` to `sequence`. -/
def timeoutEnd (s : State) : State := { s with sequence := s.recvSeq, workQueue := .idle }

/-! ## `ping_work_handler` -/

/-- The first test. -/
def workStart (s : State) : State :=
  -- a reply is outstanding: the ping is refused
  if s.recvSeq < s.sequence then { s with workPending := false }
  else { s with workPending := false, workQueue := .passed }

/-- `sequence++`: a ping begins. -/
def increment (s : State) : State :=
  { s with
    sequence := s.sequence + 1
    workQueue := .initCtx
    pings := s.pings + 1
    answered := false }

/-- The label `fail`. -/
def fail (s : State) : State :=
  { s with sequence := s.recvSeq, workPending := true, workQueue := .idle }

/-- `net_icmp_init_ctx` fails or registers `ctx`. -/
def initCtx (ok : Bool) (s : State) : State :=
  if ok then { s with registered := true, workQueue := .sending } else fail s

/-- `k_sem_init` and `net_icmp_send_echo_request`. -/
def send (ok : Bool) (s : State) : State :=
  if ok then { s with semWait := 0, workQueue := .waiting } else fail { s with semWait := 0 }

/-- `k_sem_take` returns, and `k_work_schedule` schedules the timeout unless it is scheduled
already. -/
def wake (timedOut : Bool) (s : State) : State :=
  { s with
    semWait := if timedOut then s.semWait else 0
    timeoutPending := some (s.timeoutPending.getD s.pings)
    workQueue := .idle }

/-! ## The machine -/

/-- What happens next. -/
inductive Input
  /-- Button 2 is pressed: LED 2 is lit and `ping_schedule` is called. -/
  | schedule
  /-- The work queue starts `ping_work_handler`. -/
  | work
  | increment
  | initCtx (ok : Bool)
  | send (ok : Bool)
  /-- `k_sem_take` returns, with the semaphore or after one second. -/
  | wake (timedOut : Bool)
  /-- The work queue starts `ping_response_timeout_handler`. -/
  | timeoutStart
  | timeoutCleanup
  | timeoutEnd
  /-- An echo reply arrives while `ctx` is registered. -/
  | replyStart (pkt : Packet)
  | replyAccept
  | replyCleanup
  | replyGive
  deriving DecidableEq

/-- One step of the demo. -/
def step (s : State) : Input → Option State
  | .schedule => some { s with led2 := true, workPending := true }
  | .work => if s.workQueue = .idle ∧ s.workPending = true then some (workStart s) else none
  | .increment => if s.workQueue = .passed then some (increment s) else none
  | .initCtx ok => if s.workQueue = .initCtx then some (initCtx ok s) else none
  | .send ok => if s.workQueue = .sending then some (send ok s) else none
  | .wake timedOut =>
      if s.workQueue = .waiting ∧ (timedOut = true ∨ s.semWait = 1) then some (wake timedOut s)
      else none
  | .timeoutStart =>
      if s.workQueue = .idle ∧ s.timeoutPending.isSome then some (timeoutStart s) else none
  | .timeoutCleanup => if s.workQueue = .timeout then some (timeoutCleanup s) else none
  | .timeoutEnd => if s.workQueue = .cleaned then some (timeoutEnd s) else none
  | .replyStart pkt =>
      if s.registered = true ∧ s.receive = .idle then some (replyStart pkt s) else none
  | .replyAccept => match s.receive with
      | .started pkt => some (replyAccept pkt s)
      | _ => none
  | .replyCleanup => match s.receive with
      | .accepted pkt => some (replyCleanup pkt s)
      | _ => none
  | .replyGive => match s.receive with
      | .cleaned _ => some (replyGive s)
      | _ => none

/-- The ping as a machine, after `ping_init`. -/
def ping : Machine State Input :=
  ⟨⟨0, 0, false, 0, false, false, none, .idle, .idle, 0, false⟩, step⟩

/-! ## What a step is -/

variable {s t : State} {i : Input}

/-- **Step inversion.** A step is the part of the handler that its input names, executed in the
place that comes before it. -/
inductive Step (s : State) : Input → State → Prop
  | schedule : Step s .schedule { s with led2 := true, workPending := true }
  | work (hidle : s.workQueue = .idle) : Step s .work (workStart s)
  | increment (hat : s.workQueue = .passed) : Step s .increment (increment s)
  | initCtx (ok : Bool) (hat : s.workQueue = .initCtx) : Step s (.initCtx ok) (initCtx ok s)
  | send (ok : Bool) (hat : s.workQueue = .sending) : Step s (.send ok) (send ok s)
  | wake (timedOut : Bool) (hat : s.workQueue = .waiting) :
      Step s (.wake timedOut) (wake timedOut s)
  | timeoutStart (hidle : s.workQueue = .idle) (hpending : s.timeoutPending.isSome) :
      Step s .timeoutStart (timeoutStart s)
  | timeoutCleanup (hat : s.workQueue = .timeout) : Step s .timeoutCleanup (timeoutCleanup s)
  | timeoutEnd (hat : s.workQueue = .cleaned) : Step s .timeoutEnd (timeoutEnd s)
  | replyStart (pkt : Packet) (hidle : s.receive = .idle) :
      Step s (.replyStart pkt) (replyStart pkt s)
  | replyAccept (pkt : Packet) (hat : s.receive = .started pkt) :
      Step s .replyAccept (replyAccept pkt s)
  | replyCleanup (pkt : Packet) (hat : s.receive = .accepted pkt) :
      Step s .replyCleanup (replyCleanup pkt s)
  | replyGive (pkt : Packet) (hat : s.receive = .cleaned pkt) : Step s .replyGive (replyGive s)

/-- Every step of the machine is one of these. -/
theorem step_of_eq_some (hs : step s i = some t) : Step s i t := by
  cases i with
  | schedule =>
    obtain rfl := Option.some.inj hs
    exact .schedule
  | work =>
    obtain ⟨⟨hidle, -⟩, rfl⟩ := Machine.guarded_eq_some.mp hs
    exact .work hidle
  | increment =>
    obtain ⟨hat, rfl⟩ := Machine.guarded_eq_some.mp hs
    exact .increment hat
  | initCtx ok =>
    obtain ⟨hat, rfl⟩ := Machine.guarded_eq_some.mp hs
    exact .initCtx ok hat
  | send ok =>
    obtain ⟨hat, rfl⟩ := Machine.guarded_eq_some.mp hs
    exact .send ok hat
  | wake timedOut =>
    obtain ⟨⟨hat, -⟩, rfl⟩ := Machine.guarded_eq_some.mp hs
    exact .wake timedOut hat
  | timeoutStart =>
    obtain ⟨⟨hidle, hpending⟩, rfl⟩ := Machine.guarded_eq_some.mp hs
    exact .timeoutStart hidle hpending
  | timeoutCleanup =>
    obtain ⟨hat, rfl⟩ := Machine.guarded_eq_some.mp hs
    exact .timeoutCleanup hat
  | timeoutEnd =>
    obtain ⟨hat, rfl⟩ := Machine.guarded_eq_some.mp hs
    exact .timeoutEnd hat
  | replyStart pkt =>
    obtain ⟨⟨-, hidle⟩, rfl⟩ := Machine.guarded_eq_some.mp hs
    exact .replyStart pkt hidle
  | replyAccept =>
    simp only [step] at hs
    split at hs
    · next pkt hat =>
      obtain rfl := Option.some.inj hs
      exact .replyAccept pkt hat
    · cases hs
  | replyCleanup =>
    simp only [step] at hs
    split at hs
    · next pkt hat =>
      obtain rfl := Option.some.inj hs
      exact .replyCleanup pkt hat
    · cases hs
  | replyGive =>
    simp only [step] at hs
    split at hs
    · next pkt hat =>
      obtain rfl := Option.some.inj hs
      exact .replyGive pkt hat
    · cases hs

end NcsExamples.TwtDemo.Ping
