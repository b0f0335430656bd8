import NcsExamples.Lib.WrappedCounter
import NcsExamples.TwtDemo.Ping

/-! # TWT demo: the round-trip time

An echo request carries the cycle counter of the moment it is sent, in 32 bits, and the reply brings
it back. `handle_ping_reply` subtracts it from the counter, converts the cycles into nanoseconds, of
which it keeps 32 bits, and logs the milliseconds. A reply may come until the timeout of the ping is
handled, which is a second and one and a half intervals of the target wake time after it was sent.
-/

namespace NcsExamples.TwtDemo.Ping

/-! ## What is logged -/

/-- `k_cyc_to_ns_floor64`, for a counter of `hz` cycles in a second. -/
def kCycToNsFloor64 (hz cycles : ℕ) : ℕ := cycles * 1000000000 / hz

/-- The milliseconds of `time_buf`, in the build without `CONFIG_FPU`: `read` is what
`net_pkt_read_be32` reads and `counter` is `k_cycle_get_32`. -/
def replyTime (hz : ℕ) (counter read : BitVec 32) : ℕ :=
  (BitVec.ofNat 32 (kCycToNsFloor64 hz (counter - read).toNat)).toNat / 1000000

/-- The sequence number and the time that a reply is logged with. The time is missing where the
reply is too short. -/
structure Line where
  seq : ℕ
  time : Option ℕ
  deriving DecidableEq, Repr

/-- The line for a packet. None is logged of a packet that is dropped. -/
def Packet.line (hz : ℕ) (pkt : Packet) (counter read : BitVec 32) : Option Line :=
  if pkt.Dropped then none
  else some ⟨pkt.sequence.toNat, if 4 ≤ pkt.remaining then some (replyTime hz counter read) else none⟩

/-! ## Requests and replies -/

/-- An echo request on its way. -/
structure Request where
  sequence : UInt16
  /-- The cycles from the boot to when the data were written. -/
  sent : ℕ
  deriving DecidableEq, Repr

/-- The demo, with the cycles since the boot and the network. -/
structure Timed where
  app : State
  now : ℕ
  /-- The requests that were sent. -/
  requests : List Request
  /-- The request that the last reply answers. -/
  answering : Option Request
  deriving DecidableEq

/-- What happens next. -/
inductive TimedInput
  /-- Time passes. -/
  | tick (cycles : ℕ)
  /-- The demo takes a step other than to start on a reply. -/
  | demo (i : Input)
  /-- A reply to a request arrives, as often and as late as the network delivers it. It has the
  sequence number of the request. -/
  | reply (k : ℕ) (header : Bool) (remaining : ℕ) (readFails : Bool)
  deriving DecidableEq

/-- The requests after a step of the demo. `net_icmp_send_echo_request` writes the cycle counter
into a request when it is given no data. -/
def sendRequest (w : Timed) : Input → List Request
  | .send true => w.requests ++ [⟨UInt16.ofNat w.app.sentSequence.toNat, w.now⟩]
  | _ => w.requests

/-- One step of the demo on its network. -/
def timedStep (w : Timed) : TimedInput → Option Timed
  | .tick cycles => some { w with now := w.now + cycles }
  | .demo (.replyStart _) => none
  | .demo i => (step w.app i).map fun app => { w with app, requests := sendRequest w i }
  | .reply k header remaining readFails => w.requests[k]?.bind fun r =>
      (step w.app (.replyStart ⟨header, remaining, readFails, r.sequence⟩)).map fun app =>
        { w with app, answering := some r }

/-- The demo on its network, as a machine. -/
def timed : Machine Timed TimedInput := ⟨⟨ping.init, 0, [], none⟩, timedStep⟩

/-- The line that `handle_ping_reply` logs if it goes on now. -/
def Timed.line (hz : ℕ) (w : Timed) : Option Line :=
  match w.app.receive, w.answering with
  | .started pkt, some r => pkt.line hz (BitVec.ofNat 32 w.now) (BitVec.ofNat 32 r.sent)
  | _, _ => none

/-! ## Which request a reply answers -/

variable {s t : State} {i : Input} {w v : Timed} {j : TimedInput}

/-- The receive thread starts on a packet when the packet arrives. -/
theorem Step.started {pkt : Packet} (hs : Step s i t) (hat : t.receive = .started pkt) :
    s.receive = .started pkt ∨ i = .replyStart pkt := by
  cases hs with
  | work hidle =>
    refine .inl ?_
    unfold workStart at hat
    split at hat <;> exact hat
  | initCtx ok | send ok =>
    refine .inl ?_
    cases ok <;> exact hat
  | replyStart pkt' hidle =>
    cases hat
    exact .inr rfl
  | replyAccept pkt' hat' =>
    unfold Ping.replyAccept at hat
    split at hat <;> cases hat
  | replyCleanup | replyGive => cases hat
  | _ => exact .inl hat

/-- The requests were sent before, and the receive thread handles the reply to one of them. -/
structure Timed.Traced (w : Timed) : Prop where
  sent_le : ∀ r ∈ w.requests, r.sent ≤ w.now
  answering : ∀ pkt, w.app.receive = .started pkt →
    ∃ r ∈ w.requests, w.answering = some r ∧ pkt.sequence = r.sequence

/-- The requests stay, and a new one is sent now. -/
theorem mem_sendRequest {r : Request} (hr : r ∈ sendRequest w i) :
    r ∈ w.requests ∨ r.sent = w.now := by
  unfold sendRequest at hr
  split at hr
  · rcases List.mem_append.mp hr with hold | hnew
    · exact .inl hold
    · rw [List.mem_singleton.mp hnew]
      exact .inr rfl
  · exact .inl hr

theorem subset_sendRequest : w.requests ⊆ sendRequest w i := by
  unfold sendRequest
  split
  · exact List.subset_append_left _ _
  · exact List.Subset.refl _

/-- A step keeps track of the requests. -/
theorem Timed.Traced.step (h : w.Traced) (hs : timed.step w j = some v) : v.Traced := by
  cases j with
  | tick cycles =>
    obtain rfl := Option.some.inj hs
    exact ⟨fun r hr => Nat.le_add_right_of_le (h.sent_le r hr), h.answering⟩
  | demo i =>
    -- a reply of nobody's making does not arrive here
    have hdemo : (Ping.step w.app i).map (fun app => { w with app, requests := sendRequest w i }) =
        some v ∧ ∀ pkt, i ≠ .replyStart pkt := by
      cases i with
      | replyStart pkt => cases hs
      | _ => exact ⟨hs, nofun⟩
    obtain ⟨hmap, hne⟩ := hdemo
    obtain ⟨app, happ, rfl⟩ := Option.map_eq_some_iff.mp hmap
    refine ⟨fun r hr => ?_, fun pkt hat => ?_⟩
    · rcases mem_sendRequest hr with hold | hnew
      · exact h.sent_le r hold
      · exact Nat.le_of_eq hnew
    · rcases (step_of_eq_some happ).started hat with hbefore | harrives
      · obtain ⟨r, hr, hrest⟩ := h.answering pkt hbefore
        exact ⟨r, subset_sendRequest hr, hrest⟩
      · exact absurd harrives (hne pkt)
  | reply k header remaining readFails =>
    obtain ⟨r, hr, hmap⟩ := Option.bind_eq_some_iff.mp hs
    obtain ⟨app, happ, rfl⟩ := Option.map_eq_some_iff.mp hmap
    refine ⟨h.sent_le, fun pkt hat => ⟨r, List.mem_of_getElem? hr, rfl, ?_⟩⟩
    cases step_of_eq_some happ with
    | replyStart pkt' hidle =>
      cases hat
      rfl

theorem traced_init : timed.init.Traced where
  sent_le r hr := by cases hr
  answering pkt hat := by cases hat

/-! ## Runs -/

/-- **Round-trip times.** Whatever is logged is the sequence number of the request that is being
answered; and the time logged is its age in milliseconds exactly if the age in nanoseconds fits into
32 bits. -/
theorem reply_time_iff (hz : ℕ) (hpos : 0 < hz) (hhz : hz ≤ 1000000000) (is : List TimedInput)
    (w : Timed) (hrun : timed.run is = some w) (l : Line) (hline : w.line hz = some l) :
    ∃ r ∈ w.requests, w.answering = some r ∧ l.seq = r.sequence.toNat ∧ ∀ ms ∈ l.time,
      (ms = (w.now - r.sent) * 1000 / hz ↔ (w.now - r.sent) * 1000000000 / hz < 2 ^ 32) := by
  have htraced : w.Traced :=
    Machine.invariant_run Timed.Traced (fun _ _ _ h hs => h.step hs) traced_init hrun
  unfold Timed.line at hline
  split at hline
  · next pkt r hat hanswering =>
    obtain ⟨r', hr, hanswering', hseq⟩ := htraced.answering pkt hat
    obtain rfl : r = r' := Option.some.inj (hanswering.symm.trans hanswering')
    obtain ⟨-, hl⟩ := Option.ite_none_left_eq_some.mp hline
    obtain rfl := Option.some.inj hl
    refine ⟨r, hr, hanswering, congrArg UInt16.toNat hseq, fun ms hms => ?_⟩
    obtain ⟨-, hms⟩ := Option.ite_none_right_eq_some.mp hms
    obtain rfl := Option.some.inj hms
    rw [replyTime, kCycToNsFloor64, BitVec.toNat_ofNat,
      WrappedCounter.toNat_ofNat_sub_ofNat 32 (htraced.sent_le r hr)]
    -- the milliseconds are those of the nanoseconds, unless these were cut
    have hage : (w.now - r.sent) * 1000 / hz = (w.now - r.sent) * 1000000000 / hz / 1000000 := by
      rw [Nat.div_div_eq_div_mul, show 1000000000 = 1000 * 1000000 from rfl, ← Nat.mul_assoc,
        Nat.mul_div_mul_right _ _ (by decide)]
    rw [hage]
    exact WrappedCounter.display_eq_iff (Nat.le_refl _) (by decide) (by decide) hpos hhz
  · cases hline

/-- A first ping and its reply, with a counter of 32768 Hz: five seconds are between them. -/
def slowPing : List TimedInput :=
  [.demo .schedule, .demo .work, .demo .increment, .demo (.initCtx true), .tick 1000,
    .demo (.send true), .tick 32768, .demo (.wake true), .tick 131072, .reply 0 true 4 false]

/-- Where it leads. -/
def slowReply : Timed where
  app :=
    { ping.init with
      sequence := 1
      registered := true
      receive := .started ⟨true, 4, false, 1⟩
      pings := 1 }
  now := 164840
  requests := [⟨1, 1000⟩]
  answering := some ⟨1, 1000⟩

/-- The reply of five seconds is logged as one of 705 milliseconds. -/
theorem reply_time_slow : timed.run slowPing = some slowReply ∧
    slowReply.line 32768 = some ⟨1, some 705⟩ ∧ ∃ r ∈ slowReply.requests,
      slowReply.answering = some r ∧ ¬ 705 = (slowReply.now - r.sent) * 1000 / 32768 := by
  have hrun : timed.run slowPing = some slowReply := by decide
  have hline : slowReply.line 32768 = some ⟨1, some 705⟩ := by decide
  obtain ⟨r, hr, hanswering, -, htime⟩ := reply_time_iff 32768 (by decide) (by decide) slowPing
    slowReply hrun ⟨1, some 705⟩ hline
  refine ⟨hrun, hline, r, hr, hanswering, fun heq => ?_⟩
  obtain rfl : ⟨1, 1000⟩ = r := Option.some.inj hanswering
  exact absurd ((htime 705 rfl).mp heq) (by decide)

end NcsExamples.TwtDemo.Ping
