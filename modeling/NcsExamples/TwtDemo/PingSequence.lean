import Mathlib.Algebra.Order.Ring.Int
import NcsExamples.TwtDemo.PingTimeout

/-! # TWT demo: sequence numbers

`sequence` counts the pings in an `int`, and its low 16 bits are sent. `recv_seq` is what comes back,
so after ping 65536 it is 0 while `sequence` is 65536, and the next ping is refused. The timeout of
that ping, which is scheduled although the reply has come, makes the two equal again, and the count
starts anew. -/

namespace NcsExamples.TwtDemo.Ping

/-- The reply that is about to be accepted is not dropped and carries `number`. -/
def Receive.Answers (number : ℤ) : Receive → Prop
  | .started pkt => ¬ pkt.Dropped ∧ (pkt.sequence.toNat : ℤ) = number
  | .idle | .accepted _ | .cleaned _ => True

/-- Consecutive pings, each sent and each answered with the number that was sent: the next ping
begins, and the timeout of a ping starts, after its reply has been handled. -/
def Answering (s : State) : Input → Prop
  | .work => s.sequence ≤ s.recvSeq → s.receive = .idle ∧ (s.pings = 0 ∨ s.answered = true)
  | .initCtx ok | .send ok => ok = true
  | .timeoutStart => s.receive = .idle ∧ s.answered = true
  | .replyAccept => s.receive.Answers s.sentSequence
  | _ => True

instance (number : ℤ) : DecidablePred (Receive.Answers number)
  | .started _ => inferInstanceAs (Decidable (_ ∧ _))
  | .idle | .accepted _ | .cleaned _ => isTrue trivial

instance (s : State) : DecidablePred (Answering s)
  | .work => inferInstanceAs (Decidable (_ → _))
  | .initCtx _ | .send _ => inferInstanceAs (Decidable (_ = true))
  | .timeoutStart => inferInstanceAs (Decidable (_ ∧ _))
  | .replyAccept => inferInstanceAs (Decidable (s.receive.Answers _))
  | .schedule | .increment | .wake _ | .timeoutCleanup | .timeoutEnd | .replyStart _
  | .replyCleanup | .replyGive => isTrue trivial

/-! ## Numbers -/

/-- The value of `sequence` for the `n`-th ping: 1 to 65536, and then from 1 again. -/
def number (n : ℕ) : ℤ := ((n - 1) % 65536 + 1 : ℕ)

/-- The number that comes back with the reply to the `n`-th ping. -/
def echoed (n : ℕ) : ℤ := (n % 65536 : ℕ)

theorem number_succ (n : ℕ) : number (n + 1) = echoed n + 1 := by
  simp [number, echoed]

/-- The 16 bits of a ping come back. -/
theorem number_emod {n : ℕ} (hn : n ≠ 0) : number n % 65536 = echoed n := by
  unfold number echoed
  omega

/-- The number of a ping is received unless it does not fit into 16 bits. -/
theorem number_le_echoed_iff {n : ℕ} : number n ≤ echoed n ↔ ¬ 65536 ∣ n := by
  unfold number echoed
  omega

/-- A number that is received is received as it is. -/
theorem echoed_le_number {n : ℕ} : echoed n ≤ number n := by
  unfold number echoed
  omega

/-- Before its reply, the number of a ping has not been received. -/
theorem echoed_pred_lt {n : ℕ} : echoed (n - 1) < number n := by
  unfold number echoed
  omega

/-! ## Where a ping stands -/

/-- The reply to the last ping, if there is one, has been handled. -/
structure Settled (s : State) : Prop where
  receive : s.receive = .idle
  registered : s.registered = false
  answered : s.pings = 0 ∨ s.answered = true
  recvSeq : s.recvSeq = echoed s.pings
  /-- The timeout of the ping may have changed `sequence`. -/
  sequence : s.pings ≠ 0 ∧ s.sequence = number s.pings ∨ s.sequence = s.recvSeq
  passed : s.workQueue = .passed → s.sequence = s.recvSeq
  initCtx : s.workQueue ≠ .initCtx

/-- The last ping has no reply yet. -/
structure Unanswered (s : State) : Prop where
  pings : s.pings ≠ 0
  answered : s.answered = false
  recvSeq : s.recvSeq = echoed (s.pings - 1)
  sequence : s.sequence = number s.pings
  receive : s.receive = .idle ∨ ∃ pkt, s.receive = .started pkt
  initCtx : s.workQueue = .initCtx → s.receive = .idle ∧ s.registered = false
  workQueue : s.workQueue.Sends ∨ s.workQueue = .idle

/-- The reply to the last ping is being handled, and has been accepted. -/
structure Replied (s : State) : Prop where
  pings : s.pings ≠ 0
  answered : s.answered = true
  recvSeq : s.recvSeq = echoed s.pings
  sequence : s.sequence = number s.pings
  receive : (∃ pkt, s.receive = .accepted pkt) ∨
    ∃ pkt, s.receive = .cleaned pkt ∧ s.registered = false
  workQueue : s.workQueue = .sending ∨ s.workQueue = .waiting ∨ s.workQueue = .idle

/-- Where the last ping stands. -/
def Counted (s : State) : Prop := Settled s ∨ Unanswered s ∨ Replied s

variable {s t : State} {i : Input}

/-- A reply arrives only while `ctx` is in the list. -/
theorem registered_of_replyStart {pkt : Packet} (hs : ping.step s (.replyStart pkt) = some t) :
    s.registered = true :=
  (Option.ite_none_right_eq_some.mp hs).1.1

/-- After the reply to a ping, the next one is sent. -/
theorem Settled.step (h : Settled s) (hok : Answering s i) (hs : ping.step s i = some t) :
    Counted t := by
  obtain ⟨hreceive, hreg, hanswered, hrecv, hseq, hpassed, hinit⟩ := h
  have hstep : Step s i t := step_of_eq_some hs
  cases hstep with
  | schedule => exact .inl ⟨hreceive, hreg, hanswered, hrecv, hseq, hpassed, hinit⟩
  | work hidle =>
    unfold workStart
    split
    · exact .inl ⟨hreceive, hreg, hanswered, hrecv, hseq, hpassed, hinit⟩
    · next hge =>
      have heq : s.sequence = s.recvSeq := by
        rcases hseq with ⟨-, hnumber⟩ | heq
        · refine le_antisymm (not_lt.mp hge) ?_
          rw [hrecv, hnumber]
          exact echoed_le_number
        · exact heq
      exact .inl ⟨hreceive, hreg, hanswered, hrecv, .inr heq, fun _ => heq, nofun⟩
  | increment hat =>
    -- the next ping begins with the number after the one that came back
    refine .inr (.inl ⟨Nat.succ_ne_zero _, rfl, hrecv, ?_, .inl hreceive,
      fun _ => ⟨hreceive, hreg⟩, .inl trivial⟩)
    show s.sequence + 1 = number (s.pings + 1)
    rw [number_succ, hpassed hat, hrecv]
  | initCtx ok hat => exact absurd hat hinit
  | send ok hat =>
    obtain rfl : ok = true := hok
    exact .inl ⟨hreceive, hreg, hanswered, hrecv, hseq, nofun, nofun⟩
  | wake | timeoutStart => exact .inl ⟨hreceive, hreg, hanswered, hrecv, hseq, nofun, nofun⟩
  | timeoutCleanup => exact .inl ⟨hreceive, rfl, hanswered, hrecv, hseq, nofun, nofun⟩
  | timeoutEnd => exact .inl ⟨hreceive, hreg, hanswered, hrecv, .inr rfl, nofun, nofun⟩
  | replyStart pkt =>
    rw [registered_of_replyStart hs] at hreg
    cases hreg
  | replyAccept pkt hat | replyCleanup pkt hat | replyGive pkt hat =>
    rw [hat] at hreceive
    cases hreceive

/-- A ping stays without a reply until one with its number is accepted. -/
theorem Unanswered.step (h : Unanswered s) (hok : Answering s i) (hs : ping.step s i = some t) :
    Counted t := by
  obtain ⟨hpings, hanswered, hrecv, hseq, hreceive, hinit, hqueue⟩ := h
  have hstep : Step s i t := step_of_eq_some hs
  cases hstep with
  | schedule => exact .inr (.inl ⟨hpings, hanswered, hrecv, hseq, hreceive, hinit, hqueue⟩)
  | work hidle =>
    have hlt : s.recvSeq < s.sequence := by
      rw [hrecv, hseq]
      exact echoed_pred_lt
    rw [workStart, if_pos hlt]
    exact .inr (.inl ⟨hpings, hanswered, hrecv, hseq, hreceive, hinit, hqueue⟩)
  | increment hat | timeoutCleanup hat | timeoutEnd hat =>
    simp [hat, WorkQueue.Sends] at hqueue
  | initCtx ok hat =>
    obtain rfl : ok = true := hok
    refine .inr (.inl ⟨hpings, hanswered, hrecv, hseq, hreceive, fun hat' => ?_, .inl trivial⟩)
    cases hat'
  | send ok hat =>
    obtain rfl : ok = true := hok
    refine .inr (.inl ⟨hpings, hanswered, hrecv, hseq, hreceive, fun hat' => ?_, .inl trivial⟩)
    cases hat'
  | wake =>
    refine .inr (.inl ⟨hpings, hanswered, hrecv, hseq, hreceive, fun hat' => ?_, .inr rfl⟩)
    cases hat'
  | timeoutStart =>
    obtain ⟨-, hans⟩ : s.receive = .idle ∧ s.answered = true := hok
    rw [hanswered] at hans
    cases hans
  | replyStart pkt =>
    have hreg := registered_of_replyStart hs
    refine .inr (.inl ⟨hpings, hanswered, hrecv, hseq, .inr ⟨pkt, rfl⟩, fun hat => ?_, hqueue⟩)
    rw [(hinit hat).2] at hreg
    cases hreg
  | replyAccept pkt hat =>
    obtain ⟨hkeep, hnumber⟩ : ¬ pkt.Dropped ∧ (pkt.sequence.toNat : ℤ) = s.sentSequence := by
      have hans : s.receive.Answers s.sentSequence := hok
      rw [hat] at hans
      exact hans
    rw [replyAccept, if_neg hkeep]
    refine .inr (.inr ⟨hpings, ?_, ?_, hseq, .inl ⟨pkt, rfl⟩, ?_⟩)
    · simp [hnumber]
    · show (pkt.sequence.toNat : ℤ) = echoed s.pings
      rw [hnumber, State.sentSequence, hseq, number_emod hpings]
    · show s.workQueue = _ ∨ s.workQueue = _ ∨ s.workQueue = _
      cases hqueue' : s.workQueue with
      | initCtx =>
        rw [(hinit hqueue').1] at hat
        cases hat
      | _ => simp_all [WorkQueue.Sends]
  | replyCleanup pkt hat | replyGive pkt hat => simp [hat] at hreceive

/-- While the reply is handled nothing else begins. -/
theorem Replied.step (h : Replied s) (hok : Answering s i) (hs : ping.step s i = some t) :
    Counted t := by
  obtain ⟨hpings, hanswered, hrecv, hseq, hreceive, hqueue⟩ := h
  have hstep : Step s i t := step_of_eq_some hs
  cases hstep with
  | schedule => exact .inr (.inr ⟨hpings, hanswered, hrecv, hseq, hreceive, hqueue⟩)
  | work hidle =>
    unfold workStart
    split
    · exact .inr (.inr ⟨hpings, hanswered, hrecv, hseq, hreceive, hqueue⟩)
    · next hge =>
      have hwork : s.sequence ≤ s.recvSeq → s.receive = .idle ∧ _ := hok
      obtain ⟨hidle, -⟩ := hwork (not_lt.mp hge)
      simp [hidle] at hreceive
  | increment hat | initCtx _ hat | timeoutCleanup hat | timeoutEnd hat => simp [hat] at hqueue
  | send ok hat =>
    obtain rfl : ok = true := hok
    exact .inr (.inr ⟨hpings, hanswered, hrecv, hseq, hreceive, .inr (.inl rfl)⟩)
  | wake => exact .inr (.inr ⟨hpings, hanswered, hrecv, hseq, hreceive, .inr (.inr rfl)⟩)
  | timeoutStart =>
    obtain ⟨hidle, -⟩ : s.receive = .idle ∧ s.answered = true := hok
    simp [hidle] at hreceive
  | replyStart pkt hidle => simp [hidle] at hreceive
  | replyAccept pkt hat => simp [hat] at hreceive
  | replyCleanup pkt hat =>
    exact .inr (.inr ⟨hpings, hanswered, hrecv, hseq, .inr ⟨pkt, rfl, rfl⟩, hqueue⟩)
  | replyGive pkt hat =>
    have hreg : s.registered = false := by simpa [hat] using hreceive
    refine .inl ⟨rfl, hreg, .inr hanswered, hrecv, .inl ⟨hpings, hseq⟩, ?_, ?_⟩
    · intro (hat' : s.workQueue = .passed)
      simp [hat'] at hqueue
    · intro (hat' : s.workQueue = .initCtx)
      simp [hat'] at hqueue

/-- A step of consecutive pings, each sent and answered, keeps the count. -/
theorem Counted.step (h : Counted s) (hok : Answering s i) (hs : ping.step s i = some t) :
    Counted t := by
  rcases h with h | h | h
  · exact h.step hok hs
  · exact h.step hok hs
  · exact h.step hok hs

theorem counted_init : Counted ping.init :=
  .inl ⟨rfl, rfl, .inl rfl, rfl, .inr rfl, nofun, nofun⟩

/-- Past `net_icmp_cleanup_ctx`, the reply has been accepted. -/
theorem Counted.replied (h : Counted s) {pkt : Packet} (hat : s.receive = .cleaned pkt) :
    Replied s := by
  rcases h with h | h | h
  · have hidle := h.receive
    simp [hat] at hidle
  · have hreceive := h.receive
    simp [hat] at hreceive
  · exact h

/-! ## Runs -/

/-- **Sequence numbers and their wrap-around.** Of consecutive pings that are each sent, and answered
with the number that was sent, the reply to the `n`-th leaves `recv_seq` at or above `sequence`
exactly if `n` is not a multiple of 65536. -/
theorem ping_received_iff (is : List Input) (hok : ping.Meets Answering is) (s t : State)
    (hrun : ping.run is = some s) (hgive : ping.step s .replyGive = some t) :
    t.sequence ≤ t.recvSeq ↔ ¬ 65536 ∣ t.pings := by
  have hcounted : Counted s := by
    refine Machine.invariant Counted counted_init ?_ hok hrun
    intro s i t h hi hs
    exact h.step hi hs
  have hstep : Step s .replyGive t := step_of_eq_some hgive
  cases hstep with
  | replyGive pkt hat =>
    have hreplied := hcounted.replied hat
    show s.sequence ≤ s.recvSeq ↔ ¬ 65536 ∣ s.pings
    rw [hreplied.sequence, hreplied.recvSeq]
    exact number_le_echoed_iff

/-! ## The first 65536 pings -/

/-- Between two pings, after `n` of them. -/
def ready (n : ℕ) (timeoutPending : Option ℕ) (answered : Bool) : State :=
  ⟨n, n, false, 0, false, false, timeoutPending, .idle, .idle, n, answered⟩

/-- The `n`-th ping and its reply, up to `k_sem_give`. -/
def exchange (n : ℕ) : List Input :=
  [.schedule, .work, .increment, .initCtx true, .send true,
    .replyStart ⟨true, 4, false, UInt16.ofNat n⟩, .replyAccept, .replyCleanup]

/-- Before `k_sem_give`, after `n` pings. -/
def givingBack (n : ℕ) : State :=
  ⟨n, (n % 65536 : ℕ), false, 0, false, false, none, .waiting,
    .cleaned ⟨true, 4, false, UInt16.ofNat n⟩, n, true⟩

theorem runFrom_exchange (n : ℕ) (timeoutPending : Option ℕ) (answered : Bool) :
    ping.runFrom (ready n timeoutPending answered) (exchange (n + 1)) =
      some (givingBack (n + 1)) := by
  simp [Machine.runFrom, ping, step, exchange, ready, givingBack, workStart, increment, initCtx,
    send, replyStart, replyAccept, replyCleanup, Packet.Dropped, State.sentSequence]

theorem along_exchange (n : ℕ) (timeoutPending : Option ℕ) (answered : Bool)
    (hn : n = 0 ∨ answered = true) :
    ping.Along (fun s i _ => Answering s i) (ready n timeoutPending answered)
      (exchange (n + 1)) := by
  simp [Machine.Along, ping, step, exchange, ready, workStart, increment, initCtx,
    send, replyStart, replyAccept, replyCleanup, Packet.Dropped, State.sentSequence, Answering,
    Receive.Answers, hn]

/-- The rest of a ping whose number fits into 16 bits. -/
theorem runFrom_givingBack {n : ℕ} (hn : n < 65536) :
    ping.runFrom (givingBack n) [.replyGive, .wake false] = some (ready n (some n) true) := by
  simp [Machine.runFrom, ping, step, givingBack, ready, replyGive, wake, Nat.mod_eq_of_lt hn]

/-- The first `n` pings. -/
def exchanges : ℕ → List Input
  | 0 => []
  | n + 1 => exchanges n ++ (exchange (n + 1) ++ [.replyGive, .wake false])

/-- The first 65535 pings are answered. -/
theorem exists_ready {n : ℕ} (hn : n < 65536) : ∃ timeoutPending answered,
    (n = 0 ∨ answered = true) ∧ ping.run (exchanges n) = some (ready n timeoutPending answered) ∧
      ping.Meets Answering (exchanges n) := by
  induction n with
  | zero => exact ⟨none, false, .inl rfl, rfl, trivial⟩
  | succ n ih =>
    obtain ⟨timeoutPending, answered, hready, hrun, hmeets⟩ := ih (Nat.lt_of_succ_lt hn)
    have hexchange := runFrom_exchange n timeoutPending answered
    refine ⟨some (n + 1), true, .inr rfl, ?_, ?_⟩
    · exact Machine.runFrom_trans hrun (Machine.runFrom_trans hexchange (runFrom_givingBack hn))
    · refine (Machine.along_append hrun).mpr ⟨hmeets, (Machine.along_append hexchange).mpr ⟨?_, ?_⟩⟩
      · exact along_exchange n timeoutPending answered hready
      · simp [Machine.Along, ping, step, givingBack, replyGive, Answering]

/-- The number of ping 65535 comes back as it is. -/
theorem ping_received_last : ∃ (n : ℕ) (s t : State), n + 1 = 65535 ∧
    ping.run (exchanges n ++ exchange (n + 1)) = some s ∧ ping.step s .replyGive = some t ∧
    t.pings = 65535 ∧ t.sequence ≤ t.recvSeq := by
  obtain ⟨n, hn⟩ : ∃ n, n + 1 = 65535 := ⟨65534, rfl⟩
  obtain ⟨timeoutPending, answered, hready, hrun, hmeets⟩ := exists_ready (n := n) (by omega)
  have hexchange := runFrom_exchange n timeoutPending answered
  have hpings : (replyGive (givingBack (n + 1))).pings = 65535 := hn
  refine ⟨n, givingBack (n + 1), replyGive (givingBack (n + 1)), hn,
    Machine.runFrom_trans hrun hexchange, rfl, hpings, ?_⟩
  refine (ping_received_iff (exchanges n ++ exchange (n + 1)) ?_ _ _
    (Machine.runFrom_trans hrun hexchange) rfl).mpr ?_
  · exact (Machine.along_append hrun).mpr
      ⟨hmeets, along_exchange n timeoutPending answered hready⟩
  · rw [hpings]
    decide

/-- The number of ping 65536 comes back as 0. -/
theorem ping_not_received : ¬ ∀ is : List Input, ping.Meets Answering is → ∀ s t : State,
    ping.run is = some s → ping.step s .replyGive = some t → t.sequence ≤ t.recvSeq := by
  intro h
  -- a variable for 65535, so that the inputs are not written out
  obtain ⟨n, hn⟩ : ∃ n, n + 1 = 65536 := ⟨65535, rfl⟩
  obtain ⟨timeoutPending, answered, hready, hrun, hmeets⟩ := exists_ready (n := n) (by omega)
  have hexchange := runFrom_exchange n timeoutPending answered
  have hle : ((n + 1 : ℕ) : ℤ) ≤ ((n + 1) % 65536 : ℕ) := h (exchanges n ++ exchange (n + 1))
    ((Machine.along_append hrun).mpr ⟨hmeets, along_exchange n timeoutPending answered hready⟩)
    (givingBack (n + 1)) _ (Machine.runFrom_trans hrun hexchange) rfl
  omega

end NcsExamples.TwtDemo.Ping
