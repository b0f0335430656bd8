import Mathlib.Algebra.Order.Ring.Int
import NcsExamples.TwtDemo.Ping

/-! # TWT demo: whose timeout it is

The timeout of a ping is scheduled after the wait for its reply, also if the reply has come. A reply
that comes later cancels the timeout first, and is then no danger; a reply within the wait leaves a
timeout that concerns no ping, or the next one. -/

namespace NcsExamples.TwtDemo.Ping

/-- The timeout handler starts on account of the ping that is outstanding, and has no reply. -/
def OwnTimeout (s : State) : Input → State → Prop
  | .timeoutStart, _ =>
      s.timeoutPending = some s.pings ∧ s.recvSeq < s.sequence ∧ s.answered = false
  | _, _ => True

/-- `ping_work_handler` is past `sequence++`. -/
def WorkQueue.Sends : WorkQueue → Prop
  | .initCtx | .sending | .waiting => True
  | _ => False

/-- `ping_response_timeout_handler` is executing. -/
def WorkQueue.TimesOut : WorkQueue → Prop
  | .timeout | .cleaned => True
  | _ => False

instance : DecidablePred WorkQueue.Sends := fun w => by
  cases w <;> unfold WorkQueue.Sends <;> infer_instance

instance : DecidablePred WorkQueue.TimesOut := fun w => by
  cases w <;> unfold WorkQueue.TimesOut <;> infer_instance

/-- The last ping is being sent or waited for, or its timeout is scheduled. -/
def Awaiting (s : State) : Prop := s.workQueue.Sends ∨ s.timeoutPending.isSome

/-- The packet is dropped, or comes while the timeout handler is executing, or its number is not
above `sequence`; and not `sequence` or the 16 bits that were sent of it while the ping is awaiting.
-/
def Packet.InTime (s : State) (pkt : Packet) : Prop :=
  pkt.Dropped ∨ s.workQueue.TimesOut ∨
    (pkt.sequence.toNat : ℤ) ≤ s.sequence ∧
      (Awaiting s → (pkt.sequence.toNat : ℤ) ≠ s.sequence ∧ pkt.sequence.toNat ≠ s.sentSequence)

/-- A packet that the reply handler has started on is in time. -/
def Receive.InTime (s : State) : Receive → Prop
  | .started pkt => pkt.InTime s
  | _ => True

/-- No reply ends a ping that its timeout will still be scheduled for, or is. -/
def ReplyInTime (s : State) : Input → Prop
  | .replyAccept => s.receive.InTime s
  | _ => True

instance (s t : State) : DecidablePred fun i => OwnTimeout s i t := fun i => by
  cases i <;> simp only [OwnTimeout] <;> infer_instance

instance : DecidablePred Awaiting := fun _ => inferInstanceAs (Decidable (_ ∨ _))

instance (s : State) : DecidablePred (Packet.InTime s) := fun _ =>
  inferInstanceAs (Decidable (_ ∨ _ ∨ _))

instance (s : State) : DecidablePred (Receive.InTime s) := fun r => by
  cases r <;> unfold Receive.InTime <;> infer_instance

instance (s : State) : DecidablePred (ReplyInTime s) := fun i => by
  cases i <;> unfold ReplyInTime <;> infer_instance

/-- What holds while every reply is in time. -/
structure TimeoutInv (s : State) : Prop where
  /-- No number above `sequence` was received, unless a timeout is about to raise it. -/
  recvSeq_le : s.workQueue.TimesOut ∨ s.recvSeq ≤ s.sequence
  /-- A scheduled timeout is the one of the last ping. -/
  pending : ∀ n, s.timeoutPending = some n → n = s.pings ∧ s.workQueue = .idle
  /-- A ping that is awaiting has no reply. -/
  unanswered : Awaiting s → s.recvSeq < s.sequence ∧ s.answered = false

variable {s t : State} {i : Input}

/-! ## One step -/

/-- No timeout is scheduled while the work queue is busy. -/
theorem TimeoutInv.timeoutPending_eq_none (h : TimeoutInv s) (hbusy : s.workQueue ≠ .idle) :
    s.timeoutPending = none :=
  Option.eq_none_iff_forall_ne_some.mpr fun n hn => hbusy (h.pending n hn).2

/-- Unless the ping is awaiting, no timeout is scheduled. -/
theorem timeoutPending_eq_none_of_not_awaiting (h : ¬ Awaiting s) : s.timeoutPending = none :=
  Option.not_isSome_iff_eq_none.mp fun hsome => h (.inr hsome)

/-- The invariant where no timeout is scheduled and no ping is awaiting. -/
theorem TimeoutInv.of_none (hle : s.workQueue.TimesOut ∨ s.recvSeq ≤ s.sequence)
    (hnone : s.timeoutPending = none) (hsends : ¬ s.workQueue.Sends) : TimeoutInv s where
  recvSeq_le := hle
  pending n hn := by simp [hnone] at hn
  unanswered hawait := by simp [Awaiting, hsends, hnone] at hawait

/-- The invariant while a ping is sent. -/
theorem TimeoutInv.of_sends (hnone : s.timeoutPending = none) (hlt : s.recvSeq < s.sequence)
    (hanswered : s.answered = false) : TimeoutInv s where
  recvSeq_le := .inr (le_of_lt hlt)
  pending n hn := by simp [hnone] at hn
  unanswered _ := ⟨hlt, hanswered⟩

/-- Accepting a packet in time keeps the invariant. -/
theorem TimeoutInv.replyAccept (h : TimeoutInv s) (pkt : Packet) (hin : pkt.InTime s) :
    TimeoutInv (replyAccept pkt s) := by
  unfold Ping.replyAccept
  split
  · exact ⟨h.recvSeq_le, h.pending, h.unanswered⟩
  · next hkeep =>
    obtain hdrop | htimeout | ⟨hle, hne⟩ := hin
    · exact absurd hdrop hkeep
    · -- whatever the number is, the timeout handler makes `sequence` equal to it
      refine .of_none (.inl htimeout) (h.timeoutPending_eq_none ?_) ?_
      · rintro hidle
        simp [hidle, WorkQueue.TimesOut] at htimeout
      · revert htimeout
        cases s.workQueue <;> simp [WorkQueue.TimesOut, WorkQueue.Sends]
    · refine ⟨.inr hle, h.pending, fun hawait => ?_⟩
      obtain ⟨hseq, hsent⟩ := hne hawait
      exact ⟨lt_of_le_of_ne hle hseq, by simpa [(h.unanswered hawait).2] using hsent⟩

/-- Every step in which a reply is in time keeps the invariant. -/
theorem Step.timeoutInv (h : TimeoutInv s) (hin : ReplyInTime s i) (hs : Step s i t) :
    TimeoutInv t := by
  cases hs with
  | schedule => exact ⟨h.recvSeq_le, h.pending, h.unanswered⟩
  | work hidle =>
    unfold workStart
    split
    · exact ⟨h.recvSeq_le, h.pending, h.unanswered⟩
    · next hge =>
      have hawait : ¬ Awaiting s := fun hawait => hge (h.unanswered hawait).1
      have hle := h.recvSeq_le.resolve_left (by simp [hidle, WorkQueue.TimesOut])
      have hnone := timeoutPending_eq_none_of_not_awaiting hawait
      exact .of_none (.inr hle) hnone id
  | increment hat =>
    have hle := h.recvSeq_le.resolve_left (by simp [hat, WorkQueue.TimesOut])
    exact .of_sends (h.timeoutPending_eq_none (by simp [hat])) (Int.lt_add_one_of_le hle) rfl
  | initCtx ok hat =>
    have hnone := h.timeoutPending_eq_none (by simp [hat])
    cases ok with
    | false => exact .of_none (.inr le_rfl) hnone id
    | true =>
      obtain ⟨hlt, hanswered⟩ := h.unanswered (.inl (by simp [hat, WorkQueue.Sends]))
      exact .of_sends hnone hlt hanswered
  | send ok hat =>
    have hnone := h.timeoutPending_eq_none (by simp [hat])
    cases ok with
    | false => exact .of_none (.inr le_rfl) hnone id
    | true =>
      obtain ⟨hlt, hanswered⟩ := h.unanswered (.inl (by simp [hat, WorkQueue.Sends]))
      exact .of_sends hnone hlt hanswered
  | wake timedOut hat =>
    obtain ⟨hlt, hanswered⟩ := h.unanswered (.inl (by simp [hat, WorkQueue.Sends]))
    have hnone := h.timeoutPending_eq_none (by simp [hat])
    refine ⟨.inr (le_of_lt hlt), fun n hn => ⟨?_, rfl⟩, fun _ => ⟨hlt, hanswered⟩⟩
    simpa [Ping.wake, hnone] using hn.symm
  | timeoutStart => exact .of_none (.inl trivial) rfl id
  | timeoutCleanup hat =>
    exact .of_none (.inl trivial) (h.timeoutPending_eq_none (by simp [hat])) id
  | timeoutEnd hat => exact .of_none (.inr le_rfl) (h.timeoutPending_eq_none (by simp [hat])) id
  | replyStart pkt =>
    exact ⟨h.recvSeq_le, nofun, fun hawait => h.unanswered (hawait.imp_right nofun)⟩
  | replyAccept pkt hat =>
    simp only [ReplyInTime, hat, Receive.InTime] at hin
    exact h.replyAccept pkt hin
  | replyCleanup | replyGive => exact ⟨h.recvSeq_le, h.pending, h.unanswered⟩

/-- With the invariant, a timeout that starts is the one of the outstanding ping. -/
theorem TimeoutInv.ownTimeout (h : TimeoutInv s) (hs : Step s i t) : OwnTimeout s i t := by
  cases hs with
  | timeoutStart _ hsome =>
    obtain ⟨n, hn⟩ := Option.isSome_iff_exists.mp hsome
    obtain ⟨rfl, -⟩ := h.pending n hn
    exact ⟨hn, h.unanswered (.inr hsome)⟩
  | schedule | work | increment | initCtx | send | wake | timeoutCleanup | timeoutEnd | replyStart
  | replyAccept | replyCleanup | replyGive => trivial

/-! ## Runs -/

/-- **A timeout concerns its own ping.** In a run whose replies are all in time, the timeout handler
starts only on account of the ping that is outstanding. -/
theorem ping_ownTimeout {is : List Input} (hin : ping.Meets ReplyInTime is) :
    ping.Along OwnTimeout ping.init is :=
  Machine.along_of_invariant TimeoutInv
    (fun _ _ _ h hi hs => (step_of_eq_some hs).timeoutInv h hi)
    (fun _ _ _ h _ hs => h.ownTimeout (step_of_eq_some hs)) (.of_none (.inr le_rfl) rfl id) hin

/-- One ping is answered after its wait, and the next one times out. -/
theorem ping_ownTimeout_second :
    ping.Along OwnTimeout ping.init
      [.schedule, .work, .increment, .initCtx true, .send true, .wake true,
      .replyStart ⟨true, 4, false, 1⟩, .replyAccept, .replyCleanup, .replyGive,
      .schedule, .work, .increment, .initCtx true, .send true, .wake true, .timeoutStart] :=
  ping_ownTimeout (by decide)

/-- The reply comes within the wait, and the timeout that is scheduled after it expires. -/
theorem ping_not_ownTimeout : ¬ ∀ is : List Input, ping.Along OwnTimeout ping.init is := fun h => by
  have hrun := h [.schedule, .work, .increment, .initCtx true, .send true,
    .replyStart ⟨true, 4, false, 1⟩, .replyAccept, .replyCleanup, .replyGive, .wake false,
    .timeoutStart]
  revert hrun
  decide

/-! ## A reply that is not in time -/

/-- A run from the state starts a timeout that does not concern the outstanding ping. -/
def Strays (s : State) : Prop := ∃ is : List Input, ¬ ping.Along OwnTimeout s is

/-- A state strays if the next one does. -/
theorem Strays.of_step (hs : step s i = some t) (h : Strays t) : Strays s := by
  obtain ⟨is, his⟩ := h
  exact ⟨i :: is, fun halong => his ((Machine.along_cons hs).mp halong).2⟩

/-- The last ping has a reply or a number that is not outstanding. -/
def Stale (s : State) : Prop := s.sequence ≤ s.recvSeq ∨ s.answered = true

/-- A stale ping whose timeout is scheduled strays. -/
theorem Stale.strays_of_pending (h : Stale s) (hidle : s.workQueue = .idle)
    (hsome : s.timeoutPending.isSome) : Strays s := by
  have hstep : step s .timeoutStart = some (timeoutStart s) := if_pos ⟨hidle, hsome⟩
  refine ⟨[.timeoutStart], fun halong => ?_⟩
  obtain ⟨⟨-, hlt, hanswered⟩, -⟩ := (Machine.along_cons hstep).mp halong
  obtain hle | htrue := h
  · exact absurd hlt (not_lt.mpr hle)
  · simp [htrue] at hanswered

/-- A stale ping that is waited for strays. -/
theorem Stale.strays_of_waiting (h : Stale s) (hat : s.workQueue = .waiting) : Strays s :=
  .of_step (i := .wake true) (t := wake true s) (if_pos ⟨hat, .inl rfl⟩)
    (strays_of_pending (s := wake true s) h rfl rfl)

/-- A stale ping that is sent strays. -/
theorem Stale.strays_of_sending (h : Stale s) (hat : s.workQueue = .sending) : Strays s :=
  .of_step (i := .send true) (t := send true s) (if_pos hat)
    (strays_of_waiting (s := send true s) h rfl)

/-- A stale ping that is about to register `ctx` strays. -/
theorem Stale.strays_of_initCtx (h : Stale s) (hat : s.workQueue = .initCtx) : Strays s :=
  .of_step (i := .initCtx true) (t := initCtx true s) (if_pos hat)
    (strays_of_sending (s := initCtx true s) h rfl)

/-- With a number received above `sequence`, the ping that begins strays. -/
theorem strays_of_passed (h : s.sequence < s.recvSeq) (hat : s.workQueue = .passed) : Strays s :=
  .of_step (i := .increment) (t := increment s) (if_pos hat)
    (Stale.strays_of_initCtx (s := increment s) (.inl h) rfl)

/-- With a number received above `sequence`, the next ping strays. -/
theorem strays_of_idle (h : s.sequence < s.recvSeq) (hat : s.workQueue = .idle) : Strays s := by
  refine .of_step (i := .schedule) rfl (.of_step (i := .work) (if_pos ⟨hat, rfl⟩) ?_)
  simp only [workStart, if_neg (not_lt.mpr (le_of_lt h))]
  exact strays_of_passed h rfl

/-- A stale ping that is awaiting strays. -/
theorem Stale.strays_of_awaiting (h : Stale s) (hawait : Awaiting s)
    (hidle : s.timeoutPending.isSome → s.workQueue = .idle) : Strays s := by
  obtain hsends | hsome := hawait
  · cases hat : s.workQueue with
    | initCtx => exact h.strays_of_initCtx hat
    | sending => exact h.strays_of_sending hat
    | waiting => exact h.strays_of_waiting hat
    | idle | passed | timeout | cleaned => simp [hat, WorkQueue.Sends] at hsends
  · exact h.strays_of_pending (hidle hsome) hsome

/-- With a number received above `sequence`, and no timeout handler to raise `sequence`, a ping
strays. -/
theorem strays_of_lt (h : s.sequence < s.recvSeq) (htimeout : ¬ s.workQueue.TimesOut) :
    Strays s := by
  have hstale : Stale s := .inl (le_of_lt h)
  cases hat : s.workQueue with
  | idle => exact strays_of_idle h hat
  | passed => exact strays_of_passed h hat
  | initCtx => exact hstale.strays_of_initCtx hat
  | sending => exact hstale.strays_of_sending hat
  | waiting => exact hstale.strays_of_waiting hat
  | timeout | cleaned => simp [hat, WorkQueue.TimesOut] at htimeout

/-- **Only late replies are safe.** Where the invariant holds, accepting a reply that is not in time
leads to a timeout that does not concern the outstanding ping. -/
theorem strays_of_not_inTime (h : TimeoutInv s) {pkt : Packet} (hnot : ¬ pkt.InTime s) :
    Strays (replyAccept pkt s) := by
  obtain ⟨hkeep, htimeout, hnumber⟩ : ¬ pkt.Dropped ∧ ¬ s.workQueue.TimesOut ∧ _ := by
    simpa only [Packet.InTime, not_or] using hnot
  simp only [replyAccept, if_neg hkeep]
  by_cases hle : (pkt.sequence.toNat : ℤ) ≤ s.sequence
  · -- the reply ends the ping that its timeout is, or will be, scheduled for
    obtain ⟨hawait, hends⟩ := Classical.not_imp.mp (not_and.mp hnumber hle)
    refine Stale.strays_of_awaiting ?_ hawait fun hsome => ?_
    · obtain hseq | hsent := Decidable.not_and_iff_not_or_not.mp hends
      · exact .inl (le_of_eq (not_not.mp hseq).symm)
      · exact .inr (by simp [not_not.mp hsent])
    · obtain ⟨n, hn⟩ := Option.isSome_iff_exists.mp hsome
      exact (h.pending n hn).2
  · exact strays_of_lt (not_le.mp hle) htimeout

end NcsExamples.TwtDemo.Ping
