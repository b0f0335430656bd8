import Mathlib.Algebra.Order.Ring.Int
import NcsExamples.TwtDemo.Ping

/-! # TWT demo: a pending ping can end

A ping that has no reply yet is ended by its timeout. `handle_ping_reply` cancels the timeout before
it looks at the packet; if it then drops the packet, or takes one with an old number, nothing is
left that would end the ping, and every later one is refused. -/

namespace NcsExamples.TwtDemo.Ping

/-- While a reply is outstanding, the timeout is scheduled or a handler is executing. -/
def CanEnd (s : State) : Prop :=
  s.recvSeq < s.sequence → s.timeoutPending.isSome ∨ s.workQueue ≠ .idle ∨ s.receive ≠ .idle

instance : DecidablePred CanEnd := fun _ => inferInstanceAs (Decidable (_ → _))

/-- The next ping is not refused, and nothing is left of the last one. -/
def Ready (s : State) : Prop :=
  s.sequence ≤ s.recvSeq ∧ s.workQueue = .idle ∧ s.receive = .idle

/-- A reply is outstanding while the work queue is idle. -/
def Outstanding (s : State) : Prop := s.workQueue = .idle ∧ s.recvSeq < s.sequence

instance : DecidablePred Outstanding := fun _ => inferInstanceAs (Decidable (_ ∧ _))

/-- The packet that comes while the work queue is idle and a reply outstanding is not dropped and
has the number `sequence` or a later one. One that comes at another time is dropped, or its number
is not below `recv_seq`. -/
def Packet.Fits (s : State) (pkt : Packet) : Prop :=
  if Outstanding s then ¬ pkt.Dropped ∧ s.sequence ≤ pkt.sequence.toNat
  else pkt.Dropped ∨ s.recvSeq ≤ pkt.sequence.toNat

instance (s : State) : DecidablePred (Packet.Fits s) := fun pkt => by
  unfold Packet.Fits
  infer_instance

/-- A reply that arrives fits. -/
def ReplyFits (s : State) : Input → Prop
  | .replyStart pkt => pkt.Fits s
  | _ => True

instance (s : State) : DecidablePred (ReplyFits s)
  | .replyStart pkt => inferInstanceAs (Decidable (pkt.Fits s))
  | .schedule | .work | .increment | .initCtx _ | .send _ | .wake _ | .timeoutStart
  | .timeoutCleanup | .timeoutEnd | .replyAccept | .replyCleanup | .replyGive => isTrue trivial

/-- A part of `handle_ping_reply`. -/
def Input.OfReply : Input → Prop
  | .replyStart _ | .replyAccept | .replyCleanup | .replyGive => True
  | .schedule | .work | .increment | .initCtx _ | .send _ | .wake _ | .timeoutStart
  | .timeoutCleanup | .timeoutEnd => False

/-- A handler that is executing goes on, or the timeout expires. -/
def Input.GoesOn : Input → Prop
  | .increment | .initCtx _ | .send _ | .wake _ | .timeoutStart | .timeoutCleanup | .timeoutEnd
  | .replyAccept | .replyCleanup | .replyGive => True
  | .schedule | .work | .replyStart _ => False

/-- The parts that are left of what the work queue is executing, and of the timeout that comes of
it. -/
def WorkQueue.left : WorkQueue → ℕ
  | .idle => 0
  | .cleaned => 1
  | .timeout => 2
  | .waiting => 4
  | .sending => 5
  | .initCtx => 6
  | .passed => 7

/-- The parts that are left of `handle_ping_reply`. -/
def Receive.left : Receive → ℕ
  | .idle => 0
  | .cleaned _ => 1
  | .accepted _ => 2
  | .started _ => 3

/-- The parts that are left of a timeout that is scheduled: its start, and what it executes then. -/
def timeoutLeft : Option ℕ → ℕ
  | none => 0
  | some _ => 3

/-- The parts that are left of the handlers and the timeout. -/
def State.left (s : State) : ℕ :=
  s.workQueue.left + s.receive.left + timeoutLeft s.timeoutPending

/-- While a reply is outstanding, the work queue is busy or the timeout is scheduled. -/
def Guarded (s : State) : Prop :=
  s.recvSeq < s.sequence → s.timeoutPending.isSome ∨ s.workQueue ≠ .idle

/-- What the reply handler leaves will be guarded: it is guarded now and the number of the packet
does not change that, or the packet is the reply that is outstanding. -/
def Receive.Safe (s : State) : Receive → Prop
  | .started pkt =>
      Guarded s ∧ (pkt.Dropped ∨ s.recvSeq ≤ pkt.sequence.toNat) ∨
        (Outstanding s ∧ s.timeoutPending = none) ∧ ¬ pkt.Dropped ∧
          s.sequence ≤ pkt.sequence.toNat
  | .idle | .accepted _ | .cleaned _ => Guarded s

/-- The invariant of the runs in which every reply fits. -/
def Endable (s : State) : Prop := s.receive.Safe s

variable {s t : State} {i : Input} {pkt : Packet} {is : List Input}

/-! ## One step -/

/-- The work queue and the button leave the reply handler and `recv_seq` alone. -/
theorem Step.frame (hi : ¬ i.OfReply) (hs : Step s i t) :
    t.receive = s.receive ∧ t.recvSeq = s.recvSeq := by
  cases hs with
  | schedule | increment | wake | timeoutStart | timeoutCleanup | timeoutEnd => exact ⟨rfl, rfl⟩
  | work =>
    unfold workStart
    split <;> exact ⟨rfl, rfl⟩
  | initCtx ok | send ok => cases ok <;> exact ⟨rfl, rfl⟩
  | replyStart | replyAccept | replyCleanup | replyGive => exact absurd trivial hi

/-- They leave a ping guarded. -/
theorem Guarded.step (h : Guarded s) (hi : ¬ i.OfReply) (hs : Step s i t) : Guarded t := by
  cases hs with
  | schedule => exact h
  | work =>
    unfold workStart
    split
    · exact h
    · exact fun _ => .inr nofun
  | increment => exact fun _ => .inr nofun
  | initCtx ok | send ok =>
    cases ok with
    | false => exact fun hlt => absurd hlt (lt_irrefl _)
    | true => exact fun _ => .inr nofun
  | wake => exact fun _ => .inl rfl
  | timeoutStart | timeoutCleanup => exact fun _ => .inr nofun
  | timeoutEnd => exact fun hlt => absurd hlt (lt_irrefl _)
  | replyStart | replyAccept | replyCleanup | replyGive => exact absurd trivial hi

/-- While the timeout of an outstanding ping is canceled, they can only refuse to send another one.
-/
theorem Outstanding.step (h : Outstanding s) (hnone : s.timeoutPending = none) (hi : ¬ i.OfReply)
    (hs : Step s i t) :
    (Outstanding t ∧ t.timeoutPending = none) ∧ t.sequence = s.sequence := by
  obtain ⟨hidle, hlt⟩ := h
  cases hs with
  | schedule => exact ⟨⟨⟨hidle, hlt⟩, hnone⟩, rfl⟩
  | work =>
    rw [workStart, if_pos hlt]
    exact ⟨⟨⟨hidle, hlt⟩, hnone⟩, rfl⟩
  | timeoutStart _ hpending =>
    rw [hnone] at hpending
    cases hpending
  | increment hat | initCtx _ hat | send _ hat | wake _ hat | timeoutCleanup hat
  | timeoutEnd hat =>
    rw [hidle] at hat
    cases hat
  | replyStart | replyAccept | replyCleanup | replyGive => exact absurd trivial hi

/-- A step of the work queue or of the button keeps the invariant. -/
theorem Endable.step_of_not_ofReply (h : Endable s) (hi : ¬ i.OfReply) (hs : Step s i t) :
    Endable t := by
  obtain ⟨hreceive, hrecv⟩ := hs.frame hi
  unfold Endable at h ⊢
  rw [hreceive]
  cases hat : s.receive with
  | idle | accepted pkt | cleaned pkt =>
    rw [hat] at h
    exact Guarded.step h hi hs
  | started pkt =>
    rw [hat] at h
    rcases h with ⟨hguarded, hnumber⟩ | ⟨⟨hout, hnone⟩, hkeep, hnumber⟩
    · exact .inl ⟨hguarded.step hi hs, hrecv ▸ hnumber⟩
    · obtain ⟨hout', hseq⟩ := hout.step hnone hi hs
      exact .inr ⟨hout', hkeep, hseq ▸ hnumber⟩

/-- A reply that fits is safe when it has canceled the timeout. -/
theorem Endable.replyStart (hfits : pkt.Fits s) : Endable (replyStart pkt s) := by
  unfold Packet.Fits at hfits
  split at hfits
  · next hout => exact .inr ⟨⟨hout, rfl⟩, hfits⟩
  · next hno =>
    refine .inl ⟨fun hlt => .inr fun hidle => ?_, hfits⟩
    exact hno ⟨hidle, hlt⟩

/-- A safe reply leaves a ping guarded when it is dropped or its number is taken. -/
theorem Endable.replyAccept (h : Endable s) (hat : s.receive = .started pkt) :
    Endable (replyAccept pkt s) := by
  unfold Endable at h
  rw [hat] at h
  unfold Ping.replyAccept
  split
  · next hdrop =>
    rcases h with ⟨hguarded, -⟩ | ⟨-, hkeep, -⟩
    · exact hguarded
    · exact absurd hdrop hkeep
  · next hkeep =>
    -- the number of the packet is in `recv_seq` now
    rintro (hlt : (pkt.sequence.toNat : ℤ) < s.sequence)
    rcases h with ⟨hguarded, hdrop | hle⟩ | ⟨-, -, hle⟩
    · exact absurd hdrop hkeep
    · exact hguarded (lt_of_le_of_lt hle hlt)
    · exact absurd hlt (not_lt.mpr hle)

/-- Every step in which a reply fits keeps the invariant. -/
theorem Endable.step (h : Endable s) (hfits : ReplyFits s i) (hs : Step s i t) : Endable t := by
  cases hs with
  | replyStart pkt => exact Endable.replyStart hfits
  | replyAccept pkt hat => exact h.replyAccept hat
  | replyCleanup pkt hat | replyGive pkt hat =>
    unfold Endable at h
    rw [hat] at h
    exact h
  | schedule => exact h.step_of_not_ofReply id .schedule
  | work hidle => exact h.step_of_not_ofReply id (.work hidle)
  | increment hat => exact h.step_of_not_ofReply id (.increment hat)
  | initCtx ok hat => exact h.step_of_not_ofReply id (.initCtx ok hat)
  | send ok hat => exact h.step_of_not_ofReply id (.send ok hat)
  | wake timedOut hat => exact h.step_of_not_ofReply id (.wake timedOut hat)
  | timeoutStart hidle hpending => exact h.step_of_not_ofReply id (.timeoutStart hidle hpending)
  | timeoutCleanup hat => exact h.step_of_not_ofReply id (.timeoutCleanup hat)
  | timeoutEnd hat => exact h.step_of_not_ofReply id (.timeoutEnd hat)

/-! ## The end of a ping -/

/-- With the invariant a pending ping can end. -/
theorem Endable.canEnd (h : Endable s) : CanEnd s := by
  intro hlt
  by_cases hidle : s.receive = .idle
  · unfold Endable at h
    rw [hidle] at h
    exact (h hlt).imp_right .inl
  · exact .inr (.inr hidle)

/-- What goes on comes nearer to the end. -/
theorem left_lt_of_step (hi : i.GoesOn) (hs : Step s i t) : t.left < s.left := by
  unfold State.left
  cases hs with
  | schedule | work | replyStart => exact hi.elim
  | increment hat =>
    simp only [Ping.increment, hat, WorkQueue.left]
    omega
  | initCtx ok hat | send ok hat =>
    cases ok
    · simp [Ping.initCtx, Ping.send, fail, hat, WorkQueue.left]
    · simp [Ping.initCtx, Ping.send, hat, WorkQueue.left]
  | wake timedOut hat =>
    simp only [Ping.wake, hat, WorkQueue.left, timeoutLeft]
    omega
  | timeoutStart hidle hpending =>
    obtain ⟨n, hn⟩ := Option.isSome_iff_exists.mp hpending
    simp only [Ping.timeoutStart, hidle, hn, WorkQueue.left, timeoutLeft]
    omega
  | timeoutCleanup hat =>
    simp only [Ping.timeoutCleanup, hat, WorkQueue.left]
    omega
  | timeoutEnd hat =>
    simp only [Ping.timeoutEnd, hat, WorkQueue.left]
    omega
  | replyAccept pkt hat =>
    unfold Ping.replyAccept
    split <;> simp only [hat, Receive.left] <;> omega
  | replyCleanup pkt hat =>
    simp only [Ping.replyCleanup, hat, Receive.left]
    omega
  | replyGive pkt hat =>
    simp only [Ping.replyGive, hat, Receive.left]
    omega

/-- As long as a ping has not ended, something goes on. -/
theorem Endable.exists_step (h : Endable s) (hready : ¬ Ready s) :
    ∃ i t, i.GoesOn ∧ ping.step s i = some t := by
  cases hreceive : s.receive with
  | started pkt =>
    exact ⟨.replyAccept, Ping.replyAccept pkt s, trivial, by simp [ping, Ping.step, hreceive]⟩
  | accepted pkt =>
    exact ⟨.replyCleanup, replyCleanup pkt s, trivial, by simp [ping, Ping.step, hreceive]⟩
  | cleaned pkt => exact ⟨.replyGive, replyGive s, trivial, by simp [ping, Ping.step, hreceive]⟩
  | idle =>
    cases hqueue : s.workQueue with
    | passed => exact ⟨.increment, _, trivial, if_pos hqueue⟩
    | initCtx => exact ⟨.initCtx true, _, trivial, if_pos hqueue⟩
    | sending => exact ⟨.send true, _, trivial, if_pos hqueue⟩
    | waiting => exact ⟨.wake true, _, trivial, if_pos ⟨hqueue, .inl rfl⟩⟩
    | timeout => exact ⟨.timeoutCleanup, _, trivial, if_pos hqueue⟩
    | cleaned => exact ⟨.timeoutEnd, _, trivial, if_pos hqueue⟩
    | idle =>
      have hlt : s.recvSeq < s.sequence := not_le.mp fun hle => hready ⟨hle, hqueue, hreceive⟩
      unfold Endable at h
      rw [hreceive] at h
      have hpending := (h hlt).resolve_right (not_not.mpr hqueue)
      exact ⟨.timeoutStart, _, trivial, if_pos ⟨hqueue, hpending⟩⟩

/-- Nothing that goes on is a reply that arrives. -/
theorem Input.GoesOn.replyFits (hi : i.GoesOn) : ReplyFits s i := by
  cases i with
  | replyStart => exact hi.elim
  | _ => trivial

/-- **A pending ping can end.** In every state that a run reaches whose replies all fit, a pending
ping can end; and the handlers and the timeout alone do end it, in whatever order they go on, so
that the next one is not refused. -/
theorem ping_canEnd (is : List Input) (s : State) (hfits : ping.Meets ReplyFits is)
    (hrun : ping.run is = some s) :
    CanEnd s ∧ ping.ComesToRest Input.GoesOn Ready s.left s := by
  have hendable : Endable s := by
    have hinit : Endable ping.init := fun hlt => absurd hlt (lt_irrefl _)
    refine Machine.invariant Endable hinit ?_ hfits hrun
    exact fun _ _ _ h hi hs => h.step hi (step_of_eq_some hs)
  refine ⟨hendable.canEnd, ?_⟩
  refine Machine.comesToRest_of_measure Endable State.left ?_ (fun _ h => h.exists_step) hendable
  intro u i v hu hi hs
  have hstep := step_of_eq_some hs
  exact ⟨hu.step hi.replyFits hstep, left_lt_of_step hi hstep⟩

/-- A ping whose reply comes after its wait, and one that times out. -/
theorem ping_canEnd_answered : ∃ s, ping.run
      [.schedule, .work, .increment, .initCtx true, .send true, .wake true,
      .replyStart ⟨true, 4, false, 1⟩, .replyAccept, .replyCleanup, .replyGive,
      .schedule, .work, .increment, .initCtx true, .send true, .wake true] = some s ∧
    s.recvSeq < s.sequence ∧ CanEnd s ∧ ping.ComesToRest Input.GoesOn Ready s.left s :=
  ⟨_, rfl, by decide, ping_canEnd [.schedule, .work, .increment, .initCtx true, .send true,
    .wake true, .replyStart ⟨true, 4, false, 1⟩, .replyAccept, .replyCleanup, .replyGive,
    .schedule, .work, .increment, .initCtx true, .send true, .wake true] _ (by decide) rfl⟩

/-- A reply without an echo header arrives after the timeout was scheduled. It cancels the timeout,
and is dropped. -/
theorem ping_cannotEnd : ¬ ∀ (is : List Input) (s : State), ping.run is = some s → CanEnd s := by
  intro h
  have hend := h [.schedule, .work, .increment, .initCtx true, .send true, .wake true,
    .replyStart ⟨false, 0, false, 0⟩, .replyAccept] _ rfl
  exact absurd hend (by decide)

/-! ## A reply that does not fit -/

/-- A run from the state leads to where a pending ping cannot end. -/
def Strands (s : State) : Prop := ∃ is t, ping.runFrom s is = some t ∧ ¬ CanEnd t

/-- A state strands if the next one does. -/
theorem Strands.of_step (hs : step s i = some t) (h : Strands t) : Strands s := by
  obtain ⟨is, u, hrun, hu⟩ := h
  exact ⟨i :: is, u, ping.runFrom_cons_eq_some.mpr ⟨t, hs, hrun⟩, hu⟩

/-- With no handler executing and no timeout scheduled an outstanding ping cannot end. -/
theorem strands_of_outstanding (h : Outstanding s) (hnone : s.timeoutPending = none)
    (hidle : s.receive = .idle) : Strands s := by
  refine ⟨[], s, rfl, fun hcan => ?_⟩
  simpa [hnone, h.1, hidle] using hcan h.2

/-- A packet with a number below `sequence` strands, if the work queue has nothing to do for a ping.
-/
theorem strands_of_started (hat : s.receive = .started pkt) (hkeep : ¬ pkt.Dropped)
    (hlt : (pkt.sequence.toNat : ℤ) < s.sequence) (hidle : s.workQueue = .idle)
    (hnone : s.timeoutPending = none) : Strands s := by
  have haccept : step s .replyAccept = some (replyAccept pkt s) := by simp [step, hat]
  refine .of_step haccept ?_
  rw [replyAccept, if_neg hkeep]
  exact .of_step (i := .replyCleanup) rfl
    (.of_step (i := .replyGive) rfl (strands_of_outstanding ⟨hidle, hlt⟩ hnone rfl))

/-- A packet with a number below `recv_seq` strands, unless a ping is outstanding while the work
queue is idle: the work queue comes to make `sequence` equal to `recv_seq` first. -/
theorem strands_of_lt (hat : s.receive = .started pkt) (hkeep : ¬ pkt.Dropped)
    (hlt : (pkt.sequence.toNat : ℤ) < s.recvSeq) (hnone : s.timeoutPending = none)
    (hno : ¬ Outstanding s) : Strands s := by
  -- from the last part backwards, first for `ping_response_timeout_handler`
  have hcleaned : ∀ u : State, u.receive = .started pkt → (pkt.sequence.toNat : ℤ) < u.recvSeq →
      u.timeoutPending = none → u.workQueue = .cleaned → Strands u := fun u hu hlt hnone hplace =>
    .of_step (i := .timeoutEnd) (if_pos hplace)
      (strands_of_started (s := timeoutEnd u) hu hkeep hlt rfl hnone)
  have htimeout : ∀ u : State, u.receive = .started pkt → (pkt.sequence.toNat : ℤ) < u.recvSeq →
      u.timeoutPending = none → u.workQueue = .timeout → Strands u := fun u hu hlt hnone hplace =>
    .of_step (i := .timeoutCleanup) (if_pos hplace)
      (hcleaned (timeoutCleanup u) hu hlt hnone rfl)
  -- a ping that is given up makes them equal as well
  have hinitCtx : ∀ u : State, u.receive = .started pkt → (pkt.sequence.toNat : ℤ) < u.recvSeq →
      u.timeoutPending = none → u.workQueue = .initCtx → Strands u := fun u hu hlt hnone hplace =>
    .of_step (i := .initCtx false) (if_pos hplace)
      (strands_of_started (s := fail u) hu hkeep hlt rfl hnone)
  have hpassed : ∀ u : State, u.receive = .started pkt → (pkt.sequence.toNat : ℤ) < u.recvSeq →
      u.timeoutPending = none → u.workQueue = .passed → Strands u := fun u hu hlt hnone hplace =>
    .of_step (i := .increment) (if_pos hplace) (hinitCtx (increment u) hu hlt hnone rfl)
  cases hplace : s.workQueue with
  | idle =>
    -- no reply is outstanding, so another ping can begin
    have hpass : ¬ s.recvSeq < s.sequence := fun hlt' => hno ⟨hplace, hlt'⟩
    refine .of_step (i := .schedule) rfl (.of_step (i := .work) (if_pos ⟨hplace, rfl⟩) ?_)
    simp only [workStart, if_neg hpass]
    exact hpassed _ hat hlt hnone rfl
  | passed => exact hpassed s hat hlt hnone hplace
  | initCtx => exact hinitCtx s hat hlt hnone hplace
  | sending =>
    exact .of_step (i := .send false) (if_pos hplace)
      (strands_of_started (s := fail { s with semWait := 0 }) hat hkeep hlt rfl hnone)
  | waiting =>
    have hexpired : Strands (wake true s) :=
      .of_step (i := .timeoutStart) rfl (htimeout (timeoutStart (wake true s)) hat hlt rfl rfl)
    exact .of_step (i := .wake true) (if_pos ⟨hplace, .inl rfl⟩) hexpired
  | timeout => exact htimeout s hat hlt hnone hplace
  | cleaned => exact hcleaned s hat hlt hnone hplace

/-- **No other reply is safe.** A reply that arrives and does not fit leads to where a pending ping
cannot end. -/
theorem strands_of_not_fits (h : ¬ pkt.Fits s) : Strands (replyStart pkt s) := by
  unfold Packet.Fits at h
  split at h
  · next hout =>
    by_cases hdrop : pkt.Dropped
    · -- the packet is dropped after it has canceled the timeout
      have haccept : step (replyStart pkt s) .replyAccept =
          some { replyStart pkt s with receive := .idle } := by
        simp [step, replyStart, replyAccept, hdrop]
      exact .of_step haccept (strands_of_outstanding hout rfl rfl)
    · have hlt : (pkt.sequence.toNat : ℤ) < s.sequence :=
        not_le.mp fun hle => h ⟨hdrop, hle⟩
      exact strands_of_started (s := replyStart pkt s) rfl hdrop hlt hout.1 rfl
  · next hno =>
    obtain ⟨hkeep, hlt⟩ := not_or.mp h
    exact strands_of_lt (s := replyStart pkt s) rfl hkeep (not_le.mp hlt) rfl hno

/-- **Refused for ever.** Where a pending ping cannot end, no ping begins before the next reply. -/
theorem pings_eq_of_not_canEnd (h : ¬ CanEnd s) {is : List Input}
    (hno : ping.Along (fun _ i _ => ∀ pkt, i ≠ .replyStart pkt) s is)
    (hrun : ping.runFrom s is = some t) : ¬ CanEnd t ∧ t.pings = s.pings := by
  refine Machine.invariant_from (fun u => ¬ CanEnd u ∧ u.pings = s.pings) ?_ ⟨h, rfl⟩ hno hrun
  rintro u i v ⟨hu, hpings⟩ hi hs
  -- only the button, the start of `ping_work_handler`, which refuses, and a reply are possible
  obtain ⟨hlt, hnot⟩ := Classical.not_imp.mp hu
  obtain ⟨hnone, hrest⟩ := not_or.mp hnot
  obtain ⟨hqueue, hreceive⟩ := not_or.mp hrest
  have hs := step_of_eq_some hs
  cases hs with
  | schedule => exact ⟨hu, hpings⟩
  | work =>
    simp only [workStart, if_pos hlt]
    exact ⟨hu, hpings⟩
  | timeoutStart _ hpending => exact absurd hpending hnone
  | replyStart pkt => exact absurd rfl (hi pkt)
  | increment hat | initCtx _ hat | send _ hat | wake _ hat | timeoutCleanup hat | timeoutEnd hat =>
    exact absurd (by rw [hat]; nofun) hqueue
  | replyAccept _ hat | replyCleanup _ hat | replyGive _ hat =>
    exact absurd (by rw [hat]; nofun) hreceive

end NcsExamples.TwtDemo.Ping
