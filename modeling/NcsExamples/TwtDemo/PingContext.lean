import Mathlib.Algebra.Order.Ring.Int
import NcsExamples.TwtDemo.Ping

/-! # TWT demo: the ICMP context

`ctx` is put into the list of ICMP handlers when a ping begins, and is taken out by the handler of
its reply or of its timeout. The label `fail` of `ping_work_handler` gives a ping up without taking
`ctx` out, and the next attempt puts it in a second time. -/

namespace NcsExamples.TwtDemo.Ping

/-- `ctx` is in the list only while a request is outstanding or one of the handlers executes. -/
def Attended (s : State) : Prop :=
  s.registered = true → s.recvSeq < s.sequence ∨ s.workQueue ≠ .idle ∨ s.receive ≠ .idle

/-- `net_icmp_init_ctx` is called while `ctx` is not in the list, and the step leaves it there only
for a reason. -/
def RegisteredOnce (s : State) (i : Input) (t : State) : Prop :=
  (∀ ok, i = .initCtx ok → s.registered = false) ∧ Attended t

/-- The reply handler is going to call `net_icmp_cleanup_ctx`. -/
def Receive.Cleans : Receive → Prop
  | .started pkt => ¬ pkt.Dropped
  | .accepted _ => True
  | .idle | .cleaned _ => False

instance : DecidablePred Receive.Cleans
  | .started pkt => inferInstanceAs (Decidable (¬ pkt.Dropped))
  | .accepted _ => isTrue trivial
  | .idle | .cleaned _ => isFalse id

/-- No ping begins while a reply handler is about to take `ctx` out of the list. With `ctx` in the
list, a ping is given up, because it could not be sent or because `recv_seq` has its number already,
only while a reply handler is about to take `ctx` out. -/
def Tidy (s : State) : Input → Prop
  | .initCtx _ => s.registered = true → ¬ s.receive.Cleans
  | .send ok => ok = false → s.registered = true → s.receive.Cleans
  | .wake _ => s.sequence ≤ s.recvSeq → s.registered = true → s.receive.Cleans
  | _ => True

instance (s : State) : DecidablePred (Tidy s)
  | .initCtx _ | .send _ | .wake _ => inferInstanceAs (Decidable (_ → _))
  | .schedule | .work | .increment | .timeoutStart | .timeoutCleanup | .timeoutEnd | .replyStart _
  | .replyAccept | .replyCleanup | .replyGive => isTrue trivial

/-- What accounts for `ctx` being in the list, by the place of the work queue. -/
def WorkQueue.Accounts (s : State) : WorkQueue → Prop
  | .idle => s.recvSeq < s.sequence ∨ s.receive.Cleans
  | .passed | .initCtx => s.receive.Cleans
  | .sending | .waiting | .timeout => True
  | .cleaned => False

/-- `ctx` is accounted for. -/
def Accounted (s : State) : Prop := s.registered = true → s.workQueue.Accounts s

variable {s t : State} {i : Input}

/-! ## One step -/

/-- What is accounted for has a reason to be in the list. -/
theorem Accounted.attended (h : Accounted s) : Attended s := by
  intro hreg
  by_cases hidle : s.workQueue = .idle
  · have haccounts := h hreg
    rw [hidle] at haccounts
    rcases haccounts with hlt | hcleans
    · exact .inl hlt
    · refine .inr (.inr fun hreceive => ?_)
      rw [hreceive] at hcleans
      exact hcleans
  · exact .inr (.inl hidle)

/-- While the reply handler goes on without taking `ctx` out, it is going to do so, or a request is
outstanding. -/
theorem WorkQueue.Accounts.mono {w : WorkQueue} (h : w.Accounts s)
    (hseq : s.recvSeq < s.sequence → t.recvSeq < t.sequence ∨ t.receive.Cleans)
    (hcleans : s.receive.Cleans → t.receive.Cleans) : w.Accounts t := by
  cases w with
  | idle => exact h.elim hseq fun hc => .inr (hcleans hc)
  | passed | initCtx => exact hcleans h
  | sending | waiting | timeout => trivial
  | cleaned => exact h

/-- A tidy step keeps `ctx` accounted for. -/
theorem Accounted.step (h : Accounted s) (hok : Tidy s i) (hs : Step s i t) : Accounted t := by
  cases hs with
  | schedule => exact h
  | work hidle =>
    intro hreg
    unfold workStart at hreg ⊢
    split
    · next hlt =>
      show s.workQueue.Accounts _
      rw [hidle]
      exact .inl hlt
    · next hge =>
      -- the test has passed, so it is the reply handler that accounts for `ctx`
      rw [if_neg hge] at hreg
      have haccounts := h hreg
      rw [hidle] at haccounts
      exact haccounts.resolve_left hge
  | increment hat =>
    intro hreg
    have haccounts := h hreg
    rw [hat] at haccounts
    exact haccounts
  | initCtx ok hat =>
    cases ok with
    | true => exact fun _ => trivial
    | false =>
      intro hreg
      have haccounts := h hreg
      rw [hat] at haccounts
      exact absurd haccounts (hok hreg)
  | send ok hat =>
    cases ok with
    | true => exact fun _ => trivial
    | false => exact fun hreg => .inr (hok rfl hreg)
  | wake timedOut hat =>
    intro hreg
    by_cases hlt : s.recvSeq < s.sequence
    · exact .inl hlt
    · exact .inr (hok (not_lt.mp hlt) hreg)
  | timeoutStart => exact fun _ => trivial
  | timeoutCleanup => exact nofun
  | timeoutEnd hat =>
    intro hreg
    have haccounts := h hreg
    rw [hat] at haccounts
    exact absurd haccounts id
  | replyStart pkt hidle =>
    intro hreg
    refine (h hreg).mono (fun hlt => .inl hlt) fun hcleans => ?_
    rw [hidle] at hcleans
    exact absurd hcleans id
  | replyAccept pkt hat =>
    intro hreg
    unfold Ping.replyAccept at hreg ⊢
    split
    · next hdrop =>
      rw [if_pos hdrop] at hreg
      refine (h hreg).mono (fun hlt => .inl hlt) fun hcleans => ?_
      rw [hat] at hcleans
      exact absurd hdrop hcleans
    · next hkeep =>
      rw [if_neg hkeep] at hreg
      exact (h hreg).mono (fun _ => .inr trivial) fun _ => trivial
  | replyCleanup => exact nofun
  | replyGive pkt hat =>
    intro hreg
    refine (h hreg).mono (fun hlt => .inl hlt) fun hcleans => ?_
    rw [hat] at hcleans
    exact absurd hcleans id

/-- `net_icmp_init_ctx` is called for a context that is not in the list. -/
theorem Accounted.registeredOnce (h : Accounted s) (hok : Tidy s i) (hs : Step s i t) :
    RegisteredOnce s i t := by
  constructor
  · rintro ok rfl
    cases hs with
    | initCtx ok hat =>
      by_contra hreg
      have haccounts := h (Bool.eq_true_of_not_eq_false hreg)
      rw [hat] at haccounts
      exact hok (Bool.eq_true_of_not_eq_false hreg) haccounts
  · exact (h.step hok hs).attended

/-! ## Runs -/

/-- **The ICMP context is registered at most once.** In every run whose steps are tidy,
`net_icmp_init_ctx` finds `ctx` outside of the list, and `ctx` is in the list only while a request
is outstanding or a handler is executing. -/
theorem ping_registeredOnce (is : List Input) (hok : ping.Meets Tidy is) :
    ping.Along RegisteredOnce ping.init is := by
  apply Machine.along_of_invariant Accounted _ _ _ hok
  · intro s i t h hi hs
    exact h.step hi (step_of_eq_some hs)
  · intro s i t h hi hs
    exact h.registeredOnce hi (step_of_eq_some hs)
  · exact nofun

/-- A ping that is answered, and one that times out. -/
theorem ping_registeredOnce_answered :
    ping.Along RegisteredOnce ping.init [.schedule, .work, .increment, .initCtx true, .send true,
      .replyStart ⟨true, 4, false, 1⟩, .replyAccept, .replyCleanup, .replyGive, .wake false,
      .schedule, .work, .increment, .initCtx true, .send true, .wake true, .timeoutStart,
      .timeoutCleanup, .timeoutEnd] :=
  ping_registeredOnce _ (by decide)

/-- A ping cannot be sent. `ctx` stays in the list, and the next attempt puts it in again. -/
theorem ping_registeredTwice : ¬ ∀ is : List Input, ping.Along RegisteredOnce ping.init is := by
  intro h
  have hrun : ping.run [.schedule, .work, .increment, .initCtx true, .send false, .work,
    .increment] = some ⟨1, 0, true, 0, true, false, none, .initCtx, .idle, 2, false⟩ := rfl
  have halong := h ([.schedule, .work, .increment, .initCtx true, .send false, .work,
    .increment] ++ [.initCtx true])
  obtain ⟨-, htwice⟩ := (Machine.along_append hrun).mp halong
  obtain ⟨⟨hnot, -⟩, -⟩ := htwice _ rfl
  exact absurd (hnot true rfl) (by decide)

/-! ## Steps that are not tidy -/

/-- With nothing outstanding and no handler executing, `ctx` is in the list without a reason. -/
theorem not_attended (hidle : s.workQueue = .idle) (hreg : s.registered = true)
    (hle : s.sequence ≤ s.recvSeq) (hreceive : s.receive = .idle) : ¬ Attended s := by
  intro h
  rcases h hreg with hlt | hqueue | hne
  · exact absurd hlt (not_lt.mpr hle)
  · exact hqueue hidle
  · exact hne hreceive

/-- If a step gives a ping up with `ctx` in the list, and no reply handler is about to take it out,
then the one that is executing, if any, ends with `ctx` in the list. -/
theorem exists_not_along_of_givenUp (hs : ping.step s i = some t) (hidle : t.workQueue = .idle)
    (hreg : t.registered = true) (hle : t.sequence ≤ t.recvSeq) (hcleans : ¬ t.receive.Cleans) :
    ∃ js, ¬ ping.Along RegisteredOnce s (i :: js) := by
  cases hreceive : t.receive with
  | idle =>
    refine ⟨[], fun halong => not_attended hidle hreg hle hreceive ?_⟩
    exact ((Machine.along_cons hs).mp halong).1.2
  | started pkt =>
    have hdrop : pkt.Dropped := by
      rw [hreceive] at hcleans
      exact not_not.mp hcleans
    have hstep : ping.step t .replyAccept = some { t with receive := .idle } := by
      simp [ping, step, hreceive, replyAccept, hdrop]
    refine ⟨[.replyAccept], fun halong => ?_⟩
    obtain ⟨-, halong⟩ := (Machine.along_cons hs).mp halong
    obtain ⟨⟨-, hattended⟩, -⟩ := (Machine.along_cons hstep).mp halong
    exact not_attended (s := { t with receive := .idle }) hidle hreg hle rfl hattended
  | accepted pkt =>
    rw [hreceive] at hcleans
    exact absurd trivial hcleans
  | cleaned pkt =>
    have hstep : ping.step t .replyGive = some (replyGive t) := by
      simp [ping, step, hreceive]
    refine ⟨[.replyGive], fun halong => ?_⟩
    obtain ⟨-, halong⟩ := (Machine.along_cons hs).mp halong
    obtain ⟨⟨-, hattended⟩, -⟩ := (Machine.along_cons hstep).mp halong
    exact not_attended (s := replyGive t) hidle hreg hle rfl hattended

/-- **No other condition will do.** After a step that is not tidy the reply handler alone gets to
where `ctx` is in the list without a reason, unless it is put in twice by the step itself. -/
theorem exists_not_along_of_not_tidy (h : ¬ Tidy s i) (hs : ping.step s i = some t) :
    ∃ js, ¬ ping.Along RegisteredOnce s (i :: js) := by
  cases i with
  | initCtx ok =>
    obtain ⟨hreg, -⟩ := Classical.not_imp.mp h
    refine ⟨[], fun halong => ?_⟩
    obtain ⟨⟨hnot, -⟩, -⟩ := (Machine.along_cons hs).mp halong
    rw [hnot ok rfl] at hreg
    cases hreg
  | send ok =>
    obtain ⟨rfl, hrest⟩ := Classical.not_imp.mp h
    obtain ⟨hreg, hcleans⟩ := Classical.not_imp.mp hrest
    have hstep : Step s (.send false) t := step_of_eq_some hs
    cases hstep with
    | send => exact exists_not_along_of_givenUp hs rfl hreg le_rfl hcleans
  | wake timedOut =>
    obtain ⟨hle, hrest⟩ := Classical.not_imp.mp h
    obtain ⟨hreg, hcleans⟩ := Classical.not_imp.mp hrest
    have hstep : Step s (.wake timedOut) t := step_of_eq_some hs
    cases hstep with
    | wake => exact exists_not_along_of_givenUp hs rfl hreg hle hcleans
  | _ => exact absurd trivial h

end NcsExamples.TwtDemo.Ping
