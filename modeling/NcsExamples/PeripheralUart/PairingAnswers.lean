import NcsExamples.PeripheralUart.Connection
import Mathlib.Data.List.Nodup

/-! # The connection of the UART service: answers to pairing questions

`auth_conn` is all that the application keeps of a pairing question. It is set when the question
comes, and cleared by the answer and by the end of the connection, but not when the peer cancels the
question or the pairing fails. A key that goes down afterwards answers a question that is no more,
and both keys together answer the open question with a null pointer the second time. -/

namespace NcsExamples.PeripheralUart

/-- Every answer is given with a connection to an open question, and no question is answered twice.
-/
structure AnsweredOnce (s : ConnState) : Prop where
  /-- No answer is given with a null pointer. -/
  conn_isSome : ∀ r ∈ s.replies, r.conn ≠ none
  /-- No answer is stale. -/
  question_isSome : ∀ r ∈ s.replies, r.question ≠ none
  /-- No question is answered twice. -/
  nodup : (s.replies.map AuthReply.question).Nodup

/-- The condition on an event: while `auth_conn` is set, a key goes down only if the question is
still open, and never both keys together. -/
def Answerable (s : ConnState) : ConnInput → Prop
  | .buttonChanged buttonState hasChanged =>
      s.authConn ≠ none →
        (Pressed keyPasskeyAccept buttonState hasChanged ∨
          Pressed keyPasskeyReject buttonState hasChanged → s.question ≠ none) ∧
        ¬ (Pressed keyPasskeyAccept buttonState hasChanged ∧
          Pressed keyPasskeyReject buttonState hasChanged)
  | _ => True

instance (s : ConnState) : DecidablePred (Answerable s)
  | .buttonChanged _ _ => inferInstanceAs (Decidable (_ → (_ → _) ∧ ¬ (_ ∧ _)))
  | .connected _ | .disconnected | .authPasskeyConfirm | .authCancel | .pairingFailed =>
      isTrue trivial

/-- The questions answered are older than the open one, which is the last one asked. -/
structure Numbered (s : ConnState) : Prop where
  answered_lt : ∀ r ∈ s.replies, ∀ n, r.question = some n → n < s.asked
  open_lt : ∀ n, s.question = some n → n < s.asked
  open_notMem : s.question ≠ none → s.question ∉ s.replies.map AuthReply.question

variable {s t : ConnState}

/-- The end of a question leaves the numbers in order. -/
theorem Numbered.close (h : Numbered s) : Numbered { s with question := none } where
  answered_lt := h.answered_lt
  open_lt _ hn := by cases hn
  open_notMem hne := absurd rfl hne

/-- A new question has a new number. -/
theorem Numbered.ask (h : Numbered s) :
    Numbered { s with question := some s.asked, asked := s.asked + 1 } where
  answered_lt r hr n hn := Nat.lt_succ_of_lt (h.answered_lt r hr n hn)
  open_lt n hn := by
    obtain rfl := Option.some.inj hn
    exact Nat.lt_succ_self _
  open_notMem _ hmem := by
    obtain ⟨r, hr, hask⟩ := List.mem_map.mp hmem
    exact lt_irrefl _ (h.answered_lt r hr s.asked hask)

/-! ## The answer of a key -/

/-- What one call of `num_comp_reply` adds to the answers. -/
theorem replies_numCompReply (accept : Bool) (s : ConnState) :
    (s.numCompReply accept).replies = s.replies ++ [⟨accept, s.authConn, s.question⟩] := rfl

/-- The answer to an open question, with `auth_conn` set, is the only one to it. -/
theorem AnsweredOnce.numCompReply_iff (h : AnsweredOnce s) (hnum : Numbered s) {conn : BtConn}
    (hauth : s.authConn = some conn) (accept : Bool) :
    AnsweredOnce (s.numCompReply accept) ↔ s.question ≠ none := by
  constructor
  · intro ht
    apply ht.question_isSome ⟨accept, s.authConn, s.question⟩
    rw [replies_numCompReply]
    simp
  · intro hopen
    constructor
    · intro r hr
      rw [replies_numCompReply, List.mem_append, List.mem_singleton] at hr
      rcases hr with hr | rfl
      · exact h.conn_isSome r hr
      · rw [hauth]
        simp
    · intro r hr
      rw [replies_numCompReply, List.mem_append, List.mem_singleton] at hr
      rcases hr with hr | rfl
      · exact h.question_isSome r hr
      · exact hopen
    · rw [replies_numCompReply, List.map_append]
      exact h.nodup.append (List.nodup_singleton _)
        (List.disjoint_singleton.mpr (hnum.open_notMem hopen))

/-- An answer with `auth_conn` set closes its question. -/
theorem Numbered.numCompReply (h : Numbered s) {conn : BtConn} (hauth : s.authConn = some conn)
    (accept : Bool) : Numbered (s.numCompReply accept) := by
  have hclosed : (s.numCompReply accept).question = none := by
    simp [ConnState.numCompReply, ConnState.btConnAuth, ConnState.btConnUnref, hauth]
  constructor
  · intro r hr n hn
    rw [replies_numCompReply, List.mem_append, List.mem_singleton] at hr
    rcases hr with hr | rfl
    · exact h.answered_lt r hr n hn
    · exact h.open_lt n hn
  · intro n hn
    rw [hclosed] at hn
    cases hn
  · intro hne
    exact absurd hclosed hne

/-- A second call of `num_comp_reply` answers with a null pointer. -/
theorem not_answeredOnce_numCompReply_twice (s : ConnState) (accept accept' : Bool) :
    ¬ AnsweredOnce ((s.numCompReply accept).numCompReply accept') := by
  intro h
  refine h.conn_isSome ⟨accept', none, (s.numCompReply accept).question⟩ ?_ rfl
  rw [replies_numCompReply]
  exact List.mem_append_right _ (List.mem_singleton.mpr rfl)

/-! ## The events -/

/-- The buttons answer once exactly if the condition is met. -/
theorem AnsweredOnce.buttonChanged_iff (h : AnsweredOnce s) (hnum : Numbered s)
    (buttonState hasChanged : BitVec 32) :
    AnsweredOnce (s.buttonChanged buttonState hasChanged) ↔
      Answerable s (.buttonChanged buttonState hasChanged) := by
  cases hauth : s.authConn with
  | none =>
    rw [ConnState.buttonChanged_of_none hauth]
    exact iff_of_true h fun hsome => absurd hauth hsome
  | some conn =>
    rw [ConnState.buttonChanged_of_some hauth]
    simp only [Answerable, hauth, ne_eq, reduceCtorEq, not_false_eq_true, forall_const]
    by_cases haccept : Pressed keyPasskeyAccept buttonState hasChanged <;>
      by_cases hreject : Pressed keyPasskeyReject buttonState hasChanged <;>
      simp only [haccept, hreject, if_true, if_false, or_self, or_true, or_false, and_true,
        and_false, and_self, not_true_eq_false, not_false_eq_true, forall_const, false_implies,
        iff_false, iff_true]
    · exact not_answeredOnce_numCompReply_twice s true false
    · exact h.numCompReply_iff hnum hauth true
    · exact h.numCompReply_iff hnum hauth false
    · exact h

/-- An event keeps the answers right exactly if it meets the condition. -/
theorem AnsweredOnce.step_iff (h : AnsweredOnce s) (hnum : Numbered s) {i : ConnInput}
    (hs : connStep s i = some t) : AnsweredOnce t ↔ Answerable s i := by
  have hsame : t.replies = s.replies → AnsweredOnce t := fun hreplies =>
    ⟨hreplies ▸ h.conn_isSome, hreplies ▸ h.question_isSome, hreplies ▸ h.nodup⟩
  cases connStep_of_eq_some hs with
  | connected err =>
    exact iff_of_true (hsame (ConnState.questions_connected _ _ _).1) trivial
  | disconnected =>
    exact iff_of_true (hsame (ConnState.questions_disconnected _).1) trivial
  | authPasskeyConfirm | authCancel | pairingFailed =>
    exact iff_of_true (hsame rfl) trivial
  | buttonChanged buttonState hasChanged =>
    exact h.buttonChanged_iff hnum buttonState hasChanged

/-- The buttons leave the numbers in order if the condition is met. -/
theorem Numbered.buttonChanged (h : Numbered s) {buttonState hasChanged : BitVec 32}
    (hok : Answerable s (.buttonChanged buttonState hasChanged)) :
    Numbered (s.buttonChanged buttonState hasChanged) := by
  cases hauth : s.authConn with
  | none =>
    rw [ConnState.buttonChanged_of_none hauth]
    exact h
  | some conn =>
    rw [ConnState.buttonChanged_of_some hauth]
    have hone := (hok (by rw [hauth]; simp)).2
    by_cases haccept : Pressed keyPasskeyAccept buttonState hasChanged <;>
      by_cases hreject : Pressed keyPasskeyReject buttonState hasChanged <;>
      simp only [haccept, hreject, if_true, if_false]
    · exact absurd ⟨haccept, hreject⟩ hone
    · exact h.numCompReply hauth true
    · exact h.numCompReply hauth false
    · exact h

/-- Every admitted event leaves the numbers in order. -/
theorem Numbered.step (h : Numbered s) {i : ConnInput} (hok : Answerable s i)
    (hs : connStep s i = some t) : Numbered t := by
  have hsame : ∀ {u v : ConnState}, Numbered u →
      v.replies = u.replies ∧ v.question = u.question ∧ v.asked = u.asked → Numbered v := by
    rintro u v hu ⟨hreplies, hquestion, hasked⟩
    constructor
    · rw [hreplies, hasked]
      exact hu.answered_lt
    · rw [hquestion, hasked]
      exact hu.open_lt
    · rw [hreplies, hquestion]
      exact hu.open_notMem
  cases connStep_of_eq_some hs with
  | connected err =>
    exact hsame h (ConnState.questions_connected _ _ _)
  | disconnected =>
    exact hsame h.close (ConnState.questions_disconnected _)
  | authPasskeyConfirm =>
    exact hsame h.ask ⟨rfl, rfl, rfl⟩
  | authCancel | pairingFailed =>
    exact h.close
  | buttonChanged buttonState hasChanged =>
    exact h.buttonChanged hok

/-! ## Runs -/

/-- **One answer for a question.** After every event of a run each answer was given with a
connection to an open question, and none to a question answered before, exactly if no key goes down
while `auth_conn` is set and the question is closed, and both keys never do while it is set. -/
theorem pairing_answeredOnce_iff (is : List ConnInput) :
    btConn.Along (fun _ _ t => AnsweredOnce t) btConn.init is ↔ btConn.Meets Answerable is :=
  Machine.along_congr (fun s => AnsweredOnce s ∧ Numbered s)
    (fun _ _ _ h hs => h.1.step_iff h.2 hs)
    (fun _ _ _ h ht hs => ⟨ht, h.2.step ((h.1.step_iff h.2 hs).mp ht) hs⟩)
    ⟨⟨by simp [btConn], by simp [btConn], List.nodup_nil⟩, ⟨by simp [btConn], by simp [btConn],
      fun hne => absurd rfl hne⟩⟩

/-- The peer cancels the question before the accept key goes down; and both keys go down together
while a question is open. -/
theorem pairing_not_answeredOnce :
    (∃ s, btConn.run [.connected 0, .authPasskeyConfirm, .authCancel, .buttonChanged 1 1] = some s ∧
        ¬ AnsweredOnce s) ∧
      (∃ s, btConn.run [.connected 0, .authPasskeyConfirm, .buttonChanged 3 3] = some s ∧
        ¬ AnsweredOnce s) := by
  constructor
  · refine ⟨_, rfl, fun h => ?_⟩
    exact absurd h.question_isSome (by decide)
  · refine ⟨_, rfl, fun h => ?_⟩
    exact absurd h.conn_isSome (by decide)

end NcsExamples.PeripheralUart
