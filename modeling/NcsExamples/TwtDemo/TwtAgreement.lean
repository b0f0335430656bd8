import NcsExamples.TwtDemo.Twt

/-! # TWT demo: agreement of the device and the access point

Neither the button handler nor the event handler asks which flow an answer is about, or whether one
is outstanding. The device and the access point agree when nothing is in flight as long as the
device asks for a flow only then, and the end of a flow is not told before its start. -/

namespace NcsExamples.TwtDemo

/-- With nothing in flight, TWT is enabled on the device exactly if the access point holds a flow
for it, and then it holds the one whose ID the device knows. -/
def Agreement (s : State) : Prop :=
  s.requests = 0 → s.events = 0 →
    s.flows = if s.dev.nrfWifiTwtEnabled then {s.dev.twtFlowId} else ∅

/-- An event that enables TWT on the device. -/
def TwtParams.Accepts (e : TwtParams) : Prop :=
  e.operation = .setup ∧ e.respStatus = .received ∧ e.setupCmd = .accept

instance : DecidablePred TwtParams.Accepts := fun _ => inferInstanceAs (Decidable (_ ∧ _ ∧ _))

/-- The device asks for a flow only when nothing is in flight, and no teardown event arrives while
an accept is on its way. -/
def OneAtATime (s : State) : Input → Prop
  | .press => s.dev.nrfWifiTwtEnabled = false → s.requests = 0 ∧ s.events = 0
  | .deliver e => e.operation = .teardown → ∀ e' ∈ s.events, ¬ e'.Accepts
  | _ => True

instance (s : State) : DecidablePred (OneAtATime s)
  | .press => inferInstanceAs (Decidable (_ → _))
  | .deliver e =>
      inferInstanceAs (Decidable (e.operation = .teardown → ∀ e' ∈ s.events, ¬ e'.Accepts))
  | .accept _ _ | .refuse _ _ _ | .teardown _ | .apTeardown _ => isTrue trivial

/-! ## The invariant -/

/-- The phases of a negotiation. -/
inductive Phase (s : State) : Prop
  /-- TWT is off; the flows that are left are named by TEARDOWN requests on their way. -/
  | off : s.dev.nrfWifiTwtEnabled = false → (∀ r ∈ s.requests, r.operation = .teardown) →
      (∀ e ∈ s.events, e.operation = .teardown) → (∀ f ∈ s.flows, ∃ r ∈ s.requests, r.flowId = f) →
      Phase s
  /-- A SETUP request is on its way, and nothing else. -/
  | asking (r : TwtParams) : s.dev.nrfWifiTwtEnabled = false → s.requests = {r} →
      r.operation = .setup →
      s.events = 0 → s.flows = ∅ → Phase s
  /-- A refusal is on its way, and nothing else. -/
  | refused (e : TwtParams) : s.dev.nrfWifiTwtEnabled = false → s.requests = 0 → s.events = {e} →
      e.operation = .setup → ¬ e.Accepts → s.flows = ∅ → Phase s
  /-- An accept is on its way. The flow is held, or a teardown event says that it is no more. -/
  | accepted (e : TwtParams) (es : Multiset TwtParams) : s.dev.nrfWifiTwtEnabled = false →
      s.requests = 0 → s.events = e ::ₘ es → e.Accepts → (∀ e' ∈ es, e'.operation = .teardown) →
      (s.flows = {e.flowId} ∧ es = 0 ∨ s.flows = ∅ ∧ es ≠ 0) → Phase s
  /-- TWT is on. The flow is held, or a teardown event says that it is no more. -/
  | on : s.dev.nrfWifiTwtEnabled = true → s.requests = 0 →
      (∀ e ∈ s.events, e.operation = .teardown) →
      (s.flows = {s.dev.twtFlowId} ∧ s.events = 0 ∨ s.flows = ∅ ∧ s.events ≠ 0) → Phase s

variable {s t : State}

/-- In every phase the two agree when nothing is in flight. -/
theorem Phase.agreement (h : Phase s) : Agreement s := by
  intro hreq hev
  cases h with
  | off henabled _ _ hflows =>
    rw [henabled]
    apply Finset.eq_empty_of_forall_notMem
    intro f hf
    obtain ⟨r, hr, -⟩ := hflows f hf
    rw [hreq] at hr
    exact Multiset.notMem_zero r hr
  | asking r _ hreq' =>
    rw [hreq] at hreq'
    exact absurd hreq'.symm (Multiset.singleton_ne_zero r)
  | refused e _ _ hev' =>
    rw [hev] at hev'
    exact absurd hev'.symm (Multiset.singleton_ne_zero e)
  | accepted e es _ _ hev' =>
    rw [hev] at hev'
    exact absurd hev'.symm (Multiset.cons_ne_zero)
  | on henabled _ _ hflows =>
    rw [henabled]
    rcases hflows with ⟨hflow, -⟩ | ⟨-, hne⟩
    · exact hflow
    · exact absurd hev hne

/-- TWT is off at the start. -/
theorem phase_init : Phase twt.init :=
  .off rfl (by simp [twt]) (by simp [twt]) (by simp [twt])

/-! ## The steps -/

/-- Button 1 is pressed. -/
theorem Phase.press (h : Phase s) (hok : OneAtATime s .press) (hs : step s .press = some t) :
    Phase t := by
  obtain rfl := Option.some.inj hs
  cases henabled : s.dev.nrfWifiTwtEnabled with
  | false =>
    obtain ⟨hreq, hev⟩ := hok henabled
    have hflows : s.flows = ∅ := by simpa [henabled] using h.agreement hreq hev
    refine .asking (twtRequest s.dev) ?_ ?_ ?_ hev hflows
    · simp [henabled]
    · simp [hreq]
    · simp [twtRequest, henabled]
  | true =>
    cases h with
    | off hoff | asking r hoff | refused e hoff | accepted e es hoff =>
      exact absurd (henabled.symm.trans hoff) nofun
    | on _ hreq hev hflows =>
      -- the flow, if it is still held, is the one that the TEARDOWN request names
      refine .off ?_ ?_ hev ?_
      · rfl
      · simp [hreq, twtRequest, henabled]
      · intro f hf
        refine ⟨twtRequest s.dev, Multiset.mem_cons_self _ _, ?_⟩
        rcases hflows with ⟨hflow, -⟩ | ⟨hflow, -⟩
        · rw [show f = s.dev.twtFlowId by simpa [hflow] using hf]
          simp [twtRequest, henabled]
        · simp [hflow] at hf

/-- The access point answers a SETUP request. -/
theorem Phase.answer (h : Phase s) {r : TwtParams} (hr : r ∈ s.requests)
    (hop : r.operation = .setup) :
    s.dev.nrfWifiTwtEnabled = false ∧ s.requests.erase r = 0 ∧ s.events = 0 ∧ s.flows = ∅ := by
  cases h with
  | off _ hreq => exact absurd (hop.symm.trans (hreq r hr)) nofun
  | asking r' henabled hreq _ hev hflows =>
    rw [hreq, Multiset.mem_singleton] at hr
    exact ⟨henabled, by simp [hreq, hr], hev, hflows⟩
  | refused e _ hreq | accepted e es _ hreq | on _ hreq =>
    rw [hreq] at hr
    exact absurd hr (Multiset.notMem_zero r)

/-- A flow ends, by a TEARDOWN request or by the access point, and its event is on the way. -/
theorem Phase.endFlow (h : Phase s) {flow : ℕ} {requests : Multiset TwtParams}
    (hreq : ∀ r ∈ requests, r ∈ s.requests)
    (hleft : ∀ r ∈ s.requests, r.operation = .teardown → r.flowId ≠ flow → r ∈ requests)
    (hend : flow ∈ s.flows ∨ ∃ r ∈ s.requests, r.operation = .teardown) :
    Phase { s with
      flows := s.flows.erase flow, requests, events := teardownEvent flow ::ₘ s.events } := by
  have hempty : s.requests = 0 → requests = 0 := fun hzero =>
    Multiset.eq_zero_of_forall_notMem fun r hr => Multiset.notMem_zero r (hzero ▸ hreq r hr)
  have hevents : (∀ e ∈ s.events, e.operation = .teardown) →
      ∀ e ∈ teardownEvent flow ::ₘ s.events, e.operation = .teardown := fun hev e he =>
    (Multiset.mem_cons.mp he).elim (fun heq => heq ▸ rfl) (hev e)
  -- without a request on its way the flow that ends is the one that is held
  have hheld : ∀ {f : ℕ}, s.requests = 0 → s.flows = {f} ∨ s.flows = ∅ →
      s.flows.erase flow = ∅ := by
    intro f hzero hflows
    have hin : flow ∈ s.flows := hend.resolve_right fun ⟨r, hr, _⟩ => by simp [hzero] at hr
    rcases hflows with hflow | hflow
    · rw [show flow = f by simpa [hflow] using hin]
      simp [hflow]
    · simp [hflow] at hin
  cases h with
  | off henabled hreqs hev hflows =>
    refine .off henabled (fun r hr => hreqs r (hreq r hr)) (hevents hev) fun f hf => ?_
    obtain ⟨hne, hin⟩ := Finset.mem_erase.mp hf
    obtain ⟨r, hr, rfl⟩ := hflows f hin
    exact ⟨r, hleft r hr (hreqs r hr) hne, rfl⟩
  | asking r henabled hreq' hop hev hflows =>
    rcases hend with hin | ⟨r', hr', hop'⟩
    · simp [hflows] at hin
    · rw [hreq', Multiset.mem_singleton] at hr'
      rw [hr', hop] at hop'
      cases hop'
  | refused e henabled hreq' hev hop hno hflows =>
    rcases hend with hin | ⟨r', hr', hop'⟩
    · simp [hflows] at hin
    · simp [hreq'] at hr'
  | accepted e es henabled hreq' hev hacc hes hflows =>
    refine .accepted e (teardownEvent flow ::ₘ es) henabled (hempty hreq') ?_ hacc ?_
      (.inr ⟨hheld hreq' (hflows.imp And.left And.left), Multiset.cons_ne_zero⟩)
    · change teardownEvent flow ::ₘ s.events = _
      rw [hev, Multiset.cons_swap]
    · exact fun e' he' => (Multiset.mem_cons.mp he').elim (fun heq => heq ▸ rfl) (hes e')
  | on henabled hreq' hev hflows =>
    exact .on henabled (hempty hreq') (hevents hev)
      (.inr ⟨hheld hreq' (hflows.imp And.left And.left), Multiset.cons_ne_zero⟩)

/-- An event arrives. -/
theorem Phase.deliver (h : Phase s) {e : TwtParams} (he : e ∈ s.events)
    (hok : OneAtATime s (.deliver e)) :
    Phase { s with dev := handleWifiTwtEvent e s.dev, events := s.events.erase e } := by
  have hteardown : e.operation = .teardown →
      (handleWifiTwtEvent e s.dev).nrfWifiTwtEnabled = false := fun hop => by
    simp [handleWifiTwtEvent, hop]
  have herase : ∀ {p : TwtParams → Prop}, (∀ e' ∈ s.events, p e') → ∀ e' ∈ s.events.erase e, p e' :=
    fun hp e' he' => hp e' (Multiset.mem_of_mem_erase he')
  cases h with
  | off henabled hreqs hev hflows =>
    exact .off (hteardown (hev e he)) hreqs (herase hev) hflows
  | asking r _ _ _ hev => simp [hev] at he
  | refused e' henabled hreq hev hop hno hflows =>
    obtain rfl : e = e' := by simpa [hev] using he
    have hoff : (handleWifiTwtEvent e s.dev).nrfWifiTwtEnabled = false := by
      unfold handleWifiTwtEvent
      split
      · rfl
      · split
        · exact henabled
        · next hstatus =>
          split
          · next hcmd => exact absurd ⟨hop, not_not.mp hstatus, hcmd⟩ hno
          · exact henabled
    refine .off hoff (by simp [hreq]) (by simp [hev]) (by simp [hflows])
  | accepted e' es henabled hreq hev hacc hes hflows =>
    by_cases heq : e = e'
    · -- the accept arrives
      subst heq
      obtain ⟨hop, hstatus, hcmd⟩ := hacc
      have hdev : handleWifiTwtEvent e s.dev = ⟨true, e.flowId, true⟩ := by
        simp [handleWifiTwtEvent, hop, hstatus, hcmd]
      refine .on (by simp [hdev]) hreq ?_ ?_
      · simpa [hev] using hes
      · simpa [hev, hdev] using hflows
    · -- a teardown event would arrive before the accept
      have hmem : e ∈ es := by simpa [hev, heq] using he
      exact absurd hacc (hok (hes e hmem) e' (by simp [hev]))
  | on henabled hreq hev hflows =>
    -- a teardown event is on its way only if the flow is no longer held
    have hflow : s.flows = ∅ := by
      rcases hflows with ⟨-, hzero⟩ | ⟨hflow, -⟩
      · simp [hzero] at he
      · exact hflow
    exact .off (hteardown (hev e he)) (by simp [hreq]) (herase hev) (by simp [hflow])

/-- Every step of a negotiation that does one thing at a time leads to a phase. -/
theorem Phase.step (h : Phase s) {i : Input} (hok : OneAtATime s i) (hs : step s i = some t) :
    Phase t := by
  cases i with
  | press => exact h.press hok hs
  | accept r flow =>
    obtain ⟨⟨hr, hop⟩, rfl⟩ := Machine.guarded_eq_some.mp hs
    obtain ⟨henabled, hreq, hev, hflows⟩ := h.answer hr hop
    exact .accepted (acceptEvent r flow) 0 henabled hreq (by simp [hev]) ⟨hop, rfl, rfl⟩ (by simp)
      (.inl ⟨by simp [hflows, acceptEvent], rfl⟩)
  | refuse r timedOut flow =>
    obtain ⟨⟨hr, hop⟩, rfl⟩ := Machine.guarded_eq_some.mp hs
    obtain ⟨henabled, hreq, hev, hflows⟩ := h.answer hr hop
    exact .refused (refuseEvent r timedOut flow) henabled hreq (by simp [hev]) hop
      (fun hacc => nomatch hacc.2.2) hflows
  | teardown r =>
    obtain ⟨⟨hr, hop⟩, rfl⟩ := Machine.guarded_eq_some.mp hs
    refine h.endFlow (fun r' hr' => Multiset.mem_of_mem_erase hr') (fun r' hr' _ hne => ?_)
      (.inr ⟨r, hr, hop⟩)
    exact (Multiset.mem_erase_of_ne fun heq => hne (congrArg TwtParams.flowId heq)).mpr hr'
  | apTeardown flow =>
    obtain ⟨hin, rfl⟩ := Machine.guarded_eq_some.mp hs
    exact h.endFlow (fun _ hr => hr) (fun _ hr _ _ => hr) (.inl hin)
  | deliver e =>
    obtain ⟨he, rfl⟩ := Machine.guarded_eq_some.mp hs
    exact h.deliver he hok

/-! ## Runs -/

/-- **Agreement.** In every state that a run of one negotiation at a time reaches with nothing in
flight, the device and the access point agree on the flow. -/
theorem twt_agreement (is : List Input) (hok : twt.Meets OneAtATime is) (s : State)
    (hrun : twt.run is = some s) : Agreement s :=
  (Machine.invariant Phase phase_init (fun _ _ _ h hok hs => h.step hok hs) hok hrun).agreement

/-- A flow is accepted, the access point ends it, and the device hears of both in this order. -/
theorem twt_agreement_apTeardown : Agreement ((twt.run [.press,
    .accept (twtRequest ⟨false, 1, false⟩) 5,
    .apTeardown 5, .deliver (acceptEvent (twtRequest ⟨false, 1, false⟩) 5),
    .deliver (teardownEvent 5)]).get (by decide)) :=
  twt_agreement _ (by decide) _ (Option.some_get _).symm

/-- The button is pressed twice before the first answer, and the access point accepts both requests.
-/
theorem twt_not_agreement : ¬ ∀ (is : List Input) (s : State), twt.run is = some s → Agreement s :=
  fun h => by
  have hagreement := h [.press, .press, .accept (twtRequest ⟨false, 1, false⟩) 1,
    .accept (twtRequest ⟨false, 1, false⟩) 2,
    .deliver (acceptEvent (twtRequest ⟨false, 1, false⟩) 1),
    .deliver (acceptEvent (twtRequest ⟨false, 1, false⟩) 2)] _ rfl
  exact absurd (hagreement (by decide) (by decide)) (by decide)

end NcsExamples.TwtDemo
