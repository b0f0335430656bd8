import NcsExamples.TwtDemo.TwtRefusal

/-! # TWT demo: the flow IDs that are requested

Each teardown moves `twt_flow_id` on to the next flow, and back to 1 once it is no longer below
`WIFI_MAX_TWT_FLOWS`. The flow IDs are below that number, so the teardown of the highest flow leaves
the ID of no flow, which the next request submits unless an answer brings another one before. -/

namespace NcsExamples.TwtDemo

/-- The request of a press names one of the flows there are. -/
def SubmitsValid (d : Device) (i : DeviceInput) : Prop :=
  ∀ fails, i = .press fails → (wifiSetTwt fails d).2.1.flowId < wifiMaxTwtFlows

/-- An event names one of the flows there are. -/
def CarriesValid (i : DeviceInput) : Prop := ∀ resp, i = .event resp → resp.flowId < wifiMaxTwtFlows

/-- An event that is not a teardown, from which the flow ID is taken. -/
def Answers (i : DeviceInput) : Prop := ∃ resp, i = .event resp ∧ resp.operation ≠ .teardown

/-- TWT is on with the highest flow, so that a press tears this flow down. -/
def HoldsHighest (d : Device) : Prop :=
  d.nrfWifiTwtEnabled = true ∧ d.twtFlowId + 1 = wifiMaxTwtFlows

/-- The highest flow has been torn down by a press, and no answer has come since. -/
def Unanswered (is : List DeviceInput) : Prop :=
  ∃ js fails ks d, is = js ++ .press fails :: ks ∧ device.run js = some d ∧ HoldsHighest d ∧
    ∀ i ∈ ks, ¬ Answers i

/-- Between a press that tears down the highest flow and any later press there is an answer. -/
def HighestAnswered (is : List DeviceInput) : Prop :=
  ∀ js fails ks fails' ls d, is = js ++ .press fails :: (ks ++ .press fails' :: ls) →
    device.run js = some d → HoldsHighest d → ∃ i ∈ ks, Answers i

variable {d d' : Device} {i : DeviceInput} {is : List DeviceInput}

/-- Both requests carry `twt_flow_id` as it is before the call. -/
@[simp] theorem wifiSetTwt_flowId {fails : Bool} :
    (wifiSetTwt fails d).2.1.flowId = d.twtFlowId := by
  simp only [wifiSetTwt, twtRequest]
  split <;> rfl

/-- A press submits a valid flow ID exactly if the device holds one. -/
theorem submitsValid_press_iff {fails : Bool} :
    SubmitsValid d (.press fails) ↔ d.twtFlowId < wifiMaxTwtFlows := by
  constructor
  · intro h
    rw [← wifiSetTwt_flowId]
    exact h fails rfl
  · rintro h _ -
    rw [wifiSetTwt_flowId]
    exact h

instance : DecidableRel SubmitsValid
  | _, .press _ => decidable_of_iff _ submitsValid_press_iff.symm
  | _, .event _ => isTrue (by simp [SubmitsValid])

/-! ## What a step does to the flow ID -/

/-- TWT is off and `twt_flow_id` has been moved past the highest flow. -/
def PastHighest (d : Device) : Prop :=
  d.nrfWifiTwtEnabled = false ∧ d.twtFlowId = wifiMaxTwtFlows

/-- The teardown of the highest flow moves the flow ID past it. -/
theorem HoldsHighest.wifiSetTwt (h : HoldsHighest d) (fails : Bool) :
    PastHighest (wifiSetTwt fails d).1 := by
  obtain ⟨henabled, hflow⟩ := h
  have hlt : d.twtFlowId < wifiMaxTwtFlows := by omega
  simp [PastHighest, TwtDemo.wifiSetTwt, henabled, hlt, hflow]

/-- A press keeps the flow ID valid unless it tears the highest flow down. -/
theorem wifiSetTwt_flowId_lt {fails : Bool} (hflow : d.twtFlowId < wifiMaxTwtFlows)
    (hheld : ¬ HoldsHighest d) : (wifiSetTwt fails d).1.twtFlowId < wifiMaxTwtFlows := by
  by_cases henabled : d.nrfWifiTwtEnabled = true
  · have hne : d.twtFlowId + 1 ≠ wifiMaxTwtFlows := fun heq => hheld ⟨henabled, heq⟩
    simp only [wifiSetTwt, henabled, hflow]
    change d.twtFlowId + 1 < wifiMaxTwtFlows
    omega
  · simpa [wifiSetTwt, henabled] using hflow

/-- The flow ID after an event is the one of the event, or is not touched by a teardown. -/
theorem handleWifiTwtEvent_flowId (resp : TwtParams) :
    (handleWifiTwtEvent resp d).twtFlowId =
      if resp.operation = .teardown then d.twtFlowId else resp.flowId := by
  unfold handleWifiTwtEvent
  split
  · rfl
  · dsimp only
    split_ifs <;> rfl

/-- An answer with a valid flow ID leaves a valid flow ID. -/
theorem flowId_lt_of_answers (hs : device.step d i = some d') (hanswers : Answers i)
    (hvalid : CarriesValid i) : d'.twtFlowId < wifiMaxTwtFlows := by
  obtain ⟨resp, rfl, hresp⟩ := hanswers
  obtain rfl := Option.some.inj hs
  rw [handleWifiTwtEvent_flowId, if_neg hresp]
  exact hvalid resp rfl

/-- Only an answer gets the flow ID back from past the highest flow. -/
theorem PastHighest.step (h : PastHighest d) (hs : device.step d i = some d')
    (hanswers : ¬ Answers i) : PastHighest d' := by
  cases i with
  | press fails =>
    obtain rfl := Option.some.inj hs
    rw [PastHighest, wifiSetTwt_fst_eq_iff.mpr h.1]
    exact h
  | event resp =>
    obtain rfl := Option.some.inj hs
    have hteardown : resp.operation = .teardown := by
      by_contra hne
      exact hanswers ⟨resp, rfl, hne⟩
    simpa [PastHighest, handleWifiTwtEvent, hteardown] using h.2

/-- A valid flow ID stays valid in every step but the teardown of the highest flow. -/
theorem flowId_lt_step (hflow : d.twtFlowId < wifiMaxTwtFlows) (hvalid : CarriesValid i)
    (hs : device.step d i = some d') :
    d'.twtFlowId < wifiMaxTwtFlows ∨ ∃ fails, i = .press fails ∧ HoldsHighest d := by
  by_cases hanswers : Answers i
  · exact .inl (flowId_lt_of_answers hs hanswers hvalid)
  · cases i with
    | press fails =>
      obtain rfl := Option.some.inj hs
      by_cases hheld : HoldsHighest d
      · exact .inr ⟨fails, rfl, hheld⟩
      · exact .inl (wifiSetTwt_flowId_lt hflow hheld)
    | event resp =>
      obtain rfl := Option.some.inj hs
      left
      rw [handleWifiTwtEvent_flowId]
      split
      · exact hflow
      · exact hvalid resp rfl

/-! ## Runs -/

/-- An unanswered teardown of the highest flow leaves the flow ID past it. -/
theorem Unanswered.pastHighest (h : Unanswered is) (hrun : device.run is = some d) :
    PastHighest d := by
  obtain ⟨js, fails, ks, d₀, rfl, hjs, hheld, hks⟩ := h
  obtain ⟨d₂, hpress, hrest⟩ := device.exists_step_of_runFrom_append hrun hjs
  obtain rfl := Option.some.inj hpress
  refine Machine.invariant_inputs PastHighest ?_ hks (hheld.wifiSetTwt fails) hrest
  intro d i d' hpast hi hs
  exact hpast.step hs hi

/-- A teardown of the highest flow stays unanswered until an answer comes. -/
theorem Unanswered.append_singleton (h : Unanswered is) (hi : ¬ Answers i) :
    Unanswered (is ++ [i]) := by
  obtain ⟨js, fails, ks, d, rfl, hjs, hheld, hks⟩ := h
  refine ⟨js, fails, ks ++ [i], d, by simp, hjs, hheld, ?_⟩
  intro j hj
  rcases List.mem_append.mp hj with hj | hj
  · exact hks j hj
  · rw [List.mem_singleton.mp hj]
    exact hi

/-- After a run with valid events the flow ID is valid, or the highest flow has been torn down and
no answer has come since. -/
theorem flowId_lt_or_unanswered (hvalid : ∀ i ∈ is, CarriesValid i)
    (hrun : device.run is = some d) : d.twtFlowId < wifiMaxTwtFlows ∨ Unanswered is := by
  have hinit : device.run [] = some device.init ∧
    (device.init.twtFlowId < wifiMaxTwtFlows ∨ Unanswered []) := ⟨rfl, .inl (by decide)⟩
  have hend : device.run is = some d ∧ (d.twtFlowId < wifiMaxTwtFlows ∨ Unanswered is) := by
    refine Machine.invariant_history_inputs
      (fun is d => device.run is = some d ∧ (d.twtFlowId < wifiMaxTwtFlows ∨ Unanswered is))
      ?_ hvalid hinit hrun
    rintro js d i d' ⟨hjs, hcases⟩ hi hs
    refine ⟨device.runFrom_snoc_eq_some.mpr ⟨d, hjs, hs⟩, ?_⟩
    rcases hcases with hflow | hunanswered
    · rcases flowId_lt_step hflow hi hs with hflow' | ⟨fails, rfl, hheld⟩
      · exact .inl hflow'
      · exact .inr ⟨js, fails, [], d, rfl, hjs, hheld, by simp⟩
    · -- what has been torn down stays unanswered until an answer comes, which has a valid ID
      by_cases hanswers : Answers i
      · exact .inl (flowId_lt_of_answers hs hanswers hi)
      · exact .inr (hunanswered.append_singleton hanswers)
  exact hend.2

/-- The flow ID is valid after a run exactly if no teardown of the highest flow is unanswered. -/
theorem flowId_lt_iff (hvalid : ∀ i ∈ is, CarriesValid i) (hrun : device.run is = some d) :
    d.twtFlowId < wifiMaxTwtFlows ↔ ¬ Unanswered is := by
  constructor
  · intro hflow hunanswered
    obtain ⟨-, hpast⟩ := hunanswered.pastHighest hrun
    omega
  · exact (flowId_lt_or_unanswered hvalid hrun).resolve_right

/-- Every teardown of the highest flow is answered in time exactly if no press finds one that is
not. -/
theorem highestAnswered_iff : HighestAnswered is ↔
    ∀ js fails ls, is = js ++ .press fails :: ls → ¬ Unanswered js := by
  constructor
  · rintro h _ fails' ls rfl ⟨js, fails, ks, d, rfl, hjs, hheld, hks⟩
    obtain ⟨i, hi, hanswers⟩ := h js fails ks fails' ls d (by simp) hjs hheld
    exact hks i hi hanswers
  · rintro h js fails ks fails' ls d rfl hjs hheld
    by_contra hnone
    push Not at hnone
    have hunanswered : Unanswered (js ++ .press fails :: ks) :=
      ⟨js, fails, ks, d, rfl, hjs, hheld, hnone⟩
    exact h (js ++ .press fails :: ks) fails' ls (by simp) hunanswered

/-- Nothing is impossible for the device. -/
theorem exists_runFrom (d : Device) (is : List DeviceInput) :
    ∃ d', device.runFrom d is = some d' := by
  induction is generalizing d with
  | nil => exact ⟨d, rfl⟩
  | cons i is ih =>
    cases i with
    | press fails => exact ih (wifiSetTwt fails d).1
    | event resp => exact ih (handleWifiTwtEvent resp d)

/-- **Only valid flow IDs are requested.** In a run whose events carry valid flow IDs every press
submits a valid one, exactly if between every teardown of the highest flow and any later press there
is an answer. -/
theorem twtFlowId_submitsValid_iff (is : List DeviceInput) (hvalid : ∀ i ∈ is, CarriesValid i) :
    device.Meets SubmitsValid is ↔ HighestAnswered is := by
  rw [Machine.Meets, Machine.along_iff_forall_append, highestAnswered_iff]
  constructor
  · rintro h js fails ls rfl
    obtain ⟨d, hjs⟩ := exists_runFrom device.init js
    have hsubmits : SubmitsValid d (.press fails) := h js _ ls d _ rfl hjs rfl
    have hvalid' : ∀ i ∈ js, CarriesValid i := fun i hi => hvalid i (List.mem_append_left _ hi)
    exact (flowId_lt_iff hvalid' hjs).mp (submitsValid_press_iff.mp hsubmits)
  · rintro h js i ls d d' rfl hjs hs fails rfl
    have hvalid' : ∀ i ∈ js, CarriesValid i := fun i hi => hvalid i (List.mem_append_left _ hi)
    rw [wifiSetTwt_flowId]
    exact (flowId_lt_iff hvalid' hjs).mpr (h js fails ls rfl)

/-- The request of the device before its first press is accepted with a flow. -/
def acceptance (flow : ℕ) : DeviceInput := .event (acceptEvent (twtRequest device.init) flow)

/-- An acceptance carries the flow ID it accepts. -/
theorem carriesValid_acceptance {flow : ℕ} (h : flow < wifiMaxTwtFlows) :
    CarriesValid (acceptance flow) := by
  rintro resp heq
  obtain rfl := DeviceInput.event.inj heq
  exact h

theorem carriesValid_press {fails : Bool} : CarriesValid (.press fails) := by
  simp [CarriesValid]

/-- The highest flow is set up and torn down, and a late answer brings another one. -/
def answeredRun : List DeviceInput :=
  [.press false, acceptance 7, .press false, acceptance 3, .press false, .press false]

theorem twtFlowId_submitsValid_answered : HighestAnswered answeredRun := by
  refine (twtFlowId_submitsValid_iff answeredRun ?_).mp (by decide)
  simp only [answeredRun, List.forall_mem_cons]
  refine ⟨carriesValid_press, carriesValid_acceptance (by decide), carriesValid_press,
    carriesValid_acceptance (by decide), carriesValid_press, carriesValid_press, by simp⟩

/-- The highest flow is set up and torn down, and button 1 is pressed again. -/
theorem twtFlowId_not_submitsValid : ¬ ∀ is : List DeviceInput, (∀ i ∈ is, CarriesValid i) →
    device.Meets SubmitsValid is := by
  intro h
  have hmeets := h [.press false, acceptance 7, .press false, .press false] (by
    simp only [List.forall_mem_cons]
    exact ⟨carriesValid_press, carriesValid_acceptance (by decide), carriesValid_press,
      carriesValid_press, by simp⟩)
  exact absurd hmeets (by decide)

end NcsExamples.TwtDemo
