import NcsExamples.MatterLight.LightAgreement

/-! # Matter light bulb: bulb and clusters recover

The bulb drives the clusters and the clusters drive the bulb, so one could keep the other busy for
ever; and once they disagree, they could stay so. Neither happens. An action that a cluster has asked
for schedules nothing, so what is pending is worked off. And a lambda writes both clusters, whatever
they were: as soon as one is scheduled, or an event that will schedule one is queued, nothing is left
of what was written before. -/

namespace NcsExamples.MatterLight

/-- The application and the CHIP thread make the step by themselves: a dispatch, or a part of a
lambda. -/
def LightInput.IsInternal : LightInput → Prop
  | .dispatch _ | .lambdaOnOff | .lambdaCurrentLevel => True
  | .app _ | .write _ => False

namespace LightState

variable {P : PWMDevice} {s t : LightState P} {i : LightInput}

/-! ## The work that is left -/

/-- The steps that what is pending can take: one for each event, two for each lambda, and two for the
lambda that an event of the lighting button may schedule. -/
def work (s : LightState P) : ℕ :=
  s.app.queue.length + 2 * s.app.queue.countP (fun e => e.handler = .lightingAction) +
    2 * s.lambdas + if s.inLambda then 1 else 0

/-- An action schedules one lambda at most. -/
theorem initiateAction_frame (action : PWMAction) (actor : AppEventType) :
    (s.initiateAction action actor).inLambda = s.inLambda ∧
      (s.initiateAction action actor).lambdas ≤ s.lambdas + 1 := by
  unfold initiateAction actionCompleted
  dsimp only
  split
  · split
    · exact ⟨rfl, le_rfl⟩
    · exact ⟨rfl, Nat.le_succ _⟩
  · exact ⟨rfl, Nat.le_succ _⟩

/-- So does the handler of the lighting button. -/
theorem lightingActionEventHandler_frame (type : AppEventType)
    (lighting : PWMAction × AppEventType) :
    (s.lightingActionEventHandler type lighting).inLambda = s.inLambda ∧
      (s.lightingActionEventHandler type lighting).lambdas ≤ s.lambdas + 1 := by
  unfold lightingActionEventHandler
  -- whichever action it is
  generalize (if type = .lighting then lighting else _ : PWMAction × AppEventType) = chosen
  dsimp only
  split
  · exact initiateAction_frame chosen.1 chosen.2
  · exact ⟨rfl, Nat.le_succ _⟩

/-- Every internal step does some of the work. -/
theorem work_lt_of_step (hi : i.IsInternal) (hs : lightStep P s i = some t) : t.work < s.work := by
  cases i with
  | app i => exact hi.elim
  | write write => exact hi.elim
  | dispatch lighting =>
    simp only [lightStep] at hs
    split at hs
    · next event queue hqueue =>
      obtain rfl := Option.some.inj hs
      have hleft : (dispatchEvent event { s.app with queue }).queue = queue :=
        (dispatchEvent_frame event _).1
      split
      · next hhandler =>
        -- the lambda that the event may schedule has been counted with it
        obtain ⟨hinLambda, hlambdas⟩ := lightingActionEventHandler_frame
          (s := { s with app := dispatchEvent event { s.app with queue } }) event.type lighting
        have hcount : (event :: queue).countP (fun e => e.handler = .lightingAction) =
            queue.countP (fun e => e.handler = .lightingAction) + 1 :=
          List.countP_cons_of_pos (decide_eq_true hhandler)
        simp only [work, app_lightingActionEventHandler, hinLambda, hleft, hqueue, hcount,
          List.length_cons]
        simp only at hlambdas
        omega
      · next hhandler =>
        have hcount : (event :: queue).countP (fun e => e.handler = .lightingAction) =
            queue.countP (fun e => e.handler = .lightingAction) :=
          List.countP_cons_of_neg (by simpa using hhandler)
        simp only [work, hleft, hqueue, hcount, List.length_cons]
        omega
    · cases hs
  | lambdaOnOff =>
    obtain ⟨⟨hinLambda, hlambdas⟩, rfl⟩ := Machine.guarded_eq_some.mp hs
    obtain ⟨happ, hlambdas', hinLambda'⟩ := writeAttribute_frame
      (s := { s with lambdas := s.lambdas - 1, inLambda := true }) (.onOff s.isTurnedOn)
    simp only [work, happ, hlambdas', hinLambda', hinLambda]
    simp only [if_true, Bool.false_eq_true, if_false]
    omega
  | lambdaCurrentLevel =>
    obtain ⟨hinLambda, rfl⟩ := Machine.guarded_eq_some.mp hs
    obtain ⟨happ, hlambdas', hinLambda'⟩ := writeAttribute_frame
      (s := { s with inLambda := false }) (.currentLevel s.getLevel)
    simp only [work, happ, hlambdas', hinLambda', hinLambda]
    simp only [if_true, Bool.false_eq_true, if_false]
    omega

/-- As long as something is pending, there is an internal step. -/
theorem exists_internal_step (h : s.Pending) :
    ∃ i t, LightInput.IsInternal i ∧ lightStep P s i = some t := by
  cases hinLambda : s.inLambda with
  | true => exact ⟨.lambdaCurrentLevel, _, trivial, if_pos hinLambda⟩
  | false =>
    by_cases hlambdas : 0 < s.lambdas
    · exact ⟨.lambdaOnOff, _, trivial, if_pos ⟨hinLambda, hlambdas⟩⟩
    · rcases h with h | h | ⟨e, he, -⟩
      · exact absurd h hlambdas
      · rw [hinLambda] at h
        cases h
      · cases hqueue : s.app.queue with
        | nil =>
          rw [hqueue] at he
          cases he
        | cons event queue =>
          have hsome : lightStep P s (.dispatch (.invalid, .none)) ≠ none := by
            simp [lightStep, hqueue]
          obtain ⟨t, ht⟩ := Option.ne_none_iff_exists'.mp hsome
          exact ⟨.dispatch (.invalid, .none), t, trivial, ht⟩

/-! ## What holds in every state -/

/-- What holds of the lambda and of the events of the lighting button, agreement or not. -/
structure Linked (s : LightState P) : Prop where
  onOff : s.inLambda = true → s.lambdas = 0 → s.onOff = s.isTurnedOn
  buttons : ∀ e ∈ s.app.queue, e.handler = .lightingAction → e.type = .button

/-- While something is pending, nothing is asked of the clusters. -/
theorem Linked.inv (h : s.Linked) (hpending : s.Pending) : s.Inv :=
  ⟨fun hrest => absurd hpending hrest, h.onOff, h.buttons⟩

/-- A dispatch schedules another lambda, or leaves bulb and clusters alone. -/
theorem Linked.dispatch (h : s.Linked) {lighting : PWMAction × AppEventType}
    (hs : lightStep P s (.dispatch lighting) = some t) : t.Linked := by
  simp only [lightStep] at hs
  split at hs
  · next event queue hqueue =>
    obtain rfl := Option.some.inj hs
    have hleft : (dispatchEvent event { s.app with queue }).queue = queue :=
      (dispatchEvent_frame event _).1
    have hbuttons : ∀ e ∈ (dispatchEvent event { s.app with queue }).queue,
        e.handler = .lightingAction → e.type = .button := by
      intro e he
      rw [hleft] at he
      exact h.buttons e (hqueue ▸ List.mem_cons_of_mem event he)
    split
    · next hhandler =>
      have htype : event.type = .button := h.buttons event (hqueue ▸ List.mem_cons_self) hhandler
      rw [htype, lightingActionEventHandler_button]
      -- another lambda is scheduled
      exact ⟨fun _ hnone => absurd hnone (Nat.succ_ne_zero _), hbuttons⟩
    · exact ⟨h.onOff, hbuttons⟩
  · cases hs

/-- Every step keeps this. -/
theorem Linked.step (h : s.Linked) (hs : lightStep P s i = some t) : t.Linked := by
  cases i with
  | app i =>
    obtain ⟨hdispatch, ht⟩ := Option.ite_none_left_eq_some.mp hs
    obtain ⟨app, happ, rfl⟩ := Option.map_eq_some_iff.mp ht
    -- the buttons are those of a state with a lambda under way
    have hbusy : Inv { s with inLambda := true, onOff := s.isTurnedOn } :=
      ⟨fun hrest => absurd (.inr (.inl rfl)) hrest, fun _ _ => rfl, h.buttons⟩
    exact ⟨h.onOff, (hbusy.app hdispatch happ).buttons⟩
  | dispatch lighting => exact h.dispatch hs
  | write write =>
    obtain ⟨hinLambda, ht⟩ := Option.ite_none_left_eq_some.mp hs
    obtain rfl := Option.some.inj ht
    obtain ⟨happ, -, hinLambda'⟩ := writeAttribute_frame (s := s) write
    constructor
    · intro hin
      rw [hinLambda'] at hin
      exact absurd hin hinLambda
    · rw [happ]
      exact h.buttons
  | lambdaOnOff =>
    obtain ⟨-, rfl⟩ := Machine.guarded_eq_some.mp hs
    rw [writeAttribute_onOff]
    refine ⟨fun _ _ => ?_, h.buttons⟩
    exact (PWMDevice.isTurnedOn_switch s.isTurnedOn s.mPWMDevice).symm
  | lambdaCurrentLevel =>
    obtain ⟨-, rfl⟩ := Machine.guarded_eq_some.mp hs
    rw [writeAttribute_currentLevel]
    refine ⟨fun hin => ?_, h.buttons⟩
    cases hin

/-! ## Runs -/

/-- Nothing internal unsettles the clusters. -/
theorem settles_of_isInternal (hi : i.IsInternal) : s.Settles i := by
  cases i with
  | write write => exact hi.elim
  | app i | dispatch lighting | lambdaOnOff | lambdaCurrentLevel => trivial

/-- **Bulb and clusters recover.** From any state that is reached with a lambda or an event of the
lighting button pending, whatever was written before, the application and the CHIP thread come to
rest by themselves, in whatever order they work, and the clusters agree with the bulb then; and from
that state on they agree at rest exactly as long as the writes from remote settle. -/
theorem light_settles (device : P.Dev) (onOff : Bool) (currentLevel : UInt8) (success : Bool)
    (is : List LightInput) (s : LightState P)
    (hrun : (light P device onOff currentLevel success).run is = some s) (hpending : s.Pending) :
    (light P device onOff currentLevel success).ComesToRest LightInput.IsInternal
        (fun t => ¬ t.Pending ∧ t.Agrees) s.work s ∧
      ∀ js, (light P device onOff currentLevel success).Along (fun _ _ t => t.AgreesAtRest) s js ↔
        (light P device onOff currentLevel success).Along (fun s i _ => s.Settles i) s js := by
  have hlinked : s.Linked := by
    have hinv := inv_emberAfOnOffClusterInitCallback (P := P)
      (s := ⟨appTask.init, device, onOff, currentLevel, 0, false⟩) success rfl rfl
    exact Machine.invariant_run Linked (fun _ _ _ h hs => h.step hs) ⟨hinv.onOff, hinv.buttons⟩ hrun
  have hinv : s.Inv := hlinked.inv hpending
  constructor
  · refine Machine.comesToRest_of_measure Inv work ?_ ?_ hinv
    · intro u i v hu hi hs
      obtain ⟨hsettles, hkeeps⟩ := hu.step hs
      exact ⟨hkeeps (hsettles.mpr (settles_of_isInternal hi)), work_lt_of_step hi hs⟩
    · intro u hu hrest
      refine exists_internal_step (not_not.mp fun hnone => hrest ⟨hnone, hu.agrees hnone⟩)
  · intro js
    exact Machine.along_congr Inv (fun _ _ _ h hs => (h.step hs).1)
      (fun _ _ _ h hagrees hs => (h.step hs).2 hagrees) hinv

/-- A level is written while the bulb is off, and the bulb is turned on from remote, so that the
clusters disagree; the next press of the lighting button mends this. -/
theorem light_settles_pressed : ∃ s js t,
    (light pwm ⟨false, 254⟩ false 254 true).run [.lambdaOnOff, .lambdaCurrentLevel,
      .write (.currentLevel 10), .write (.onOff true), .app (.buttons 2)] = some s ∧
    (∀ i ∈ js, LightInput.IsInternal i) ∧
    (light pwm ⟨false, 254⟩ false 254 true).runFrom s js = some t ∧ t.Agrees := by
  obtain ⟨js, t, hjs, hrun, -, hagrees⟩ := (light_settles (P := pwm) ⟨false, 254⟩ false 254 true
    [.lambdaOnOff, .lambdaCurrentLevel, .write (.currentLevel 10), .write (.onOff true),
      .app (.buttons 2)] _ rfl (by decide)).1.exists_run
  exact ⟨_, js, t, rfl, hjs, hrun, hagrees⟩

end LightState

end NcsExamples.MatterLight
