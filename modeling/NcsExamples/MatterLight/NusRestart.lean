import NcsExamples.MatterLight.FunctionButton
import NcsExamples.MatterLight.Nus

/-! # Matter light bulb: restarts of the advertising of the UART service

The callbacks that find the advertiser free ask for a restart of the advertising: they post an event,
whose handler stops the advertiser and starts the service's own advertising. An event that finds the
queue full is dropped without a word, and nobody asks again. The service does nothing with the event
before it is enabled, and once it is, it stays so. -/

namespace NcsExamples.MatterLight

/-- The application makes the step by itself: a dispatch, or the end of `StartServer`. -/
def NusInput.IsInternal : NusInput → Prop
  | .dispatch _ _ _ | .startServer _ => True
  | .app _ | .onBleDisconnect _ | .chipEvent _ _ | .setBLEAdvertisingEnabled _ => False

namespace NusState

/-- A start of the advertising is to come: its event waits, or `StartServer` is about to make it. -/
def Promised (s : NusState) : Prop := Requested s.app.queue ∨ s.starting = true

/-- The steps that the application can make by itself: a dispatch of each event, which may lead to
the end of a `StartServer`. -/
def work (s : NusState) : ℕ := 2 * s.app.queue.length + if s.starting then 1 else 0

variable {s t : NusState} {i : NusInput}

theorem work_le (s : NusState) : s.work ≤ 2 * s.app.queue.length + 1 := by
  unfold work
  split <;> omega

/-- A step of its own is one that the application has left. -/
theorem work_lt_of_step (hi : i.IsInternal) (hs : nusStep s i = some t) : t.work < s.work := by
  cases i with
  | app i | onBleDisconnect num | chipEvent event num | setBLEAdvertisingEnabled enabled =>
    exact hi.elim
  | dispatch fabricCount opened rc =>
    obtain ⟨-, event, queue, hqueue, rfl⟩ := nusStep_dispatch_eq_some.mp hs
    have hleft : (dispatchEvent event { s.app with queue }).queue = queue :=
      (dispatchEvent_frame event _).1
    refine lt_of_le_of_lt (work_le _) ?_
    rw [app_handle, hleft, work, hqueue, List.length_cons]
    omega
  | startServer rc =>
    obtain ⟨hstarting, rfl⟩ := Machine.guarded_eq_some.mp hs
    have hdone : (startBLEAdvertising rc { s with starting := false }).starting = false := by
      unfold startBLEAdvertising
      split <;> rfl
    simp only [work, app_startBLEAdvertising, hdone, hstarting, Bool.false_eq_true, if_false,
      if_true]
    omega

/-- As long as a start is to come, the application can make a step by itself. -/
theorem exists_internal_step (h : s.Promised) :
    ∃ i t, NusInput.IsInternal i ∧ nusStep s i = some t := by
  cases hstarting : s.starting with
  | true => exact ⟨.startServer 0, _, trivial, if_pos hstarting⟩
  | false =>
    obtain ⟨e, he, -⟩ := h.resolve_right (by rw [hstarting]; exact Bool.false_ne_true)
    obtain ⟨event, queue, hqueue⟩ := List.exists_cons_of_ne_nil (List.ne_nil_of_mem he)
    exact ⟨.dispatch 0 false 0, _, trivial,
      nusStep_dispatch_eq_some.mpr ⟨hstarting, event, queue, hqueue, rfl⟩⟩

/-! ## Starts of the enabled service -/

/-- While the service is enabled, the handlers of other events start nothing. -/
theorem handle_frame_of_enabled (h : s.mIsEnabled = true) {event : AppEvent}
    (hother : event.handler ≠ .startNUSAdvertising) (fabricCount : ℕ) (opened : Bool) (rc : ℤ) :
    (s.handle event fabricCount opened rc).starts = s.starts ∧
      (s.handle event fabricCount opened rc).starting = s.starting ∧
      (s.handle event fabricCount opened rc).mIsEnabled = true := by
  unfold handle
  split
  · -- `StartServer` finds the service enabled
    have hno : ¬ s.mIsEnabled = false := by
      rw [h]
      exact Bool.noConfusion
    rw [startBLENUSHandler, NusState.startServer, if_neg hno, ite_self]
    exact ⟨rfl, rfl, h⟩
  · unfold startBLEAdvertisementHandler
    repeat' split
    all_goals exact ⟨rfl, rfl, h⟩
  · next hhandler => exact absurd hhandler hother
  · exact ⟨rfl, rfl, h⟩

/-- A callback that asks for a restart posts its event. -/
theorem eq_request_of_requests (hi : s.requests i = true) (hs : nusStep s i = some t) :
    t = s.requestNUSAdvertisingStart := by
  cases i with
  | onBleDisconnect num =>
    obtain rfl := Option.some.inj hs
    rw [onBleDisconnect_eq, if_pos hi]
  | chipEvent event num =>
    obtain rfl := Option.some.inj hs
    rw [chipEventHandler_eq, if_pos hi]
  | app i | dispatch fabricCount opened rc | startServer rc | setBLEAdvertisingEnabled enabled =>
    cases hi

/-- A start is to come after the post if it was before, or if there was room for the event. -/
theorem promised_request : s.requestNUSAdvertisingStart.Promised ↔
    s.app.queue.length < kAppEventQueueSize ∨ s.Promised := by
  show Requested (postEvent s.app.queue nusEvent) ∨ s.starting = true ↔ _
  unfold postEvent
  split
  · next hroom =>
    have hposted : Requested (s.app.queue ++ [nusEvent]) :=
      ⟨nusEvent, List.mem_append_right _ List.mem_cons_self, rfl⟩
    exact iff_of_true (.inl hposted) (.inl hroom)
  · next hfull => exact (or_iff_right hfull).symm

/-- What a step does while the service is enabled: a callback that posts leaves the rest alone, and
any other step makes a start that was to come, or makes none and leaves it to come. -/
theorem enabled_step (henabled : s.mIsEnabled = true) (hrequests : s.requests i = false)
    (hs : nusStep s i = some t) : t.mIsEnabled = true ∧
      (s.Promised ∧ t.starts.length = s.starts.length + 1 ∨
        t.starts.length = s.starts.length ∧ (s.Promised → t.Promised) ∧
          (i.IsInternal → t.Promised → s.Promised)) := by
  cases i with
  | app i =>
    obtain ⟨⟨hdispatch, -⟩, app, happ, rfl⟩ := nusStep_app_eq_some.mp hs
    refine ⟨henabled, .inr ⟨rfl, Or.imp_left ?_, fun hi => hi.elim⟩⟩
    rintro ⟨e, he, hhandler⟩
    exact ⟨e, subset_queue_of_step happ hdispatch he, hhandler⟩
  | dispatch fabricCount opened rc =>
    obtain ⟨hstarting, event, queue, hqueue, rfl⟩ := nusStep_dispatch_eq_some.mp hs
    have hleft : (dispatchEvent event { s.app with queue }).queue = queue :=
      (dispatchEvent_frame event _).1
    by_cases hnus : event.handler = .startNUSAdvertising
    · -- the handler makes the start
      have hrequested : Requested s.app.queue :=
        ⟨event, hqueue ▸ List.mem_cons_self, hnus⟩
      have henabled' : ({ s with app := dispatchEvent event { s.app with queue } } :
        NusState).mIsEnabled = true := henabled
      simp only [handle, hnus]
      refine ⟨?_, .inl ⟨.inl hrequested, ?_⟩⟩
      · rw [mIsEnabled_startBLEAdvertising]
        exact henabled
      · rw [starts_startBLEAdvertising henabled', List.length_append]
        rfl
    · obtain ⟨hstarts, hsame, hstill⟩ := handle_frame_of_enabled
        (s := { s with app := dispatchEvent event { s.app with queue } }) henabled hnus
        fabricCount opened rc
      refine ⟨hstill, .inr ⟨by rw [hstarts], ?_, fun _ => ?_⟩⟩
      · refine Or.imp ?_ (fun h => hsame.trans h)
        rintro ⟨e, he, hhandler⟩
        rw [app_handle, hleft]
        rw [hqueue] at he
        refine ⟨e, (List.mem_cons.mp he).resolve_left ?_, hhandler⟩
        rintro rfl
        exact hnus hhandler
      · refine Or.imp ?_ (fun h => hsame.symm.trans h)
        rintro ⟨e, he, hhandler⟩
        rw [app_handle, hleft] at he
        exact ⟨e, hqueue ▸ List.mem_cons_of_mem event he, hhandler⟩
  | startServer rc =>
    obtain ⟨hstarting, rfl⟩ := Machine.guarded_eq_some.mp hs
    have henabled' : ({ s with starting := false } : NusState).mIsEnabled = true := henabled
    refine ⟨?_, .inl ⟨.inr hstarting, ?_⟩⟩
    · rw [mIsEnabled_startBLEAdvertising]
      exact henabled
    · rw [starts_startBLEAdvertising henabled', List.length_append]
      rfl
  | onBleDisconnect num =>
    obtain rfl := Option.some.inj hs
    rw [onBleDisconnect_eq, hrequests]
    exact ⟨henabled, .inr ⟨rfl, id, fun _ => id⟩⟩
  | chipEvent event num =>
    obtain rfl := Option.some.inj hs
    rw [chipEventHandler_eq, hrequests]
    exact ⟨henabled, .inr ⟨rfl, id, fun _ => id⟩⟩
  | setBLEAdvertisingEnabled enabled =>
    obtain rfl := Option.some.inj hs
    exact ⟨henabled, .inr ⟨rfl, id, fun _ => id⟩⟩

/-- The application alone asks for nothing. -/
theorem requests_of_isInternal (hi : i.IsInternal) : s.requests i = false := by
  cases i with
  | app i | onBleDisconnect num | chipEvent event num | setBLEAdvertisingEnabled enabled =>
    exact hi.elim
  | dispatch fabricCount opened rc | startServer rc => rfl

end NusState

/-! ## Restarts that are asked for -/

/-- The application with the service, and whether a restart is asked for. -/
structure NusWatched where
  nus : NusState
  /-- History: a callback has asked the enabled service for a restart, and since then
  `StartBLEAdvertising` has not stopped the advertiser and started its own. -/
  asked : Bool

/-- The application with the service from `Init` on. -/
def nusWatched : Machine NusWatched NusInput where
  init := ⟨nusTask.init, false⟩
  step w i := (nusStep w.nus i).map fun nus =>
    ⟨nus, (w.nus.requests i && w.nus.mIsEnabled) ||
      (w.asked && nus.starts.length == w.nus.starts.length)⟩

namespace NusWatched

open NusState (Requested)

/-- A callback that asks the enabled service for a restart finds room in the queue, another such
event in it, or `StartServer` about to start the advertising. -/
def Room (w : NusWatched) (i : NusInput) : Prop :=
  w.nus.requests i = true → w.nus.mIsEnabled = true →
    w.nus.app.queue.length < kAppEventQueueSize ∨ Requested w.nus.app.queue ∨ w.nus.starting = true

instance (w : NusWatched) (i : NusInput) : Decidable (w.Room i) :=
  inferInstanceAs (Decidable (_ → _ → _))

/-- A restart that is asked for is to come. -/
def Kept (w : NusWatched) : Prop := w.asked = true → w.nus.Promised

/-- Only the enabled service is asked for a restart. -/
def AsksEnabled (w : NusWatched) : Prop := w.asked = true → w.nus.mIsEnabled = true

variable {w v : NusWatched} {i : NusInput}

/-- A step is one of the application with the service, and the history goes on with it. -/
theorem step_eq_some : nusWatched.step w i = some v ↔ nusStep w.nus i = some v.nus ∧
    ((w.nus.requests i && w.nus.mIsEnabled) ||
      (w.asked && v.nus.starts.length == w.nus.starts.length)) = v.asked := by
  rw [nusWatched, Option.map_eq_some_iff]
  constructor
  · rintro ⟨nus, hnus, rfl⟩
    exact ⟨hnus, rfl⟩
  · rintro ⟨hnus, hasked⟩
    refine ⟨v.nus, hnus, ?_⟩
    rw [hasked]

/-- What is asked for after a step was so before it, and the step has made no start, if the step does
not ask the enabled service for it. -/
theorem asked_of_step (hs : nusWatched.step w i = some v) (hasked : v.asked = true)
    (hno : (w.nus.requests i && w.nus.mIsEnabled) = false) :
    w.asked = true ∧ v.nus.starts.length = w.nus.starts.length := by
  obtain ⟨-, hhistory⟩ := step_eq_some.mp hs
  rw [hno, hasked, Bool.false_or, Bool.and_eq_true, beq_iff_eq] at hhistory
  exact hhistory

/-- A service that has been asked for a restart stays enabled. -/
theorem asksEnabled_step (h : w.AsksEnabled) (hs : nusWatched.step w i = some v) :
    v.AsksEnabled := by
  obtain ⟨hnus, -⟩ := step_eq_some.mp hs
  intro hasked
  cases hrequests : w.nus.requests i with
  | true =>
    -- the callback posts its event, and nothing else
    have hsame : v.nus.mIsEnabled = w.nus.mIsEnabled := by
      rw [NusState.eq_request_of_requests hrequests hnus]
      rfl
    cases henabled : w.nus.mIsEnabled with
    | true => rw [hsame, henabled]
    | false =>
      have hno : (w.nus.requests i && w.nus.mIsEnabled) = false := by rw [henabled, Bool.and_false]
      rw [hsame]
      exact h (asked_of_step hs hasked hno).1
  | false =>
    have hno : (w.nus.requests i && w.nus.mIsEnabled) = false := by rw [hrequests, Bool.false_and]
    exact (NusState.enabled_step (h (asked_of_step hs hasked hno).1) hrequests hnus).1

/-- A step keeps a restart to come exactly if a callback that asks for one has room. -/
theorem kept_step_iff (hw : w.AsksEnabled) (h : w.Kept) (hs : nusWatched.step w i = some v) :
    v.Kept ↔ w.Room i := by
  obtain ⟨hnus, hhistory⟩ := step_eq_some.mp hs
  by_cases hasks : w.nus.requests i = true ∧ w.nus.mIsEnabled = true
  · obtain ⟨hrequests, henabled⟩ := hasks
    have hasked : v.asked = true := by
      rw [← hhistory, hrequests, henabled]
      rfl
    have hposted := NusState.eq_request_of_requests hrequests hnus
    simp only [Kept, Room, hrequests, henabled, hasked, hposted, forall_const]
    exact NusState.promised_request
  · -- nothing is asked for, so what was to come still is
    have hno : (w.nus.requests i && w.nus.mIsEnabled) = false := by
      rwa [← Bool.not_eq_true, Bool.and_eq_true]
    refine iff_of_true (fun hasked => ?_) fun hrequests henabled =>
      absurd ⟨hrequests, henabled⟩ hasks
    obtain ⟨hbefore, hsame⟩ := asked_of_step hs hasked hno
    have hrequests : w.nus.requests i = false := by
      rw [← Bool.not_eq_true]
      exact fun hrequests => hasks ⟨hrequests, hw hbefore⟩
    obtain ⟨-, ⟨-, hstart⟩ | ⟨-, hkeeps, -⟩⟩ := NusState.enabled_step (hw hbefore) hrequests hnus
    · omega
    · exact hkeeps (h hbefore)

/-- A restart that is not to come is not made: what is asked for stays asked for. -/
theorem lost_step (h : w.AsksEnabled ∧ w.asked = true ∧ ¬ w.nus.Promised) (hi : i.IsInternal)
    (hs : nusWatched.step w i = some v) :
    v.AsksEnabled ∧ v.asked = true ∧ ¬ v.nus.Promised := by
  obtain ⟨hw, hasked, hlost⟩ := h
  obtain ⟨hnus, hhistory⟩ := step_eq_some.mp hs
  have hrequests : w.nus.requests i = false := NusState.requests_of_isInternal hi
  obtain ⟨-, ⟨hpromised, -⟩ | ⟨hstarts, -, hback⟩⟩ :=
    NusState.enabled_step (hw hasked) hrequests hnus
  · exact absurd hpromised hlost
  · refine ⟨asksEnabled_step hw hs, ?_, mt (hback hi) hlost⟩
    rw [← hhistory, hasked, hstarts, beq_self_eq_true, Bool.true_and, Bool.or_true]

/-- A restart that is asked for comes to be made exactly if it is to come. -/
theorem comesToRest_iff_kept (hw : w.AsksEnabled) :
    nusWatched.ComesToRest NusInput.IsInternal (fun v => v.asked = false) w.nus.work w ↔ w.Kept := by
  constructor
  · intro hrest hasked
    by_contra hlost
    obtain ⟨is, v, his, hrun, hdone⟩ := hrest.exists_run
    have hstill := Machine.invariant_inputs
      (fun w : NusWatched => w.AsksEnabled ∧ w.asked = true ∧ ¬ w.nus.Promised)
      (fun _ _ _ h hi hs => lost_step h hi hs) his ⟨hw, hasked, hlost⟩ hrun
    rw [hdone] at hstill
    cases hstill.2.1
  · intro hkept
    refine Machine.comesToRest_of_measure (fun w : NusWatched => w.AsksEnabled ∧ w.Kept)
      (fun w => w.nus.work) ?_ ?_ ⟨hw, hkept⟩
    · rintro u i v ⟨hu, hkept⟩ hi hs
      have hroom : u.Room i := fun hrequests => by
        rw [NusState.requests_of_isInternal hi] at hrequests
        cases hrequests
      refine ⟨⟨asksEnabled_step hu hs, (kept_step_iff hu hkept hs).mpr hroom⟩, ?_⟩
      exact NusState.work_lt_of_step hi (step_eq_some.mp hs).1
    · rintro u ⟨-, hkept⟩ hasked
      obtain ⟨i, t, hi, ht⟩ := NusState.exists_internal_step (hkept (eq_true_of_ne_false hasked))
      exact ⟨i, _, hi, Option.map_eq_some_iff.mpr ⟨t, ht, rfl⟩⟩

/-- **No restart is forgotten.** In all states of a run, if the callbacks have asked the enabled
service for a restart, the application alone will come to stop the advertiser and start the
advertising of the service, in whatever order it works, exactly if every callback that asks for one
finds room in the queue, an event for a restart in it, or `StartServer` about to start the
advertising. -/
theorem nusRestart_made_iff (is : List NusInput) :
    nusWatched.Along (fun _ _ w => nusWatched.ComesToRest NusInput.IsInternal
        (fun v => v.asked = false) w.nus.work w) nusWatched.init is ↔
      nusWatched.Meets Room is := by
  have hinit : nusWatched.init.AsksEnabled ∧ nusWatched.init.Kept :=
    ⟨fun hasked => Bool.noConfusion hasked, fun hasked => Bool.noConfusion hasked⟩
  refine Machine.along_congr (fun w => w.AsksEnabled ∧ w.Kept) ?_ ?_ hinit
  · rintro w i v ⟨hw, hkept⟩ hs
    rw [comesToRest_iff_kept (asksEnabled_step hw hs)]
    exact kept_step_iff hw hkept hs
  · rintro w i v ⟨hw, -⟩ hrest hs
    have hv := asksEnabled_step hw hs
    exact ⟨hv, (comesToRest_iff_kept hv).mp hrest⟩

/-- A client disconnects from the enabled service while ten events wait. -/
example : ¬ nusWatched.Meets Room
    ([.app (.buttons 2), .dispatch 0 false 0, .dispatch 0 false 0, .startServer 0] ++
      (List.replicate 10 (.app (.post .updateLedState)) ++ [.onBleDisconnect 0])) := by
  decide

end NusWatched

end NcsExamples.MatterLight
