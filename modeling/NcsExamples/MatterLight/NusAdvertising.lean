import NcsExamples.MatterLight.FunctionButton
import NcsExamples.MatterLight.Nus

/-! # Matter light bulb: whom the advertising of the UART service displaces

The check that CHIPoBLE advertising is not enabled is made when the start is asked for, and the start
comes later. In between the advertising may become enabled; and one of the callbacks asks for the
start without the check. While neither happens, the service never stops CHIPoBLE advertising. -/

namespace NcsExamples.MatterLight.NusState

/-- `StartBLEAdvertising` has never stopped CHIPoBLE advertising. -/
def NeverDisplaced (s : NusState) : Prop := ∀ b ∈ s.starts, b = false

/-- A start of the service is under way or asked for. -/
def Due (s : NusState) : Prop :=
  s.starting = true ∨ s.mIsEnabled = true ∧ Requested s.app.queue

/-- The handler of the event enables CHIPoBLE advertising while the service is enabled, or the
service while CHIPoBLE advertising is. -/
def Collides (s : NusState) (event : AppEvent) (fabricCount : ℕ) (opened : Bool) : Prop :=
  event.handler = .startBLEAdvertisement ∧ fabricCount = 0 ∧ opened = true ∧
      s.isBLEAdvertisingEnabled = false ∧ s.mIsEnabled = true ∨
    event.handler = .startBLENUS ∧ event.pinNo = bleNusButton ∧ s.mIsEnabled = false ∧
      s.isBLEAdvertisingEnabled = true

/-- CHIPoBLE advertising and the service do not come to be enabled both while a start is due, and the
end of CHIPoBLE advertising is not told, without a connection and with room in the queue, while it is
enabled. -/
def Considerate (s : NusState) : NusInput → Prop
  | .setBLEAdvertisingEnabled enabled => enabled = true → ¬ s.Due
  | .dispatch fabricCount opened _ => ∀ event ∈ s.app.queue.head?,
      Requested s.app.queue.tail → ¬ s.Collides event fabricCount opened
  | .chipEvent (.advertisingChange stopped) num =>
      s.mIsEnabled = true → stopped = true → num = 0 → s.app.queue.length < kAppEventQueueSize →
        s.isBLEAdvertisingEnabled = false
  | _ => True

instance (s : NusState) : Decidable s.Due := inferInstanceAs (Decidable (_ ∨ _ ∧ _))

instance (s : NusState) (event : AppEvent) (fabricCount : ℕ) (opened : Bool) :
    Decidable (s.Collides event fabricCount opened) :=
  inferInstanceAs (Decidable (_ ∨ _))

instance (s : NusState) : (i : NusInput) → Decidable (s.Considerate i)
  | .setBLEAdvertisingEnabled _ => inferInstanceAs (Decidable (_ → _))
  | .dispatch _ _ _ => inferInstanceAs (Decidable (∀ event ∈ s.app.queue.head?, _ → _))
  | .chipEvent (.advertisingChange _) _ => inferInstanceAs (Decidable (_ → _ → _ → _ → _))
  | .chipEvent .connectionClosed _ | .chipEvent .other _ | .app _ | .startServer _
  | .onBleDisconnect _ => inferInstanceAs (Decidable True)

/-- While CHIPoBLE advertising is enabled no start of the service is due. -/
structure Inv (s : NusState) : Prop where
  enabled : s.mIsAdvertisingEnabled = true → s.mIsEnabled = true
  startingEnabled : s.starting = true → s.mIsEnabled = true
  free : s.isBLEAdvertisingEnabled = true → ¬ s.Due
  neverDisplaced : s.NeverDisplaced

variable {s t : NusState}

/-- A step of the application other than a dispatch asks for no start. -/
theorem requested_app {app app' : State} {i : Input} (hstep : step app i = some app')
    (hdispatch : i ≠ .dispatch) (hpost : i ≠ .post .startNUSAdvertising)
    (h : Requested app'.queue) : Requested app.queue := by
  obtain ⟨e, he, hhandler⟩ := h
  rcases mem_queue_of_step hstep hdispatch he with he | ⟨_, _, he⟩ | rfl | ⟨handler, rfl, he⟩
  · exact ⟨e, he, hhandler⟩
  · have hbuttons := (mem_buttonEventHandler he).2
    simp [hhandler] at hbuttons
  · cases hhandler
  · rw [(handler_of_otherEvent he).1] at hhandler
    exact absurd (by rw [hhandler]) hpost

/-! ## Steps -/

theorem Due.of_app {app : State} (h : Due { s with app })
    (hqueue : Requested app.queue → Requested s.app.queue) : s.Due :=
  h.imp_right fun ⟨henabled, hrequested⟩ => ⟨henabled, hqueue hrequested⟩

/-- The event loop alone keeps the invariant, if it asks for no start. -/
theorem Inv.of_app (hs : s.Inv) {app : State}
    (hqueue : Requested app.queue → Requested s.app.queue) : Inv { s with app } where
  enabled := hs.enabled
  startingEnabled := hs.startingEnabled
  free hadv hdue := hs.free hadv (hdue.of_app hqueue)
  neverDisplaced := hs.neverDisplaced

/-- While CHIPoBLE advertising is not enabled, the invariant only looks at the history. -/
theorem Inv.of_not_advertising (henabled : s.mIsAdvertisingEnabled = true → s.mIsEnabled = true)
    (hstarting : s.starting = true → s.mIsEnabled = true)
    (hadv : s.isBLEAdvertisingEnabled = false) (hdisplaced : s.NeverDisplaced) : s.Inv where
  enabled := henabled
  startingEnabled := hstarting
  free h := by rw [hadv] at h; cases h
  neverDisplaced := hdisplaced

/-- A start displaces nothing, if CHIPoBLE advertising is not enabled while the service is. -/
theorem Inv.startBLEAdvertising (hs : s.Inv)
    (hadv : s.mIsEnabled = true → s.isBLEAdvertisingEnabled = false) (rc : ℤ) :
    (s.startBLEAdvertising rc).Inv := by
  unfold NusState.startBLEAdvertising
  split
  · exact hs
  · next hlive =>
    have henabled : s.mIsEnabled = true := by
      by_contra h
      refine hlive ⟨Bool.eq_false_iff.mpr h, Bool.eq_false_iff.mpr fun hadvertising => ?_⟩
      exact h (hs.enabled hadvertising)
    have hfree := hadv henabled
    apply Inv.of_not_advertising
    · intro _
      exact henabled
    · exact hs.startingEnabled
    · exact hfree
    · intro b hb
      rcases List.mem_append.mp hb with hb | hb
      · exact hs.neverDisplaced b hb
      · rw [List.mem_singleton.mp hb, hfree]

/-- The service is enabled, and no start is asked for if CHIPoBLE advertising is enabled. -/
theorem Inv.startServer (hs : s.Inv) (hok : s.mIsEnabled = false →
    s.isBLEAdvertisingEnabled = true → ¬ Requested s.app.queue) : s.startServer.Inv := by
  unfold NusState.startServer
  split
  · next henabled =>
    refine ⟨fun _ => rfl, fun _ => rfl, fun hadv hdue => ?_, hs.neverDisplaced⟩
    have hadv' : s.isBLEAdvertisingEnabled = true := hadv
    rcases hdue with hstart | ⟨-, hrequested⟩
    · -- the check has seen CHIPoBLE advertising
      have hcheck : (!s.isBLEAdvertisingEnabled) = true := hstart
      rw [hadv'] at hcheck
      cases hcheck
    · exact hok henabled hadv' hrequested
  · exact hs

/-- A commissioning window is opened while no start is due. -/
theorem Inv.startBLEAdvertisementHandler (hs : s.Inv) {fabricCount : ℕ} {opened : Bool}
    (hok : fabricCount = 0 → opened = true → s.isBLEAdvertisingEnabled = false → ¬ s.Due) :
    (s.startBLEAdvertisementHandler fabricCount opened).Inv := by
  unfold NusState.startBLEAdvertisementHandler
  split
  · exact hs
  · next hfabric =>
    split
    · exact hs
    · next hadv =>
      split
      · next hopened =>
        refine ⟨hs.enabled, hs.startingEnabled, fun _ => ?_, hs.neverDisplaced⟩
        exact hok (not_not.mp hfabric) hopened (Bool.eq_false_iff.mpr hadv)
      · exact hs

/-- A callback asks for a start while CHIPoBLE advertising is not enabled, or to no effect. -/
theorem Inv.request (hs : s.Inv)
    (hadv : s.app.queue.length < kAppEventQueueSize → s.isBLEAdvertisingEnabled = false) :
    s.requestNUSAdvertisingStart.Inv := by
  by_cases hroom : s.app.queue.length < kAppEventQueueSize
  · exact Inv.of_not_advertising hs.enabled hs.startingEnabled (hadv hroom) hs.neverDisplaced
  · apply hs.of_app
    intro h
    simp only [postEvent, if_neg hroom] at h
    exact h

/-- The handler of an event keeps the invariant; `queue` is what is left of the queue. -/
theorem Inv.handle (hs : s.Inv) {event : AppEvent} {queue : List AppEvent}
    (hqueue : s.app.queue = event :: queue) (hstarting : s.starting = false) {fabricCount : ℕ}
    {opened : Bool} {rc : ℤ} (hok : s.Considerate (.dispatch fabricCount opened rc)) {app : State}
    (happ : app.queue = queue) :
    (NusState.handle event fabricCount opened rc { s with app }).Inv := by
  have hrest : Requested app.queue → Requested s.app.queue := by
    rintro ⟨e, he, hhandler⟩
    rw [happ] at he
    exact ⟨e, by rw [hqueue]; exact List.mem_cons_of_mem event he, hhandler⟩
  have hkept : Inv { s with app } := hs.of_app hrest
  have hok' : Requested queue → ¬ s.Collides event fabricCount opened := by
    have hhead := hok event (by rw [hqueue]; rfl)
    rwa [hqueue] at hhead
  unfold NusState.handle
  cases hhandler : event.handler with
  | startBLENUS =>
    show (startBLENUSHandler event { s with app }).Inv
    unfold startBLENUSHandler
    split
    · exact hkept
    · next hpin =>
      apply hkept.startServer
      intro henabled hadv hrequested
      exact hok' (happ ▸ hrequested) (Or.inr ⟨hhandler, not_not.mp hpin, henabled, hadv⟩)
  | startBLEAdvertisement =>
    apply hkept.startBLEAdvertisementHandler
    intro hfabric hopened hadv hdue
    rcases hdue with hstart | ⟨henabled, hrequested⟩
    · have hstart' : s.starting = true := hstart
      rw [hstarting] at hstart'
      cases hstart'
    · exact hok' (happ ▸ hrequested) (Or.inl ⟨hhandler, hfabric, hopened, hadv, henabled⟩)
  | startNUSAdvertising =>
    have hrequested : Requested s.app.queue :=
      ⟨event, by rw [hqueue]; exact List.mem_cons_self, hhandler⟩
    refine hkept.startBLEAdvertising (fun henabled => ?_) rc
    exact Bool.eq_false_iff.mpr fun hadv => hs.free hadv (Or.inr ⟨henabled, hrequested⟩)
  | _ => exact hkept

/-- A considerate step keeps the invariant. -/
theorem Inv.step (hs : s.Inv) {i : NusInput} (hok : s.Considerate i)
    (hstep : nusStep s i = some t) : t.Inv := by
  cases i with
  | app i =>
    obtain ⟨⟨hdispatch, hpost⟩, app, happ, rfl⟩ := nusStep_app_eq_some.mp hstep
    exact hs.of_app (requested_app happ hdispatch hpost)
  | dispatch fabricCount opened rc =>
    obtain ⟨hstarting, event, queue, hqueue, rfl⟩ := nusStep_dispatch_eq_some.mp hstep
    exact hs.handle hqueue hstarting hok (dispatchEvent_frame event _).1
  | startServer rc =>
    obtain ⟨hstarting, rfl⟩ := Machine.guarded_eq_some.mp hstep
    have hadv : s.isBLEAdvertisingEnabled = false :=
      Bool.eq_false_iff.mpr fun hadv => hs.free hadv (Or.inl hstarting)
    have hidle : Inv { s with starting := false } :=
      Inv.of_not_advertising hs.enabled (fun h => by cases h) hadv hs.neverDisplaced
    exact hidle.startBLEAdvertising (fun _ => hadv) rc
  | onBleDisconnect num =>
    obtain rfl := Option.some.inj hstep
    unfold onBleDisconnect
    split
    · next h => exact hs.request fun _ => h.1
    · exact hs
  | chipEvent event num =>
    obtain rfl := Option.some.inj hstep
    unfold chipEventHandler
    split
    · exact hs
    · next henabled =>
      cases event with
      | advertisingChange stopped =>
        dsimp only
        split
        · next h => exact hs.request (hok (Bool.of_not_eq_false henabled) h.1 h.2)
        · exact hs
      | connectionClosed =>
        dsimp only
        split
        · next hadv => exact hs.request fun _ => hadv
        · exact hs
      | other => exact hs
  | setBLEAdvertisingEnabled enabled =>
    obtain rfl := Option.some.inj hstep
    exact ⟨hs.enabled, hs.startingEnabled, fun hadv => hok hadv, hs.neverDisplaced⟩

/-! ## Runs -/

/-- **The service displaces nobody.** In a run of considerate steps `StartBLEAdvertising` never stops
the advertiser while CHIPoBLE advertising is enabled. -/
theorem nus_neverDisplaced (is : List NusInput) (hok : nusTask.Meets Considerate is) (s : NusState)
    (hrun : nusTask.run is = some s) : s.NeverDisplaced := by
  have hinit : nusTask.init.Inv := by
    apply Inv.of_not_advertising
    · intro h
      cases h
    · intro h
      cases h
    · rfl
    · intro b hb
      cases hb
  have hinv : s.Inv := Machine.invariant Inv hinit (fun _ _ _ hs hok hstep => hs.step hok hstep)
    hok hrun
  exact hinv.neverDisplaced

/-- The service is enabled by the button and starts, and a disconnect has it start again. -/
def enabledAndDisconnected : List NusInput :=
  [.app (.buttons 2), .dispatch 0 true 0, .dispatch 0 true 0, .startServer 0, .onBleDisconnect 0]

/-- The second start comes before a commissioning window is opened. -/
theorem nus_neverDisplaced_disconnect : ∃ s,
    nusTask.run (enabledAndDisconnected ++ [.dispatch 0 true 0, .app (.buttons 10),
      .dispatch 0 true 0]) = some s ∧ s.isBLEAdvertisingEnabled = true ∧ s.NeverDisplaced :=
  ⟨_, rfl, rfl, nus_neverDisplaced (enabledAndDisconnected ++ [.dispatch 0 true 0,
    .app (.buttons 10), .dispatch 0 true 0]) (by decide) _ rfl⟩

/-- The second start comes after CHIPoBLE advertising was enabled. -/
theorem nus_displaced : ¬ ∀ (is : List NusInput) (s : NusState),
    nusTask.run is = some s → s.NeverDisplaced := by
  intro h
  have hdisplaced := h (enabledAndDisconnected ++ [.setBLEAdvertisingEnabled true,
    .dispatch 0 true 0]) _ rfl true
  exact absurd (hdisplaced (by decide)) (by decide)

/-! ## Inconsiderate steps -/

/-- The service and CHIPoBLE advertising are both enabled, and a start is due. -/
structure Exposed (s : NusState) : Prop where
  advertising : s.isBLEAdvertisingEnabled = true
  enabled : s.mIsEnabled = true
  due : s.Due

/-- A step that is not considerate leaves a start due that displaces CHIPoBLE advertising. -/
theorem Inv.exposed (hs : s.Inv) {i : NusInput} (hok : ¬ s.Considerate i)
    (hstep : nusStep s i = some t) : t.Exposed := by
  cases i with
  | setBLEAdvertisingEnabled enabled =>
    obtain rfl := Option.some.inj hstep
    obtain ⟨henabled, hdue⟩ := Classical.not_imp.mp hok
    rw [not_not] at hdue
    refine ⟨henabled, ?_, hdue⟩
    rcases hdue with hstart | ⟨h, -⟩
    · exact hs.startingEnabled hstart
    · exact h
  | dispatch fabricCount opened rc =>
    obtain ⟨hstarting, event, queue, hqueue, rfl⟩ := nusStep_dispatch_eq_some.mp hstep
    simp only [Considerate, hqueue, List.head?_cons, Option.mem_some_iff, forall_eq',
      List.tail_cons, Classical.not_imp, not_not] at hok
    obtain ⟨hrequested, hcollides⟩ := hok
    have hleft : Requested (dispatchEvent event { s.app with queue }).queue := by
      rw [(dispatchEvent_frame event _).1]
      exact hrequested
    unfold NusState.handle
    rcases hcollides with ⟨hhandler, hfabric, hopened, hadv, henabled⟩ |
      ⟨hhandler, hpin, henabled, hadv⟩
    · rw [hhandler]
      show (NusState.startBLEAdvertisementHandler _ _ _).Exposed
      unfold NusState.startBLEAdvertisementHandler
      rw [if_neg (not_not.mpr hfabric), if_neg (Bool.eq_false_iff.mp hadv), if_pos hopened]
      exact ⟨rfl, henabled, Or.inr ⟨henabled, hleft⟩⟩
    · rw [hhandler]
      show (startBLENUSHandler _ _).Exposed
      unfold startBLENUSHandler NusState.startServer
      rw [if_neg (not_not.mpr hpin), if_pos henabled]
      exact ⟨hadv, rfl, Or.inr ⟨rfl, hleft⟩⟩
  | chipEvent event num =>
    cases event with
    | advertisingChange stopped =>
      obtain rfl := Option.some.inj hstep
      simp only [Considerate, Classical.not_imp] at hok
      obtain ⟨henabled, hstopped, hnum, hroom, hadv⟩ := hok
      unfold chipEventHandler
      rw [if_neg (by rw [henabled]; decide)]
      dsimp only
      rw [if_pos ⟨hstopped, hnum⟩]
      refine ⟨Bool.of_not_eq_false hadv, henabled, Or.inr ⟨henabled, nusEvent, ?_, rfl⟩⟩
      show nusEvent ∈ postEvent s.app.queue nusEvent
      rw [postEvent, if_pos hroom]
      exact List.mem_append_right _ List.mem_cons_self
    | connectionClosed => exact absurd trivial hok
    | other => exact absurd trivial hok
  | app i => exact absurd trivial hok
  | startServer rc => exact absurd trivial hok
  | onBleDisconnect num => exact absurd trivial hok

/-- Without a new window, only the service's own event changes anything while it is enabled. -/
theorem handle_of_enabled (henabled : s.mIsEnabled = true) {event : AppEvent}
    (hevent : event.handler ≠ .startNUSAdvertising) (rc : ℤ) :
    s.handle event 1 false rc = s := by
  unfold NusState.handle
  cases hhandler : event.handler with
  | startBLENUS =>
    show s.startBLENUSHandler event = s
    have hserver : s.startServer = s := if_neg (by rw [henabled]; decide)
    unfold startBLENUSHandler
    rw [hserver, ite_self]
  | startNUSAdvertising => exact absurd hhandler hevent
  | _ => rfl

theorem not_neverDisplaced_startBLEAdvertising (hadv : s.isBLEAdvertisingEnabled = true)
    (henabled : s.mIsEnabled = true) (rc : ℤ) : ¬ (s.startBLEAdvertising rc).NeverDisplaced := by
  intro h
  have hmem : true ∈ (s.startBLEAdvertising rc).starts := by
    rw [starts_startBLEAdvertising henabled, hadv]
    exact List.mem_append_right _ List.mem_cons_self
  exact absurd (h true hmem) (by decide)

/-- The dispatches get to an event that is queued. -/
theorem exists_displaced_of_requested (hadv : s.isBLEAdvertisingEnabled = true)
    (henabled : s.mIsEnabled = true) (hstarting : s.starting = false) {queue : List AppEvent}
    (hqueue : s.app.queue = queue) (h : Requested queue) :
    ∃ (js : List NusInput) (t : NusState), nusTask.runFrom s js = some t ∧ ¬ t.NeverDisplaced := by
  induction queue generalizing s with
  | nil =>
    obtain ⟨e, he, -⟩ := h
    cases he
  | cons event queue ih =>
    have hdispatch : nusTask.step s (.dispatch 1 false 0) = some (handle event 1 false 0
        { s with app := dispatchEvent event { s.app with queue } }) :=
      nusStep_dispatch_eq_some.mpr ⟨hstarting, event, queue, hqueue, rfl⟩
    by_cases hevent : event.handler = .startNUSAdvertising
    · refine ⟨[.dispatch 1 false 0], _,
        nusTask.runFrom_cons_eq_some.mpr ⟨_, hdispatch, rfl⟩, ?_⟩
      have hhandle (u : NusState) : u.handle event 1 false 0 = u.startBLEAdvertising 0 := by
        unfold NusState.handle
        rw [hevent]
      rw [hhandle]
      apply not_neverDisplaced_startBLEAdvertising
      · exact hadv
      · exact henabled
    · -- another event comes first, and leaves the rest of the queue
      have hlater : Requested queue := by
        obtain ⟨e, he, hhandler⟩ := h
        rcases List.mem_cons.mp he with rfl | he
        · exact absurd hhandler hevent
        · exact ⟨e, he, hhandler⟩
      rw [handle_of_enabled (by exact henabled) hevent] at hdispatch
      have hrest := ih (s := { s with app := dispatchEvent event { s.app with queue := queue } })
        hadv henabled hstarting (dispatchEvent_frame event _).1 hlater
      obtain ⟨js, t, hrun, ht⟩ := hrest
      exact ⟨.dispatch 1 false 0 :: js, t,
        nusTask.runFrom_cons_eq_some.mpr ⟨_, hdispatch, hrun⟩, ht⟩

/-- The application alone gets to the start that is due. -/
theorem Exposed.exists_displaced (hs : s.Exposed) :
    ∃ (js : List NusInput) (t : NusState), nusTask.runFrom s js = some t ∧ ¬ t.NeverDisplaced := by
  cases hstarting : s.starting with
  | true =>
    have hstep : nusTask.step s (.startServer 0) =
        some (NusState.startBLEAdvertising 0 { s with starting := false }) := if_pos hstarting
    refine ⟨[.startServer 0], _, nusTask.runFrom_cons_eq_some.mpr ⟨_, hstep, rfl⟩, ?_⟩
    apply not_neverDisplaced_startBLEAdvertising
    · exact hs.advertising
    · exact hs.enabled
  | false =>
    rcases hs.due with hstart | ⟨-, hrequested⟩
    · rw [hstarting] at hstart
      cases hstart
    · exact exists_displaced_of_requested hs.advertising hs.enabled hstarting rfl hrequested

end NcsExamples.MatterLight.NusState
