import NcsExamples.MatterLight.FunctionButton

/-! # Matter light bulb: a factory reset needs a full hold

The function button has to be held through two timeouts for a factory reset. The application sees a
release when its event is dispatched, and takes it as a cancellation only while the timer is active.
So the rule rests on two things: the timer does not expire while a release waits in the queue, and
no release that ends the hold is dropped. -/

namespace NcsExamples.MatterLight

/-! ## The property -/

/-- The button was pressed and not released since. -/
def HeldPress (trace : List Obs) : Prop :=
  ∃ a b, trace = a ++ .pressed :: b ∧ .released ∉ b

/-- The button was pressed before the trigger timer was last started, and not released since. -/
def HeldTrigger (trace : List Obs) : Prop :=
  ∃ a b c, trace = a ++ .pressed :: b ++ .triggerStarted :: c ∧ .released ∉ b ++ c ∧
    .triggerStarted ∉ c

/-- The button was held when the cancel window was last opened, and nothing has happened since. -/
def HeldWindow (trace : List Obs) : Prop :=
  ∃ before, trace = before ++ [.windowStarted] ∧ HeldTrigger before

/-- The button was pressed before the trigger timer was last started, and not released until the
timer of the last cancel window expired. -/
def HeldThrough (trace : List Obs) : Prop :=
  ∃ before after, trace = before ++ .windowStarted :: .expired :: after ∧ HeldTrigger before ∧
    .triggerStarted ∉ after ∧ .windowStarted ∉ after

/-- Every factory reset follows a full hold. -/
def ResetsHeld (trace : List Obs) : Prop :=
  ∀ before after, trace = before ++ .factoryReset :: after → HeldThrough before

/-! ## The condition -/

/-- The last event that the application has of the function button is a release: in the queue, or,
when there is none, dispatched before. -/
def FnState.EndsReleased (f : FnState) : Prop :=
  match f.events.getLast? with
  | some .released => True
  | some _ => False
  | none => f.task.sFunctionTimer = false

/-- A release arrives in time: it is not dropped, unless it would follow a release, and the timer
does not post its event while one is in the queue. -/
def FnOk (f : FnState) : FnInput → Prop
  | .change kept => f.down = true → kept = true ∨ f.EndsReleased
  | .expiry kept => kept = true → .released ∉ f.events
  | _ => True

/-- What is required of a step of the application. -/
def ReleaseInTime (s : State) (i : Input) : Prop := ∀ j ∈ fnLabel s i, FnOk s.fnView j

instance (f : FnState) : Decidable f.EndsReleased := by
  unfold FnState.EndsReleased
  split <;> infer_instance

instance (f : FnState) : DecidablePred (FnOk f)
  | .change kept => inferInstanceAs (Decidable (f.down = true → kept = true ∨ f.EndsReleased))
  | .expiry _ => inferInstanceAs (Decidable (_ → _))
  | .serve | .clear => isTrue trivial

instance (s : State) (i : Input) : Decidable (ReleaseInTime s i) :=
  inferInstanceAs (Decidable (∀ j ∈ fnLabel s i, FnOk s.fnView j))

/-! ## Observations one by one -/

variable {trace : List Obs} {o : Obs}

theorem HeldPress.log (h : HeldPress trace) (ho : o ≠ .released) : HeldPress (trace ++ [o]) := by
  obtain ⟨a, b, rfl, hb⟩ := h
  exact ⟨a, b ++ [o], by simp, by simp [hb, ho.symm]⟩

theorem HeldTrigger.log (h : HeldTrigger trace) (ho : o ≠ .released) (ho' : o ≠ .triggerStarted) :
    HeldTrigger (trace ++ [o]) := by
  obtain ⟨a, b, c, rfl, hbc, hc⟩ := h
  refine ⟨a, b, c ++ [o], by simp, ?_, by simp [hc, ho'.symm]⟩
  rw [← List.append_assoc, List.mem_append, List.mem_singleton, not_or]
  exact ⟨hbc, ho.symm⟩

theorem HeldThrough.log (h : HeldThrough trace) (ho : o ≠ .triggerStarted)
    (ho' : o ≠ .windowStarted) : HeldThrough (trace ++ [o]) := by
  obtain ⟨before, after, rfl, hheld, htrigger, hwindow⟩ := h
  exact ⟨before, after ++ [o], by simp, hheld,
    by simp [htrigger, ho.symm], by simp [hwindow, ho'.symm]⟩

/-- The trigger timer is started while the button is held. -/
theorem HeldPress.triggerStarted (h : HeldPress trace) :
    HeldTrigger (trace ++ [.triggerStarted]) := by
  obtain ⟨a, b, rfl, hb⟩ := h
  exact ⟨a, b, [], rfl, by simpa using hb, by simp⟩

/-- The timer of the cancel window expires while the button is held. -/
theorem HeldWindow.expired (h : HeldWindow trace) : HeldThrough (trace ++ [.expired]) := by
  obtain ⟨before, rfl, hheld⟩ := h
  exact ⟨before, [], by simp, hheld, by simp, by simp⟩

/-- Every reset in a longer trace follows a full hold if those before do and the last one does. -/
theorem ResetsHeld.log (h : ResetsHeld trace) (ho : o = .factoryReset → HeldThrough trace) :
    ResetsHeld (trace ++ [o]) := by
  intro before after heq
  -- the reset is the new observation, or one of the trace before it
  rcases List.eq_nil_or_concat after with rfl | ⟨after, o', rfl⟩
  · obtain ⟨rfl, rfl⟩ : trace = before ∧ o = .factoryReset := by simpa using heq
    exact ho rfl
  · rw [List.concat_eq_append, ← List.cons_append, ← List.append_assoc] at heq
    exact h before after (List.append_inj_left' heq rfl)

/-! ## The events in the queue -/

/-- The events that are still to be dispatched take the application from the button being down, or
up, to the state of the button: every press is followed by its release, or is the last event and the
button is `down`. Presses may be missing. -/
def Paired (down : Bool) : Bool → List FnEvent → Prop
  | pressed, [] => pressed = true → down = true
  | pressed, .pushed :: es => pressed = false ∧ Paired down true es
  | _, .released :: es => Paired down false es
  | _, .timer :: _ => False

variable {down pressed : Bool} {es : List FnEvent}

/-- The timer's event is not among them. -/
theorem Paired.timer_notMem (h : Paired down pressed es) : .timer ∉ es := by
  induction es generalizing pressed with
  | nil => exact List.not_mem_nil
  | cons e es ih =>
    cases e with
    | pushed => simpa using ih h.2
    | released => simpa using ih h
    | timer => exact h.elim

/-- What is right for a button that is down is right for one that is up. -/
theorem Paired.up (h : Paired down true es) : Paired down false es := by
  cases es with
  | nil => exact nofun
  | cons e es =>
    cases e with
    | pushed => exact nomatch h.1
    | released => exact h
    | timer => exact h.elim

/-- A button that is down, with no release to come, is held. -/
theorem Paired.held (h : Paired down true es) (hes : .released ∉ es) : es = [] ∧ down = true := by
  cases es with
  | nil => exact ⟨rfl, h rfl⟩
  | cons e es =>
    cases e with
    | pushed => exact nomatch h.1
    | released => exact absurd List.mem_cons_self hes
    | timer => exact h.elim

/-- The button goes down and its event is kept or dropped. -/
theorem Paired.press (kept : Bool) (h : Paired false pressed es) :
    Paired true pressed (keep kept es .pushed) := by
  -- each event hands what the application takes the button to be on to the next one
  induction es generalizing pressed with
  | nil =>
    have hup : pressed = false := eq_false_of_ne_true fun hp => nomatch h hp
    subst hup
    cases kept with
    | false => exact fun _ => rfl
    | true => exact ⟨rfl, fun _ => rfl⟩
  | cons e es ih =>
    cases e with
    | pushed =>
      have hrest := ih h.2
      cases kept <;> exact ⟨h.1, hrest⟩
    | released =>
      have hrest : Paired true false (keep kept es .pushed) := ih h
      cases kept <;> exact hrest
    | timer => exact h.elim

/-- The button goes up and its event is kept. -/
theorem Paired.release (h : Paired true pressed es) : Paired false pressed (es ++ [.released]) := by
  induction es generalizing pressed with
  | nil => exact nofun
  | cons e es ih =>
    cases e with
    | pushed => exact ⟨h.1, ih h.2⟩
    | released =>
      have hrest : Paired false false (es ++ [.released]) := ih h
      exact hrest
    | timer => exact h.elim

/-- The button goes up and its event is dropped after another release. -/
theorem Paired.releaseDropped (h : Paired true pressed es) (hnil : es = [] → pressed = false)
    (hlast : ∀ e ∈ es.getLast?, e = .released) : Paired false pressed es := by
  -- what the dropped release would say, the last event in the queue says already
  induction es generalizing pressed with
  | nil =>
    rw [hnil rfl]
    exact nofun
  | cons e es ih =>
    have hlast' : ∀ e' ∈ es.getLast?, e' = .released := fun e' he' =>
      hlast e' (List.mem_getLast?_cons he')
    cases e with
    | pushed =>
      refine ⟨h.1, ih h.2 ?_ hlast'⟩
      rintro rfl
      exact nomatch hlast .pushed rfl
    | released =>
      have hrest : Paired false false es := ih h (fun _ => rfl) hlast'
      exact hrest
    | timer => exact h.elim

/-! ## The invariant -/

/-- The events in the queue fit the timer: while it runs, the application takes the button to be
down; its event stands before all others. -/
inductive Expected (running down : Bool) (events : List FnEvent) : Prop
  /-- Nothing is under way. -/
  | idle : running = false → Paired down false events → Expected running down events
  /-- The timer is running. -/
  | armed : running = true → Paired down true events → Expected running down events
  /-- The timer has expired and its event is in the queue. -/
  | fired (es : List FnEvent) : running = false → events = .timer :: es → Paired down true es →
      Expected running down events

/-- The history fits what the application takes the button to do. -/
structure FnInv (f : FnState) : Prop where
  active : f.task.mFunctionTimerActive = f.task.sFunctionTimer
  function : f.task.mFunction ≠ .advertisingStart
  expected : Expected f.task.sFunctionTimer f.down f.events
  /-- A button that is down was pressed. -/
  press : f.down = true → HeldPress f.task.trace
  /-- With the timer under way and no release to come, the button is held since before it was
  started. -/
  trigger : f.task.sFunctionTimer = true ∨ .timer ∈ f.events → .released ∉ f.events →
    HeldTrigger f.task.trace
  /-- With the cancel window open and no release to come, the button is held. -/
  window : f.task.sFunctionTimer = true → f.task.mFunction = .factoryReset → .released ∉ f.events →
    HeldWindow f.task.trace
  /-- With the end of the cancel window in the queue, the button was held until then. -/
  through : .timer ∈ f.events → f.task.mFunction = .factoryReset → HeldThrough f.task.trace
  resets : ResetsHeld f.task.trace

variable {f g : FnState}

theorem fnInv_init : FnInv fnButton.init where
  active := rfl
  function := nofun
  expected := .idle rfl nofun
  press := nofun
  trigger := by simp [fnButton]
  window := nofun
  through := by simp [fnButton]
  resets := fun before after h => by simp [fnButton] at h

/-- While the timer is under way and no release is to come, the button is down. -/
theorem Expected.isDown {running : Bool} (h : Expected running down es)
    (hway : running = true ∨ .timer ∈ es) (hes : .released ∉ es) : down = true := by
  cases h with
  | idle hstop hp =>
    rcases hway with hrun | hmem
    · exact absurd (hrun.symm.trans hstop) nofun
    · exact absurd hmem hp.timer_notMem
  | armed _ hp => exact (hp.held hes).2
  | fired es' _ heq hp =>
    rw [heq] at hes
    exact (hp.held fun hmem => hes (List.mem_cons_of_mem _ hmem)).2

/-- An application that ends with a release has nothing under way without one to come. -/
theorem FnState.EndsReleased.not_under_way (h : f.EndsReleased)
    (hway : f.task.sFunctionTimer = true ∨ .timer ∈ f.events) (hes : .released ∉ f.events) :
    False := by
  unfold FnState.EndsReleased at h
  split at h
  · next hlast => exact hes (List.mem_of_getLast? hlast)
  · exact h
  · next hlast =>
    have hnil : f.events = [] := List.getLast?_eq_none_iff.mp hlast
    simp [hnil, h] at hway

/-- With nothing under way there is little to say. -/
theorem FnInv.of_idle (hactive : f.task.mFunctionTimerActive = false)
    (hfunction : f.task.mFunction ≠ .advertisingStart) (hstop : f.task.sFunctionTimer = false)
    (hp : Paired f.down false f.events) (hpress : f.down = true → HeldPress f.task.trace)
    (hresets : ResetsHeld f.task.trace) : FnInv f where
  active := hactive.trans hstop.symm
  function := hfunction
  expected := .idle hstop hp
  press := hpress
  trigger := fun hway =>
    (hway.elim (fun hrun => absurd (hrun.symm.trans hstop) nofun) hp.timer_notMem).elim
  window := fun hrun => absurd (hrun.symm.trans hstop) nofun
  through := fun hin => absurd hin hp.timer_notMem
  resets := hresets

/-! ## The steps -/

/-- The button is pressed. -/
theorem FnInv.press_step (h : FnInv f) (hup : f.down = false) (kept : Bool) :
    FnInv ⟨f.task.log .pressed, keep kept f.events .pushed, true⟩ := by
  have hmem : ∀ e, e ∈ keep kept f.events .pushed ↔ e ∈ f.events ∨ kept = true ∧ e = .pushed := by
    intro e
    cases kept <;> simp [keep]
  have hreleased : .released ∉ keep kept f.events .pushed → .released ∉ f.events :=
    fun hno hin => hno ((hmem _).mpr (.inl hin))
  have htimer : .timer ∈ keep kept f.events .pushed → .timer ∈ f.events := fun hin =>
    ((hmem _).mp hin).elim id fun heq => nomatch heq.2
  have hexp := h.expected
  rw [hup] at hexp
  -- with the timer under way a release is to come, since the button was up
  have hway : f.task.sFunctionTimer = true ∨ .timer ∈ keep kept f.events .pushed →
      .released ∉ keep kept f.events .pushed → False := fun hway hno =>
    nomatch hexp.isDown (hway.imp id htimer) (hreleased hno)
  exact
    { active := h.active, function := h.function
      expected := by
        cases hexp with
        | idle hstop hp => exact .idle hstop (hp.press kept)
        | armed hrun hp => exact .armed hrun (hp.press kept)
        | fired es hstop heq hp =>
          refine .fired (keep kept es .pushed) hstop ?_ (hp.press kept)
          cases kept <;> simp [keep, heq]
      press := fun _ => ⟨f.task.trace, [], rfl, List.not_mem_nil⟩
      trigger := fun hin hno => (hway hin hno).elim
      window := fun hrun _ hno => (hway (.inl hrun) hno).elim
      through := fun hin hfun => (h.through (htimer hin) hfun).log nofun nofun
      resets := h.resets.log nofun }

/-- The release's event fits the timer: it is in the queue, or a release before it is. -/
theorem Expected.release {kept : Bool} (h : Expected f.task.sFunctionTimer true f.events)
    (hok : kept = true ∨ f.EndsReleased) :
    Expected f.task.sFunctionTimer false (keep kept f.events .released) := by
  cases kept with
  | true =>
    cases h with
    | idle hstop hp => exact .idle hstop hp.release
    | armed hrun hp => exact .armed hrun hp.release
    | fired es hstop heq hp =>
      exact .fired (es ++ [.released]) hstop (by simp [keep, heq]) hp.release
  | false =>
    have hends : f.EndsReleased := hok.resolve_left nofun
    have hlast : ∀ e ∈ f.events.getLast?, e = .released := by
      unfold FnState.EndsReleased at hends
      split at hends
      · next hl => rw [hl]; simp
      · exact hends.elim
      · next hl => rw [hl]; simp
    cases h with
    | idle hstop hp => exact .idle hstop (hp.releaseDropped (fun _ => rfl) hlast)
    | armed hrun hp =>
      refine .armed hrun (hp.releaseDropped (fun hnil => ?_) hlast)
      exact (hends.not_under_way (.inl hrun) (by simp [hnil])).elim
    | fired es hstop heq hp =>
      refine .fired es hstop heq (hp.releaseDropped (fun hnil => ?_) fun e he => ?_)
      · exact (hends.not_under_way (.inr (by simp [heq])) (by simp [heq, hnil])).elim
      · exact hlast e (heq ▸ List.mem_getLast?_cons he)

/-- The button is released. -/
theorem FnInv.release_step (h : FnInv f) (hdown : f.down = true) (kept : Bool)
    (hok : kept = true ∨ f.EndsReleased) :
    FnInv ⟨f.task.log .released, keep kept f.events .released, false⟩ := by
  have hexp := h.expected
  rw [hdown] at hexp
  have htimer : .timer ∈ keep kept f.events .released → .timer ∈ f.events := by
    cases kept <;> simp [keep]
  -- with the timer under way a release is to come
  have hway : f.task.sFunctionTimer = true ∨ .timer ∈ keep kept f.events .released →
      .released ∉ keep kept f.events .released → False := fun hway hno => by
    cases kept with
    | true => exact hno (by simp [keep])
    | false => exact (hok.resolve_left nofun).not_under_way hway hno
  exact
    { active := h.active, function := h.function, expected := hexp.release hok
      press := nofun
      trigger := fun hin hno => (hway hin hno).elim
      window := fun hrun _ hno => (hway (.inl hrun) hno).elim
      through := fun hin hfun => (h.through (htimer hin) hfun).log nofun nofun
      resets := h.resets.log nofun }

/-- The timer expires. -/
theorem FnInv.expiry_step (h : FnInv f) (hrun : f.task.sFunctionTimer = true) (kept : Bool)
    (hok : kept = true → .released ∉ f.events) :
    FnInv { f with
      task := { f.task with sFunctionTimer := false, mFunctionTimerActive := false }.log .expired
      events := keep kept f.events .timer } := by
  have hpaired : Paired f.down true f.events := by
    cases h.expected with
    | idle hstop hp => exact absurd (hrun.symm.trans hstop) nofun
    | armed _ hp => exact hp
    | fired es hstop heq hp => exact absurd (hrun.symm.trans hstop) nofun
  have hpress : f.down = true → HeldPress (f.task.trace ++ [.expired]) := fun hdown =>
    (h.press hdown).log nofun
  cases kept with
  | false =>
    -- the event is dropped, and the hold is forgotten
    exact .of_idle rfl h.function rfl hpaired.up hpress (h.resets.log nofun)
  | true =>
    -- no release is in the queue, so the button is still down and the queue has no other event
    have hno := hok rfl
    obtain ⟨hnil, -⟩ := hpaired.held hno
    exact
      { active := rfl, function := h.function
        expected := .fired [] rfl (by simp [keep, hnil]) (hnil ▸ hpaired)
        press := hpress
        trigger := fun _ _ => (h.trigger (.inl hrun) hno).log nofun nofun
        window := nofun
        through := fun _ hfun => (h.window hrun hfun hno).expired
        resets := h.resets.log nofun }

/-- The event of a press is dispatched. -/
theorem FnInv.serve_pushed (h : FnInv f) {es : List FnEvent} (hes : f.events = .pushed :: es) :
    FnInv { f with task := f.task.pushed, events := es } := by
  obtain ⟨hstop, hpaired⟩ : f.task.sFunctionTimer = false ∧ Paired f.down true es := by
    have hexp := h.expected
    rw [hes] at hexp
    cases hexp with
    | idle hstop hp => exact ⟨hstop, hp.2⟩
    | armed _ hp => exact nomatch hp.1
    | fired es' _ heq _ => exact nomatch heq
  unfold Task.pushed
  split
  · -- the trigger timer is started
    exact
      { active := rfl, function := nofun, expected := .armed rfl hpaired
        press := fun hdown => (h.press hdown).log nofun
        trigger := fun _ hno => (h.press (hpaired.held hno).2).triggerStarted
        window := fun _ hfun => nomatch hfun
        through := fun hin => absurd hin hpaired.timer_notMem
        resets := h.resets.log nofun }
  · exact .of_idle (h.active.trans hstop) h.function hstop hpaired.up h.press h.resets

/-- The event of a release is dispatched. -/
theorem FnInv.serve_released (h : FnInv f) {es : List FnEvent} (hes : f.events = .released :: es) :
    FnInv { f with task := f.task.released, events := es } := by
  have hpaired : Paired f.down false es := by
    have hexp := h.expected
    rw [hes] at hexp
    cases hexp with
    | idle _ hp => exact hp
    | armed _ hp => exact hp
    | fired es' _ heq _ => exact nomatch heq
  have hstop : ∀ o, o ≠ .released → o ≠ .factoryReset →
      FnInv { f with
        task := { f.task.cancelTimer with mFunction := .noneSelected }.log o, events := es } :=
    fun o ho ho' => .of_idle rfl nofun rfl hpaired (fun hdown => (h.press hdown).log ho)
      (h.resets.log fun heq => absurd heq ho')
  unfold Task.released
  split
  · -- released before the window was opened
    exact hstop .softwareUpdate nofun nofun
  · next hnone =>
    split
    · -- released within the window
      exact hstop .canceled nofun nofun
    · next hreset =>
      -- the release is not taken: the timer is not active
      have hactive : f.task.mFunctionTimerActive = false := by
        by_contra hactive
        cases hfunction : f.task.mFunction with
        | noneSelected => exact hnone ⟨eq_true_of_ne_false hactive, hfunction⟩
        | factoryReset => exact hreset ⟨eq_true_of_ne_false hactive, hfunction⟩
        | advertisingStart => exact h.function hfunction
      exact .of_idle hactive h.function (h.active.symm.trans hactive) hpaired h.press h.resets

/-- The event of the timer is dispatched. -/
theorem FnInv.serve_timer (h : FnInv f) {es : List FnEvent} (hes : f.events = .timer :: es) :
    FnInv { f with task := f.task.timeout, events := es } := by
  obtain ⟨hstop, hpaired⟩ : f.task.sFunctionTimer = false ∧ Paired f.down true es := by
    have hexp := h.expected
    rw [hes] at hexp
    cases hexp with
    | idle _ hp | armed _ hp => exact hp.elim
    | fired es' hstop heq hp => exact ⟨hstop, (List.cons.inj heq).2 ▸ hp⟩
  have hin : .timer ∈ f.events := hes ▸ List.mem_cons_self
  unfold Task.timeout
  split
  · -- the cancel window is opened
    have htrigger : .released ∉ es → HeldTrigger f.task.trace := fun hno =>
      h.trigger (.inr hin) (by simpa [hes] using hno)
    exact
      { active := rfl, function := nofun, expected := .armed rfl hpaired
        press := fun hdown => (h.press hdown).log nofun
        trigger := fun _ hno => (htrigger hno).log nofun nofun
        window := fun _ _ hno => ⟨f.task.trace, rfl, htrigger hno⟩
        through := fun hin' => absurd hin' hpaired.timer_notMem
        resets := h.resets.log nofun }
  · -- the factory reset: the event is the end of the window, through which the button was held
    next hfunction =>
    exact .of_idle (h.active.trans hstop) nofun hstop hpaired.up
      (fun hdown => (h.press hdown).log nofun)
      (h.resets.log fun _ => h.through hin hfunction)
  · next hfunction => exact absurd hfunction h.function

/-- The handler of the NUS button clears `mFunction`. -/
theorem FnInv.clear_step (h : FnInv f) :
    FnInv { f with task := { f.task with mFunction := .noneSelected } } :=
  { h with
    function := nofun
    window := fun _ hfun => nomatch hfun
    through := fun _ hfun => nomatch hfun }

/-- Every step in which releases arrive in time keeps the invariant. -/
theorem FnInv.step (h : FnInv f) {j : FnInput} (hok : FnOk f j) (hstep : fnStep f j = some g) :
    FnInv g := by
  cases j with
  | change kept =>
    obtain rfl := Option.some.inj hstep
    cases hdown : f.down with
    | false => exact h.press_step hdown kept
    | true => exact h.release_step hdown kept (hok hdown)
  | expiry kept =>
    obtain ⟨hrun, rfl⟩ := Machine.guarded_eq_some.mp hstep
    exact h.expiry_step hrun kept hok
  | serve =>
    obtain ⟨e, es, hes, rfl⟩ := serve_of_eq_some hstep
    cases e with
    | pushed => exact h.serve_pushed hes
    | released => exact h.serve_released hes
    | timer => exact h.serve_timer hes
  | clear =>
    obtain rfl := Option.some.inj hstep
    exact h.clear_step

/-! ## Runs -/

/-- **Full hold.** In a run in which every release arrives in time, each factory reset comes after
the button was pressed and held through both timeouts. -/
theorem factoryReset_held (is : List Input) (hok : appTask.Meets ReleaseInTime is) (s : State)
    (hrun : appTask.run is = some s) : ResetsHeld s.task.trace := by
  have hview := appTask_projects.runFrom hrun
  have hmeets := appTask_projects.along (q := fun f j _ => FnOk f j) (fun s i t hstep hok => ?_) hok
  · rw [appTask_projects.init] at hview hmeets
    exact (Machine.invariant FnInv fnInv_init (fun _ _ _ h hok hs => h.step hok hs)
      hmeets hview).resets
  · change ∀ j ∈ fnLabel s i, FnOk s.fnView j at hok
    cases hlabel : fnLabel s i with
    | none => trivial
    | some j => exact fun g hg => ⟨hok j hlabel, trivial⟩

/-- The button is held through both timeouts. -/
theorem factoryReset_held_hold :
    ResetsHeld ((appTask.run [.buttons 1, .dispatch, .timerExpiry, .dispatch, .timerExpiry,
      .buttons 0, .dispatch, .dispatch]).get (by decide)).task.trace :=
  factoryReset_held _ (by decide) _ (Option.some_get _).symm

/-- There is no release between the start of the trigger timer and that of the cancel window. -/
theorem HeldThrough.released_notMem (h : HeldThrough trace) : .released ∉
    (trace.reverse.dropWhile (· ≠ .windowStarted)).takeWhile (· ≠ .triggerStarted) := by
  obtain ⟨before, after, rfl, ⟨a, b, c, rfl, hbc, hc⟩, -, hafter⟩ := h
  -- read from its end, the trace shows the last window first and then the trigger before it
  have hdrop : ((a ++ .pressed :: b ++ .triggerStarted :: c) ++
      .windowStarted :: .expired :: after).reverse.dropWhile (· ≠ .windowStarted) =
        .windowStarted :: (c.reverse ++ .triggerStarted :: (a ++ .pressed :: b).reverse) := by
    simp only [List.reverse_append, List.reverse_cons, List.append_assoc, List.cons_append,
      List.nil_append]
    rw [List.dropWhile_append_of_pos (by simpa using fun o ho => ne_of_mem_of_not_mem ho hafter)]
    simp
  rw [hdrop, List.takeWhile_cons_of_pos (by decide),
    List.takeWhile_append_of_pos (by simpa using fun o ho => ne_of_mem_of_not_mem ho hc)]
  simpa using fun hmem => hbc (List.mem_append_right b hmem)

/-- The timer expires while the release is in the queue. The release is dispatched first and is not
taken, since the timer is no longer active; then the cancel window opens with the button up. -/
theorem factoryReset_not_held : ¬ ∀ (is : List Input) (s : State), appTask.run is = some s →
    ResetsHeld s.task.trace := fun h => by
  have hresets := h [.buttons 1, .dispatch, .buttons 0, .timerExpiry, .dispatch, .dispatch,
    .timerExpiry, .dispatch] _ rfl
  have hheld := hresets [.pressed, .triggerStarted, .released, .expired, .windowStarted, .expired]
    [] (by decide)
  exact absurd hheld.released_notMem (by decide)

end NcsExamples.MatterLight
