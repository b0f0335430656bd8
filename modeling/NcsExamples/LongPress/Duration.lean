import NcsExamples.Lib.AlarmClock
import NcsExamples.LongPress.Button

/-! # Long press button: how long the button is held

The README promises a short press for less than one second and a long one for one second or more.
The code never looks at a clock: it asks whether the timer of one second has expired. With the timer
against a clock of milliseconds, the line of a release says which it was, but for the slack that the
kernel takes to expire the timer. -/

namespace NcsExamples.LongPress

/-- `LONG_PRESS_TIMEOUT`, in milliseconds. -/
def longPressTimeout : ℕ := 1000

/-- What the inputs mean for the timer. -/
def timerAlarm : Input → Alarm
  | .kTimerStart => .set longPressTimeout
  | .kTimerStop => .stopped
  | .expiry => .rings
  | .call _ _ | .kTimerStatusGet | .logInf => .ignored

/-- The button against a clock of milliseconds: the timer expires at most `slack` of them late. -/
def timedPress (slack : ℕ) : Machine (Clocked State) (ClockInput Input) :=
  longPress.clocked timerAlarm slack

variable {s t : State} {i : Input} {is : List Input} {long : Bool}

/-! ## Between the press and the release -/

/-- The handler is in a call that has not read the status, or in none. -/
def Handler.BeforeStatus (h : Handler) : Prop := h = .idle ∨ h = .start ∨ h = .statusGet

/-- A call starts before the status is read. -/
theorem beforeStatus_buttonHandler (buttonState hasChanged : BitVec 32) :
    (buttonHandler buttonState hasChanged).BeforeStatus := by
  unfold buttonHandler
  split
  · split
    · exact .inr (.inl rfl)
    · exact .inr (.inr rfl)
  · exact .inl rfl

/-- Until the status is read or the timer started again, the status counts the expiries and the
timer is left to itself. -/
theorem beforeStatus_step (h : s.handler.BeforeStatus) (hstart : i ≠ .kTimerStart)
    (hread : i ≠ .kTimerStatusGet) (hs : longPress.step s i = some t) :
    t.handler.BeforeStatus ∧ (timerAlarm i = .ignored ∨ timerAlarm i = .rings) ∧
      t.timer.status = s.timer.status + [i].count .expiry := by
  cases step_of_eq_some hs with
  | call buttonState hasChanged hat =>
    exact ⟨beforeStatus_buttonHandler buttonState hasChanged, .inl rfl, rfl⟩
  | kTimerStart hat => exact absurd rfl hstart
  | kTimerStatusGet hat => exact absurd rfl hread
  | logLong hat | logShort hat | kTimerStop hat =>
    rw [Handler.BeforeStatus, hat] at h
    simp at h
  | expiry hrunning => exact ⟨h, .inr rfl, rfl⟩

/-- The same for a run. -/
theorem beforeStatus_run (h : s.handler.BeforeStatus) (hstart : .kTimerStart ∉ is)
    (hread : .kTimerStatusGet ∉ is) (hrun : longPress.runFrom s is = some t) :
    (∀ i ∈ is, timerAlarm i = .ignored ∨ timerAlarm i = .rings) ∧
      t.timer.status = s.timer.status + is.count .expiry := by
  induction is generalizing s with
  | nil =>
    obtain rfl : s = t := Option.some.inj hrun
    exact ⟨by simp, rfl⟩
  | cons i is ih =>
    obtain ⟨u, hu, hrest⟩ := longPress.runFrom_cons_eq_some.mp hrun
    obtain ⟨hstart', hstart⟩ := not_or.mp (mt List.mem_cons.mpr hstart)
    obtain ⟨hread', hread⟩ := not_or.mp (mt List.mem_cons.mpr hread)
    obtain ⟨hbefore, halarm, hstatus⟩ := beforeStatus_step h (Ne.symm hstart') (Ne.symm hread') hu
    obtain ⟨halarms, hcount⟩ := ih hbefore hstart hread hrest
    refine ⟨List.forall_mem_cons.mpr ⟨halarm, halarms⟩, ?_⟩
    rw [hcount, hstatus, Nat.add_assoc, ← List.count_append, List.singleton_append]

/-- The timer goes off when it expires. -/
theorem timerAlarm_eq_rings : timerAlarm i = .rings ↔ i = .expiry := by
  cases i <;> simp [timerAlarm]

/-! ## After the status is read -/

/-- Until the line is logged, the handler stays in its branch and logs nothing else. -/
theorem log_run (h : s.handler = .log long) (hno : .logInf ∉ is)
    (hrun : longPress.runFrom s is = some t) : t.handler = .log long ∧ t.log = s.log := by
  induction is generalizing s with
  | nil =>
    obtain rfl : s = t := Option.some.inj hrun
    exact ⟨h, rfl⟩
  | cons i is ih =>
    obtain ⟨u, hu, hrest⟩ := longPress.runFrom_cons_eq_some.mp hrun
    obtain ⟨hno', hno⟩ := not_or.mp (mt List.mem_cons.mpr hno)
    -- only the timer has a step besides the line
    have hexpiry : u.handler = .log long ∧ u.log = s.log := by
      cases step_of_eq_some hu with
      | logLong hat | logShort hat => exact absurd rfl hno'
      | expiry hrunning => exact ⟨h, rfl⟩
      | call buttonState hasChanged hat | kTimerStart hat | kTimerStatusGet hat | kTimerStop hat =>
        rw [h] at hat
        cases hat
    obtain ⟨hhandler, hlog⟩ := ih hexpiry.1 hno hrest
    exact ⟨hhandler, hlog.trans hexpiry.2⟩

/-- The next line is that of the branch. -/
theorem log_of_branch (h : s.handler = .log long) (hno : .logInf ∉ is)
    (hrun : longPress.runFrom s (is ++ [.logInf]) = some t) : t.log = s.log ++ [lineText long] := by
  obtain ⟨u, hu, hlast⟩ := longPress.runFrom_snoc_eq_some.mp hrun
  obtain ⟨hhandler, hlog⟩ := log_run h hno hu
  cases step_of_eq_some hlast with
  | logLong hat | logShort hat =>
    rw [hhandler] at hat
    cases hat
    rw [← hlog]

/-! ## With the clock -/

/-- The timer runs as long as the clock waits for it. -/
theorem timerAlarm_governs (hs : longPress.step s i = some t) :
    (timerAlarm i).Governs (s.timer.running = true) (t.timer.running = true) := by
  cases step_of_eq_some hs with
  | kTimerStart hat => exact rfl
  | kTimerStop hat | expiry hrunning => exact Bool.false_ne_true
  | call buttonState hasChanged hat | kTimerStatusGet hat | logLong hat | logShort hat =>
    exact Iff.rfl

/-- The clock never stops for good: it ticks, or the timer can expire. -/
theorem timedPress_goesOn {slack : ℕ} {js : List (ClockInput Input)} {u : Clocked State}
    (hrun : (timedPress slack).run js = some u) :
    (∃ v, (timedPress slack).step u .tick = some v) ∨
      ∃ i v, timerAlarm i = .rings ∧ (timedPress slack).step u (.act i) = some v := by
  refine Machine.exists_clocked_step_of_governed (fun s : State => s.timer.running = true)
    Bool.false_ne_true (fun _ _ _ hs => timerAlarm_governs hs) (fun s hs => ⟨.expiry, rfl, ?_⟩) hrun
  simp [longPress, step, hs]

/-- **Less than a second is short, more than a second is long.** When a release reads the status
`ticks since` milliseconds after the press before it has started the timer, the next line is "Short
press" if that is less than a second, and "Long press" if it is more than a second and the slack. -/
theorem release_byDuration (slack : ℕ) (js since ks : List (ClockInput Input))
    (p q r t : Clocked State) (hpress : (timedPress slack).run (js ++ [.act .kTimerStart]) = some p)
    (hstart : .act .kTimerStart ∉ since) (hread : .act .kTimerStatusGet ∉ since)
    (hsince : (timedPress slack).runFrom p since = some q)
    (hrelease : (timedPress slack).step q (.act .kTimerStatusGet) = some r)
    (hno : .act .logInf ∉ ks)
    (hline : (timedPress slack).runFrom r (ks ++ [.act .logInf]) = some t) :
    (ticks since < 1000 → t.state.log = r.state.log ++ ["Short press"]) ∧
      (1000 + slack < ticks since → t.state.log = r.state.log ++ ["Long press"]) := by
  -- the press starts the timer, and until the release the status counts its expiries
  obtain ⟨o, -, hpress'⟩ := (timedPress slack).runFrom_snoc_eq_some.mp hpress
  obtain ⟨-, hstate, -⟩ := Machine.clocked_act_eq_some.mp hpress'
  obtain ⟨-, hp⟩ := Machine.guarded_eq_some.mp hstate
  obtain ⟨halarms, hcount⟩ := beforeStatus_run (s := p.state) (by rw [← hp]; exact .inl rfl)
    (mt mem_filterMap_input?.mp hstart) (mt mem_filterMap_input?.mp hread)
    (Machine.runFrom_of_clocked hsince)
  have hstatus : 0 < q.state.timer.status ↔ Machine.Rings timerAlarm since := by
    have hzero : p.state.timer.status = 0 := by rw [← hp]; rfl
    rw [hcount, hzero, Nat.zero_add, List.count_pos_iff, Machine.Rings]
    simp only [timerAlarm_eq_rings, exists_eq_right]
  obtain ⟨hshort, hlong⟩ := Machine.rings_since_set hpress rfl halarms hsince
  -- the branch of the release, and its line
  obtain ⟨-, hread', -⟩ := Machine.clocked_act_eq_some.mp hrelease
  obtain ⟨-, hr⟩ := Machine.guarded_eq_some.mp hread'
  have hline' := Machine.runFrom_of_clocked hline
  rw [List.filterMap_append] at hline'
  have hlog : t.state.log = r.state.log ++ [lineText (0 < q.state.timer.status)] :=
    log_of_branch (by rw [← hr]) (mt mem_filterMap_input?.mp hno) hline'
  rw [hlog]
  constructor
  · intro hearly
    rw [decide_eq_false (mt hstatus.mp (hshort hearly))]
    rfl
  · intro hlate
    rw [decide_eq_true (hstatus.mpr (hlong hlate))]
    rfl

/-- A press of three milliseconds, during which button 2 is pressed. -/
theorem release_byDuration_short : ∃ r t,
    (timedPress 1).runFrom r [.tick, .act .logInf] = some t ∧
      t.state.log = r.state.log ++ ["Short press"] :=
  ⟨_, _, rfl, (release_byDuration 1 [.act (.call 1 1)]
    [.tick, .act (.call 3 2), .tick, .tick, .act (.call 2 1)] [.tick] _ _
    ⟨⟨⟨true, 0⟩, .log false, []⟩, 3, some 1000⟩ _ rfl (by decide) (by decide) rfl rfl
    (by decide) rfl).1 (by decide)⟩

end NcsExamples.LongPress
