import NcsExamples.Lib.Machine

/-! # Machines with an alarm clock

A machine some of whose inputs set an alarm, stop it, or are the alarm going off, run against a
clock that ticks. The alarm does not go off before it is due, and not more than `slack` ticks later:
by then it is the clock that waits. The runs of the machine with the clock are runs of the machine,
and what the clock adds is the rule that ties the ticks since the alarm was set to whether it has
gone off. -/

namespace NcsExamples

/-- What an input means for the alarm. -/
inductive Alarm
  /-- Nothing. -/
  | ignored
  /-- The alarm is set, whatever it was before. -/
  | set (delay : ℕ)
  /-- The alarm is stopped. -/
  | stopped
  /-- The alarm goes off. -/
  | rings
  deriving DecidableEq, Repr

/-- When the alarm is due after an input, if the input can come `now`. -/
def Alarm.due? (now : ℕ) (due : Option ℕ) : Alarm → Option (Option ℕ)
  | .ignored => some due
  | .set delay => some (some (now + delay))
  | .stopped => some none
  | .rings => if ∃ d ∈ due, d ≤ now then some none else none

/-- What an input does to a property that is to hold as long as the alarm is set, by what it means
for the alarm. -/
def Alarm.Governs (before after : Prop) : Alarm → Prop
  | .ignored => after ↔ before
  | .set _ => after
  | .stopped | .rings => ¬ after

/-- A state with the time. -/
structure Clocked (σ : Type*) where
  state : σ
  /-- The number of ticks so far. -/
  now : ℕ
  /-- When the alarm goes off, if it is set. -/
  due : Option ℕ

/-- An input, or a tick of the clock. -/
inductive ClockInput (ι : Type*)
  | tick
  | act (i : ι)
  deriving DecidableEq, Repr

variable {σ ι : Type*}

/-- The number of ticks. -/
def ticks (is : List (ClockInput ι)) : ℕ := is.countP fun | .tick => true | .act _ => false

/-- The input of the machine, if it is not a tick. -/
def ClockInput.input? : ClockInput ι → Option ι
  | .tick => none
  | .act i => some i

@[simp] theorem ticks_nil : ticks ([] : List (ClockInput ι)) = 0 := rfl

@[simp] theorem ticks_cons_tick (is : List (ClockInput ι)) : ticks (.tick :: is) = ticks is + 1 :=
  List.countP_cons_of_pos rfl

@[simp] theorem ticks_cons_act (i : ι) (is : List (ClockInput ι)) :
    ticks (.act i :: is) = ticks is :=
  List.countP_cons_of_neg Bool.false_ne_true

/-- The ticks of one time and another are those of both. -/
theorem ticks_append (is js : List (ClockInput ι)) : ticks (is ++ js) = ticks is + ticks js :=
  List.countP_append

/-- The inputs of the machine are what comes besides the ticks. -/
theorem mem_filterMap_input? {i : ι} {is : List (ClockInput ι)} :
    i ∈ is.filterMap ClockInput.input? ↔ .act i ∈ is := by
  rw [List.mem_filterMap]
  constructor
  · rintro ⟨j, hj, hi⟩
    cases j with
    | tick => cases hi
    | act j => exact Option.some.inj hi ▸ hj
  · intro hi
    exact ⟨.act i, hi, rfl⟩

namespace Machine

/-- The machine with a clock, where `alarm` says what its inputs mean for the alarm. -/
def clocked (M : Machine σ ι) (alarm : ι → Alarm) (slack : ℕ) :
    Machine (Clocked σ) (ClockInput ι) where
  init := ⟨M.init, 0, none⟩
  step s
    | .tick => if ∀ d ∈ s.due, s.now < d + slack then some { s with now := s.now + 1 } else none
    | .act i => ((alarm i).due? s.now s.due).bind fun due =>
        (M.step s.state i).map fun state => ⟨state, s.now, due⟩

variable {M : Machine σ ι} {alarm : ι → Alarm} {slack : ℕ} {s t : Clocked σ} {i : ι}
  {is : List (ClockInput ι)}

/-- A tick comes when the alarm is not overdue. -/
theorem clocked_tick_eq_some : (M.clocked alarm slack).step s .tick = some t ↔
    (∀ d ∈ s.due, s.now < d + slack) ∧ { s with now := s.now + 1 } = t :=
  guarded_eq_some

/-- An input is a step of the machine at a time when the alarm admits it. -/
theorem clocked_act_eq_some : (M.clocked alarm slack).step s (.act i) = some t ↔
    (alarm i).due? s.now s.due = some t.due ∧ M.step s.state i = some t.state ∧ t.now = s.now := by
  simp only [clocked, Option.bind_eq_some_iff, Option.map_eq_some_iff]
  constructor
  · rintro ⟨due, hdue, state, hstate, rfl⟩
    exact ⟨hdue, hstate, rfl⟩
  · rintro ⟨hdue, hstate, hnow⟩
    refine ⟨t.due, hdue, t.state, hstate, ?_⟩
    rw [← hnow]

/-- The runs with the clock are runs of the machine. -/
theorem clocked_projects (M : Machine σ ι) (alarm : ι → Alarm) (slack : ℕ) :
    (M.clocked alarm slack).Projects M Clocked.state fun _ i => i.input? where
  init := rfl
  step s i t hs := by
    cases i with
    | tick =>
      obtain ⟨-, rfl⟩ := clocked_tick_eq_some.mp hs
      rfl
    | act i =>
      obtain ⟨-, hstate, -⟩ := clocked_act_eq_some.mp hs
      exact M.runFrom_cons_eq_some.mpr ⟨t.state, hstate, rfl⟩

/-- What a run with the clock does to the state of the machine. -/
theorem runFrom_of_clocked (hrun : (M.clocked alarm slack).runFrom s is = some t) :
    M.runFrom s.state (is.filterMap ClockInput.input?) = some t.state :=
  (M.clocked_projects alarm slack).runFrom_filterMap hrun

/-- The time is the number of ticks. -/
theorem now_of_clocked (hrun : (M.clocked alarm slack).runFrom s is = some t) :
    t.now = s.now + ticks is := by
  induction is generalizing s with
  | nil =>
    obtain rfl : s = t := Option.some.inj hrun
    rfl
  | cons i is ih =>
    obtain ⟨u, hu, hrest⟩ := (M.clocked alarm slack).runFrom_cons_eq_some.mp hrun
    rw [ih hrest]
    cases i with
    | tick =>
      obtain ⟨-, rfl⟩ := clocked_tick_eq_some.mp hu
      rw [ticks_cons_tick]
      exact Nat.add_right_comm s.now 1 (ticks is)
    | act i =>
      obtain ⟨-, -, hnow⟩ := clocked_act_eq_some.mp hu
      rw [ticks_cons_act, hnow]

/-- The alarm is not overdue by more than the slack. -/
def OnTime (slack : ℕ) (s : Clocked σ) : Prop := ∀ d ∈ s.due, s.now ≤ d + slack

/-- Every step is on time. -/
theorem OnTime.step {i : ClockInput ι} (h : OnTime slack s)
    (hs : (M.clocked alarm slack).step s i = some t) : OnTime slack t := by
  cases i with
  | tick =>
    obtain ⟨hearly, rfl⟩ := clocked_tick_eq_some.mp hs
    exact hearly
  | act i =>
    -- an input takes no time: what is set now is as before, or due later, or not set at all
    obtain ⟨hdue, -, hnow⟩ := clocked_act_eq_some.mp hs
    intro d hd
    rw [hnow]
    cases halarm : alarm i with
    | ignored =>
      rw [halarm] at hdue
      exact h d (Option.some.inj hdue ▸ hd)
    | set delay =>
      rw [halarm] at hdue
      obtain rfl : s.now + delay = d := Option.some.inj ((Option.some.inj hdue).trans hd)
      omega
    | stopped =>
      rw [halarm] at hdue
      rw [← Option.some.inj hdue] at hd
      cases hd
    | rings =>
      rw [halarm] at hdue
      obtain ⟨-, hnone⟩ := guarded_eq_some.mp hdue
      rw [← hnone] at hd
      cases hd

/-- **The alarm is on time.** In every state that a run reaches, no more than the slack has passed
since the alarm was due. -/
theorem onTime_of_clocked (hrun : (M.clocked alarm slack).run is = some s) : OnTime slack s :=
  invariant_run (OnTime slack) (fun _ _ _ h hs => h.step hs) (fun _ h => by cases h) hrun

/-- The input leaves the alarm to itself: it does not set or stop it. -/
def LeavesAlarm (alarm : ι → Alarm) (is : List (ClockInput ι)) : Prop :=
  ∀ i ∈ is.filterMap ClockInput.input?, alarm i = .ignored ∨ alarm i = .rings

/-- The alarm goes off among the inputs. -/
def Rings (alarm : ι → Alarm) (is : List (ClockInput ι)) : Prop :=
  ∃ i ∈ is.filterMap ClockInput.input?, alarm i = .rings

/-- **The alarm goes off once it is due.** An alarm that is left to itself has gone off, when it was
due or later, or has not and is still set. -/
theorem due_of_clocked (hleaves : LeavesAlarm alarm is) {d : ℕ} (hdue : s.due = some d)
    (hrun : (M.clocked alarm slack).runFrom s is = some t) :
    Rings alarm is ∧ d ≤ t.now ∨ ¬ Rings alarm is ∧ t.due = some d := by
  induction is generalizing s with
  | nil =>
    obtain rfl : s = t := Option.some.inj hrun
    exact .inr ⟨by simp [Rings], hdue⟩
  | cons i is ih =>
    obtain ⟨u, hu, hrest⟩ := (M.clocked alarm slack).runFrom_cons_eq_some.mp hrun
    have hleaves' : LeavesAlarm alarm is := by
      intro j hj
      refine hleaves j ?_
      cases i with
      | tick => exact hj
      | act i => exact List.mem_cons_of_mem i hj
    cases i with
    | tick =>
      obtain ⟨-, rfl⟩ := clocked_tick_eq_some.mp hu
      have hdue' : ({ s with now := s.now + 1 } : Clocked σ).due = some d := hdue
      exact ih hleaves' hdue' hrest
    | act i =>
      obtain ⟨hdue', -, hnow⟩ := clocked_act_eq_some.mp hu
      have hrings : Rings alarm (.act i :: is) ↔ alarm i = .rings ∨ Rings alarm is := by
        simp [Rings, ClockInput.input?]
      rw [hrings]
      rcases hleaves i List.mem_cons_self with halarm | halarm
      · -- the input has nothing to do with the alarm
        rw [halarm] at hdue'
        have hne : alarm i ≠ .rings := by rw [halarm]; exact Alarm.noConfusion
        rw [or_iff_right hne]
        exact ih hleaves' ((Option.some.inj hdue').symm.trans hdue) hrest
      · -- it goes off here, when it is due, and time does not run backwards after that
        rw [halarm, hdue] at hdue'
        obtain ⟨⟨d', hd', hle⟩, -⟩ := guarded_eq_some.mp hdue'
        obtain rfl := Option.some.inj hd'
        refine .inl ⟨.inl halarm, ?_⟩
        rw [now_of_clocked hrest, hnow]
        omega

/-- An alarm that is left to itself for more than its delay and the slack has gone off. -/
theorem rings_of_late (hleaves : LeavesAlarm alarm is) {d : ℕ} (hdue : s.due = some d)
    (hon : OnTime slack t) (hrun : (M.clocked alarm slack).runFrom s is = some t)
    (hlate : d + slack < t.now) : Rings alarm is := by
  rcases due_of_clocked hleaves hdue hrun with ⟨hrings, -⟩ | ⟨-, ht⟩
  · exact hrings
  · have hle := hon d ht
    omega

/-- An alarm that is left to itself for less than its delay has not gone off. -/
theorem not_rings_of_early (hleaves : LeavesAlarm alarm is) {d : ℕ} (hdue : s.due = some d)
    (hrun : (M.clocked alarm slack).runFrom s is = some t) (hearly : t.now < d) :
    ¬ Rings alarm is := by
  rcases due_of_clocked hleaves hdue hrun with ⟨-, hle⟩ | ⟨hno, -⟩
  · omega
  · exact hno

/-- **Before the delay and after it.** An alarm that is set and then left to itself has not gone off
before its delay is over, and has gone off when its delay and the slack are. -/
theorem rings_since_set {delay : ℕ} {js : List (ClockInput ι)} {u : Clocked σ}
    (hset : (M.clocked alarm slack).run (js ++ [.act i]) = some t) (halarm : alarm i = .set delay)
    (hleaves : LeavesAlarm alarm is) (hrun : (M.clocked alarm slack).runFrom t is = some u) :
    (ticks is < delay → ¬ Rings alarm is) ∧ (delay + slack < ticks is → Rings alarm is) := by
  obtain ⟨s, -, hstep⟩ := (M.clocked alarm slack).runFrom_snoc_eq_some.mp hset
  obtain ⟨hdue, -, hnow⟩ := clocked_act_eq_some.mp hstep
  rw [halarm] at hdue
  have hdue' : t.due = some (t.now + delay) := by
    rw [hnow]
    exact (Option.some.inj hdue).symm
  have hticks : u.now = t.now + ticks is := now_of_clocked hrun
  constructor
  · intro hearly
    exact not_rings_of_early hleaves hdue' hrun (by omega)
  · intro hlate
    exact rings_of_late hleaves hdue' (onTime_of_clocked (runFrom_trans hset hrun)) hrun (by omega)

/-- A property that the initial state does not have and that the alarm governs holds in a state
exactly if the alarm is set. -/
theorem governed_iff_due (P : σ → Prop) (hinit : ¬ P M.init)
    (hstep : ∀ s i t, M.step s i = some t → (alarm i).Governs (P s) (P t))
    (hrun : (M.clocked alarm slack).run is = some s) : P s.state ↔ s.due ≠ none := by
  refine invariant_run (M := M.clocked alarm slack) (fun s => P s.state ↔ s.due ≠ none) ?_
    (iff_of_false hinit (fun h => h rfl)) hrun
  intro s i t h hs
  cases i with
  | tick =>
    obtain ⟨-, rfl⟩ := clocked_tick_eq_some.mp hs
    exact h
  | act i =>
    obtain ⟨hdue, hstate, -⟩ := clocked_act_eq_some.mp hs
    -- the clock keeps the same books as `Governs` demands of the property
    have hgoverns := hstep s.state i t.state hstate
    cases halarm : alarm i with
    | ignored =>
      rw [halarm] at hdue hgoverns
      rw [← Option.some.inj hdue]
      exact Iff.trans hgoverns h
    | set delay =>
      rw [halarm] at hdue hgoverns
      rw [← Option.some.inj hdue]
      exact iff_of_true hgoverns (Option.some_ne_none _)
    | stopped =>
      rw [halarm] at hdue hgoverns
      rw [← Option.some.inj hdue]
      exact iff_of_false hgoverns (fun hne => hne rfl)
    | rings =>
      rw [halarm] at hdue hgoverns
      obtain ⟨-, hnone⟩ := guarded_eq_some.mp hdue
      rw [← hnone]
      exact iff_of_false hgoverns (fun hne => hne rfl)

/-- The clock never stops for good: if it does not tick, the alarm can go off, as long as the
machine has a step for that while the alarm is set. -/
theorem exists_clocked_step
    (hrings : s.due ≠ none → ∃ i, alarm i = .rings ∧ M.step s.state i ≠ none) :
    (∃ t, (M.clocked alarm slack).step s .tick = some t) ∨
      ∃ i t, alarm i = .rings ∧ (M.clocked alarm slack).step s (.act i) = some t := by
  by_cases hearly : ∀ d ∈ s.due, s.now < d + slack
  · exact .inl ⟨_, clocked_tick_eq_some.mpr ⟨hearly, rfl⟩⟩
  · -- it may not tick, so the alarm is overdue, and going off is a step
    push Not at hearly
    obtain ⟨d, hd, hle⟩ := hearly
    obtain ⟨i, halarm, hstep⟩ := hrings (by rw [hd]; exact Option.some_ne_none d)
    obtain ⟨state, hstate⟩ := Option.ne_none_iff_exists'.mp hstep
    refine .inr ⟨i, ⟨state, s.now, none⟩, halarm, clocked_act_eq_some.mpr ⟨?_, hstate, rfl⟩⟩
    rw [halarm]
    exact if_pos ⟨d, hd, by omega⟩

/-- The clock never stops for good, if the alarm governs a property with which it can go off. -/
theorem exists_clocked_step_of_governed (P : σ → Prop) (hinit : ¬ P M.init)
    (hstep : ∀ s i t, M.step s i = some t → (alarm i).Governs (P s) (P t))
    (hrings : ∀ s, P s → ∃ i, alarm i = .rings ∧ M.step s i ≠ none)
    (hrun : (M.clocked alarm slack).run is = some s) :
    (∃ t, (M.clocked alarm slack).step s .tick = some t) ∨
      ∃ i t, alarm i = .rings ∧ (M.clocked alarm slack).step s (.act i) = some t :=
  exists_clocked_step fun hdue => hrings s.state ((governed_iff_due P hinit hstep hrun).mpr hdue)

end Machine

end NcsExamples
