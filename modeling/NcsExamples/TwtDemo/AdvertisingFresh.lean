import NcsExamples.TwtDemo.Advertising

/-! # TWT demo: fresh advertisements

What is published is as fresh as the last update. There is none yet when `main` starts to advertise,
and after a disconnection none until `update_adv_data_task` has run. It is the first task to run if
it comes to the head of the work queue then and no connection takes it out again. -/

namespace NcsExamples.TwtDemo.Advertising

variable {provSvcVer : BitVec 8} {provState : Bool} {s t : State} {i : Input} {is : List Input}
  {p : SvcData × Option AdvParam}

/-! ## What is published -/

/-- What a step publishes: `prov_svc_data`, and the parameters if advertising is started. -/
def publishes (s : State) : Input → Option (SvcData × Option AdvParam)
  | .mainAdvStart true | .advStart true => some (s.provSvcData, some s.provSvcData.advParam)
  | .advUpdateData true => some (s.provSvcData, none)
  | _ => none

/-- What is published has the version, the PROV bit of one of the updates since the last boot or
disconnection, and parameters that match it. -/
def Fresh (provSvcVer : BitVec 8) (updates : List Bool) (p : SvcData × Option AdvParam) : Prop :=
  p.1.version = provSvcVer ∧ ∃ provisioned ∈ updates, (p.1.Provisioned ↔ provisioned = true) ∧
    ∀ param, p.2 = some param → param = if provisioned then .slow else .fast

/-! ## What an update does -/

/-- An update sets the version. -/
@[simp] theorem updateWifiStatusInAdv_version {provisioned : Bool} {status : IfaceStatus}
    {d : SvcData} :
    (updateWifiStatusInAdv provSvcVer provisioned status d).version = provSvcVer := by
  unfold updateWifiStatusInAdv
  dsimp only
  split <;> rfl

/-- An update sets the PROV bit to the provisioning state, whatever the other bits are. -/
theorem updateWifiStatusInAdv_provisioned {provisioned : Bool} {status : IfaceStatus}
    {d : SvcData} : (updateWifiStatusInAdv provSvcVer provisioned status d).Provisioned ↔
      provisioned = true := by
  have hset : ∀ flag : BitVec 8,
      (flag ||| provStatusBit) &&& ~~~connStatusBit &&& provStatusBit ≠ 0 ∧
      (flag ||| provStatusBit ||| connStatusBit) &&& provStatusBit ≠ 0 := by decide
  have hclear : ∀ flag : BitVec 8,
      flag &&& ~~~provStatusBit &&& ~~~connStatusBit &&& provStatusBit = 0 ∧
      (flag &&& ~~~provStatusBit ||| connStatusBit) &&& provStatusBit = 0 := by decide
  unfold updateWifiStatusInAdv
  dsimp only
  cases provisioned with
  | true =>
    refine iff_of_true ?_ rfl
    split
    · exact (hset d.flag).1
    · exact (hset d.flag).2
  | false =>
    refine iff_of_false (not_not.mpr ?_) nofun
    split
    · exact (hclear d.flag).1
    · exact (hclear d.flag).2

/-- **What a step does to the service data.** It updates them, or forgets the updates there were, or
leaves both alone. -/
theorem Step.updates_cases (hs : Step provSvcVer s i t) :
    (t.updates = s.provState :: s.updates ∧ ∃ status, t.provSvcData =
      updateWifiStatusInAdv provSvcVer s.provState status s.provSvcData) ∨
    t.updates = [] ∨ t.updates = s.updates ∧ t.provSvcData = s.provSvcData := by
  cases hs with
  | mainUpdate status hat => exact .inl ⟨rfl, status, rfl⟩
  | taskUpdate status hat => exact .inl ⟨rfl, status, rfl⟩
  | disconnected => exact .inr (.inl rfl)
  | connected err =>
    refine .inr (.inr ?_)
    unfold Advertising.connected
    split <;> exact ⟨rfl, rfl⟩
  | _ => exact .inr (.inr ⟨rfl, rfl⟩)

/-! ## Runs -/

/-- The service data are those of the last update, if there is one since the last boot or
disconnection. -/
def UpToDate (provSvcVer : BitVec 8) (s : State) : Prop :=
  ∀ provisioned, s.updates.head? = some provisioned →
    s.provSvcData.version = provSvcVer ∧ (s.provSvcData.Provisioned ↔ provisioned = true)

theorem UpToDate.step (h : UpToDate provSvcVer s) (hs : Step provSvcVer s i t) :
    UpToDate provSvcVer t := by
  intro provisioned hhead
  rcases hs.updates_cases with ⟨hupdates, status, hdata⟩ | hupdates | ⟨hupdates, hdata⟩
  · rw [hupdates] at hhead
    obtain rfl : s.provState = provisioned := Option.some.inj hhead
    rw [hdata]
    exact ⟨updateWifiStatusInAdv_version, updateWifiStatusInAdv_provisioned⟩
  · rw [hupdates] at hhead
    cases hhead
  · rw [hupdates] at hhead
    rw [hdata]
    exact h provisioned hhead

theorem upToDate_run (hrun : (app provSvcVer provState).run is = some s) :
    UpToDate provSvcVer s := by
  have hinit : UpToDate provSvcVer (app provSvcVer provState).init := nofun
  refine Machine.invariant_run (UpToDate provSvcVer) ?_ hinit hrun
  intro s i t h hs
  exact h.step (step_of_eq_some hs)

/-- What is published is `prov_svc_data`, with the parameters for its PROV bit. -/
theorem publishes_eq_some (h : publishes s i = some p) :
    p.1 = s.provSvcData ∧ ∀ param, p.2 = some param → param = s.provSvcData.advParam := by
  unfold publishes at h
  split at h
  · obtain rfl := Option.some.inj h
    exact ⟨rfl, fun _ hparam => (Option.some.inj hparam).symm⟩
  · obtain rfl := Option.some.inj h
    exact ⟨rfl, fun _ hparam => (Option.some.inj hparam).symm⟩
  · obtain rfl := Option.some.inj h
    exact ⟨rfl, nofun⟩
  · cases h

/-- What is published is fresh exactly if there has been an update. -/
theorem UpToDate.fresh_iff (h : UpToDate provSvcVer s) (hp : publishes s i = some p) :
    Fresh provSvcVer s.updates p ↔ s.updates ≠ [] := by
  obtain ⟨hdata, hparam⟩ := publishes_eq_some hp
  constructor
  · rintro ⟨-, provisioned, hmem, -⟩
    exact List.ne_nil_of_mem hmem
  · intro hne
    obtain ⟨provisioned, updates, hupdates⟩ := List.exists_cons_of_ne_nil hne
    obtain ⟨hversion, hprov⟩ := h provisioned (by rw [hupdates]; rfl)
    rw [← hdata] at hversion hprov
    refine ⟨hversion, provisioned, by rw [hupdates]; exact List.mem_cons_self, hprov, ?_⟩
    intro param hp2
    rw [hparam param hp2, SvcData.advParam, ← hdata]
    exact if_congr hprov rfl rfl

/-! ## The boot -/

/-- Where the boot and the work queue stand. -/
structure Placed (s : State) : Prop where
  /-- The work queue is started when `main` is done. -/
  main : s.advDaemonWorkQ.started = true → s.main = .running
  /-- Before, there is no work. -/
  stopped : s.advDaemonWorkQ.started = false → s.handler = .idle ∧ s.advDaemonWorkQ.pending = []
  /-- A handler runs for an item. -/
  running : s.handler ≠ .idle → s.advDaemonWorkQ.running ≠ none
  /-- The first update is that of `main`. -/
  updates : s.main = .updated ∨ s.main = .running ∨ s.updates = []

/-- A handler runs only once the work queue is started. -/
theorem Placed.started (h : Placed s) (hhandler : s.handler ≠ .idle) :
    s.advDaemonWorkQ.started = true := by
  by_contra hnot
  exact hhandler (h.stopped (Bool.eq_false_iff.mpr hnot)).1

theorem Placed.step (h : Placed s) (hs : Step provSvcVer s i t) : Placed t := by
  cases hs with
  | provChange => exact ⟨h.main, h.stopped, h.running, h.updates⟩
  | btEnable ok hat | btWifiProvInit ok hat | mainAdvStart ok hat =>
    refine ⟨fun hstarted => ?_, h.stopped, h.running, ?_⟩
    · rw [h.main hstarted] at hat
      cases hat
    · have hupdates := h.updates
      simp only [hat, reduceCtorEq, false_or] at hupdates
      exact .inr (.inr hupdates)
  | mainUpdate status hat =>
    refine ⟨fun hstarted => ?_, h.stopped, h.running, .inl rfl⟩
    rw [h.main hstarted] at hat
    cases hat
  | workQueueStart hat =>
    have hstopped : s.advDaemonWorkQ.started = false := by
      rw [Bool.eq_false_iff]
      intro hstarted
      rw [h.main hstarted] at hat
      cases hat
    refine ⟨fun _ => rfl, fun hstopped' => ?_, fun hne => ?_, .inr (.inl rfl)⟩
    · cases hstopped'
    · exact absurd (h.stopped hstopped).1 hne
  | connected err =>
    unfold Advertising.connected
    split
    · exact h
    · refine ⟨h.main, fun hstopped => ?_, h.running, h.updates⟩
      obtain ⟨hidle, hpending⟩ := h.stopped hstopped
      exact ⟨hidle, by simp [DelayQueue.cancel, hpending]⟩
  | disconnected =>
    refine ⟨fun hstarted => ?_, fun hstopped => ?_, fun hne => ?_, .inr (.inr rfl)⟩
    · exact h.main (by simpa [disconnected] using hstarted)
    · obtain ⟨hidle, hpending⟩ := h.stopped (by simpa [disconnected] using hstopped)
      refine ⟨hidle, ?_⟩
      rw [disconnected, DelayQueue.rescheduleNoWait,
        DelayQueue.submit_of_stopped (by simpa [disconnected] using hstopped)]
      exact hpending
    · simpa [disconnected] using h.running hne
  | timeout work hdelayed =>
    refine ⟨fun hstarted => ?_, fun hstopped => ?_, fun hne => ?_, h.updates⟩
    · exact h.main (by simpa using hstarted)
    · obtain ⟨hidle, hpending⟩ := h.stopped (by simpa using hstopped)
      refine ⟨hidle, ?_⟩
      rw [DelayQueue.submit_of_stopped (by simpa using hstopped)]
      exact hpending
    · simpa using h.running hne
  | take work q htake =>
    obtain ⟨hnone, hhead, rfl⟩ := DelayQueue.take_eq_some.mp htake
    refine ⟨h.main, fun hstopped => ?_, fun _ => Option.some_ne_none work, h.updates⟩
    rw [(h.stopped hstopped).2] at hhead
    cases hhead
  | taskUpdate status hat | advUpdateData ok hat | advStop ok hat | advStart ok hat =>
    have hne : s.handler ≠ .idle := by simp [hat]
    have hstarted := h.started hne
    refine ⟨h.main, fun hstopped => ?_, fun _ => h.running hne, .inr (.inl (h.main hstarted))⟩
    exact absurd (hstarted.symm.trans hstopped) (by decide)
  | finish hat =>
    have hstarted := h.started (by simp [hat])
    refine ⟨h.main, fun hstopped => ?_, fun hne => absurd rfl hne, h.updates⟩
    exact absurd (hstarted.symm.trans hstopped) (by decide)

theorem placed_init : Placed (app provSvcVer provState).init :=
  ⟨nofun, fun _ => ⟨rfl, rfl⟩, fun hne => absurd rfl hne, .inr (.inr rfl)⟩

theorem placed_run (hrun : (app provSvcVer provState).run is = some s) : Placed s := by
  refine Machine.invariant_run Placed ?_ placed_init hrun
  intro s i t h hs
  exact h.step (step_of_eq_some hs)

/-- **The boot.** What `main` publishes is never fresh. -/
theorem main_not_fresh {ok : Bool} (hrun : (app provSvcVer provState).run is = some s)
    (hs : step provSvcVer s (.mainAdvStart ok) = some t) : ¬ Fresh provSvcVer s.updates p := by
  have hstep := step_of_eq_some hs
  cases hstep with
  | mainAdvStart ok hat =>
    have hupdates := (placed_run hrun).updates
    simp only [hat, reduceCtorEq, false_or] at hupdates
    rw [hupdates]
    rintro ⟨-, _, hmem, -⟩
    cases hmem

/-! ## Orderly reconnections -/

/-- No task is between its first call and its last one. -/
def Handler.BetweenTasks (h : Handler) : Prop := h = .idle ∨ h = .returned

instance : DecidablePred Handler.BetweenTasks := fun _ => inferInstanceAs (Decidable (_ ∨ _))

/-- `update_adv_param_work` is neither in the queue nor waiting for its delay. -/
def ParamDone (s : State) : Prop :=
  .param ∉ s.advDaemonWorkQ.pending ∧ .param ∉ s.advDaemonWorkQ.delayed

instance : DecidablePred ParamDone := fun _ => inferInstanceAs (Decidable (_ ∧ _))

/-- Once the work queue is started, a disconnection finds `update_adv_data_task` before its update,
or no task between its calls and `update_adv_data_work` at the head of the queue, or the queue empty
and that item not being canceled. A connection between a disconnection and its update finds the
update about to be made, or `update_adv_param_work` done. -/
def Orderly (s : State) : Input → Prop
  | .disconnected => s.advDaemonWorkQ.started = true → s.handler = .dataStart ∨
      s.handler.BetweenTasks ∧ (s.advDaemonWorkQ.pending.head? = some .data ∨
        s.advDaemonWorkQ.pending = [] ∧ s.advDaemonWorkQ.canceling = false)
  | .connected err => err = 0 → s.advDaemonWorkQ.started = true → s.updates = [] →
      s.handler = .dataStart ∨ ParamDone s
  | _ => True

instance (s : State) : DecidablePred (Orderly s) := fun i => by
  unfold Orderly
  split <;> infer_instance

/-- The next task to publish updates first. -/
def UpdateNext (s : State) : Prop :=
  s.handler = .dataStart ∨
    s.handler.BetweenTasks ∧ (s.advDaemonWorkQ.pending.head? = some .data ∨ ParamDone s)

/-- What orderly connections and disconnections keep. -/
structure Ordered (s : State) : Prop where
  placed : Placed s
  next : s.advDaemonWorkQ.started = true → s.updates = [] → UpdateNext s

/-- While a task publishes, there has been an update. -/
theorem Ordered.updates_ne_nil (h : Ordered s) (hstart : s.handler ≠ .dataStart)
    (hbusy : ¬ s.handler.BetweenTasks) : s.updates ≠ [] := by
  intro hupdates
  have hrunning : s.handler ≠ .idle := fun hidle => hbusy (.inl hidle)
  rcases h.next (h.placed.started hrunning) hupdates with hat | ⟨hat, -⟩
  · exact hstart hat
  · exact hbusy hat

/-- A connection leaves `update_adv_data_task` next, if it is orderly. -/
theorem UpdateNext.connected {err : BitVec 8} (h : UpdateNext s)
    (hok : err = 0 → s.handler = .dataStart ∨ ParamDone s) :
    UpdateNext (Advertising.connected err s) := by
  unfold Advertising.connected
  split
  · exact h
  · next herr =>
    rcases hok (not_not.mp herr) with hat | ⟨hpending, hdelayed⟩
    · exact .inl hat
    · -- nothing is going to be published
      refine h.imp_right fun ⟨hbetween, _⟩ => ⟨hbetween, .inr ⟨?_, ?_⟩⟩
      · exact fun hmem => hpending (List.mem_of_mem_filter hmem)
      · exact fun hmem => hdelayed (List.mem_of_mem_filter hmem)

/-- An orderly disconnection submits `update_adv_data_work` as the next item. -/
theorem updateNext_disconnected (hstarted : s.advDaemonWorkQ.started = true)
    (hok : Orderly s .disconnected) : UpdateNext (disconnected s) := by
  refine (hok hstarted).imp_right fun ⟨hbetween, hqueue⟩ => ⟨hbetween, .inl ?_⟩
  rcases hqueue with hhead | ⟨hempty, hcanceling⟩
  · exact DelayQueue.head?_submit hhead
  · refine DelayQueue.head?_submit_self hstarted hcanceling ?_
    rintro work hmem
    have hmem' : work ∈ s.advDaemonWorkQ.pending := hmem
    rw [hempty] at hmem'
    cases hmem'

/-- The end of a delay leaves it next. -/
theorem UpdateNext.timeout {work : Work} (h : UpdateNext s)
    (hdelayed : work ∈ s.advDaemonWorkQ.delayed) :
    UpdateNext { s with advDaemonWorkQ := (s.advDaemonWorkQ.unschedule work).submit work } := by
  refine h.imp_right fun ⟨hbetween, hqueue⟩ => ⟨hbetween, ?_⟩
  rcases hqueue with hhead | ⟨hpending, hparam⟩
  · exact .inl (DelayQueue.head?_submit hhead)
  · -- the delay is not that of `update_adv_param_work`
    have hne : Work.param ≠ work := fun heq => hparam (heq ▸ hdelayed)
    refine .inr ⟨?_, ?_⟩
    · intro hmem
      rcases DelayQueue.eq_or_mem_of_mem_submit hmem with heq | hmem
      · exact hne heq
      · exact hpending hmem
    · intro hmem
      rw [DelayQueue.submit_delayed] at hmem
      exact hparam (List.mem_of_mem_filter hmem)

/-- What is taken next is `update_adv_data_work`. -/
theorem UpdateNext.eq_data {work : Work} (h : UpdateNext s) (hidle : s.handler = .idle)
    (hhead : s.advDaemonWorkQ.pending.head? = some work) : work = .data := by
  rcases h with hat | ⟨-, hdata | ⟨hpending, -⟩⟩
  · rw [hidle] at hat
    cases hat
  · exact Option.some.inj (hhead.symm.trans hdata)
  · cases work with
    | data => rfl
    | param => exact absurd (List.mem_of_mem_head? hhead) hpending

theorem Ordered.step (h : Ordered s) (hok : Orderly s i) (hs : Step provSvcVer s i t) :
    Ordered t := by
  refine ⟨h.placed.step hs, fun hstarted hupdates => ?_⟩
  cases hs with
  | provChange => exact h.next hstarted hupdates
  | btEnable ok hat | btWifiProvInit ok hat | mainAdvStart ok hat =>
    rw [h.placed.main hstarted] at hat
    cases hat
  | mainUpdate | taskUpdate => cases hupdates
  | workQueueStart hat =>
    -- there is no work yet
    have hstopped : s.advDaemonWorkQ.started = false := by
      rw [Bool.eq_false_iff]
      intro hstarted
      rw [h.placed.main hstarted] at hat
      cases hat
    exact .inr ⟨.inl (h.placed.stopped hstopped).1, .inr ⟨List.not_mem_nil, List.not_mem_nil⟩⟩
  | connected err =>
    have hsame : (Advertising.connected err s).updates = s.updates ∧
        (Advertising.connected err s).advDaemonWorkQ.started = s.advDaemonWorkQ.started := by
      unfold Advertising.connected
      split <;> exact ⟨rfl, rfl⟩
    rw [hsame.1] at hupdates
    rw [hsame.2] at hstarted
    exact (h.next hstarted hupdates).connected fun herr => hok herr hstarted hupdates
  | disconnected => exact updateNext_disconnected (by simpa [disconnected] using hstarted) hok
  | timeout work hdelayed =>
    exact (h.next (by simpa using hstarted) hupdates).timeout hdelayed
  | take work q htake =>
    obtain ⟨hnone, hhead, rfl⟩ := DelayQueue.take_eq_some.mp htake
    have hidle : s.handler = .idle := by
      by_contra hne
      exact h.placed.running hne hnone
    obtain rfl := (h.next hstarted hupdates).eq_data hidle hhead
    exact .inl rfl
  | advUpdateData ok hat | advStop ok hat | advStart ok hat =>
    refine absurd hupdates (h.updates_ne_nil ?_ ?_)
    · simp [hat]
    · simp [hat, Handler.BetweenTasks]
  | finish hat =>
    rcases h.next hstarted hupdates with hstart | ⟨-, hqueue⟩
    · rw [hat] at hstart
      cases hstart
    · exact .inr ⟨.inl rfl, hqueue⟩

theorem ordered_run (hok : (app provSvcVer provState).Meets Orderly is)
    (hrun : (app provSvcVer provState).run is = some s) : Ordered s := by
  refine Machine.invariant Ordered ⟨placed_init, nofun⟩ ?_ hok hrun
  intro s i t h hi hs
  exact h.step hi (step_of_eq_some hs)

/-- **Provisioning advertisements are fresh**, except for that of `main`: in every run whose
connections and disconnections are orderly, what is published is fresh exactly if it is one of the
two tasks that publishes it. -/
theorem advertisement_fresh_orderly (provSvcVer : BitVec 8) (provState : Bool) (is : List Input)
    (s t : State) (i : Input) (p : SvcData × Option AdvParam)
    (hok : (app provSvcVer provState).Meets Orderly is)
    (hrun : (app provSvcVer provState).run is = some s) (hs : step provSvcVer s i = some t)
    (hp : publishes s i = some p) :
    Fresh provSvcVer s.updates p ↔ ∀ ok, i ≠ .mainAdvStart ok := by
  have hordered : Ordered s := ordered_run hok hrun
  have hstep := step_of_eq_some hs
  cases hstep with
  | mainAdvStart ok => exact iff_of_false (main_not_fresh hrun hs) fun h => h ok rfl
  | advUpdateData ok hat | advStart ok hat =>
    refine iff_of_true ?_ nofun
    rw [(upToDate_run hrun).fresh_iff hp]
    refine hordered.updates_ne_nil ?_ ?_
    · simp [hat]
    · simp [hat, Handler.BetweenTasks]
  | _ => cases hp

/-- The Wi-Fi is not connected. -/
def notConnected : IfaceStatus := ⟨0, false, 0⟩

/-- The boot, with every call succeeding. -/
def boot : List Input :=
  [.btEnable true, .btWifiProvInit true, .mainAdvStart true, .mainUpdate notConnected,
    .workQueueStart]

/-- After a connection in which the application was provisioned, both tasks publish. -/
theorem advertisement_fresh_reconnect : ∃ s p, (app 1 false).run (boot ++ [.connected 0,
      .provChange true, .disconnected, .take, .taskUpdate notConnected, .advUpdateData true, .finish,
      .timeout .param, .take, .advStop true]) = some s ∧
    publishes s (.advStart true) = some p ∧ Fresh 1 s.updates p :=
  ⟨_, _, rfl, rfl, (advertisement_fresh_orderly 1 false (boot ++ [.connected 0, .provChange true,
    .disconnected, .take, .taskUpdate notConnected, .advUpdateData true, .finish, .timeout .param,
    .take, .advStop true]) _ _ (.advStart true) _ (by decide) rfl rfl rfl).mpr (by decide)⟩

/-- Version 0 and an unprovisioned application are published at the boot, whatever the provisioning
state is; and a disconnection after `bt_le_adv_stop` makes `bt_le_adv_start` publish what was true
before the connection. -/
theorem advertisement_not_fresh :
    (∃ s p, (app 1 true).run [.btEnable true, .btWifiProvInit true] = some s ∧
      publishes s (.mainAdvStart true) = some p ∧ ¬ Fresh 1 s.updates p) ∧
    ∃ s p, (app 1 false).run (boot ++ [.connected 0, .disconnected, .take, .taskUpdate notConnected,
        .advUpdateData true, .finish, .connected 0, .provChange true, .timeout .param, .take,
        .advStop true, .disconnected]) = some s ∧
      publishes s (.advStart true) = some p ∧ ¬ Fresh 1 s.updates p := by
  constructor
  · refine ⟨_, _, rfl, rfl, fun h => ?_⟩
    obtain ⟨-, _, hmem, -⟩ := h
    cases hmem
  · refine ⟨_, _, rfl, rfl, fun h => ?_⟩
    obtain ⟨-, _, hmem, -⟩ := h
    cases hmem

/-! ## Connections and disconnections that are not orderly -/

/-- The thread of the work queue against the handlers. -/
structure Employed (s : State) : Prop where
  free : s.handler = .idle → s.advDaemonWorkQ.running = none
  canceling : s.advDaemonWorkQ.canceling = true → s.advDaemonWorkQ.running = some .data

theorem Employed.step (h : Employed s) (hs : Step provSvcVer s i t) : Employed t := by
  cases hs with
  | provChange | btEnable | btWifiProvInit | mainAdvStart | mainUpdate =>
    exact ⟨h.free, h.canceling⟩
  | workQueueStart =>
    refine ⟨fun _ => rfl, fun hcanceling => ?_⟩
    cases hcanceling
  | connected err =>
    unfold Advertising.connected
    split
    · exact h
    · refine ⟨h.free, fun hcanceling => ?_⟩
      rcases Bool.or_eq_true_iff.mp hcanceling with hbefore | hnow
      · exact h.canceling hbefore
      · exact of_decide_eq_true hnow
  | disconnected =>
    refine ⟨fun hidle => ?_, fun hcanceling => ?_⟩
    · simpa [disconnected] using h.free hidle
    · have hbefore : s.advDaemonWorkQ.canceling = true := by
        rw [disconnected, DelayQueue.rescheduleNoWait, DelayQueue.submit_canceling] at hcanceling
        exact hcanceling
      simpa [disconnected] using h.canceling hbefore
  | timeout work =>
    refine ⟨fun hidle => ?_, fun hcanceling => ?_⟩
    · simpa using h.free hidle
    · rw [DelayQueue.submit_canceling] at hcanceling
      simpa using h.canceling hcanceling
  | take work q htake =>
    obtain ⟨hnone, -, rfl⟩ := DelayQueue.take_eq_some.mp htake
    refine ⟨fun hidle => ?_, fun hcanceling => ?_⟩
    · cases work <;> cases hidle
    · rw [h.canceling hcanceling] at hnone
      cases hnone
  | taskUpdate | advUpdateData | advStart =>
    refine ⟨fun hidle => ?_, h.canceling⟩
    cases hidle
  | advStop ok =>
    refine ⟨fun hidle => ?_, h.canceling⟩
    cases ok <;> cases hidle
  | finish =>
    refine ⟨fun _ => rfl, fun hcanceling => ?_⟩
    cases hcanceling

theorem employed_run (hrun : (app provSvcVer provState).run is = some s) : Employed s := by
  have hinit : Employed (app provSvcVer provState).init := ⟨fun _ => rfl, nofun⟩
  refine Machine.invariant_run Employed ?_ hinit hrun
  intro s i t h hs
  exact h.step (step_of_eq_some hs)

/-- Something can be published that is not fresh. -/
def GoesStale (provSvcVer : BitVec 8) (s : State) : Prop :=
  ∃ provState js t i u p, (app provSvcVer provState).runFrom s js = some t ∧
    step provSvcVer t i = some u ∧ publishes t i = some p ∧ ¬ Fresh provSvcVer t.updates p

/-- A state goes stale if the next one does. -/
theorem GoesStale.of_step (hs : step provSvcVer s i = some t) (h : GoesStale provSvcVer t) :
    GoesStale provSvcVer s := by
  obtain ⟨provState, js, u, j, v, p, hrun, hj, hp, hstale⟩ := h
  refine ⟨provState, i :: js, u, j, v, p, ?_, hj, hp, hstale⟩
  exact (app provSvcVer provState).runFrom_cons_eq_some.mpr ⟨t, hs, hrun⟩

/-- A publication without an update is not fresh. -/
theorem goesStale_of_publishes (hupdates : s.updates = []) (hs : step provSvcVer s i = some t)
    (hp : publishes s i = some p) : GoesStale provSvcVer s := by
  refine ⟨true, [], s, i, t, p, rfl, hs, hp, ?_⟩
  rw [hupdates]
  rintro ⟨-, _, hmem, -⟩
  cases hmem

/-- `update_adv_param_task` publishes without an update. -/
theorem goesStale_of_paramStart (hupdates : s.updates = []) (hat : s.handler = .paramStart) :
    GoesStale provSvcVer s :=
  .of_step (i := .advStop true) (if_pos hat)
    (goesStale_of_publishes (i := .advStart true) hupdates rfl rfl)

/-- So it does if its item is the next one in the queue. -/
theorem goesStale_of_head (hupdates : s.updates = []) (hbetween : s.handler.BetweenTasks)
    (hfree : s.handler = .idle → s.advDaemonWorkQ.running = none)
    (hhead : s.advDaemonWorkQ.pending.head? = some .param) : GoesStale provSvcVer s := by
  have htakes : ∀ u : State, u.updates = [] → u.advDaemonWorkQ.running = none →
      u.advDaemonWorkQ.pending.head? = some .param → GoesStale provSvcVer u := by
    intro u hupdates hrunning hhead
    refine .of_step (i := .take) (Option.map_eq_some_iff.mpr
      ⟨_, DelayQueue.take_eq_some.mpr ⟨hrunning, hhead, rfl⟩, rfl⟩) ?_
    exact goesStale_of_paramStart hupdates rfl
  rcases hbetween with hidle | hreturned
  · exact htakes s hupdates (hfree hidle) hhead
  · exact .of_step (i := .finish) (if_pos hreturned) (htakes _ hupdates rfl hhead)

/-- And if its item waits for its delay and the queue is empty. -/
theorem goesStale_of_delayed (hupdates : s.updates = []) (hbetween : s.handler.BetweenTasks)
    (hfree : s.handler = .idle → s.advDaemonWorkQ.running = none)
    (hstarted : s.advDaemonWorkQ.started = true)
    (hcanceling : s.advDaemonWorkQ.canceling = true → s.advDaemonWorkQ.running = some .data)
    (hempty : s.advDaemonWorkQ.pending = []) (hdelayed : .param ∈ s.advDaemonWorkQ.delayed) :
    GoesStale provSvcVer s := by
  have haccepts : (s.advDaemonWorkQ.unschedule .param).Accepts .param := by
    refine ⟨hstarted, ?_, ?_⟩
    · show .param ∉ s.advDaemonWorkQ.pending
      rw [hempty]
      exact List.not_mem_nil
    · rintro ⟨hrunning, hcancel⟩
      have hdata := hcanceling hcancel
      rw [show s.advDaemonWorkQ.running = some .param from hrunning] at hdata
      cases hdata
  have hexpire : s.advDaemonWorkQ.expire .param =
      some ((s.advDaemonWorkQ.unschedule .param).submit .param) := if_pos hdelayed
  refine .of_step (i := .timeout .param) (Option.map_eq_some_iff.mpr ⟨_, hexpire, rfl⟩) ?_
  refine goesStale_of_head hupdates hbetween (fun hidle => ?_) ?_
  · simpa using hfree hidle
  · rw [DelayQueue.pending_submit, if_pos haccepts]
    show (s.advDaemonWorkQ.pending ++ [Work.param]).head? = _
    rw [hempty]
    rfl

/-- A disconnection that is not orderly goes stale. -/
theorem goesStale_disconnected (hemployed : Employed s) (hnot : ¬ Orderly s .disconnected) :
    GoesStale provSvcVer (disconnected s) := by
  obtain ⟨hstarted, hnot⟩ := Classical.not_imp.mp hnot
  obtain ⟨hstart, hnot⟩ := not_or.mp hnot
  have hemployed' : Employed (disconnected s) :=
    hemployed.step (.disconnected : Step provSvcVer s .disconnected (disconnected s))
  by_cases hbetween : s.handler.BetweenTasks
  · obtain ⟨hhead, hqueue⟩ := not_or.mp (not_and.mp hnot hbetween)
    cases hpending : s.advDaemonWorkQ.pending with
    | nil =>
      -- `update_adv_data_work` is being canceled, so it is not submitted
      have hcanceling : s.advDaemonWorkQ.canceling = true :=
        Bool.of_not_eq_false fun hfalse => hqueue ⟨hpending, hfalse⟩
      have hrefused : ¬ ((s.advDaemonWorkQ.rescheduleDelayed .param).unschedule .data).Accepts
          .data := fun haccepts => haccepts.2.2 ⟨hemployed.canceling hcanceling, hcanceling⟩
      refine goesStale_of_delayed rfl hbetween hemployed'.free ?_ hemployed'.canceling ?_ ?_
      · simpa [disconnected] using hstarted
      · rw [disconnected, DelayQueue.rescheduleNoWait, DelayQueue.pending_submit, if_neg hrefused]
        exact hpending
      · rw [disconnected, DelayQueue.rescheduleNoWait, DelayQueue.submit_delayed]
        simp [DelayQueue.unschedule, DelayQueue.rescheduleDelayed]
    | cons work works =>
      have hfirst : s.advDaemonWorkQ.pending.head? = some work := by rw [hpending]; rfl
      have hparam : work = .param := by
        cases work with
        | data => exact absurd hfirst hhead
        | param => rfl
      exact goesStale_of_head rfl hbetween hemployed'.free
        (DelayQueue.head?_submit (hparam ▸ hfirst))
  · -- a task is about to publish
    cases hat : s.handler with
    | idle | returned => simp [hat, Handler.BetweenTasks] at hbetween
    | dataStart => exact absurd hat hstart
    | dataUpdated =>
      exact goesStale_of_publishes (i := .advUpdateData true) rfl (if_pos hat) rfl
    | paramStart => exact goesStale_of_paramStart rfl hat
    | paramStopped => exact goesStale_of_publishes (i := .advStart true) rfl (if_pos hat) rfl

/-- So does a connection. -/
theorem goesStale_connected {err : BitVec 8} (h : Ordered s) (hemployed : Employed s)
    (hnot : ¬ Orderly s (.connected err)) : GoesStale provSvcVer (connected err s) := by
  obtain ⟨herr, hnot⟩ := Classical.not_imp.mp hnot
  obtain ⟨hstarted, hnot⟩ := Classical.not_imp.mp hnot
  obtain ⟨hupdates, hnot⟩ := Classical.not_imp.mp hnot
  obtain ⟨hstart, hdone⟩ := not_or.mp hnot
  obtain ⟨hbetween, -⟩ := (h.next hstarted hupdates).resolve_left hstart
  have hemployed' : Employed (connected err s) :=
    hemployed.step (.connected err : Step provSvcVer s (.connected err) (connected err s))
  rw [connected, if_neg (not_not.mpr herr)] at hemployed' ⊢
  have hleft : ∀ work ∈ s.advDaemonWorkQ.pending.filter (· ≠ .data), work = .param := by
    intro work hmem
    have hne := of_decide_eq_true (List.mem_filter.mp hmem).2
    cases work with
    | data => exact absurd rfl hne
    | param => rfl
  cases hpending : s.advDaemonWorkQ.pending.filter (· ≠ .data) with
  | nil =>
    -- the other item waits for its delay
    have hparam : .param ∉ s.advDaemonWorkQ.pending := fun hmem =>
      List.filter_eq_nil_iff.mp hpending _ hmem (by decide)
    have hdelayed : .param ∈ s.advDaemonWorkQ.delayed := by
      by_contra hno
      exact hdone ⟨hparam, hno⟩
    refine goesStale_of_delayed hupdates hbetween hemployed'.free hstarted hemployed'.canceling
      hpending ?_
    exact List.mem_filter.mpr ⟨hdelayed, by decide⟩
  | cons work works =>
    obtain rfl : work = .param := hleft work (by rw [hpending]; exact List.mem_cons_self)
    refine goesStale_of_head hupdates hbetween hemployed'.free ?_
    show (s.advDaemonWorkQ.pending.filter (· ≠ .data)).head? = _
    rw [hpending]
    rfl

/-- **No other condition will do.** After a connection or a disconnection that is not orderly, in a
run whose steps were orderly before, something can be published that is not fresh. -/
theorem goesStale_of_not_orderly (hok : (app provSvcVer provState).Meets Orderly is)
    (hrun : (app provSvcVer provState).run is = some s) (hs : step provSvcVer s i = some t)
    (hnot : ¬ Orderly s i) : GoesStale provSvcVer t := by
  have hemployed := employed_run hrun
  cases i with
  | disconnected =>
    obtain rfl := Option.some.inj hs
    exact goesStale_disconnected hemployed hnot
  | connected err =>
    obtain rfl := Option.some.inj hs
    exact goesStale_connected (ordered_run hok hrun) hemployed hnot
  | _ => exact absurd trivial hnot

end NcsExamples.TwtDemo.Advertising
