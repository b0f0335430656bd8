import Mathlib.Data.Int.Notation
import NcsExamples.Lib.DelayQueue
import NcsExamples.Lib.Machine

/-! # TWT demo: provisioning advertisements

`prov_svc_data` is published by `main`, by `update_adv_data_task` and by `update_adv_param_task`, and
brought up to date by `update_wifi_status_in_adv`, which `main` calls after it has published and the
first of the two tasks calls before. A disconnection submits the first task at once and the second
one after a second; a connection cancels the first one only. The periodic update is disabled. -/

namespace NcsExamples.TwtDemo.Advertising

/-! ## The service data -/

/-- `ADV_DATA_FLAG_PROV_STATUS_BIT`. -/
def provStatusBit : BitVec 8 := 1#8 <<< 0

/-- `ADV_DATA_FLAG_CONN_STATUS_BIT`. -/
def connStatusBit : BitVec 8 := 1#8 <<< 1

/-- The bytes of `prov_svc_data` that are written. -/
structure SvcData where
  /-- The byte at `ADV_DATA_VERSION_IDX`. -/
  version : BitVec 8
  /-- The byte at `ADV_DATA_FLAG_IDX`. -/
  flag : BitVec 8
  /-- The byte at `ADV_DATA_RSSI_IDX`. -/
  rssi : BitVec 8
  deriving DecidableEq, Repr

/-- What `net_mgmt(NET_REQUEST_WIFI_IFACE_STATUS)` returns. -/
structure IfaceStatus where
  rc : ℤ
  /-- `status.state >= WIFI_STATE_ASSOCIATED`. -/
  associated : Bool
  rssi : ℤ
  deriving DecidableEq, Repr

/-- `update_wifi_status_in_adv`, with the version `PROV_SVC_VER` and what `bt_wifi_prov_state_get`
returns. -/
def updateWifiStatusInAdv (provSvcVer : BitVec 8) (provisioned : Bool) (status : IfaceStatus)
    (d : SvcData) : SvcData :=
  let flag := if provisioned then d.flag ||| provStatusBit else d.flag &&& ~~~provStatusBit
  if status.rc ≠ 0 ∨ status.associated = false then
    ⟨provSvcVer, flag &&& ~~~connStatusBit, BitVec.ofInt 8 (-128)⟩
  else ⟨provSvcVer, flag ||| connStatusBit, BitVec.ofInt 8 status.rssi⟩

/-- The advertising parameters. -/
inductive AdvParam
  /-- `PROV_BT_LE_ADV_PARAM_FAST`. -/
  | fast
  /-- `PROV_BT_LE_ADV_PARAM_SLOW`. -/
  | slow
  deriving DecidableEq, Repr

/-- The PROV bit is set. -/
def SvcData.Provisioned (d : SvcData) : Prop := d.flag &&& provStatusBit ≠ 0

instance : DecidablePred SvcData.Provisioned := fun _ => inferInstanceAs (Decidable (_ ≠ _))

/-- The parameters that are given to `bt_le_adv_start`. -/
def SvcData.advParam (d : SvcData) : AdvParam := if d.Provisioned then .slow else .fast

/-! ## The states and the steps -/

/-- The items of `adv_daemon_work_q`. -/
inductive Work
  /-- `update_adv_data_work`. -/
  | data
  /-- `update_adv_param_work`. -/
  | param
  deriving DecidableEq, Repr

/-- Where the handler that `adv_daemon_work_q` runs stands. -/
inductive Handler
  /-- No handler runs. -/
  | idle
  /-- `update_adv_data_task`, before `update_wifi_status_in_adv`. -/
  | dataStart
  /-- Before `bt_le_adv_update_data`. -/
  | dataUpdated
  /-- `update_adv_param_task`, before `bt_le_adv_stop`. -/
  | paramStart
  /-- Before `bt_le_adv_start`. -/
  | paramStopped
  /-- At the end of either. -/
  | returned
  deriving DecidableEq, Repr

/-- Where the handler of an item begins. -/
def Work.handler : Work → Handler
  | .data => .dataStart
  | .param => .paramStart

/-- Where `main` stands. -/
inductive Main
  /-- Before `bt_enable`. -/
  | start
  /-- Before `bt_wifi_prov_init`. -/
  | enabled
  /-- Before `bt_le_adv_start`. -/
  | initialized
  /-- Before `update_wifi_status_in_adv`. -/
  | advertising
  /-- Before `k_work_queue_init`. -/
  | updated
  /-- After `k_work_init_delayable`. -/
  | running
  /-- A call has failed, and `main` has returned. -/
  | returned
  deriving DecidableEq, Repr

/-- The state of the application. -/
structure State where
  /-- What `bt_wifi_prov_state_get` returns. -/
  provState : Bool
  provSvcData : SvcData
  main : Main
  /-- `adv_daemon_work_q`. -/
  advDaemonWorkQ : DelayQueue Work
  handler : Handler
  /-- History: what `bt_wifi_prov_state_get` returned in the executions of
  `update_wifi_status_in_adv` since the last boot or disconnection, the last one first. -/
  updates : List Bool
  deriving DecidableEq, Repr

/-- `connected`. -/
def connected (err : BitVec 8) (s : State) : State :=
  if err ≠ 0 then s else { s with advDaemonWorkQ := s.advDaemonWorkQ.cancel .data }

/-- `disconnected`. -/
def disconnected (s : State) : State :=
  { s with
    advDaemonWorkQ := (s.advDaemonWorkQ.rescheduleDelayed .param).rescheduleNoWait .data
    updates := [] }

/-- A call of `update_wifi_status_in_adv`. -/
def update (provSvcVer : BitVec 8) (status : IfaceStatus) (s : State) : State :=
  { s with
    provSvcData := updateWifiStatusInAdv provSvcVer s.provState status s.provSvcData
    updates := s.provState :: s.updates }

/-- What happens next. -/
inductive Input
  /-- The provisioning changes. -/
  | provChange (provisioned : Bool)
  /-- `main` calls `bt_enable`, which succeeds or not. -/
  | btEnable (ok : Bool)
  /-- `main` calls `bt_wifi_prov_init`. -/
  | btWifiProvInit (ok : Bool)
  /-- `main` calls `bt_le_adv_start`. -/
  | mainAdvStart (ok : Bool)
  /-- `main` calls `update_wifi_status_in_adv`. -/
  | mainUpdate (status : IfaceStatus)
  /-- `main` starts the work queue and initializes its items. -/
  | workQueueStart
  /-- A connection, or an attempt at one. -/
  | connected (err : BitVec 8)
  /-- A disconnection. -/
  | disconnected
  /-- The delay of an item is over. -/
  | timeout (work : Work)
  /-- The work queue takes the next item. -/
  | take
  /-- The handler calls `update_wifi_status_in_adv`. -/
  | taskUpdate (status : IfaceStatus)
  /-- The handler calls `bt_le_adv_update_data`. -/
  | advUpdateData (ok : Bool)
  /-- The handler calls `bt_le_adv_stop`. -/
  | advStop (ok : Bool)
  /-- The handler calls `bt_le_adv_start`. -/
  | advStart (ok : Bool)
  /-- The handler returns. -/
  | finish
  deriving DecidableEq, Repr

/-- One step of the application. -/
def step (provSvcVer : BitVec 8) (s : State) : Input → Option State
  | .provChange provisioned => some { s with provState := provisioned }
  | .btEnable ok => if s.main = .start then
      some { s with main := if ok then .enabled else .returned } else none
  | .btWifiProvInit ok => if s.main = .enabled then
      some { s with main := if ok then .initialized else .returned } else none
  | .mainAdvStart ok => if s.main = .initialized then
      some { s with main := if ok then .advertising else .returned } else none
  | .mainUpdate status => if s.main = .advertising then
      some { update provSvcVer status s with main := .updated } else none
  | .workQueueStart => if s.main = .updated then
      -- a delay that runs since before is forgotten with the initialization of its item
      some { s with advDaemonWorkQ := .empty true, main := .running } else none
  | .connected err => some (connected err s)
  | .disconnected => some (disconnected s)
  | .timeout work => (s.advDaemonWorkQ.expire work).map fun q => { s with advDaemonWorkQ := q }
  | .take => s.advDaemonWorkQ.take.map fun p =>
      { s with advDaemonWorkQ := p.2, handler := p.1.handler }
  | .taskUpdate status => if s.handler = .dataStart then
      some { update provSvcVer status s with handler := .dataUpdated } else none
  | .advUpdateData _ => if s.handler = .dataUpdated then
      some { s with handler := .returned } else none
  | .advStop ok => if s.handler = .paramStart then
      some { s with handler := if ok then .paramStopped else .returned } else none
  | .advStart _ => if s.handler = .paramStopped then
      some { s with handler := .returned } else none
  | .finish => if s.handler = .returned then
      some { s with advDaemonWorkQ := s.advDaemonWorkQ.finish, handler := .idle } else none

/-- The application from the boot on, with the version `PROV_SVC_VER` and the provisioning state at
the beginning. -/
def app (provSvcVer : BitVec 8) (provState : Bool) : Machine State Input :=
  ⟨⟨provState, ⟨0, 0, 0⟩, .start, .empty false, .idle, []⟩, step provSvcVer⟩

variable {provSvcVer : BitVec 8} {s t : State} {i : Input}

/-- The steps of the application, with what each one finds. -/
inductive Step (provSvcVer : BitVec 8) (s : State) : Input → State → Prop
  | provChange (provisioned : Bool) :
      Step provSvcVer s (.provChange provisioned) { s with provState := provisioned }
  | btEnable (ok : Bool) (hat : s.main = .start) :
      Step provSvcVer s (.btEnable ok) { s with main := if ok then .enabled else .returned }
  | btWifiProvInit (ok : Bool) (hat : s.main = .enabled) :
      Step provSvcVer s (.btWifiProvInit ok)
        { s with main := if ok then .initialized else .returned }
  | mainAdvStart (ok : Bool) (hat : s.main = .initialized) :
      Step provSvcVer s (.mainAdvStart ok)
        { s with main := if ok then .advertising else .returned }
  | mainUpdate (status : IfaceStatus) (hat : s.main = .advertising) :
      Step provSvcVer s (.mainUpdate status) { update provSvcVer status s with main := .updated }
  | workQueueStart (hat : s.main = .updated) :
      Step provSvcVer s .workQueueStart { s with advDaemonWorkQ := .empty true, main := .running }
  | connected (err : BitVec 8) : Step provSvcVer s (.connected err) (connected err s)
  | disconnected : Step provSvcVer s .disconnected (disconnected s)
  | timeout (work : Work) (hdelayed : work ∈ s.advDaemonWorkQ.delayed) :
      Step provSvcVer s (.timeout work)
        { s with advDaemonWorkQ := (s.advDaemonWorkQ.unschedule work).submit work }
  | take (work : Work) (q : DelayQueue Work) (htake : s.advDaemonWorkQ.take = some (work, q)) :
      Step provSvcVer s .take { s with advDaemonWorkQ := q, handler := work.handler }
  | taskUpdate (status : IfaceStatus) (hat : s.handler = .dataStart) :
      Step provSvcVer s (.taskUpdate status)
        { update provSvcVer status s with handler := .dataUpdated }
  | advUpdateData (ok : Bool) (hat : s.handler = .dataUpdated) :
      Step provSvcVer s (.advUpdateData ok) { s with handler := .returned }
  | advStop (ok : Bool) (hat : s.handler = .paramStart) :
      Step provSvcVer s (.advStop ok)
        { s with handler := if ok then .paramStopped else .returned }
  | advStart (ok : Bool) (hat : s.handler = .paramStopped) :
      Step provSvcVer s (.advStart ok) { s with handler := .returned }
  | finish (hat : s.handler = .returned) :
      Step provSvcVer s .finish
        { s with advDaemonWorkQ := s.advDaemonWorkQ.finish, handler := .idle }

/-- Every step of the machine is one of these. -/
theorem step_of_eq_some (hs : step provSvcVer s i = some t) : Step provSvcVer s i t := by
  cases i with
  | provChange provisioned =>
    obtain rfl := Option.some.inj hs
    exact .provChange provisioned
  | btEnable ok =>
    obtain ⟨hat, rfl⟩ := Machine.guarded_eq_some.mp hs
    exact .btEnable ok hat
  | btWifiProvInit ok =>
    obtain ⟨hat, rfl⟩ := Machine.guarded_eq_some.mp hs
    exact .btWifiProvInit ok hat
  | mainAdvStart ok =>
    obtain ⟨hat, rfl⟩ := Machine.guarded_eq_some.mp hs
    exact .mainAdvStart ok hat
  | mainUpdate status =>
    obtain ⟨hat, rfl⟩ := Machine.guarded_eq_some.mp hs
    exact .mainUpdate status hat
  | workQueueStart =>
    obtain ⟨hat, rfl⟩ := Machine.guarded_eq_some.mp hs
    exact .workQueueStart hat
  | connected err =>
    obtain rfl := Option.some.inj hs
    exact .connected err
  | disconnected =>
    obtain rfl := Option.some.inj hs
    exact .disconnected
  | timeout work =>
    simp only [step, DelayQueue.expire, Option.map_eq_some_iff, Option.ite_none_right_eq_some,
      Option.some.injEq] at hs
    obtain ⟨q, ⟨hdelayed, rfl⟩, rfl⟩ := hs
    exact .timeout work hdelayed
  | take =>
    simp only [step, Option.map_eq_some_iff, Prod.exists] at hs
    obtain ⟨work, q, htake, rfl⟩ := hs
    exact .take work q htake
  | taskUpdate status =>
    obtain ⟨hat, rfl⟩ := Machine.guarded_eq_some.mp hs
    exact .taskUpdate status hat
  | advUpdateData ok =>
    obtain ⟨hat, rfl⟩ := Machine.guarded_eq_some.mp hs
    exact .advUpdateData ok hat
  | advStop ok =>
    obtain ⟨hat, rfl⟩ := Machine.guarded_eq_some.mp hs
    exact .advStop ok hat
  | advStart ok =>
    obtain ⟨hat, rfl⟩ := Machine.guarded_eq_some.mp hs
    exact .advStart ok hat
  | finish =>
    obtain ⟨hat, rfl⟩ := Machine.guarded_eq_some.mp hs
    exact .finish hat

end NcsExamples.TwtDemo.Advertising
