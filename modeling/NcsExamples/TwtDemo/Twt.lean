import NcsExamples.Lib.Machine
import Mathlib.Data.Finset.Basic

/-! # TWT demo: the negotiation of target wake time

Button 1 of the demo asks the access point for a TWT flow, or gives the flow up. The device keeps
one boolean, one flow ID and an LED; the access point keeps a set of flows. Requests and events are
messages in flight, which arrive in any order. -/

namespace NcsExamples.TwtDemo

/-! ## Messages -/

/-- `enum wifi_twt_operation`. -/
inductive TwtOperation
  | setup
  | teardown
  deriving DecidableEq, Repr

/-- `enum wifi_twt_setup_cmd`, in the order of its values. -/
inductive TwtSetupCmd
  | request
  | suggest
  | demand
  | grouping
  | accept
  | alternate
  | dictate
  | reject
  deriving DecidableEq, Repr

/-- `enum wifi_twt_setup_resp_status`. -/
inductive TwtRespStatus
  | received
  | notReceived
  deriving DecidableEq, Repr

/-- `enum wifi_twt_negotiation_type`. -/
inductive TwtNegotiationType
  | individual
  | broadcast
  | wakeTbtt
  deriving DecidableEq, Repr

/-- The member `setup` of `struct wifi_twt_params`. -/
structure TwtSetup where
  responder : Bool
  trigger : Bool
  implicit : Bool
  announce : Bool
  /-- In microseconds. -/
  twtWakeInterval : ℕ
  /-- In microseconds. -/
  twtInterval : ℕ
  deriving DecidableEq, Repr

/-- `struct wifi_twt_params`, as far as the demo reads and writes it: a request, or an event. -/
structure TwtParams where
  operation : TwtOperation
  negotiationType : TwtNegotiationType
  setupCmd : TwtSetupCmd
  respStatus : TwtRespStatus
  dialogToken : ℕ
  flowId : ℕ
  setup : TwtSetup
  deriving DecidableEq, Repr

/-! ## The device -/

/-- The variables `nrf_wifi_twt_enabled` and `twt_flow_id`, and LED 1. -/
structure Device where
  nrfWifiTwtEnabled : Bool
  twtFlowId : ℕ
  led1 : Bool
  deriving DecidableEq, Repr

/-- `WIFI_MAX_TWT_FLOWS`. -/
def wifiMaxTwtFlows : ℕ := 8

/-- `CONFIG_WIFI_TWT_WAKE_INTERVAL_MS`. -/
def wakeIntervalMs : ℕ := 65

/-- `CONFIG_WIFI_TWT_INTERVAL_MS`. -/
def intervalMs : ℕ := 10000

/-- `USEC_PER_MSEC`. -/
def usecPerMsec : ℕ := 1000

/-- `handle_wifi_twt_event`. -/
def handleWifiTwtEvent (resp : TwtParams) (d : Device) : Device :=
  if resp.operation = .teardown then { d with nrfWifiTwtEnabled := false, led1 := false }
  else
    -- the flow ID is taken from every answer, whatever it says
    let d := { d with twtFlowId := resp.flowId }
    if resp.respStatus ≠ .received then d
    else if resp.setupCmd = .accept then { d with nrfWifiTwtEnabled := true, led1 := true }
    else d

/-- The parameters that `wifi_set_twt` submits. A teardown writes the value of `WIFI_TWT_TEARDOWN`
to `setup_cmd`, where it stands for `suggest`. -/
def twtRequest (d : Device) : TwtParams :=
  if d.nrfWifiTwtEnabled = false then
    ⟨.setup, .individual, .request, .received, 1, d.twtFlowId,
      ⟨false, false, true, false, wakeIntervalMs * usecPerMsec, intervalMs * usecPerMsec⟩⟩
  else
    ⟨.teardown, .individual, .suggest, .received, 1, d.twtFlowId,
      ⟨false, false, false, false, 0, 0⟩⟩

/-- `wifi_set_twt`: the device after it, the request it has submitted, and its result, given whether
`net_mgmt` fails. -/
def wifiSetTwt (fails : Bool) (d : Device) : Device × TwtParams × ℤ :=
  let d' :=
    if d.nrfWifiTwtEnabled = false then d
    else
      { d with
        twtFlowId := if d.twtFlowId < wifiMaxTwtFlows then d.twtFlowId + 1 else 1
        nrfWifiTwtEnabled := false
        led1 := false }
  (d', twtRequest d, if fails then -1 else 0)

/-! ## The access point and the messages in flight -/

/-- The device, the flows the access point holds for it, and what is in flight. -/
structure State where
  dev : Device
  flows : Finset ℕ
  requests : Multiset TwtParams
  events : Multiset TwtParams

/-- The event that accepts a request with a flow. -/
def acceptEvent (r : TwtParams) (flow : ℕ) : TwtParams :=
  { r with setupCmd := .accept, respStatus := .received, flowId := flow }

/-- The event that refuses a request: a reject, or a timeout. -/
def refuseEvent (r : TwtParams) (timedOut : Bool) (flow : ℕ) : TwtParams :=
  { r with
    setupCmd := .reject
    respStatus := if timedOut then .notReceived else .received
    flowId := flow }

/-- The event of a teardown. -/
def teardownEvent (flow : ℕ) : TwtParams :=
  ⟨.teardown, .individual, .request, .received, 0, flow, ⟨false, false, false, false, 0, 0⟩⟩

/-- What happens next. -/
inductive Input
  /-- Button 1 is pressed. -/
  | press
  /-- A SETUP request arrives and is accepted with a flow. -/
  | accept (r : TwtParams) (flow : ℕ)
  /-- A SETUP request is rejected or times out. -/
  | refuse (r : TwtParams) (timedOut : Bool) (flow : ℕ)
  /-- A TEARDOWN request arrives. -/
  | teardown (r : TwtParams)
  /-- The access point tears down a flow it holds. -/
  | apTeardown (flow : ℕ)
  /-- An event arrives. -/
  | deliver (e : TwtParams)

/-- One step of the device and the access point, with every `net_mgmt` request succeeding. -/
def step (s : State) : Input → Option State
  | .press =>
      let (dev, r, _) := wifiSetTwt false s.dev
      some { s with dev, requests := r ::ₘ s.requests }
  | .accept r flow =>
      if r ∈ s.requests ∧ r.operation = .setup then
        some { s with
          flows := insert flow s.flows
          requests := s.requests.erase r
          events := acceptEvent r flow ::ₘ s.events }
      else none
  | .refuse r timedOut flow =>
      if r ∈ s.requests ∧ r.operation = .setup then
        some { s with
          requests := s.requests.erase r
          events := refuseEvent r timedOut flow ::ₘ s.events }
      else none
  | .teardown r =>
      if r ∈ s.requests ∧ r.operation = .teardown then
        some { s with
          flows := s.flows.erase r.flowId
          requests := s.requests.erase r
          events := teardownEvent r.flowId ::ₘ s.events }
      else none
  | .apTeardown flow =>
      if flow ∈ s.flows then
        some { s with flows := s.flows.erase flow, events := teardownEvent flow ::ₘ s.events }
      else none
  | .deliver e =>
      if e ∈ s.events then
        some { s with dev := handleWifiTwtEvent e s.dev, events := s.events.erase e }
      else none

/-- The negotiation as a machine: TWT is off and nothing is in flight. -/
def twt : Machine State Input := ⟨⟨⟨false, 1, false⟩, ∅, 0, 0⟩, step⟩

end NcsExamples.TwtDemo
