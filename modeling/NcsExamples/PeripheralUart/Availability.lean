import NcsExamples.PeripheralUart.ConnectionReferences

/-! # The UART service: whether it is found

A client finds the device while it advertises. `main` creates the advertising set and submits the
work item that starts it; a connection ends the advertising, and `disconnected` submits the item
again. Nothing is tried twice. The stack has one connection object, which a connectable advertiser
needs, so advertising cannot be started while the application holds a reference to it. A call with
`NULL` in the place of the connection fails an assertion of the stack (`CONFIG_ASSERT`), and nothing
happens any more. -/

namespace NcsExamples.PeripheralUart

/-- The calls of `main` and of the work item whose result is looked at. -/
inductive BootCall
  | uartInit
  | btEnable
  | btNusInit
  | btLeExtAdvCreate
  | btLeExtAdvSetData
  | btLeExtAdvStart
  deriving DecidableEq, Repr

/-- Where `main` is. -/
inductive MainPhase
  /-- Before `uart_init`. -/
  | uartInit
  /-- Before `bt_enable`. -/
  | btEnable
  /-- Before `bt_nus_init`. -/
  | btNusInit
  /-- In `bt_ready`, before `bt_le_ext_adv_create`. -/
  | extAdvCreate
  /-- In `bt_ready`, before `bt_le_ext_adv_set_data`. -/
  | extAdvSetData
  /-- In the loop at its end. -/
  | running
  /-- In `error`, or returned. -/
  | stopped
  deriving DecidableEq, Repr

/-- The advertising set `adv`. -/
inductive AdvSet
  /-- `NULL`. -/
  | absent
  | created
  | withData
  deriving DecidableEq, Repr

/-- `start_advertising_worker`. -/
inductive WorkItem
  /-- Before `k_work_init`: the item has no handler. -/
  | uninitialized
  | idle
  | pending
  deriving DecidableEq, Repr

/-- The service, from the boot on. -/
structure Service where
  conn : ConnState
  main : MainPhase
  adv : AdvSet
  worker : WorkItem
  /-- The device advertises. -/
  advertising : Bool
  /-- History: the calls that have failed. -/
  failures : List BootCall
  /-- An item without a handler was submitted, a set that is `NULL` was started, or a connection
  that is `NULL` was released. -/
  fault : Bool
  deriving DecidableEq, Repr

namespace Service

/-- A call fails. -/
def fail (call : BootCall) (s : Service) : Service := { s with failures := s.failures ++ [call] }

/-- `k_work_submit(&start_advertising_worker)`. -/
def submit (s : Service) : Service :=
  if s.worker = .uninitialized then { s with fault := true } else { s with worker := .pending }

/-- `main` and `bt_ready`: the next call, and what follows it. -/
def mainStep (ok : Bool) (s : Service) : Option Service :=
  match s.main with
  | .uartInit =>
      some (if ok then { s with main := .btEnable } else { s.fail .uartInit with main := .stopped })
  | .btEnable =>
      some (if ok then { s with main := .btNusInit } else { s.fail .btEnable with main := .stopped })
  | .btNusInit =>
      -- `bt_ready` begins with `k_work_init`
      some (if ok then { s with main := .extAdvCreate, worker := .idle }
        else { s.fail .btNusInit with main := .stopped })
  | .extAdvCreate =>
      -- `bt_ready` returns nothing, and `main` goes on
      some (if ok then { s with main := .extAdvSetData, adv := .created }
        else { s.fail .btLeExtAdvCreate with main := .running })
  | .extAdvSetData =>
      some (if ok then { s with main := .running, adv := .withData }.submit
        else { s.fail .btLeExtAdvSetData with main := .running })
  | .running | .stopped => none

/-- `start_advertising_coded`, which takes the item from the queue. -/
def startAdvertisingCoded (ok : Bool) (s : Service) : Service :=
  if s.adv = .absent then { s with worker := .idle, fault := true }
  else if ok then { s with worker := .idle, advertising := true }
  else { s.fail .btLeExtAdvStart with worker := .idle }

/-- A callback of the connection, or of the buttons, leaves `conn`. -/
def setConn (conn : ConnState) (s : Service) : Service :=
  { s with conn, fault := s.fault || decide (none ∈ conn.unrefs) }

/-- The connection object of the stack is free. -/
def SlotFree (s : Service) : Prop := s.conn.link = false ∧ s.conn.held = 0

instance : DecidablePred SlotFree := fun _ => inferInstanceAs (Decidable (_ ∧ _))

end Service

/-- What happens next. -/
inductive ServiceInput
  /-- `main` makes its next call. -/
  | main (ok : Bool)
  /-- The system work queue executes `start_advertising_coded`. -/
  | worker (ok : Bool)
  /-- An event of the connection, or a button. -/
  | conn (i : ConnInput)
  deriving DecidableEq

/-- What happens next, without a fault. A client connects while the device advertises, which ends
the advertising. -/
def Service.next (s : Service) : ServiceInput → Option Service
  | .main ok => s.mainStep ok
  | .worker ok =>
      if s.worker = .pending ∧ (ok = true → s.SlotFree) then some (s.startAdvertisingCoded ok) else none
  | .conn (.connected err) =>
      if s.advertising then
        (connStep s.conn (.connected err)).map fun conn =>
          { s.setConn conn with advertising := decide (err ≠ 0) }
      else none
  | .conn .disconnected => (connStep s.conn .disconnected).map fun conn => (s.setConn conn).submit
  | .conn i => (connStep s.conn i).map fun conn => s.setConn conn

/-- One step. After a fault there is none. -/
def serviceStep (s : Service) (i : ServiceInput) : Option Service :=
  if s.fault then none else s.next i

/-- The service as a machine. -/
def service : Machine Service ServiceInput :=
  ⟨⟨btConn.init, .uartInit, .absent, .uninitialized, false, [], false⟩, serviceStep⟩

/-- The steps, with what each one finds. -/
inductive ServiceStep (s : Service) : ServiceInput → Service → Prop
  | main (ok : Bool) (t : Service) (hmain : s.mainStep ok = some t) : ServiceStep s (.main ok) t
  | worker (ok : Bool) (hpending : s.worker = .pending) (hfree : ok = true → s.SlotFree) :
      ServiceStep s (.worker ok) (s.startAdvertisingCoded ok)
  | connected (err : UInt8) (conn : ConnState) (hadv : s.advertising = true)
      (hconn : connStep s.conn (.connected err) = some conn) (hlink : conn.link = decide (err = 0)) :
      ServiceStep s (.conn (.connected err))
        { s.setConn conn with advertising := decide (err ≠ 0) }
  | disconnected (conn : ConnState) (hconn : connStep s.conn .disconnected = some conn)
      (hbefore : s.conn.link = true) (hlink : conn.link = false) :
      ServiceStep s (.conn .disconnected) (s.setConn conn).submit
  | pairing (i : ConnInput) (conn : ConnState) (hconn : connStep s.conn i = some conn)
      (hlink : conn.link = s.conn.link) : ServiceStep s (.conn i) (s.setConn conn)

namespace ConnState

variable {s t : ConnState} {i : ConnInput}

/-- `button_changed` has no part in the connection. -/
@[simp] theorem link_buttonChanged (buttonState hasChanged : BitVec 32) (s : ConnState) :
    (s.buttonChanged buttonState hasChanged).link = s.link := by
  unfold buttonChanged
  split
  · dsimp only
    split <;> split <;> rfl
  · rfl

/-- `disconnected` has no part in the connection of the stack. -/
@[simp] theorem link_disconnected (s : ConnState) : s.disconnected.link = s.link := by
  unfold disconnected
  cases hauth : s.authConn <;> cases hcur : s.currentConn <;> simp [btConnUnref, hauth, hcur]

/-- What an event makes of the references that are leaked: `auth_passkey_confirm` loses the one that
`auth_conn` stood for. -/
theorem leaked_connStep (hclear : Cleared s) (hs : connStep s i = some t) :
    t.leaked = s.leaked + if i = .authPasskeyConfirm then refsOf s.authConn else 0 := by
  cases connStep_of_eq_some hs with
  | connected err hlink =>
    obtain ⟨hcur, -⟩ := hclear hlink
    rw [if_neg (by nofun), add_zero]
    -- a connection takes a reference for the clear `current_conn`
    by_cases herr : err = 0
    · subst herr
      unfold leaked
      rw [held_connected, hcur]
      show s.held + 1 - (1 + refsOf s.authConn) = s.held - (0 + refsOf s.authConn)
      omega
    · rw [connected_of_ne herr]
      rfl
  | disconnected =>
    -- `disconnected` gives back what the pointers stand for and clears them
    obtain ⟨hcur, hauth⟩ := pointers_disconnected { s with link := false, question := none }
    rw [if_neg (by nofun), add_zero]
    unfold leaked
    rw [held_disconnected, hcur, hauth]
    show s.held - refsOf s.authConn - refsOf s.currentConn - (0 + 0) = _
    omega
  | authPasskeyConfirm =>
    -- one more reference is held, and `auth_conn` stands for it alone
    rw [if_pos rfl]
    unfold leaked
    rw [held_authPasskeyConfirm]
    show s.held + 1 - (refsOf s.currentConn + 1) = _
    omega
  | authCancel | pairingFailed =>
    rw [if_neg (by nofun), add_zero]
    rfl
  | buttonChanged buttonState hasChanged =>
    rw [if_neg (by nofun), add_zero]
    unfold buttonChanged
    split
    · dsimp only
      split <;> split <;> simp only [leaked_numCompReply]
    · rfl

/-- A connection that is `NULL` is released by the second of two keys that answer one question. -/
theorem none_mem_unrefs_connStep (hnone : none ∉ s.unrefs) (hs : connStep s i = some t) :
    none ∈ t.unrefs ↔ ∃ buttonState hasChanged, i = .buttonChanged buttonState hasChanged ∧
      s.authConn.isSome ∧ Pressed keyPasskeyAccept buttonState hasChanged ∧
      Pressed keyPasskeyReject buttonState hasChanged := by
  cases connStep_of_eq_some hs with
  | connected err =>
    refine iff_of_false ?_ (by rintro ⟨_, _, h, -⟩; cases h)
    unfold connected
    split <;> exact hnone
  | disconnected =>
    refine iff_of_false ?_ (by rintro ⟨_, _, h, -⟩; cases h)
    rw [none_mem_unrefs_disconnected]
    exact hnone
  | authPasskeyConfirm | authCancel | pairingFailed =>
    exact iff_of_false hnone (by rintro ⟨_, _, h, -⟩; cases h)
  | buttonChanged buttonState hasChanged =>
    have hexists : (∃ b h, ConnInput.buttonChanged buttonState hasChanged = .buttonChanged b h ∧
        s.authConn.isSome ∧ Pressed keyPasskeyAccept b h ∧ Pressed keyPasskeyReject b h) ↔
        s.authConn.isSome ∧ Pressed keyPasskeyAccept buttonState hasChanged ∧
          Pressed keyPasskeyReject buttonState hasChanged := by
      constructor
      · rintro ⟨_, _, heq, h⟩
        cases heq
        exact h
      · exact fun h => ⟨_, _, rfl, h⟩
    rw [hexists]
    cases hauth : s.authConn with
    | none =>
      rw [buttonChanged_of_none hauth]
      exact iff_of_false hnone fun h => Bool.false_ne_true h.1
    | some conn =>
      have hfirst : ∀ accept, none ∉ (s.numCompReply accept).unrefs := by
        intro accept
        rw [none_mem_unrefs_numCompReply, hauth]
        simp [hnone]
      rw [buttonChanged_of_some hauth]
      dsimp only
      split
      · next hreject =>
        split
        · next haccept =>
          -- the first answer has cleared `auth_conn`
          exact iff_of_true ((none_mem_unrefs_numCompReply _ _).mpr (.inr rfl))
            ⟨rfl, haccept, hreject⟩
        · next haccept => exact iff_of_false (hfirst false) fun h => haccept h.2.1
      · next hreject =>
        split
        · exact iff_of_false (hfirst true) fun h => hreject h.2.2
        · exact iff_of_false hnone fun h => hreject h.2.2

end ConnState

variable {s t : Service} {i : ServiceInput}

/-- Every step of the machine is one of these, and there was no fault before it. -/
theorem serviceStep_of_eq_some (hs : serviceStep s i = some t) :
    s.fault = false ∧ ServiceStep s i t := by
  obtain ⟨hfault, hs⟩ := Option.ite_none_left_eq_some.mp hs
  refine ⟨Bool.eq_false_iff.mpr hfault, ?_⟩
  cases i with
  | main ok => exact .main ok t hs
  | worker ok =>
    obtain ⟨⟨hpending, hfree⟩, rfl⟩ := Machine.guarded_eq_some.mp hs
    exact .worker ok hpending hfree
  | conn i =>
    cases i with
    | connected err =>
      obtain ⟨hadv, hs⟩ := Option.ite_none_right_eq_some.mp hs
      obtain ⟨conn, hconn, rfl⟩ := Option.map_eq_some_iff.mp hs
      refine .connected err conn hadv hconn ?_
      cases connStep_of_eq_some hconn with
      | connected err hlink =>
        unfold ConnState.connected
        split <;> rfl
    | disconnected =>
      obtain ⟨conn, hconn, rfl⟩ := Option.map_eq_some_iff.mp hs
      cases connStep_of_eq_some hconn with
      | disconnected hlink => exact .disconnected _ hconn hlink (ConnState.link_disconnected _)
    | authPasskeyConfirm | authCancel | pairingFailed =>
      obtain ⟨conn, hconn, rfl⟩ := Option.map_eq_some_iff.mp hs
      refine .pairing _ conn hconn ?_
      cases connStep_of_eq_some hconn
      rfl
    | buttonChanged buttonState hasChanged =>
      have hmap : (connStep s.conn (.buttonChanged buttonState hasChanged)).map
          (fun conn => s.setConn conn) = some t := hs
      obtain ⟨conn, hconn, rfl⟩ := Option.map_eq_some_iff.mp hmap
      refine .pairing _ conn hconn ?_
      cases connStep_of_eq_some hconn
      exact ConnState.link_buttonChanged _ _ _

/-! ## What a step does to the connection and to the failures -/

/-- The connection changes by its own events. -/
theorem ServiceStep.conn (hs : ServiceStep s i t) :
    t.conn = s.conn ∧ (∀ j, i ≠ .conn j) ∨ ∃ j, i = .conn j ∧ connStep s.conn j = some t.conn := by
  have hsubmit : ∀ u : Service, u.submit.conn = u.conn := fun u => by
    unfold Service.submit
    split <;> rfl
  cases hs with
  | main ok t hmain =>
    refine .inl ⟨?_, nofun⟩
    unfold Service.mainStep at hmain
    split at hmain
    case h_6 | h_7 => cases hmain
    all_goals
      obtain rfl := Option.some.inj hmain
      cases ok <;> first | rfl | exact hsubmit _
  | worker ok =>
    refine .inl ⟨?_, nofun⟩
    unfold Service.startAdvertisingCoded
    split
    · rfl
    · cases ok <;> rfl
  | connected err conn _ hconn => exact .inr ⟨_, rfl, hconn⟩
  | disconnected conn hconn => exact .inr ⟨_, rfl, (hsubmit (s.setConn conn)) ▸ hconn⟩
  | pairing i conn hconn => exact .inr ⟨i, rfl, hconn⟩

/-- A failed call is not forgotten. -/
theorem ServiceStep.failures (hs : ServiceStep s i t) (h : s.failures ≠ []) : t.failures ≠ [] := by
  have hfail : ∀ call, (s.fail call).failures ≠ [] := fun call =>
    List.append_ne_nil_of_right_ne_nil _ (List.cons_ne_nil _ _)
  have hsubmit : ∀ u : Service, u.failures = s.failures → u.submit.failures ≠ [] := by
    intro u hu
    unfold Service.submit
    split <;> exact hu ▸ h
  cases hs with
  | main ok t hmain =>
    unfold Service.mainStep at hmain
    split at hmain
    case h_6 | h_7 => cases hmain
    all_goals
      obtain rfl := Option.some.inj hmain
      cases ok <;> first | exact hfail _ | exact h | exact hsubmit _ rfl
  | worker ok =>
    unfold Service.startAdvertisingCoded
    split
    · exact h
    · cases ok
      · exact hfail _
      · exact h
  | connected | pairing => exact h
  | disconnected conn => exact hsubmit _ rfl

/-! ## Where the service stands -/

/-- Where the service stands. -/
inductive Stage (s : Service) : Prop
  /-- `main` is on its way. -/
  | boots (hmain : s.main ≠ .running ∧ s.main ≠ .stopped) (hworker : s.worker ≠ .pending)
      (hinit : s.main = .extAdvCreate ∨ s.main = .extAdvSetData → s.worker = .idle)
      (hlink : s.conn.link = false) (hadv : s.advertising = false) (hfail : s.failures = [])
  /-- The work item is in the queue. -/
  | submitted (hmain : s.main = .running) (hset : s.adv = .withData) (hworker : s.worker = .pending)
      (hlink : s.conn.link = false) (hadv : s.advertising = false) (hfail : s.failures = [])
  /-- The device advertises: when it began, no reference was held. -/
  | advertises (hmain : s.main = .running) (hset : s.adv = .withData) (hworker : s.worker = .idle)
      (hlink : s.conn.link = false) (hadv : s.advertising = true) (hfail : s.failures = [])
      (hleak : s.conn.leaked = 0)
  /-- A client is connected. -/
  | connected (hmain : s.main = .running) (hset : s.adv = .withData) (hworker : s.worker = .idle)
      (hlink : s.conn.link = true) (hadv : s.advertising = false) (hfail : s.failures = [])
  /-- A call has failed. -/
  | lost (hmain : s.main = .running ∨ s.main = .stopped) (hworker : s.worker ≠ .pending)
      (hlink : s.conn.link = false) (hadv : s.advertising = false) (hfail : s.failures ≠ [])

/-- An item that has its handler is put into the queue. -/
theorem Service.submit_of_idle (h : s.worker = .idle) : s.submit = { s with worker := .pending } :=
  if_neg (by rw [h]; nofun)

/-- Without a connection, the references held are those that are leaked. -/
theorem Cleared.leaked_eq {c : ConnState} (h : Cleared c) (hlink : c.link = false) :
    c.leaked = c.held := by
  obtain ⟨hcur, hauth⟩ := h hlink
  unfold ConnState.leaked
  rw [hcur, hauth]
  exact sub_zero _

/-- After a failed call the service is lost. -/
theorem Stage.fail (call : BootCall) (phase : MainPhase) (item : WorkItem)
    (hmain : phase = .running ∨ phase = .stopped) (hworker : item ≠ .pending)
    (hlink : s.conn.link = false) (hadv : s.advertising = false) :
    Stage { s.fail call with main := phase, worker := item } :=
  .lost hmain hworker hlink hadv (List.append_ne_nil_of_right_ne_nil _ (List.cons_ne_nil _ _))

/-- `main` makes its calls before anything else happens. -/
theorem Stage.main (h : Stage s) {ok : Bool} (hs : s.mainStep ok = some t) :
    Stage t ∧ t.fault = s.fault := by
  have hmain : s.main ≠ .running ∧ s.main ≠ .stopped := by
    constructor <;> intro hat <;> simp [Service.mainStep, hat] at hs
  cases h with
  | boots _ hworker hinit hlink hadv hfail =>
    unfold Service.mainStep at hs
    split at hs
    · obtain rfl := Option.some.inj hs
      cases ok with
      | true => exact ⟨.boots ⟨nofun, nofun⟩ hworker nofun hlink hadv hfail, rfl⟩
      | false => exact ⟨.fail .uartInit .stopped s.worker (.inr rfl) hworker hlink hadv, rfl⟩
    · obtain rfl := Option.some.inj hs
      cases ok with
      | true => exact ⟨.boots ⟨nofun, nofun⟩ hworker nofun hlink hadv hfail, rfl⟩
      | false => exact ⟨.fail .btEnable .stopped s.worker (.inr rfl) hworker hlink hadv, rfl⟩
    · obtain rfl := Option.some.inj hs
      cases ok with
      | true => exact ⟨.boots ⟨nofun, nofun⟩ nofun (fun _ => rfl) hlink hadv hfail, rfl⟩
      | false => exact ⟨.fail .btNusInit .stopped s.worker (.inr rfl) hworker hlink hadv, rfl⟩
    · next hat =>
      obtain rfl := Option.some.inj hs
      cases ok with
      | true =>
        exact ⟨.boots ⟨nofun, nofun⟩ hworker (fun _ => hinit (.inl hat)) hlink hadv hfail, rfl⟩
      | false =>
        exact ⟨.fail .btLeExtAdvCreate .running s.worker (.inl rfl) hworker hlink hadv, rfl⟩
    · next hat =>
      obtain rfl := Option.some.inj hs
      cases ok with
      | true =>
        -- `bt_ready` has initialized the item
        have hitem : s.worker = .idle := hinit (.inr hat)
        rw [if_pos rfl, Service.submit_of_idle (by exact hitem)]
        exact ⟨.submitted rfl rfl rfl hlink hadv hfail, rfl⟩
      | false =>
        exact ⟨.fail .btLeExtAdvSetData .running s.worker (.inl rfl) hworker hlink hadv, rfl⟩
    · cases hs
    · cases hs
  | submitted hat | advertises hat | connected hat => exact absurd hat hmain.1
  | lost hat =>
    rcases hat with hat | hat
    · exact absurd hat hmain.1
    · exact absurd hat hmain.2

/-- **The stages.** A step leads from one stage to the next, and is a fault only if it releases a
connection that is `NULL`. -/
theorem Stage.step (h : Stage s) (hclear : Cleared s.conn) (hnone : none ∉ s.conn.unrefs)
    (hs : ServiceStep s i t) :
    Stage t ∧ t.fault = (s.fault || decide (none ∈ t.conn.unrefs)) := by
  have hsame : (∀ j, i ≠ .conn j) → t.fault = s.fault →
      t.fault = (s.fault || decide (none ∈ t.conn.unrefs)) := by
    intro hi hfault
    have hconn : t.conn = s.conn :=
      (hs.conn.resolve_right fun ⟨j, hj, _⟩ => hi j hj).1
    rw [hfault, hconn, decide_eq_false hnone, Bool.or_false]
  cases hs with
  | main ok t hmain =>
    obtain ⟨hstage, hfault⟩ := h.main hmain
    exact ⟨hstage, hsame nofun hfault⟩
  | worker ok hpending hfree =>
    suffices h : Stage (s.startAdvertisingCoded ok) ∧ (s.startAdvertisingCoded ok).fault = s.fault
      from ⟨h.1, hsame nofun h.2⟩
    cases h with
    | submitted hmain hset hworker hlink hadv hfail =>
      have hpresent : s.adv ≠ .absent := by rw [hset]; nofun
      rw [Service.startAdvertisingCoded, if_neg hpresent]
      cases ok with
      | true =>
        -- the stack had a free object, so no reference is held
        obtain ⟨-, hheld⟩ := hfree rfl
        refine ⟨.advertises hmain hset rfl hlink rfl hfail ?_, rfl⟩
        rw [← hheld]
        exact hclear.leaked_eq hlink
      | false => exact ⟨.fail .btLeExtAdvStart s.main .idle (.inl hmain) nofun hlink hadv, rfl⟩
    | boots _ hworker | lost _ hworker => exact absurd hpending hworker
    | advertises _ _ hworker | connected _ _ hworker =>
      rw [hpending] at hworker
      cases hworker
  | connected err conn hadv hconn hlink =>
    cases h with
    | advertises hmain hset hworker hlink' _ hfail hleak =>
      refine ⟨?_, rfl⟩
      by_cases herr : err = 0
      · subst herr
        exact .connected hmain hset hworker hlink rfl hfail
      · -- a connection that fails leaves the references alone
        refine .advertises hmain hset hworker ?_ (decide_eq_true herr) hfail ?_
        · exact hlink.trans (decide_eq_false herr)
        · show conn.leaked = 0
          rw [ConnState.leaked_connStep hclear hconn, hleak]
          rfl
    | boots _ _ _ _ hadv' | submitted _ _ _ _ hadv' | connected _ _ _ _ hadv' | lost _ _ _ hadv' =>
      rw [hadv] at hadv'
      cases hadv'
  | disconnected conn hconn hbefore hlink =>
    cases h with
    | connected hmain hset hworker _ hadv hfail =>
      -- `disconnected` submits the item, whatever it may find later
      rw [Service.submit_of_idle (by exact hworker)]
      exact ⟨.submitted hmain hset rfl hlink hadv hfail, rfl⟩
    | boots _ _ _ hlink' | submitted _ _ _ hlink' | advertises _ _ _ hlink' | lost _ _ hlink' =>
      rw [hbefore] at hlink'
      cases hlink'
  | pairing i conn hconn hlinks =>
    refine ⟨?_, rfl⟩
    cases h with
    | boots hmain hworker hinit hlink hadv hfail =>
      exact .boots hmain hworker hinit (hlinks.trans hlink) hadv hfail
    | submitted hmain hset hworker hlink hadv hfail =>
      exact .submitted hmain hset hworker (hlinks.trans hlink) hadv hfail
    | advertises hmain hset hworker hlink hadv hfail hleak =>
      refine .advertises hmain hset hworker (hlinks.trans hlink) hadv hfail ?_
      show conn.leaked = 0
      rw [ConnState.leaked_connStep hclear hconn, hleak, (hclear hlink).2, zero_add]
      exact ite_self 0
    | connected hmain hset hworker hlink hadv hfail =>
      exact .connected hmain hset hworker (hlinks.trans hlink) hadv hfail
    | lost hmain hworker hlink hadv hfail =>
      exact .lost hmain hworker (hlinks.trans hlink) hadv hfail

/-! ## Runs -/

/-- A passkey question comes only while `auth_conn` is clear. -/
def AsksFree (s : Service) : ServiceInput → Prop
  | .conn .authPasskeyConfirm => s.conn.authConn = none
  | _ => True

instance (s : Service) : DecidablePred (AsksFree s) := fun i => by
  unfold AsksFree
  split <;> infer_instance

/-- No word of the buttons has both keys while `auth_conn` is set. -/
def OneKey (s : Service) : ServiceInput → Prop
  | .conn (.buttonChanged buttonState hasChanged) => ¬ (s.conn.authConn.isSome ∧
      Pressed keyPasskeyAccept buttonState hasChanged ∧
      Pressed keyPasskeyReject buttonState hasChanged)
  | _ => True

instance (s : Service) : DecidablePred (OneKey s) := fun i => by
  unfold OneKey
  split <;> infer_instance

/-- What holds of every state that is reached. -/
structure ServiceInv (s : Service) : Prop where
  cleared : Cleared s.conn
  stage : Stage s
  unrefs : s.fault = false → none ∉ s.conn.unrefs
  linked : s.fault = true → s.conn.link = true

theorem ServiceInv.step (h : ServiceInv s) (hs : service.step s i = some t) : ServiceInv t := by
  obtain ⟨hfault, hstep⟩ := serviceStep_of_eq_some hs
  obtain ⟨hstage, hfault'⟩ := h.stage.step h.cleared (h.unrefs hfault) hstep
  rw [hfault, Bool.false_or] at hfault'
  refine ⟨?_, hstage, fun hno => ?_, fun hyes => ?_⟩
  · rcases hstep.conn with ⟨hconn, -⟩ | ⟨j, -, hconn⟩
    · rw [hconn]
      exact h.cleared
    · exact h.cleared.step hconn
  · exact of_decide_eq_false (hfault'.symm.trans hno)
  · have hnull : none ∈ t.conn.unrefs := of_decide_eq_true (hfault'.symm.trans hyes)
    rcases hstep.conn with ⟨hconn, -⟩ | ⟨j, -, hconn⟩
    · exact absurd (hconn ▸ hnull) (h.unrefs hfault)
    · -- `auth_conn` is set, so there is a connection, which the buttons do not end
      obtain ⟨buttonState, hasChanged, rfl, hauth, -⟩ :=
        (ConnState.none_mem_unrefs_connStep (h.unrefs hfault) hconn).mp hnull
      rw [← Option.some.inj hconn, ConnState.link_buttonChanged]
      by_contra hlink
      rw [(h.cleared (Bool.eq_false_iff.mpr hlink)).2] at hauth
      cases hauth

theorem serviceInv_init : ServiceInv service.init where
  cleared _ := ⟨rfl, rfl⟩
  stage := .boots ⟨nofun, nofun⟩ nofun nofun rfl rfl rfl
  unrefs _ := List.not_mem_nil
  linked := nofun

/-- A step is a fault exactly if its buttons have both keys while `auth_conn` is set. -/
theorem fault_serviceStep (h : ServiceInv s) (hs : service.step s i = some t) :
    s.fault ≤ t.fault ∧ (OneKey s i ↔ s.fault = t.fault) := by
  obtain ⟨hfault, hstep⟩ := serviceStep_of_eq_some hs
  obtain ⟨-, hfault'⟩ := h.stage.step h.cleared (h.unrefs hfault) hstep
  rw [hfault, Bool.false_or] at hfault'
  rw [hfault, hfault', eq_comm, decide_eq_false_iff_not]
  refine ⟨Bool.false_le _, ?_⟩
  rcases hstep.conn with ⟨hconn, hne⟩ | ⟨j, rfl, hconn⟩
  · rw [hconn]
    refine iff_of_true ?_ (h.unrefs hfault)
    unfold OneKey
    split
    · exact absurd rfl (hne _)
    · trivial
  · rw [ConnState.none_mem_unrefs_connStep (h.unrefs hfault) hconn]
    cases j with
    | buttonChanged buttonState hasChanged =>
      refine not_congr ⟨fun h => ⟨_, _, rfl, h⟩, ?_⟩
      rintro ⟨_, _, heq, h⟩
      cases heq
      exact h
    | _ => exact iff_of_true trivial (by rintro ⟨_, _, heq, -⟩; cases heq)

/-- A run has a fault exactly if some of its buttons have both keys while `auth_conn` is set. -/
theorem meets_oneKey_iff {is : List ServiceInput} (hrun : service.run is = some s) :
    s.fault = false ↔ service.Meets OneKey is := by
  rw [eq_comm]
  exact (Machine.along_iff_measure_eq (fun s : Service => s.fault) ServiceInv
    (fun _ _ _ h hs => h.step hs) (fun _ _ _ h hs => fault_serviceStep h hs) serviceInv_init
    hrun).2.symm

/-- A step loses no reference exactly if no question overwrites `auth_conn`. -/
theorem leaked_serviceStep (h : ServiceInv s) (hs : service.step s i = some t) :
    s.conn.leaked ≤ t.conn.leaked ∧ (AsksFree s i ↔ s.conn.leaked = t.conn.leaked) := by
  rcases (serviceStep_of_eq_some hs).2.conn with ⟨hconn, hne⟩ | ⟨j, rfl, hconn⟩
  · rw [hconn]
    refine ⟨le_rfl, iff_of_true ?_ rfl⟩
    unfold AsksFree
    split
    · exact absurd rfl (hne _)
    · trivial
  · rw [ConnState.leaked_connStep h.cleared hconn]
    cases j with
    | authPasskeyConfirm =>
      rw [if_pos rfl]
      show _ ∧ (s.conn.authConn = none ↔ _)
      cases s.conn.authConn <;> simp
    | _ => simp [AsksFree]

/-- A run loses no reference exactly if no question overwrites `auth_conn`. -/
theorem meets_asksFree_iff {is : List ServiceInput} {w : Service} (hs : ServiceInv s)
    (hrun : service.runFrom s is = some w) : s.conn.leaked ≤ w.conn.leaked ∧
      (service.Along (fun s i _ => AsksFree s i) s is ↔ s.conn.leaked = w.conn.leaked) :=
  Machine.along_iff_measure_eq (fun s : Service => s.conn.leaked) ServiceInv
    (fun _ _ _ h hs => h.step hs) (fun _ _ _ h hs => leaked_serviceStep h hs) hs hrun

/-- The device will advertise, if all goes well. -/
def Service.Findable (s : Service) : Prop :=
  ∃ is t, service.runFrom s is = some t ∧ t.advertising = true

theorem Service.Findable.of_next (hfault : s.fault = false) (hs : s.next i = some t)
    (h : t.Findable) : s.Findable := by
  obtain ⟨is, u, hrun, hadv⟩ := h
  have hstep : service.step s i = some t :=
    (if_neg (Bool.eq_false_iff.mp hfault)).trans hs
  exact ⟨i :: is, u, (Machine.runFrom_cons_eq_some _).mpr ⟨t, hstep, hrun⟩, hadv⟩

/-- The connection object is free, and there was no fault. -/
def Service.Sound (s : Service) : Prop := s.fault = false ∧ s.SlotFree

/-- The work item advertises if the slot is free. -/
theorem findable_of_pending (hworker : s.worker = .pending) (hset : s.adv = .withData)
    (hfree : s.Sound) : s.Findable := by
  refine .of_next (i := .worker true) hfree.1 (if_pos ⟨hworker, fun _ => hfree.2⟩) ⟨[], _, rfl, ?_⟩
  rw [Service.startAdvertisingCoded, if_neg (by rw [hset]; nofun)]
  rfl

/-- `main` comes to submit the work item. -/
theorem findable_of_boots (hmain : s.main ≠ .running ∧ s.main ≠ .stopped)
    (hinit : s.main = .extAdvCreate ∨ s.main = .extAdvSetData → s.worker = .idle)
    (hfree : s.Sound) : s.Findable := by
  -- from the last call backwards
  have hnext : ∀ {u v : Service}, u.Sound → u.mainStep true = some v → v.Findable → u.Findable :=
    fun hsound hstep => .of_next (i := .main true) hsound.1 hstep
  have hdata : ∀ u : Service, u.main = .extAdvSetData → u.worker = .idle → u.Sound →
      u.Findable := by
    intro u hat hitem hfree
    have hstep : u.mainStep true = some { u with main := .running, adv := .withData }.submit := by
      rw [Service.mainStep, hat]
      rfl
    refine hnext hfree hstep ?_
    rw [Service.submit_of_idle (by exact hitem)]
    exact findable_of_pending rfl rfl hfree
  have hcreate : ∀ u : Service, u.main = .extAdvCreate → u.worker = .idle → u.Sound →
      u.Findable := by
    intro u hat hitem hfree
    have hstep : u.mainStep true = some { u with main := .extAdvSetData, adv := .created } := by
      rw [Service.mainStep, hat]
      rfl
    exact hnext hfree hstep (hdata _ rfl hitem hfree)
  have hnus : ∀ u : Service, u.main = .btNusInit → u.Sound → u.Findable := by
    intro u hat hfree
    have hstep : u.mainStep true = some { u with main := .extAdvCreate, worker := .idle } := by
      rw [Service.mainStep, hat]
      rfl
    exact hnext hfree hstep (hcreate _ rfl rfl hfree)
  have henable : ∀ u : Service, u.main = .btEnable → u.Sound → u.Findable := by
    intro u hat hfree
    have hstep : u.mainStep true = some { u with main := .btNusInit } := by
      rw [Service.mainStep, hat]
      rfl
    exact hnext hfree hstep (hnus _ rfl hfree)
  cases hat : s.main with
  | uartInit =>
    have hstep : s.mainStep true = some { s with main := .btEnable } := by
      rw [Service.mainStep, hat]
      rfl
    exact hnext hfree hstep (henable _ rfl hfree)
  | btEnable => exact henable s hat hfree
  | btNusInit => exact hnus s hat hfree
  | extAdvCreate => exact hcreate s hat (hinit (.inl hat)) hfree
  | extAdvSetData => exact hdata s hat (hinit (.inr hat)) hfree
  | running => exact absurd hat hmain.1
  | stopped => exact absurd hat hmain.2

/-- Without a failed call and with no reference lost the device will advertise. -/
theorem ServiceInv.findable (h : ServiceInv s) (hfault : s.fault = false) (hfail : s.failures = [])
    (hleak : s.conn.leaked = 0) : s.Findable := by
  have hfree : s.conn.link = false → s.Sound := fun hlink =>
    ⟨hfault, hlink, (h.cleared.leaked_eq hlink).symm.trans hleak⟩
  cases h.stage with
  | boots hmain _ hinit hlink => exact findable_of_boots hmain hinit (hfree hlink)
  | submitted _ hset hworker hlink => exact findable_of_pending hworker hset (hfree hlink)
  | advertises _ _ _ _ hadv => exact ⟨[], s, rfl, hadv⟩
  | connected _ hset hworker hlink =>
    -- the client disconnects, which gives the references back
    have hconn : connStep s.conn .disconnected =
        some { s.conn with link := false, question := none }.disconnected := if_pos hlink
    refine .of_next (i := .conn .disconnected) hfault
      (Option.map_eq_some_iff.mpr ⟨_, hconn, rfl⟩) ?_
    rw [Service.submit_of_idle (by exact hworker)]
    have hlink' : { s.conn with link := false, question := none }.disconnected.link = false :=
      ConnState.link_disconnected _
    have hnone : none ∉ { s.conn with link := false, question := none }.disconnected.unrefs :=
      mt (ConnState.none_mem_unrefs_disconnected _).mp (h.unrefs hfault)
    refine findable_of_pending rfl hset ⟨?_, hlink', ?_⟩
    · show (s.fault || decide _) = false
      rw [hfault, decide_eq_false hnone]
      rfl
    · show { s.conn with link := false, question := none }.disconnected.held = 0
      rw [← (h.cleared.step hconn).leaked_eq hlink', ConnState.leaked_connStep h.cleared hconn,
        hleak]
      rfl
  | lost _ _ _ _ hfail' => exact absurd hfail hfail'

/-- While the device advertises, nothing has failed, no reference is lost and there was no fault. -/
theorem ServiceInv.of_advertising (h : ServiceInv s) (hadv : s.advertising = true) :
    s.fault = false ∧ s.failures = [] ∧ s.conn.leaked = 0 := by
  cases h.stage with
  | advertises _ _ _ hlink _ hfail hleak =>
    refine ⟨Bool.eq_false_iff.mpr fun hfault => ?_, hfail, hleak⟩
    rw [h.linked hfault] at hlink
    cases hlink
  | boots _ _ _ _ hadv' | submitted _ _ _ _ hadv' | connected _ _ _ _ hadv' | lost _ _ _ hadv' =>
    rw [hadv] at hadv'
    cases hadv'

/-- **Whether the device is found again.** There is no fault in a run exactly if no word of the
buttons has both keys while `auth_conn` is set. From a state that is reached, there is a way to one
in which the device advertises exactly if there was no fault, no call has failed so far, and no
passkey question has come while `auth_conn` was set. -/
theorem findable_iff (is : List ServiceInput) (s : Service) (hrun : service.run is = some s) :
    (s.fault = false ↔ service.Meets OneKey is) ∧
      (s.Findable ↔ service.Meets OneKey is ∧ s.failures = [] ∧ service.Meets AsksFree is) := by
  have hinv : ServiceInv s :=
    Machine.invariant_run ServiceInv (fun _ _ _ h hs => h.step hs) serviceInv_init hrun
  obtain ⟨hzero, hmeets⟩ := meets_asksFree_iff serviceInv_init hrun
  refine ⟨meets_oneKey_iff hrun, ?_⟩
  rw [← meets_oneKey_iff hrun]
  constructor
  · rintro ⟨js, t, hrun', hadv⟩
    have hinv' : ServiceInv t :=
      Machine.invariant_run ServiceInv (fun _ _ _ h hs => h.step hs) hinv hrun'
    -- a fault, a failure and a lost reference stand for good
    obtain ⟨hfault, hfail, hleak⟩ := hinv'.of_advertising hadv
    obtain ⟨hle, -⟩ := meets_asksFree_iff hinv hrun'
    refine ⟨?_, ?_, ?_⟩
    · have hstays := (Machine.along_iff_measure_eq (fun s : Service => s.fault) ServiceInv
        (fun _ _ _ h hs => h.step hs) (fun _ _ _ h hs => fault_serviceStep h hs) hinv hrun').1
      rw [hfault] at hstays
      exact Bool.eq_false_of_le_false hstays
    · by_contra hne
      exact Machine.invariant_run (fun u : Service => u.failures ≠ [])
        (fun _ _ _ h hs => (serviceStep_of_eq_some hs).2.failures h) hne hrun' hfail
    · exact hmeets.mpr (le_antisymm hzero (hle.trans (le_of_eq hleak)))
  · rintro ⟨hfault, hfail, halong⟩
    exact hinv.findable hfault hfail (hmeets.mp halong).symm

/-- A client whose pairing fails and who asks again: the device will not be found when it leaves. -/
theorem findable_asked_twice : ∃ s, service.run [.main true, .main true, .main true, .main true,
      .main true, .worker true, .conn (.connected 0), .conn .authPasskeyConfirm,
      .conn .pairingFailed, .conn .authPasskeyConfirm] = some s ∧
    s.failures = [] ∧ s.conn.link = true ∧ ¬ s.Findable := by
  refine ⟨_, rfl, rfl, rfl, ?_⟩
  rw [(findable_iff [.main true, .main true, .main true, .main true, .main true, .worker true,
    .conn (.connected 0), .conn .authPasskeyConfirm, .conn .pairingFailed,
    .conn .authPasskeyConfirm] _ rfl).2]
  decide

end NcsExamples.PeripheralUart
