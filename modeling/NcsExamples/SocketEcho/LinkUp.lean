import NcsExamples.Lib.EventFlag
import NcsExamples.SocketEcho.Client

/-! # Socket echo client: the link when `main` connects

The handlers keep two flags, which follow the latest event, and give two semaphores, which remember
that there has been one. `main` waits for the semaphores only, and so calls `start_tcp` also when the
connection or the address has gone since. -/

namespace NcsExamples.SocketEcho

/-! ## The events of a run -/

/-- A connection attempt has succeeded. -/
def WifiUp (i : Input) : Prop := i = .wifiConnectResult 0

/-- A connection has ended. -/
def WifiDown (i : Input) : Prop := i = .wifiDisconnectResult

/-- An address has come. -/
def IpUp (i : Input) : Prop := i = .ipv4AddrAdd

/-- An address has gone. -/
def IpDown (i : Input) : Prop := i = .ipv4AddrDel

instance : DecidablePred WifiUp := fun _ => inferInstanceAs (Decidable (_ = _))

instance : DecidablePred WifiDown := fun _ => inferInstanceAs (Decidable (_ = _))

instance : DecidablePred IpUp := fun _ => inferInstanceAs (Decidable (_ = _))

instance : DecidablePred IpDown := fun _ => inferInstanceAs (Decidable (_ = _))

/-- The link is up, as the flags say. -/
def LinkIsUp (c : Client) : Prop := c.wifiIsConnected = true ∧ c.ipObtained = true

instance : DecidablePred LinkIsUp := fun _ => inferInstanceAs (Decidable (_ ∧ _))

variable {c c' : Client} {i : Input} {is : List Input}

/-! ## What the state tells of the events -/

/-- `wifi_is_connected` follows the latest event of the Wi-Fi management. -/
theorem wifiIsConnected_step (hs : Step c i c') :
    c'.wifiIsConnected = flagStep WifiUp WifiDown c.wifiIsConnected i := by
  cases hs with
  | wifiConnectResult status =>
    by_cases hstatus : status = 0
    · subst hstatus
      exact (flagStep_of_up rfl).symm
    · rw [flagStep_of_neither (by simpa [WifiUp] using hstatus) nofun, wifiConnectResult,
        if_pos hstatus]
  | wifiDisconnectResult => exact (flagStep_of_down nofun rfl).symm
  | _ => exact (flagStep_of_neither nofun nofun).symm

/-- `ip_obtained` follows the latest event about the address. -/
theorem ipObtained_step (hs : Step c i c') :
    c'.ipObtained = flagStep IpUp IpDown c.ipObtained i := by
  cases hs with
  | wifiConnectResult status =>
    rw [flagStep_of_neither nofun nofun, wifiConnectResult]
    split <;> rfl
  | ipv4AddrAdd => exact (flagStep_of_up rfl).symm
  | ipv4AddrDel => exact (flagStep_of_down nofun rfl).symm
  | _ => exact (flagStep_of_neither nofun nofun).symm

/-- The first semaphore is given, or has been taken, only after a connection. -/
theorem wifiConnected_step (hs : Step c i c')
    (hgiven : c'.wifiConnected = true ∨ c'.main ≠ .waitWifi) :
    (c.wifiConnected = true ∨ c.main ≠ .waitWifi) ∨ WifiUp i := by
  cases hs with
  | wifiConnectResult status =>
    by_cases hstatus : status = 0
    · exact .inr (congrArg _ hstatus)
    · rw [wifiConnectResult, if_pos hstatus] at hgiven
      exact .inl hgiven
  | wifiDisconnectResult | ipv4AddrAdd | ipv4AddrDel => exact .inl hgiven
  | takeWifi hat hsem => exact .inl (.inl hsem)
  | iterate ret err hat => exact .inl hgiven
  | takeIp hat | startTcp err hat | exit err hat => exact .inl (.inr (by simp [hat]))

/-- The second semaphore is given, or has been taken, only after an address has come. -/
theorem ipv4Obtained_step (hs : Step c i c')
    (hgiven : c'.ipv4Obtained = true ∨ c'.main ≠ .waitWifi ∧ c'.main ≠ .waitIp) :
    (c.ipv4Obtained = true ∨ c.main ≠ .waitWifi ∧ c.main ≠ .waitIp) ∨ IpUp i := by
  cases hs with
  | wifiConnectResult status =>
    rw [wifiConnectResult] at hgiven
    split at hgiven <;> exact .inl hgiven
  | ipv4AddrAdd => exact .inr rfl
  | wifiDisconnectResult | ipv4AddrDel => exact .inl hgiven
  | takeWifi hat hsem => exact .inl (hgiven.imp_right fun hpast => absurd rfl hpast.2)
  | takeIp hat hsem => exact .inl (.inl hsem)
  | iterate ret err hat => exact .inl hgiven
  | startTcp err hat | exit err hat => exact .inl (.inr (by simp [hat]))

/-- What the state tells of the events so far. -/
structure Tracks (is : List Input) (c : Client) : Prop where
  wifi : c.wifiIsConnected = flagFrom WifiUp WifiDown false is
  ip : c.ipObtained = flagFrom IpUp IpDown false is
  wifiUp : c.wifiConnected = true ∨ c.main ≠ .waitWifi → ∃ j ∈ is, WifiUp j
  ipUp : c.ipv4Obtained = true ∨ c.main ≠ .waitWifi ∧ c.main ≠ .waitIp → ∃ j ∈ is, IpUp j

/-- An event among those so far, or the new one, is among those after it. -/
theorem exists_append_singleton {p : Input → Prop} (h : (∃ j ∈ is, p j) ∨ p i) :
    ∃ j ∈ is ++ [i], p j := by
  rcases h with ⟨j, hj, hp⟩ | hp
  · exact ⟨j, List.mem_append_left _ hj, hp⟩
  · exact ⟨i, List.mem_append_right _ List.mem_cons_self, hp⟩

theorem Tracks.step (h : Tracks is c) (hs : Step c i c') : Tracks (is ++ [i]) c' where
  wifi := by rw [flagFrom_append_singleton, ← h.wifi, wifiIsConnected_step hs]
  ip := by rw [flagFrom_append_singleton, ← h.ip, ipObtained_step hs]
  wifiUp hgiven := exists_append_singleton ((wifiConnected_step hs hgiven).imp_left h.wifiUp)
  ipUp hgiven := exists_append_singleton ((ipv4Obtained_step hs hgiven).imp_left h.ipUp)

theorem tracks_run (hrun : client.run is = some c) : Tracks is c := by
  have hinit : Tracks [] client.init := ⟨rfl, rfl, by simp [client], by simp [client]⟩
  refine Machine.invariant_history Tracks ?_ hinit hrun
  intro is c i c' h hs
  exact h.step (step_of_eq_some hs)

/-! ## The link -/

/-- Before `start_tcp` both semaphores have been taken, so both events have occurred. -/
theorem Tracks.linkIsUp_iff (h : Tracks is c) (hat : c.main = .startTcp) :
    LinkIsUp c ↔ Restored WifiUp WifiDown is ∧ Restored IpUp IpDown is := by
  have hwifi : ∃ j ∈ is, WifiUp j := h.wifiUp (.inr (by simp [hat]))
  have hip : ∃ j ∈ is, IpUp j := h.ipUp (.inr (by simp [hat]))
  have hwifiDisjoint : ∀ j, WifiUp j → ¬ WifiDown j := by
    rintro j rfl
    nofun
  have hipDisjoint : ∀ j, IpUp j → ¬ IpDown j := by
    rintro j rfl
    nofun
  rw [LinkIsUp, h.wifi, h.ip, flagFrom_eq_true_iff_restored hwifiDisjoint hwifi,
    flagFrom_eq_true_iff_restored hipDisjoint hip]

/-- **The client connects only while the link is up.** When `main` calls `start_tcp`, both flags are
set exactly if every end of a connection was followed by a new connection, and every address that
has gone by one that has come. -/
theorem startTcp_linkIsUp_iff (is : List Input) (c c' : Client) (err : ℤ)
    (hrun : client.run is = some c) (hstart : client.step c (.startTcp err) = some c') :
    LinkIsUp c ↔ Restored WifiUp WifiDown is ∧ Restored IpUp IpDown is := by
  have hstep : Step c (.startTcp err) c' := step_of_eq_some hstart
  cases hstep with
  | startTcp err hat => exact (tracks_run hrun).linkIsUp_iff hat

/-- A connection attempt fails, and then the connection and the address come, go and come again. -/
def linkRestored : List Input :=
  [.wifiConnectResult 1, .wifiConnectResult 0, .wifiDisconnectResult, .semTake, .ipv4AddrAdd,
    .ipv4AddrDel, .wifiConnectResult 0, .ipv4AddrAdd, .semTake]

theorem startTcp_linkIsUp_restored : ∃ c, client.run linkRestored = some c ∧ LinkIsUp c :=
  ⟨_, rfl, (startTcp_linkIsUp_iff linkRestored _ _ 0 rfl rfl).mpr (by decide)⟩

/-- The connection ends after the address has come, and `main` takes both semaphores. -/
theorem startTcp_not_linkIsUp : ¬ ∀ (is : List Input) (c c' : Client) (err : ℤ),
    client.run is = some c → client.step c (.startTcp err) = some c' → LinkIsUp c := by
  intro h
  have hup := h [.wifiConnectResult 0, .ipv4AddrAdd, .wifiDisconnectResult, .semTake, .semTake] _ _ 0
    rfl rfl
  exact absurd hup (by decide)

end NcsExamples.SocketEcho
