import NcsExamples.TwtDemo.AdvertisingFresh

/-! # TWT demo: what a scanner reads

The application on the phone sees what is advertised: the name, with the end of the MAC address in
hexadecimal, and the service data, with flags and a signal strength that have been written into
bytes. It reads them back. The advertisement has a copy of `prov_svc_data`, which is taken when it
is published and may be older than the variable. -/

namespace NcsExamples.TwtDemo.Advertising

/-! ## The name -/

/-- A character that `byte_to_hex` writes. -/
def hexChar (val : ℕ) (base : Char) : Char :=
  if val < 10 then Char.ofNat (val + '0'.toNat) else Char.ofNat (val - 10 + base.toNat)

/-- `byte_to_hex`: the two characters that it writes. -/
def byteToHex (byte : BitVec 8) (base : Char) : List Char :=
  [((byte &&& 0xf0) >>> 4).toNat, (byte &&& 0x0f).toNat].map fun val => hexChar val base

/-- `device_name`, as it is initialized. -/
def deviceName : List Char := ['P', 'V', '0', '0', '0', '0', '0', '0']

/-- Characters written into a text from position `i` on. -/
def writeAt (text : List Char) (i : ℕ) (chars : List Char) : List Char :=
  text.take i ++ chars ++ text.drop (i + chars.length)

/-- `update_dev_name`. -/
def updateDevName (addr : Fin 6 → BitVec 8) (name : List Char) : List Char :=
  writeAt (writeAt (writeAt name 2 (byteToHex (addr 3) 'A')) 4 (byteToHex (addr 4) 'A')) 6
    (byteToHex (addr 5) 'A')

/-- The value of a hexadecimal digit in capitals. -/
def hexCharValue (c : Char) : ℕ := if c.toNat ≤ 57 then c.toNat - 48 else c.toNat - 55

/-- The bytes that a text of hexadecimal digits spells. -/
def readBytes : List Char → List (BitVec 8)
  | high :: low :: text => BitVec.ofNat 8 (16 * hexCharValue high + hexCharValue low) :: readBytes text
  | _ => []

/-- A digit is written as a capital letter or a decimal digit and read back. -/
theorem hexCharValue_hexChar {val : ℕ} (h : val < 16) : hexCharValue (hexChar val 'A') = val ∧
    (hexChar val 'A').isAlphanum = true := by
  have hall : ∀ val < 16, hexCharValue (hexChar val 'A') = val ∧
      (hexChar val 'A').isAlphanum = true := by decide
  exact hall val h

/-- The two digits of a byte. -/
theorem toNat_nibbles (byte : BitVec 8) : ((byte &&& 0xf0) >>> 4).toNat = byte.toNat / 16 ∧
    (byte &&& 0x0f).toNat = byte.toNat % 16 := by
  revert byte
  decide

/-- A byte is read back from its two characters. -/
theorem readBytes_byteToHex (byte : BitVec 8) (text : List Char) :
    readBytes (byteToHex byte 'A' ++ text) = byte :: readBytes text := by
  obtain ⟨hhigh, hlow⟩ := toNat_nibbles byte
  have hbyte := byte.isLt
  obtain ⟨hvalue, -⟩ := hexCharValue_hexChar (show byte.toNat / 16 < 16 by omega)
  obtain ⟨hvalue', -⟩ := hexCharValue_hexChar (Nat.mod_lt byte.toNat (by decide : 0 < 16))
  have hsum : 16 * (byte.toNat / 16) + byte.toNat % 16 = byte.toNat := Nat.div_add_mod _ _
  simp only [byteToHex, List.map_cons, List.map_nil, List.cons_append, List.nil_append, readBytes,
    hhigh, hlow, hvalue, hvalue', hsum, BitVec.ofNat_toNat, BitVec.setWidth_eq]

/-- The name is what it was initialized to, with the digits of three bytes in it. -/
theorem updateDevName_eq (addr : Fin 6 → BitVec 8) : updateDevName addr deviceName =
    ['P', 'V'] ++ byteToHex (addr 3) 'A' ++ byteToHex (addr 4) 'A' ++ byteToHex (addr 5) 'A' :=
  rfl

/-- **The name tells the device.** The name has eight letters and digits, and the last three bytes
of the MAC address are read back from it. -/
theorem readBytes_updateDevName (addr : Fin 6 → BitVec 8) :
    (updateDevName addr deviceName).length = 8 ∧
      (∀ c ∈ updateDevName addr deviceName, c.isAlphanum = true) ∧
      readBytes ((updateDevName addr deviceName).drop 2) = [addr 3, addr 4, addr 5] := by
  have halnum : ∀ byte : BitVec 8, ∀ c ∈ byteToHex byte 'A', c.isAlphanum = true := by
    intro byte c hc
    -- the two digits are below 16
    obtain ⟨hhigh, hlow⟩ := toNat_nibbles byte
    have hbyte := byte.isLt
    obtain ⟨val, hval, rfl⟩ := List.mem_map.mp hc
    refine (hexCharValue_hexChar ?_).2
    simp only [hhigh, hlow, List.mem_cons, List.not_mem_nil, or_false] at hval
    omega
  refine ⟨rfl, ?_, ?_⟩
  · rw [updateDevName_eq]
    simp only [List.mem_append]
    rintro c (((hc | hc) | hc) | hc)
    · rcases List.mem_pair.mp hc with rfl | rfl <;> rfl
    · exact halnum _ c hc
    · exact halnum _ c hc
    · exact halnum _ c hc
  · have hdrop : (updateDevName addr deviceName).drop 2 = byteToHex (addr 3) 'A' ++
        (byteToHex (addr 4) 'A' ++ (byteToHex (addr 5) 'A' ++ [])) := rfl
    rw [hdrop, readBytes_byteToHex, readBytes_byteToHex, readBytes_byteToHex]
    rfl

/-! ## The service data -/

/-- What the service data says. -/
structure Scan where
  version : BitVec 8
  provisioned : Bool
  /-- The signal strength, if the device is connected. -/
  rssi : Option ℤ
  deriving DecidableEq, Repr

/-- How the service data is read. -/
def SvcData.scan (d : SvcData) : Scan :=
  ⟨d.version, d.flag.getLsbD 0, if d.flag.getLsbD 1 then some d.rssi.toInt else none⟩

/-- What an execution of `update_wifi_status_in_adv` finds. -/
structure Found where
  provisioned : Bool
  status : IfaceStatus
  deriving DecidableEq, Repr

/-- The device is connected, according to the interface. -/
def IfaceStatus.connected (status : IfaceStatus) : Bool :=
  ¬ (status.rc ≠ 0 ∨ status.associated = false)

/-- What is to be read of it. The signal strength is a signed byte. -/
def Found.scan (provSvcVer : BitVec 8) (found : Found) : Scan :=
  ⟨provSvcVer, found.provisioned,
    if found.status.connected then some (found.status.rssi.bmod 256) else none⟩

/-- The flags that are not used are 0. -/
def SvcData.Clean (d : SvcData) : Prop := ∀ i, 2 ≤ i → d.flag.getLsbD i = false

/-- The bits of a byte in which one is written. -/
theorem getLsbD_writeBit {k : ℕ} (hk : k < 8) (b : Bool) (x : BitVec 8) (i : ℕ) :
    (if b then x ||| 1#8 <<< k else x &&& ~~~(1#8 <<< k)).getLsbD i =
      if i = k then b else x.getLsbD i := by
  have hmask : (1#8 <<< k).getLsbD i = decide (k = i) := by
    have hbit := BitVec.getLsbD_twoPow (w := 8) k i
    rw [decide_eq_true hk, Bool.true_and] at hbit
    exact hbit
  rcases Nat.lt_or_ge i 8 with hlt | hge
  · cases b with
    | false =>
      rw [if_neg Bool.false_ne_true, BitVec.getLsbD_and, BitVec.getLsbD_not, hmask]
      rcases eq_or_ne i k with rfl | hne
      · simp
      · simp [hlt, hne, hne.symm]
    | true =>
      rw [if_pos rfl, BitVec.getLsbD_or, hmask]
      rcases eq_or_ne i k with rfl | hne
      · simp
      · simp [hne, hne.symm]
  · have hne : i ≠ k := by omega
    rw [if_neg hne, BitVec.getLsbD_of_ge _ i hge, BitVec.getLsbD_of_ge _ i hge]

/-- What an update writes. -/
theorem updateWifiStatusInAdv_eq (provSvcVer : BitVec 8) (provisioned : Bool) (status : IfaceStatus)
    (d : SvcData) : updateWifiStatusInAdv provSvcVer provisioned status d =
      let flag := if provisioned then d.flag ||| 1#8 <<< 0 else d.flag &&& ~~~(1#8 <<< 0)
      ⟨provSvcVer, if status.connected then flag ||| 1#8 <<< 1 else flag &&& ~~~(1#8 <<< 1),
        if status.connected then BitVec.ofInt 8 status.rssi else BitVec.ofInt 8 (-128)⟩ := by
  unfold updateWifiStatusInAdv IfaceStatus.connected
  by_cases hdown : status.rc ≠ 0 ∨ status.associated = false
  · simp only [hdown, not_true_eq_false, decide_false, if_true, Bool.false_eq_true, if_false]
    rfl
  · simp only [hdown, not_false_eq_true, decide_true, if_true, if_false]
    rfl

/-- **An update is read back**, whatever was in the service data before. -/
theorem scan_updateWifiStatusInAdv (provSvcVer : BitVec 8) (found : Found) (d : SvcData) :
    (updateWifiStatusInAdv provSvcVer found.provisioned found.status d).scan =
      found.scan provSvcVer := by
  rw [updateWifiStatusInAdv_eq]
  simp only [SvcData.scan, Found.scan, getLsbD_writeBit (by decide : 0 < 8),
    getLsbD_writeBit (by decide : 1 < 8)]
  cases found.status.connected <;> simp

/-- An update sets no other flags. -/
theorem SvcData.Clean.update {d : SvcData} (h : d.Clean) (provSvcVer : BitVec 8) (provisioned : Bool)
    (status : IfaceStatus) : (updateWifiStatusInAdv provSvcVer provisioned status d).Clean := by
  intro i hi
  rw [updateWifiStatusInAdv_eq]
  simp only [getLsbD_writeBit (by decide : 0 < 8), getLsbD_writeBit (by decide : 1 < 8)]
  rw [if_neg (by omega), if_neg (by omega)]
  exact h i hi

/-! ## What is published -/

/-- The application, with what the last execution of `update_wifi_status_in_adv` has found. -/
structure Watched where
  app : State
  found : Option Found

/-- What a step finds. -/
def finds (s : State) : Input → Option Found
  | .mainUpdate status | .taskUpdate status => some ⟨s.provState, status⟩
  | _ => none

/-- The application from the boot on, with what it finds. -/
def watched (provSvcVer : BitVec 8) (provState : Bool) : Machine Watched Input where
  init := ⟨(app provSvcVer provState).init, none⟩
  step s i := (step provSvcVer s.app i).map fun app => ⟨app, (finds s.app i).or s.found⟩

variable {provSvcVer : BitVec 8} {provState : Bool} {s t : State} {i : Input}

/-- `main` has not called `update_wifi_status_in_adv` yet, or never will. -/
def State.BeforeUpdate (s : State) : Prop := s.main ≠ .updated ∧ s.main ≠ .running

/-- **What a step does to the service data.** It updates them with what it finds, or leaves them
alone; and only an update brings `main` past its own. -/
theorem Step.finds_cases (hs : Step provSvcVer s i t) :
    (∃ found, finds s i = some found ∧ t.provSvcData =
      updateWifiStatusInAdv provSvcVer found.provisioned found.status s.provSvcData) ∨
    finds s i = none ∧ t.provSvcData = s.provSvcData ∧ (s.BeforeUpdate → t.BeforeUpdate) := by
  cases hs with
  | mainUpdate status hat => exact .inl ⟨⟨s.provState, status⟩, rfl, rfl⟩
  | taskUpdate status hat => exact .inl ⟨⟨s.provState, status⟩, rfl, rfl⟩
  | btEnable ok hat | btWifiProvInit ok hat | mainAdvStart ok hat =>
    refine .inr ⟨rfl, rfl, fun _ => ?_⟩
    cases ok <;> simp [State.BeforeUpdate]
  | workQueueStart hat => exact .inr ⟨rfl, rfl, fun h => absurd hat h.1⟩
  | connected err =>
    refine .inr ⟨rfl, ?_⟩
    unfold Advertising.connected
    split <;> exact ⟨rfl, id⟩
  | _ => exact .inr ⟨rfl, rfl, id⟩

/-- The service data describe what was found last; until something is found they are as at the
boot. -/
structure Watched.Described (provSvcVer : BitVec 8) (w : Watched) : Prop where
  placed : Placed w.app
  clean : w.app.provSvcData.Clean
  /-- Nothing is found before the update of `main`. -/
  boot : w.found = none → w.app.provSvcData = ⟨0, 0, 0⟩ ∧ w.app.BeforeUpdate
  scan : ∀ found ∈ w.found, w.app.provSvcData.scan = found.scan provSvcVer

theorem Watched.Described.step {w u : Watched} (h : w.Described provSvcVer)
    (hs : (watched provSvcVer provState).step w i = some u) : u.Described provSvcVer := by
  obtain ⟨app, happ, rfl⟩ := Option.map_eq_some_iff.mp hs
  have hstep := step_of_eq_some happ
  have hplaced := h.placed.step hstep
  rcases hstep.finds_cases with ⟨found, hfinds, hdata⟩ | ⟨hfinds, hdata, hbefore⟩
  · -- an update: the boot is over, and the data describe what it has found
    refine ⟨hplaced, ?_, ?_, ?_⟩
    · rw [hdata]
      exact h.clean.update provSvcVer _ _
    · rw [hfinds]
      intro hnone
      cases hnone
    · rw [hfinds]
      intro found' hfound'
      obtain rfl : found = found' := Option.some.inj hfound'
      rw [hdata]
      exact scan_updateWifiStatusInAdv provSvcVer found _
  · rw [hfinds, Option.none_or]
    refine ⟨hplaced, ?_, ?_, ?_⟩
    · rw [hdata]
      exact h.clean
    · intro hnone
      obtain ⟨hboot, hmain⟩ := h.boot hnone
      exact ⟨hdata.trans hboot, hbefore hmain⟩
    · rw [hdata]
      exact h.scan

/-- The description holds from the boot on. -/
theorem described_init : (watched provSvcVer provState).init.Described provSvcVer where
  placed := (placed_init : Placed (app provSvcVer provState).init)
  clean i _ := by simp [watched, app]
  boot _ := ⟨rfl, by simp [State.BeforeUpdate, watched, app]⟩
  scan found hfound := by cases hfound

/-- **Publications are read back.** Whatever is published is read as what the last execution of
`update_wifi_status_in_adv` has found, with no other flags set, except for the first publication of
`main`, which is all zeros. -/
theorem publication_scan (provSvcVer : BitVec 8) (provState : Bool) (is : List Input) (w : Watched)
    (i : Input) (v : State) (p : SvcData × Option AdvParam)
    (hrun : (watched provSvcVer provState).run is = some w)
    (hstep : step provSvcVer w.app i = some v) (hp : publishes w.app i = some p) :
    p.1.Clean ∧ (i = .mainAdvStart true ∧ p.1 = ⟨0, 0, 0⟩ ∨
      ∃ found ∈ w.found, p.1.scan = found.scan provSvcVer) := by
  have hdescribed : w.Described provSvcVer :=
    Machine.invariant_run (Watched.Described provSvcVer) (fun _ _ _ h hs => h.step hs)
      described_init hrun
  obtain ⟨hdata, -⟩ := publishes_eq_some hp
  rw [hdata]
  refine ⟨hdescribed.clean, ?_⟩
  cases hfound : w.found with
  | some found => exact .inr ⟨found, rfl, hdescribed.scan found hfound⟩
  | none =>
    obtain ⟨hboot, hmain⟩ := hdescribed.boot hfound
    -- a task would find `main` done
    have htask : w.app.handler = .idle := by
      by_contra hne
      exact hmain.2 (hdescribed.placed.main (hdescribed.placed.started hne))
    cases step_of_eq_some hstep with
    | mainAdvStart ok hat =>
      cases ok with
      | true => exact .inl ⟨rfl, hboot⟩
      | false => cases hp
    | advUpdateData ok hat | advStart ok hat =>
      rw [htask] at hat
      cases hat
    | _ => cases hp

/-- The update after a disconnection, by when the device is provisioned and connected at -60 dBm. -/
theorem publication_scan_reconnect : ∃ w p, (watched 1 false).run (boot ++ [.connected 0,
      .provChange true, .disconnected, .take, .taskUpdate ⟨0, true, -60⟩]) = some w ∧
    publishes w.app (.advUpdateData true) = some p ∧ p.1.Clean :=
  ⟨_, _, rfl, rfl, (publication_scan 1 false (boot ++ [.connected 0, .provChange true,
    .disconnected, .take, .taskUpdate ⟨0, true, -60⟩]) _ (.advUpdateData true) _ _ rfl rfl rfl).1⟩

end NcsExamples.TwtDemo.Advertising
