import NcsExamples.Lib.Machine
import NcsExamples.Lib.MessageStream

/-! # Socket echo client

`main` waits for the Wi-Fi connection and for an address, connects, and then sends the same chunked
message every five seconds as long as the link is up. The management handlers set two flags and give
two semaphores. What `send` takes of the message goes to the peer, and the loop does not ask how
much that was. -/

namespace NcsExamples.SocketEcho

/-! ## The message -/

/-- The string literals of `content`. -/
def content : List (List Char) :=
  [['f', 'o', 'o', 'b', 'a', 'r'], ['c', 'h', 'u', 'n', 'k', 'e', 'd'], ['l', 'a', 's', 't']]

/-- `\r\n`. -/
def crlf : List Char := ['\r', '\n']

/-- The text that the format `"%x\r\n%s\r\n"` gives for `strlen(s)` and `s`. -/
def chunkText (s : List Char) : List Char := Nat.toDigits 16 s.length ++ crlf ++ s ++ crlf

/-- The text of `"0\r\n\r\n"`. -/
def lastText : List Char := ['0'] ++ crlf ++ crlf

/-- `sizeof(tmp)`. -/
def tmpSize : ℕ := 64

/-- `pos += snprintk(tmp + pos, sizeof(tmp) - pos, ...)` for a format that gives `text`: the text is
cut to leave room for the final zero, but counted in full. -/
def snprintk (text : List Char) (tmp : List Char × ℕ) : List Char × ℕ :=
  (tmp.1.take tmp.2 ++ text.take (tmpSize - tmp.2 - 1), tmp.2 + text.length)

/-- `tmp` and `pos` before `send`. -/
def tcpData : List Char × ℕ :=
  snprintk lastText (content.foldl (fun tmp s => snprintk (chunkText s) tmp) ([], 0))

/-- The bytes that `send` is asked to send: the first `pos` of `tmp`. -/
def message : List Char := tcpData.1.take tcpData.2

/-- What `send` returns. -/
inductive SendResult
  /-- `-1`. -/
  | error
  /-- The number of bytes taken. -/
  | sent (n : ℕ)
  deriving DecidableEq, Repr

/-- The number of bytes that `send` has taken. -/
def SendResult.count : SendResult → ℕ
  | .error => 0
  | .sent n => n

/-! ## The client -/

/-- Where `main` stands. -/
inductive Main
  /-- Before `k_sem_take(&wifi_connected, K_FOREVER)`. -/
  | waitWifi
  /-- Before `k_sem_take(&ipv4_obtained, K_FOREVER)`. -/
  | waitIp
  /-- Before `start_tcp`. -/
  | startTcp
  /-- At the loop test, with the result of `start_tcp`. -/
  | loop (err : ℤ)
  /-- After the loop. -/
  | exited
  deriving DecidableEq, Repr

/-- The state of the client. -/
structure Client where
  /-- `wifi_is_connected`. -/
  wifiIsConnected : Bool
  /-- `ip_obtained`. -/
  ipObtained : Bool
  /-- The semaphore `wifi_connected`, which counts to one. -/
  wifiConnected : Bool
  /-- The semaphore `ipv4_obtained`, which counts to one. -/
  ipv4Obtained : Bool
  main : Main
  /-- History: the bytes that the socket has taken, in order. -/
  stream : List Char
  deriving DecidableEq, Repr

/-- `wifi_mgmt_event_handler` for `NET_EVENT_WIFI_CONNECT_RESULT`. -/
def wifiConnectResult (status : ℤ) (c : Client) : Client :=
  if status ≠ 0 then c else { c with wifiIsConnected := true, wifiConnected := true }

/-- `wifi_mgmt_event_handler` for `NET_EVENT_WIFI_DISCONNECT_RESULT`. -/
def wifiDisconnectResult (c : Client) : Client := { c with wifiIsConnected := false }

/-- `ipv4_mgmt_event_handler` for `NET_EVENT_IPV4_ADDR_ADD`. -/
def ipv4AddrAdd (c : Client) : Client := { c with ipObtained := true, ipv4Obtained := true }

/-- `ipv4_mgmt_event_handler` for `NET_EVENT_IPV4_ADDR_DEL`. -/
def ipv4AddrDel (c : Client) : Client := { c with ipObtained := false }

/-- `run_tcp`, and `send_tcp_data` in it: the result of `send` is printed only. -/
def runTcp (ret : SendResult) (c : Client) : Client :=
  { c with stream := c.stream ++ message.take ret.count }

/-- The loop test of `main`. -/
def Client.goesOn (c : Client) (err : ℤ) : Prop :=
  c.ipObtained = true ∧ c.wifiIsConnected = true ∧ err = 0

instance (c : Client) (err : ℤ) : Decidable (c.goesOn err) :=
  inferInstanceAs (Decidable (_ ∧ _ ∧ _))

/-- What happens next. -/
inductive Input
  /-- The Wi-Fi management reports the result of a connection attempt. -/
  | wifiConnectResult (status : ℤ)
  /-- The Wi-Fi management reports the end of a connection. -/
  | wifiDisconnectResult
  /-- An address is added. -/
  | ipv4AddrAdd
  /-- An address is deleted. -/
  | ipv4AddrDel
  /-- `main` takes the semaphore it waits for. -/
  | semTake
  /-- `main` calls `start_tcp`, which returns `err`. -/
  | startTcp (err : ℤ)
  /-- `main` goes through the loop once, and `send` returns `ret`. -/
  | iterate (ret : SendResult)
  /-- `main` leaves the loop. -/
  | exit
  deriving DecidableEq, Repr

/-- One step of the client. -/
def step (c : Client) : Input → Option Client
  | .wifiConnectResult status => some (wifiConnectResult status c)
  | .wifiDisconnectResult => some (wifiDisconnectResult c)
  | .ipv4AddrAdd => some (ipv4AddrAdd c)
  | .ipv4AddrDel => some (ipv4AddrDel c)
  | .semTake => match c.main with
    | .waitWifi => if c.wifiConnected then some { c with wifiConnected := false, main := .waitIp }
        else none
    | .waitIp => if c.ipv4Obtained then some { c with ipv4Obtained := false, main := .startTcp }
        else none
    | _ => none
  | .startTcp err => match c.main with
    | .startTcp => some { c with main := .loop err }
    | _ => none
  | .iterate ret => match c.main with
    | .loop err =>
        -- `send` returns -1 or takes at least one byte
        if c.goesOn err ∧ (ret = .error ∨ 1 ≤ ret.count ∧ ret.count ≤ message.length) then
          some (runTcp ret c)
        else none
    | _ => none
  | .exit => match c.main with
    | .loop err => if c.goesOn err then none else some { c with main := .exited }
    | _ => none

/-- The client at the start of `main`. -/
def client : Machine Client Input := ⟨⟨false, false, false, false, .waitWifi, []⟩, step⟩

variable {c c' : Client} {i : Input}

/-- The steps of the client, with what each one finds. -/
inductive Step (c : Client) : Input → Client → Prop
  | wifiConnectResult (status : ℤ) :
      Step c (.wifiConnectResult status) (wifiConnectResult status c)
  | wifiDisconnectResult : Step c .wifiDisconnectResult (wifiDisconnectResult c)
  | ipv4AddrAdd : Step c .ipv4AddrAdd (ipv4AddrAdd c)
  | ipv4AddrDel : Step c .ipv4AddrDel (ipv4AddrDel c)
  | takeWifi (hat : c.main = .waitWifi) (hgiven : c.wifiConnected = true) :
      Step c .semTake { c with wifiConnected := false, main := .waitIp }
  | takeIp (hat : c.main = .waitIp) (hgiven : c.ipv4Obtained = true) :
      Step c .semTake { c with ipv4Obtained := false, main := .startTcp }
  | startTcp (err : ℤ) (hat : c.main = .startTcp) :
      Step c (.startTcp err) { c with main := .loop err }
  | iterate (ret : SendResult) (err : ℤ) (hat : c.main = .loop err)
      (hret : ret = .error ∨ 1 ≤ ret.count ∧ ret.count ≤ message.length) :
      Step c (.iterate ret) (runTcp ret c)
  | exit (err : ℤ) (hat : c.main = .loop err) : Step c .exit { c with main := .exited }

/-- Every step of the machine is one of these. -/
theorem step_of_eq_some (hs : step c i = some c') : Step c i c' := by
  cases i with
  | wifiConnectResult status =>
    obtain rfl := Option.some.inj hs
    exact .wifiConnectResult status
  | wifiDisconnectResult =>
    obtain rfl := Option.some.inj hs
    exact .wifiDisconnectResult
  | ipv4AddrAdd =>
    obtain rfl := Option.some.inj hs
    exact .ipv4AddrAdd
  | ipv4AddrDel =>
    obtain rfl := Option.some.inj hs
    exact .ipv4AddrDel
  | semTake =>
    simp only [step] at hs
    split at hs
    · next hat =>
      obtain ⟨hgiven, rfl⟩ := Machine.guarded_eq_some.mp hs
      exact .takeWifi hat hgiven
    · next hat =>
      obtain ⟨hgiven, rfl⟩ := Machine.guarded_eq_some.mp hs
      exact .takeIp hat hgiven
    · cases hs
  | startTcp err =>
    simp only [step] at hs
    split at hs
    · next hat =>
      obtain rfl := Option.some.inj hs
      exact .startTcp err hat
    · cases hs
  | iterate ret =>
    simp only [step] at hs
    split at hs
    · next err hat =>
      obtain ⟨⟨-, hret⟩, rfl⟩ := Machine.guarded_eq_some.mp hs
      exact .iterate ret err hat hret
    · cases hs
  | exit =>
    simp only [step] at hs
    split at hs
    · next err hat =>
      obtain ⟨-, ht⟩ := Option.ite_none_left_eq_some.mp hs
      obtain rfl := Option.some.inj ht
      exact .exit err hat
    · cases hs

/-! ## The stream of a run -/

/-- The bytes taken by each `send` of a run. -/
def sendCounts (is : List Input) : List ℕ := is.flatMap fun
  | .iterate ret => [ret.count]
  | _ => []

/-- The message has a first character that does not occur in it again. -/
theorem message_eq : ∃ r, message = '6' :: r ∧ '6' ∉ r := ⟨_, rfl, by decide⟩

/-- The message fits into `tmp`, and is all that was printed. -/
example : message = content.flatMap chunkText ++ lastText ∧ message.length = 37 := by decide

/-- A step sends what its input says, and no more than a message. -/
theorem stream_step (hs : step c i = some c') :
    c'.stream = c.stream ++ taken message (sendCounts [i]) ∧
      ∀ n ∈ sendCounts [i], n ≤ message.length := by
  cases step_of_eq_some hs with
  | iterate ret err hat hret =>
    constructor
    · simp [runTcp, sendCounts, taken]
    · intro n hn
      obtain rfl : n = ret.count := by simpa [sendCounts] using hn
      rcases hret with rfl | ⟨-, hle⟩
      · exact Nat.zero_le _
      · exact hle
  | wifiConnectResult status =>
    unfold wifiConnectResult
    split <;> simp [sendCounts]
  | _ => simp [sendCounts, wifiDisconnectResult, ipv4AddrAdd, ipv4AddrDel]

/-- The stream of a run is what its calls of `send` have taken. -/
theorem stream_run {is : List Input} (hrun : client.runFrom c is = some c') :
    c'.stream = c.stream ++ taken message (sendCounts is) ∧
      ∀ n ∈ sendCounts is, n ≤ message.length := by
  induction is generalizing c with
  | nil =>
    obtain rfl : c = c' := Option.some.inj hrun
    simp [sendCounts]
  | cons i is ih =>
    obtain ⟨d, hd, hrest⟩ := client.runFrom_cons_eq_some.mp hrun
    obtain ⟨hstream, hle⟩ := stream_step hd
    obtain ⟨hstream', hle'⟩ := ih hrest
    have hcounts : sendCounts (i :: is) = sendCounts [i] ++ sendCounts is := by
      simp [sendCounts]
    rw [hcounts]
    constructor
    · rw [hstream', hstream, List.append_assoc, taken_append]
    · intro n hn
      rcases List.mem_append.mp hn with hn | hn
      · exact hle n hn
      · exact hle' n hn

/-- What calls of `send` take is framed exactly if none takes a byte after a short one. -/
theorem framed_message_iff {counts : List ℕ} (hle : ∀ n ∈ counts, n ≤ message.length) :
    Framed message (taken message counts) ↔ NoneAfterShort message.length counts := by
  obtain ⟨r, hmessage, hr⟩ := message_eq
  rw [hmessage] at hle ⊢
  exact framed_taken_iff hr hle

/-- **Stream framing.** The stream of a run consists of whole messages, and at most the beginning of
one more, exactly if no `send` takes a byte after one that took a message in part. -/
theorem stream_framed_iff (is : List Input) (c : Client) (hrun : client.run is = some c) :
    Framed message c.stream ↔ NoneAfterShort message.length (sendCounts is) := by
  obtain ⟨hstream, hle⟩ := stream_run hrun
  have hstream' : c.stream = taken message (sendCounts is) := hstream
  rw [hstream']
  exact framed_message_iff hle

/-- The link comes up and `main` gets to its loop. -/
def linkUp : List Input :=
  [.wifiConnectResult 0, .semTake, .ipv4AddrAdd, .semTake, .startTcp 0]

/-- A whole message, a failing `send` and a short one, after which the link goes down. -/
theorem stream_framed_linkDown :
    ∃ c, client.run (linkUp ++ [.iterate (.sent 37), .iterate .error, .iterate (.sent 5),
        .wifiDisconnectResult, .exit]) = some c ∧
      (Framed message c.stream ↔ NoneAfterShort message.length [37, 0, 5]) :=
  ⟨_, rfl, stream_framed_iff (linkUp ++ [.iterate (.sent 37), .iterate .error, .iterate (.sent 5),
    .wifiDisconnectResult, .exit]) _ rfl⟩

/-- Five bytes of a message are taken, and then the next message. -/
theorem stream_not_framed : ∃ c,
    client.run (linkUp ++ [.iterate (.sent 5), .iterate (.sent 37)]) = some c ∧
      ¬ Framed message c.stream := by
  refine ⟨_, rfl, ?_⟩
  show ¬ Framed message (taken message [5, 37])
  rw [framed_message_iff (by decide)]
  decide

end NcsExamples.SocketEcho
