import NcsExamples.SocketEcho.Client

/-! # Socket echo client: `start_tcp`

`socket_setup` makes a socket and connects it, for one address family. It returns a positive errno if
there is no socket, and -1 if there is one that cannot be connected. `start_tcp` calls it for each
family that is enabled, with the same `sock`, and tests for a negative result only. No function
closes a socket. -/

namespace NcsExamples.SocketEcho

/-! ## The calls -/

/-- The configuration. At least one address family is enabled. -/
structure Config where
  /-- `CONFIG_NET_IPV6`. -/
  ipv6 : Bool
  /-- `CONFIG_NET_IPV4`. -/
  ipv4 : Bool
  /-- `CONFIG_NET_SOCKETS_SOCKOPT_TLS`. -/
  tls : Bool
  enabled : ipv6 = true ∨ ipv4 = true

/-- What `socket` returns. -/
inductive SocketResult
  | descriptor (fd : ℕ)
  /-- `-1`, with a value of `errno`. -/
  | error (errno : ℤ)
  deriving DecidableEq, Repr

/-- What the calls in `socket_setup` return. -/
structure Calls where
  socket : SocketResult
  /-- `setsockopt` for `TLS_SEC_TAG_LIST`. -/
  secTagList : ℤ
  /-- `setsockopt` for `TLS_HOSTNAME`. -/
  hostname : ℤ
  /-- `connect`, which connects the socket if it returns 0. -/
  connect : ℤ
  deriving DecidableEq, Repr

/-- The calls whose failure is logged. -/
inductive Failure
  | socket
  | secTagList
  | hostname
  | connect
  deriving DecidableEq, Repr

/-- `*sock`, and what has become of the descriptors. -/
structure Sockets where
  sock : ℤ
  /-- The descriptors that `start_tcp` has opened and that are still open. -/
  opened : List ℕ
  /-- The descriptors that it has connected. -/
  connected : List ℕ
  /-- The errors that it has logged. -/
  logged : List Failure
  deriving DecidableEq, Repr

/-- `if (ret < 0) { LOG_ERR(...) }`. -/
def Sockets.check (ret : ℤ) (call : Failure) (s : Sockets) : Sockets :=
  if ret < 0 then { s with logged := s.logged ++ [call] } else s

/-- The two calls of `setsockopt`, whose results are logged only. -/
def setTlsOptions (cfg : Config) (calls : Calls) (s : Sockets) : Sockets :=
  if cfg.tls then (s.check calls.secTagList .secTagList).check calls.hostname .hostname else s

/-- `socket_setup`. -/
def socketSetup (cfg : Config) (calls : Calls) (s : Sockets) : Sockets × ℤ :=
  match calls.socket with
  | .error errno => ({ s with sock := -1, logged := s.logged ++ [.socket] }, errno)
  | .descriptor fd =>
      let s := setTlsOptions cfg calls { s with sock := fd, opened := s.opened ++ [fd] }
      let s := if calls.connect = 0 then { s with connected := s.connected ++ [fd] } else s
      (s.check calls.connect .connect, calls.connect)

/-- `start_tcp`, with what the calls return for the addresses `addr6` and `addr4`. -/
def startTcp (cfg : Config) (addr6 addr4 : Calls) (s : Sockets) : Sockets × ℤ :=
  let r := if cfg.ipv6 then socketSetup cfg addr6 s else (s, 0)
  -- without IPv6 `ret` is 0 here
  if r.2 < 0 then r else if cfg.ipv4 then socketSetup cfg addr4 r.1 else r

/-- Before `start_tcp`, whatever `*sock` is. -/
def Sockets.before (sock : ℤ) : Sockets := ⟨sock, [], [], []⟩

/-! ## The report -/

/-- `*sock` is an open and connected descriptor. -/
def Sockets.Ready (s : Sockets) : Prop := ∃ fd : ℕ, s.sock = fd ∧ fd ∈ s.opened ∧ fd ∈ s.connected

/-- What `start_tcp` returns says whether `*sock` can be used, and no other socket is left open. -/
structure Honest (r : Sockets × ℤ) : Prop where
  ready : r.2 = 0 ↔ r.1.Ready
  only : r.2 = 0 → ∃ fd : ℕ, r.1.sock = fd ∧ r.1.opened = [fd]
  none : r.2 ≠ 0 → r.1.opened = []

/-- There is no socket and an errno that says so, or a socket that is connected. -/
def Calls.Clean (calls : Calls) : Prop :=
  match calls.socket with
  | .error errno => errno ≠ 0
  | .descriptor _ => calls.connect = 0

/-- With one address family its calls are clean. With both, there is no socket for IPv6, and its errno
is negative or the calls for IPv4 are clean. -/
def Sound (cfg : Config) (addr6 addr4 : Calls) : Prop :=
  if cfg.ipv6 then
    if cfg.ipv4 then ∃ errno, addr6.socket = .error errno ∧ (errno < 0 ∨ addr4.Clean)
    else addr6.Clean
  else addr4.Clean

variable {cfg : Config} {calls addr6 addr4 : Calls} {s : Sockets} {ret : ℤ}

/-! ## `socket_setup` -/

@[simp] theorem check_sock {call : Failure} : (s.check ret call).sock = s.sock := by
  rw [Sockets.check]
  split <;> rfl

@[simp] theorem check_opened {call : Failure} : (s.check ret call).opened = s.opened := by
  rw [Sockets.check]
  split <;> rfl

@[simp] theorem check_connected {call : Failure} :
    (s.check ret call).connected = s.connected := by
  rw [Sockets.check]
  split <;> rfl

@[simp] theorem setTlsOptions_sock : (setTlsOptions cfg calls s).sock = s.sock := by
  rw [setTlsOptions]
  split <;> simp

@[simp] theorem setTlsOptions_opened : (setTlsOptions cfg calls s).opened = s.opened := by
  rw [setTlsOptions]
  split <;> simp

/-- Without a socket, `socket_setup` opens nothing and returns the errno. -/
theorem socketSetup_error (cfg : Config) (s : Sockets) {errno : ℤ}
    (hsocket : calls.socket = .error errno) :
    (socketSetup cfg calls s).2 = errno ∧ (socketSetup cfg calls s).1.sock = -1 ∧
      (socketSetup cfg calls s).1.opened = s.opened := by
  simp [socketSetup, hsocket]

/-- With a socket, `socket_setup` leaves it open and returns what `connect` does. -/
theorem socketSetup_descriptor (cfg : Config) (s : Sockets) {fd : ℕ}
    (hsocket : calls.socket = .descriptor fd) :
    (socketSetup cfg calls s).2 = calls.connect ∧ (socketSetup cfg calls s).1.sock = fd ∧
      (socketSetup cfg calls s).1.opened = s.opened ++ [fd] := by
  simp only [socketSetup, hsocket, check_sock, check_opened]
  split <;> simp

/-- A socket that `connect` returns 0 for is connected. -/
theorem mem_connected_socketSetup {fd : ℕ} (hsocket : calls.socket = .descriptor fd)
    (hconnect : calls.connect = 0) : fd ∈ (socketSetup cfg calls s).1.connected := by
  simp [socketSetup, hsocket, hconnect]

/-- What is open stays open. -/
theorem opened_subset_socketSetup : s.opened ⊆ (socketSetup cfg calls s).1.opened := by
  cases hsocket : calls.socket with
  | error errno =>
    obtain ⟨-, -, hopened⟩ := socketSetup_error cfg s hsocket
    rw [hopened]
    exact List.Subset.refl _
  | descriptor fd =>
    obtain ⟨-, -, hopened⟩ := socketSetup_descriptor cfg s hsocket
    rw [hopened]
    exact List.subset_append_left _ _

/-- A socket that is open and is not the only one, or not `*sock`, is leaked. -/
theorem not_honest_of_leaked {r : Sockets × ℤ} {fd : ℕ} (hfd : fd ∈ r.1.opened)
    (hleaked : r.2 = 0 → r.1.sock = fd → r.1.opened ≠ [fd]) : ¬ Honest r := by
  intro h
  by_cases hret : r.2 = 0
  · obtain ⟨gd, hsock, hopened⟩ := h.only hret
    rw [hopened] at hfd
    obtain rfl : fd = gd := List.mem_singleton.mp hfd
    exact hleaked hret hsock hopened
  · rw [h.none hret] at hfd
    cases hfd

/-- **One address family.** With nothing open before, `socket_setup` reports honestly exactly if its
calls are clean. -/
theorem socketSetup_honest_iff (hopened : s.opened = []) :
    Honest (socketSetup cfg calls s) ↔ calls.Clean := by
  cases hsocket : calls.socket with
  | error errno =>
    obtain ⟨hret, hsock, hopen⟩ := socketSetup_error cfg s hsocket
    have hclean : calls.Clean ↔ errno ≠ 0 := by rw [Calls.Clean, hsocket]
    rw [hclean, ← hret]
    have hnone : (socketSetup cfg calls s).1.opened = [] := hopen.trans hopened
    have hready : ¬ (socketSetup cfg calls s).1.Ready := by
      rintro ⟨fd, -, hmem, -⟩
      rw [hnone] at hmem
      cases hmem
    constructor
    · intro h hzero
      exact hready (h.ready.mp hzero)
    · intro hne
      exact ⟨iff_of_false hne hready, fun hzero => absurd hzero hne, fun _ => hnone⟩
  | descriptor fd =>
    obtain ⟨hret, hsock, hopen⟩ := socketSetup_descriptor cfg s hsocket
    have hclean : calls.Clean ↔ calls.connect = 0 := by rw [Calls.Clean, hsocket]
    rw [hclean, ← hret]
    rw [hopened, List.nil_append] at hopen
    constructor
    · intro h
      by_contra hne
      have hnone := h.none hne
      rw [hopen] at hnone
      cases hnone
    · intro hzero
      have hmem : fd ∈ (socketSetup cfg calls s).1.opened := by
        rw [hopen]
        exact List.mem_cons_self
      exact {
        ready := iff_of_true hzero ⟨fd, hsock, hmem,
          mem_connected_socketSetup hsocket (hret ▸ hzero)⟩
        only := fun _ => ⟨fd, hsock, hopen⟩
        none := fun hne => absurd hzero hne }

/-! ## `start_tcp` -/

/-- With IPv6 disabled. -/
theorem startTcp_of_ipv4 (h6 : cfg.ipv6 = false) :
    startTcp cfg addr6 addr4 s = socketSetup cfg addr4 s := by
  have h4 : cfg.ipv4 = true := cfg.enabled.resolve_left (by simp [h6])
  simp [startTcp, h6, h4]

/-- With IPv4 disabled. -/
theorem startTcp_of_ipv6 (h4 : cfg.ipv4 = false) :
    startTcp cfg addr6 addr4 s = socketSetup cfg addr6 s := by
  have h6 : cfg.ipv6 = true := cfg.enabled.resolve_right (by simp [h4])
  simp [startTcp, h6, h4]

/-- With both enabled, the second address is for a result that is not negative. -/
theorem startTcp_of_both (h6 : cfg.ipv6 = true) (h4 : cfg.ipv4 = true) :
    startTcp cfg addr6 addr4 s = if (socketSetup cfg addr6 s).2 < 0 then socketSetup cfg addr6 s
      else socketSetup cfg addr4 (socketSetup cfg addr6 s).1 := by
  simp [startTcp, h6, h4]

/-- With both enabled, a socket for IPv6 is leaked, whatever becomes of the one for IPv4. -/
theorem not_honest_of_descriptor (h6 : cfg.ipv6 = true) (h4 : cfg.ipv4 = true) {fd : ℕ}
    (hsocket : addr6.socket = .descriptor fd) : ¬ Honest (startTcp cfg addr6 addr4 s) := by
  obtain ⟨-, -, hopen⟩ := socketSetup_descriptor cfg s hsocket
  have hmem : fd ∈ (socketSetup cfg addr6 s).1.opened := by
    rw [hopen]
    exact List.mem_append_right _ List.mem_cons_self
  rw [startTcp_of_both h6 h4]
  split
  · next hneg => exact not_honest_of_leaked hmem fun hzero => absurd hzero (Int.ne_of_lt hneg)
  · apply not_honest_of_leaked (opened_subset_socketSetup hmem)
    intro _ hsock
    cases hsocket4 : addr4.socket with
    | error errno =>
      obtain ⟨-, hsock4, -⟩ := socketSetup_error cfg (socketSetup cfg addr6 s).1 hsocket4
      rw [hsock4] at hsock
      omega
    | descriptor gd =>
      obtain ⟨-, -, hopen4⟩ := socketSetup_descriptor cfg (socketSetup cfg addr6 s).1 hsocket4
      intro hsingle
      have hlength := congrArg List.length hsingle
      rw [hopen4, hopen, List.length_append, List.length_append] at hlength
      simp at hlength

/-- **`start_tcp` leaks no socket and reports honestly**, exactly if its calls are sound. -/
theorem startTcp_honest_iff (cfg : Config) (addr6 addr4 : Calls) (sock : ℤ) :
    Honest (startTcp cfg addr6 addr4 (.before sock)) ↔ Sound cfg addr6 addr4 := by
  unfold Sound
  split
  · next h6 =>
    split
    · next h4 =>
      cases hsocket : addr6.socket with
      | descriptor fd => exact iff_of_false (not_honest_of_descriptor h6 h4 hsocket) (by simp)
      | error errno =>
        obtain ⟨hret, -, hopen⟩ := socketSetup_error cfg (.before sock) hsocket
        rw [startTcp_of_both h6 h4, hret]
        split
        · next hneg =>
          have hclean : addr6.Clean := by
            rw [Calls.Clean, hsocket]
            exact Int.ne_of_lt hneg
          exact iff_of_true ((socketSetup_honest_iff rfl).mpr hclean) ⟨errno, rfl, .inl hneg⟩
        · next hnonneg =>
          rw [socketSetup_honest_iff hopen]
          simp [hnonneg]
    · next h4 =>
      rw [startTcp_of_ipv6 (Bool.not_eq_true _ ▸ h4)]
      exact socketSetup_honest_iff rfl
  · next h6 =>
    rw [startTcp_of_ipv4 (Bool.not_eq_true _ ▸ h6)]
    exact socketSetup_honest_iff rfl

/-- Both families are enabled and every call succeeds; `connect` fails; and `socket` fails and leaves
`errno` at 0. -/
theorem startTcp_not_honest :
    ¬ Honest (startTcp ⟨true, true, false, .inl rfl⟩ ⟨.descriptor 3, 0, 0, 0⟩
      ⟨.descriptor 4, 0, 0, 0⟩ (.before (-1))) ∧
    ¬ Honest (startTcp ⟨false, true, false, .inr rfl⟩ ⟨.error 0, 0, 0, 0⟩
      ⟨.descriptor 3, 0, 0, -1⟩ (.before (-1))) ∧
    ¬ Honest (startTcp ⟨false, true, false, .inr rfl⟩ ⟨.error 0, 0, 0, 0⟩
      ⟨.error 0, 0, 0, 0⟩ (.before (-1))) := by
  refine ⟨fun h => ?_, fun h => ?_, fun h => ?_⟩
  · obtain ⟨fd, -, hopened⟩ := h.only rfl
    cases hopened
  · cases h.none (by decide : (-1 : ℤ) ≠ 0)
  · obtain ⟨fd, -, hmem, -⟩ := h.ready.mp rfl
    cases hmem

end NcsExamples.SocketEcho
