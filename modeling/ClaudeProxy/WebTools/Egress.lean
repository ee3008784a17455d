/-
**The egress policy of `web_fetch`** (`api/web_tools/egress.py`).

* `Stdlib` — the parts of `urllib.parse`, `ipaddress` and `socket` that the check calls.
* `getValidatedStreamAddrinfosForEgress` — the check of one URL; it returns the rows of
  `getaddrinfo` that the connection is pinned to.
* `Cleared` — what a URL that passes satisfies when private networks are not allowed, and
  **`cleared_of_validated`**.
-/

import ClaudeProxy.Python

namespace ClaudeProxy

/-! ### The standard library -/

/-- The socket families that the code tells apart. -/
inductive AddressFamily where
  | inet
  | inet6
  | other (number : Nat)
  deriving DecidableEq, Repr

/-- A socket address: its host and port, and for IPv6 the flow information and the scope id. -/
structure SockAddr where
  host : String
  port : Int
  rest : List Int := []
  deriving DecidableEq, Repr

/-- A row of `socket.getaddrinfo`, without its type and its canonical name. -/
structure AddrInfo where
  family : AddressFamily
  proto : Int
  sockaddr : SockAddr
  deriving DecidableEq, Repr

/-- Why `socket.getaddrinfo` raises: an `OSError`, or another exception. -/
inductive ResolveError where
  | osError (message : String)
  | other (error : PyError)

/-- What the resolver answers to one question. -/
abbrev Resolver := String → Int → Except ResolveError (List AddrInfo)

/-- An IP address as `is_global` reads it: without its scope id. -/
structure IpAddress where
  version : Nat
  value : Nat
  deriving DecidableEq, Repr

/-- `urlparse(url)`. -/
structure ParsedUrl where
  scheme : String
  hostname : Option String
  /-- The property raises for a port that is not a number in range. -/
  port : Except PyError (Option Int)

/-- The functions of the standard library. -/
structure Stdlib where
  urlparse : String → Except PyError ParsedUrl
  urljoin : String → String → Except PyError String
  lower : String → String
  repr : String → String
  /-- `ipaddress.ip_address(text)`; `none` where it raises `ValueError`. -/
  ipAddress : String → Option IpAddress
  /-- The text of that address. -/
  ipText : String → String
  isGlobal : IpAddress → Bool
  /-- `socket.getnameinfo` with the flags for numeric texts. -/
  getnameinfo : SockAddr → Except PyError (String × Int)

/-! ### The check -/

/-- `WebFetchEgressPolicy`. -/
structure WebFetchEgressPolicy where
  allowPrivateNetworkTargets : Bool
  allowedSchemes : List String

/-- `WebFetchEgressViolation(message)`. -/
def webFetchEgressViolation (message : String) : PyError :=
  .other "WebFetchEgressViolation" message

namespace Stdlib

variable (lib : Stdlib) (resolver : Resolver)

/-- `_port_for_url`. -/
def portForUrl (parsed : ParsedUrl) : Except PyError Int :=
  match parsed.port with
  | .error error => .error error
  | .ok (some port) => .ok port
  | .ok none => .ok (if lib.lower parsed.scheme = "https" then 443 else 80)

/-- `_stream_getaddrinfo_or_raise`. -/
def streamGetaddrinfoOrRaise (host : String) (port : Int) : Except PyError (List AddrInfo) :=
  match resolver host port with
  | .ok infos => .ok infos
  | .error (.osError message) =>
    .error (webFetchEgressViolation s!"Could not resolve host {lib.repr host}: {message}")
  | .error (.other error) => .error error

/-- The loop over the rows: an address that does not parse is passed over. -/
def checkAddrinfos (host : String) : List AddrInfo → Except PyError Unit
  | [] => .ok ()
  | info :: infos =>
    match lib.ipAddress info.sockaddr.host with
    | none => checkAddrinfos host infos
    | some resolved =>
      if lib.isGlobal resolved then checkAddrinfos host infos
      else .error (webFetchEgressViolation
        s!"Host {lib.repr host} resolves to a non-public address ({lib.ipText info.sockaddr.host})")

/-- The checks that a policy without private targets makes of a host. -/
def publicAddrinfos (host : String) (port : Int) : Except PyError (List AddrInfo) :=
  let hostLower := lib.lower host
  if hostLower = "localhost" ∨ Py.endsWith hostLower ".localhost" then
    .error (webFetchEgressViolation "localhost targets are not allowed for web_fetch")
  else if Py.endsWith hostLower ".local" then
    .error (webFetchEgressViolation ".local hostnames are not allowed for web_fetch")
  else
    match lib.ipAddress host with
    | some parsedIp =>
      if lib.isGlobal parsedIp then lib.streamGetaddrinfoOrRaise resolver host port
      else .error (webFetchEgressViolation
        s!"Non-public IP host {lib.repr host} is not allowed for web_fetch")
    | none =>
      match lib.streamGetaddrinfoOrRaise resolver host port with
      | .error error => .error error
      | .ok infos =>
        match lib.checkAddrinfos host infos with
        | .error error => .error error
        | .ok () => .ok infos

/-- `get_validated_stream_addrinfos_for_egress`. -/
def getValidatedStreamAddrinfosForEgress (url : String) (policy : WebFetchEgressPolicy) :
    Except PyError (List AddrInfo) :=
  match lib.urlparse url with
  | .error error => .error error
  | .ok parsed =>
    let scheme := lib.lower parsed.scheme
    if scheme ∉ policy.allowedSchemes then
      .error (webFetchEgressViolation s!"URL scheme {lib.repr scheme} is not allowed for web_fetch")
    else
      let host := parsed.hostname.getD ""
      if host = "" then .error (webFetchEgressViolation "web_fetch URL must include a host")
      else
        match lib.portForUrl parsed with
        | .error error => .error error
        | .ok port =>
          if policy.allowPrivateNetworkTargets then
            lib.streamGetaddrinfoOrRaise resolver host port
          else lib.publicAddrinfos resolver host port

/-! ### What a URL that passes satisfies -/

/-- `urlparse(url).hostname or ""`. -/
def hostOf (url : String) : Except PyError String :=
  (lib.urlparse url).map fun parsed => parsed.hostname.getD ""

/-- The text is an address that `is_global` accepts. -/
def GlobalAddress (address : String) : Prop :=
  ∃ ip, lib.ipAddress address = some ip ∧ lib.isGlobal ip = true

/-- A URL of an allowed scheme whose host is a global address, or is a name and every address that
the resolver gives for it at this very moment is global. -/
structure Cleared (policy : WebFetchEgressPolicy) (url : String) (infos : List AddrInfo) :
    Prop where
  scheme : ∃ parsed, lib.urlparse url = .ok parsed ∧
    lib.lower parsed.scheme ∈ policy.allowedSchemes
  answered : ∃ host port, lib.hostOf url = .ok host ∧ resolver host port = .ok infos
  host : ∃ host, lib.hostOf url = .ok host ∧
    (lib.GlobalAddress host ∨ lib.ipAddress host = none ∧
      ∀ info ∈ infos, ∀ ip, lib.ipAddress info.sockaddr.host = some ip → lib.isGlobal ip = true)

variable {lib resolver}

theorem answer_of_streamGetaddrinfo {host : String} {port : Int} {infos : List AddrInfo}
    (answered : lib.streamGetaddrinfoOrRaise resolver host port = .ok infos) :
    resolver host port = .ok infos := by
  unfold streamGetaddrinfoOrRaise at answered
  split at answered
  · rename_i given
    rw [given, Except.ok.inj answered]
  · exact nomatch answered
  · exact nomatch answered

/-- The loop passes when every address that parses is global. -/
theorem global_of_checkAddrinfos {host : String} {infos : List AddrInfo}
    (checked : lib.checkAddrinfos host infos = .ok ()) :
    ∀ info ∈ infos, ∀ ip, lib.ipAddress info.sockaddr.host = some ip →
      lib.isGlobal ip = true := by
  induction infos with
  | nil => intro info member; exact absurd member List.not_mem_nil
  | cons first rest ih =>
    unfold checkAddrinfos at checked
    intro info member ip parsed
    rcases List.mem_cons.mp member with rfl | later
    · rw [parsed] at checked
      by_contra internal
      simp only [internal, if_false] at checked
      exact nomatch checked
    · split at checked
      · exact ih checked info later ip parsed
      · split at checked
        · exact ih checked info later ip parsed
        · exact nomatch checked

/-- The host of a URL that passes is a global address, or a name with global addresses only. -/
theorem host_of_publicAddrinfos {host : String} {port : Int} {infos : List AddrInfo}
    (passed : lib.publicAddrinfos resolver host port = .ok infos) :
    resolver host port = .ok infos ∧
      (lib.GlobalAddress host ∨ lib.ipAddress host = none ∧
        ∀ info ∈ infos, ∀ ip, lib.ipAddress info.sockaddr.host = some ip →
          lib.isGlobal ip = true) := by
  unfold publicAddrinfos at passed
  simp only at passed
  split at passed
  · exact nomatch passed
  split at passed
  · exact nomatch passed
  split at passed
  · rename_i parsedIp literal
    split at passed
    · rename_i isPublic
      exact ⟨answer_of_streamGetaddrinfo passed, Or.inl ⟨parsedIp, literal, isPublic⟩⟩
    · exact nomatch passed
  · rename_i named
    split at passed
    · exact nomatch passed
    · rename_i answer answered
      split at passed
      · exact nomatch passed
      · rename_i checked
        obtain rfl := Except.ok.inj passed
        exact ⟨answer_of_streamGetaddrinfo answered,
          Or.inr ⟨named, global_of_checkAddrinfos checked⟩⟩

/-- **The check clears what it passes**, unless the policy allows private networks. -/
theorem cleared_of_validated {policy : WebFetchEgressPolicy}
    (publicOnly : policy.allowPrivateNetworkTargets = false) {url : String}
    {infos : List AddrInfo}
    (passed : lib.getValidatedStreamAddrinfosForEgress resolver url policy = .ok infos) :
    lib.Cleared resolver policy url infos := by
  unfold getValidatedStreamAddrinfosForEgress at passed
  split at passed
  · exact nomatch passed
  rename_i parsed reads
  have hostOf_eq : lib.hostOf url = .ok (parsed.hostname.getD "") := by
    rw [hostOf, reads]
    rfl
  simp only [publicOnly, Bool.false_eq_true, if_false] at passed
  split at passed
  · exact nomatch passed
  rename_i schemeAllowed
  split at passed
  · exact nomatch passed
  split at passed
  · exact nomatch passed
  rename_i port _
  obtain ⟨answered, host⟩ := host_of_publicAddrinfos passed
  exact ⟨⟨parsed, reads, not_not.mp schemeAllowed⟩, ⟨_, port, hostOf_eq, answered⟩,
    ⟨_, hostOf_eq, host⟩⟩

end Stdlib

end ClaudeProxy
