/-
**`web_fetch` and its redirects** (`api/web_tools/outbound.py`).

* `getaddrinfoRowsToResolveResults` — the only addresses that the resolver of a hop knows.
* `Internet` — what the fetch meets: the resolver's answer at each hop, and what each request does.
  `Aiohttp` is what `aiohttp` is trusted for.
* `readBodyCapped`, `drainBodyCapped`, `fetchFrom`, `runWebFetch` — the loop over the hops, with the
  requests it makes.
* **`connections_are_cleared`** — every connection of every hop goes to a global address that was
  checked for that hop.
-/

import ClaudeProxy.WebTools.Egress

namespace ClaudeProxy

/-! ### Pinning -/

/-- The flags of a result: its host and its port are numbers. -/
inductive ResolveFlag where
  | numericHost
  | numericServ
  deriving DecidableEq, Repr

/-- `_NUMERIC_RESOLVE_FLAGS`. -/
def numericResolveFlags : List ResolveFlag := [.numericHost, .numericServ]

/-- `aiohttp.abc.ResolveResult`. -/
structure ResolveResult where
  hostname : String
  host : String
  port : Int
  family : AddressFamily
  proto : Int
  flags : List ResolveFlag := numericResolveFlags
  deriving DecidableEq, Repr

namespace Stdlib

variable (lib : Stdlib)

/-- The host and the port of a row; `none` for an IPv6 row of a Python without IPv6. -/
def resolvedHost (info : AddrInfo) : Except PyError (Option (String × Int)) :=
  match info.family with
  | .inet6 =>
    match info.sockaddr.rest with
    | [] => .ok none
    | [_] => .error (.other "IndexError" "tuple index out of range")
    | _ :: scopeId :: _ =>
      if scopeId ≠ 0 then (lib.getnameinfo info.sockaddr).map some
      else .ok (some (info.sockaddr.host, info.sockaddr.port))
  | .inet => .ok (some (info.sockaddr.host, info.sockaddr.port))
  | .other number => .error (.other "AssertionError" (toString number))

/-- `getaddrinfo_rows_to_resolve_results`. -/
def getaddrinfoRowsToResolveResults (host : String) :
    List AddrInfo → Except PyError (List ResolveResult)
  | [] => .ok []
  | info :: addrinfos =>
    match lib.resolvedHost info with
    | .error error => .error error
    | .ok none => getaddrinfoRowsToResolveResults host addrinfos
    | .ok (some (resolvedHost, port)) =>
      (getaddrinfoRowsToResolveResults host addrinfos).map fun out =>
        { hostname := host, host := resolvedHost, port := port, family := info.family,
          proto := info.proto } :: out

end Stdlib

/-! ### The exchange of one hop -/

def maxWebFetchRedirects : Nat := 10

def maxWebFetchResponseBytes : Nat := 2 * 1024 * 1024

def redirectResponseBodyCapBytes : Nat := 65536

def webFetchRedirectStatuses : List Nat := [301, 302, 303, 307, 308]

/-- A response. -/
structure Response where
  status : Nat
  url : String
  location : Option String
  contentType : Option String
  /-- `response.get_encoding()`, which raises where no charset is named: the body is not read yet. -/
  getEncoding : Except PyError String
  /-- The chunks of the body, and the exception that follows them. -/
  chunks : List (List UInt8)
  chunksError : Option PyError
  /-- `response.raise_for_status()`. -/
  raiseForStatus : Except PyError Unit

/-- What `session.get` does: the addresses it connects to, and how it ends. -/
structure Exchange where
  connections : List String
  outcome : Except PyError Response

/-- The network, hop by hop: one question to the resolver and one request each. -/
structure Internet where
  resolver : Nat → Resolver
  exchange : Nat → String → List ResolveResult → Exchange

/-- `_read_aiohttp_body_capped`, after the bytes `received`. -/
def readBodyCapped (maxBytes : Nat) (chunksError : Option PyError) (received : List UInt8) :
    List (List UInt8) → Except PyError (List UInt8)
  | [] =>
    match chunksError with
    | none => .ok received
    | some error => .error error
  | chunk :: chunks =>
    if maxBytes ≤ received.length then .ok received
    else
      let remaining := maxBytes - received.length
      if chunk.length ≤ remaining then
        readBodyCapped maxBytes chunksError (received ++ chunk) chunks
      else .ok (received ++ chunk.take remaining)

/-- `_drain_aiohttp_body_capped`, after `received` bytes. -/
def drainBodyCapped (maxBytes : Nat) (chunksError : Option PyError) (received : Nat) :
    List (List UInt8) → Except PyError Unit
  | [] =>
    match chunksError with
    | none => .ok ()
    | some error => .error error
  | chunk :: chunks =>
    if maxBytes ≤ received + chunk.length then .ok ()
    else drainBodyCapped maxBytes chunksError (received + chunk.length) chunks

/-! ### The loop -/

/-- What is read of the last response; the title and the text are taken from it. -/
structure FetchedPage where
  finalUrl : String
  contentType : String
  encoding : String
  body : List UInt8

/-- A call of `session.get`: its URL, the answer it is pinned to, and its connections. -/
structure FetchRequest where
  url : String
  addrInfos : List AddrInfo
  connections : List String

/-- The requests that a fetch makes, and its result. -/
structure Fetch where
  requests : List FetchRequest
  result : Except PyError FetchedPage

/-- Where a response leads. -/
inductive HopResult where
  | redirect (url : String)
  | page (page : FetchedPage)
  | raises (error : PyError)

/-- `str.strip` of a header that may be missing; an empty one counts as missing. -/
def strippedLocation (location : Option String) : Option String :=
  (location.map Py.strip).filter (· ≠ "")

/-- The body of `async with`: what the code does with a response after `redirectHops` redirects. -/
def handleResponse (lib : Stdlib) (redirectHops : Nat) (response : Response) : HopResult :=
  if response.status ∈ webFetchRedirectStatuses then
    match drainBodyCapped redirectResponseBodyCapBytes response.chunksError 0 response.chunks with
    | .error error => .raises error
    | .ok () =>
      if maxWebFetchRedirects ≤ redirectHops then
        .raises (webFetchEgressViolation
          s!"web_fetch exceeded maximum redirects ({maxWebFetchRedirects})")
      else
        match strippedLocation response.location with
        | none => .raises (webFetchEgressViolation
          "web_fetch redirect response missing Location header")
        | some location =>
          match lib.urljoin response.url location with
          | .error error => .raises error
          | .ok url => .redirect url
  else
    match response.raiseForStatus with
    | .error error => .raises error
    | .ok () =>
      match response.getEncoding with
      | .error error => .raises error
      | .ok encoding =>
        match readBodyCapped maxWebFetchResponseBytes response.chunksError [] response.chunks with
        | .error error => .raises error
        | .ok body => .page
          { finalUrl := response.url, contentType := response.contentType.getD "text/plain",
            encoding := if encoding = "" then "utf-8" else encoding, body }

/-- A redirect is followed only below the limit. -/
theorem below_of_redirect {lib : Stdlib} {redirectHops : Nat} {response : Response} {url : String}
    (follows : handleResponse lib redirectHops response = .redirect url) :
    redirectHops < maxWebFetchRedirects := by
  unfold handleResponse at follows
  split at follows
  · split at follows
    · exact nomatch follows
    · split at follows
      · exact nomatch follows
      · rename_i below
        exact Nat.lt_of_not_le below
  · split at follows
    · exact nomatch follows
    · split at follows
      · exact nomatch follows
      · split at follows <;> exact nomatch follows

namespace Internet

variable (net : Internet) (lib : Stdlib) (egress : WebFetchEgressPolicy)

/-- The part of a hop before `session.get`: the rows it is pinned to, and the pinned results. -/
def pin (redirectHops : Nat) (url : String) :
    Except PyError (List AddrInfo × List ResolveResult) := do
  let addrInfos ← lib.getValidatedStreamAddrinfosForEgress (net.resolver redirectHops) url egress
  let host ← lib.hostOf url
  let results ← lib.getaddrinfoRowsToResolveResults host addrInfos
  .ok (addrInfos, results)

/-- The loop of `_run_web_fetch`, at `currentUrl` after `redirectHops` redirects. -/
def fetchFrom (redirectHops : Nat) (currentUrl : String) : Fetch :=
  match net.pin lib egress redirectHops currentUrl with
  | .error error => ⟨[], .error error⟩
  | .ok (addrInfos, results) =>
    let exchange := net.exchange redirectHops currentUrl results
    let request : FetchRequest := ⟨currentUrl, addrInfos, exchange.connections⟩
    match exchange.outcome with
    | .error error => ⟨[request], .error error⟩
    | .ok response =>
      match follows : handleResponse lib redirectHops response with
      | .raises error => ⟨[request], .error error⟩
      | .page page => ⟨[request], .ok page⟩
      | .redirect url =>
        let rest := fetchFrom (redirectHops + 1) url
        ⟨request :: rest.requests, rest.result⟩
termination_by maxWebFetchRedirects - redirectHops
decreasing_by
  have := below_of_redirect follows
  omega

/-- `_run_web_fetch`. -/
def runWebFetch (url : String) : Fetch := net.fetchFrom lib egress 0 url

/-! ### What the network and the client are trusted for -/

/-- The resolver answers with addresses. -/
def Parseable : Prop :=
  ∀ hop host port infos, net.resolver hop host port = .ok infos →
    ∀ info ∈ infos, (lib.ipAddress info.sockaddr.host).isSome

/-- `aiohttp` connects to the host of the URL where that is an address, and else only to what its
resolver returns. -/
structure Aiohttp : Prop where
  literal : ∀ hop url results host, lib.hostOf url = .ok host → (lib.ipAddress host).isSome →
    ∀ address ∈ (net.exchange hop url results).connections, address = host
  named : ∀ hop url results host, lib.hostOf url = .ok host → lib.ipAddress host = none →
    ∀ address ∈ (net.exchange hop url results).connections,
      ∃ result ∈ results, result.host = address

end Internet

namespace Stdlib

variable (lib : Stdlib)

/-- The numeric text that `getnameinfo` returns is one of the same address. -/
def KeepsAddress : Prop :=
  ∀ sockaddr host port, lib.getnameinfo sockaddr = .ok (host, port) →
    lib.ipAddress host = lib.ipAddress sockaddr.host

/-- The address is global, and it is the URL's own host or one of the rows of this hop's answer. -/
def ValidatedFor (request : FetchRequest) (address : String) : Prop :=
  lib.GlobalAddress address ∧
    (lib.hostOf request.url = .ok address ∨
      ∃ info ∈ request.addrInfos, lib.ipAddress address = lib.ipAddress info.sockaddr.host)

variable {lib}

/-- A row's result has the row's address. -/
theorem address_of_resolvedHost (numeric : lib.KeepsAddress) {info : AddrInfo} {host : String}
    {port : Int} (resolved : lib.resolvedHost info = .ok (some (host, port))) :
    lib.ipAddress host = lib.ipAddress info.sockaddr.host := by
  unfold resolvedHost at resolved
  split at resolved
  · split at resolved
    · exact nomatch resolved
    · exact nomatch resolved
    · split at resolved
      · cases named : lib.getnameinfo info.sockaddr with
        | error error =>
          rw [named] at resolved
          exact nomatch resolved
        | ok pair =>
          rw [named] at resolved
          obtain rfl := Option.some.inj (Except.ok.inj resolved)
          exact numeric _ _ _ named
      · rw [(Prod.mk.inj (Option.some.inj (Except.ok.inj resolved))).1]
  · rw [(Prod.mk.inj (Option.some.inj (Except.ok.inj resolved))).1]
  · exact nomatch resolved

/-- Every pinned result has the address of a row. -/
theorem row_of_result (numeric : lib.KeepsAddress) {host : String} {infos : List AddrInfo}
    {results : List ResolveResult}
    (mapped : lib.getaddrinfoRowsToResolveResults host infos = .ok results) :
    ∀ result ∈ results, ∃ info ∈ infos,
      lib.ipAddress result.host = lib.ipAddress info.sockaddr.host := by
  induction infos generalizing results with
  | nil =>
    obtain rfl := Except.ok.inj mapped
    intro result member
    exact absurd member List.not_mem_nil
  | cons info rest ih =>
    have later : ∀ out, lib.getaddrinfoRowsToResolveResults host rest = .ok out →
        ∀ result ∈ out, ∃ row ∈ info :: rest,
          lib.ipAddress result.host = lib.ipAddress row.sockaddr.host := by
      intro out rows result member
      obtain ⟨row, present, same⟩ := ih rows result member
      exact ⟨row, List.mem_cons_of_mem _ present, same⟩
    unfold getaddrinfoRowsToResolveResults at mapped
    split at mapped
    · exact nomatch mapped
    · exact later results mapped
    · rename_i resolvedHost port resolved
      cases rows : lib.getaddrinfoRowsToResolveResults host rest with
      | error error =>
        rw [rows] at mapped
        exact nomatch mapped
      | ok out =>
        rw [rows] at mapped
        obtain rfl := Except.ok.inj mapped
        intro result member
        rcases List.mem_cons.mp member with rfl | inRest
        · exact ⟨info, List.mem_cons_self, address_of_resolvedHost numeric resolved⟩
        · exact later out rows result inRest

end Stdlib

namespace Internet

variable {net : Internet} {lib : Stdlib} {egress : WebFetchEgressPolicy}

/-! ### One hop -/

/-- A hop that is pinned passed the check, with the results of its rows. -/
theorem validated_of_pin {hop : Nat} {url : String} {infos : List AddrInfo}
    {results : List ResolveResult} (pinned : net.pin lib egress hop url = .ok (infos, results)) :
    lib.getValidatedStreamAddrinfosForEgress (net.resolver hop) url egress = .ok infos ∧
      ∃ host, lib.getaddrinfoRowsToResolveResults host infos = .ok results := by
  simp only [pin, bind, Except.bind] at pinned
  split at pinned
  · exact nomatch pinned
  rename_i answer validated
  split at pinned
  · exact nomatch pinned
  rename_i host _
  split at pinned
  · exact nomatch pinned
  rename_i out mapped
  obtain ⟨rfl, rfl⟩ := Prod.mk.inj (Except.ok.inj pinned)
  exact ⟨validated, host, mapped⟩

/-- **The step lemma**: a hop that is pinned connects to validated addresses only. -/
theorem validated_of_hop (publicOnly : egress.allowPrivateNetworkTargets = false)
    (parseable : net.Parseable lib) (client : net.Aiohttp lib) (numeric : lib.KeepsAddress)
    {hop : Nat} {url : String} {infos : List AddrInfo} {results : List ResolveResult}
    (pinned : net.pin lib egress hop url = .ok (infos, results)) :
    lib.Cleared (net.resolver hop) egress url infos ∧
      ∀ address ∈ (net.exchange hop url results).connections,
        lib.ValidatedFor ⟨url, infos, (net.exchange hop url results).connections⟩ address := by
  obtain ⟨validated, _, mapped⟩ := validated_of_pin pinned
  have cleared := Stdlib.cleared_of_validated publicOnly validated
  refine ⟨cleared, ?_⟩
  intro address connected
  obtain ⟨host, hosted, isPublic | ⟨named, publicRows⟩⟩ := cleared.host
  · have literal : (lib.ipAddress host).isSome := by
      obtain ⟨ip, parsed, _⟩ := isPublic
      rw [parsed]
      rfl
    rw [client.literal hop url results host hosted literal address connected]
    exact ⟨isPublic, Or.inl hosted⟩
  · obtain ⟨result, returned, rfl⟩ := client.named hop url results host hosted named address connected
    obtain ⟨info, row, same⟩ := Stdlib.row_of_result numeric mapped result returned
    obtain ⟨_, _, _, answered⟩ := cleared.answered
    obtain ⟨ip, parsed⟩ := Option.isSome_iff_exists.mp (parseable _ _ _ _ answered info row)
    exact ⟨⟨ip, same.trans parsed, publicRows info row ip parsed⟩, Or.inr ⟨info, row, same⟩⟩

/-! ### The whole fetch -/

/-- What holds of the requests made from the hop `first` on. -/
def Safe (net : Internet) (lib : Stdlib) (egress : WebFetchEgressPolicy) (first : Nat)
    (requests : List FetchRequest) : Prop :=
  ∀ hop request, requests[hop]? = some request →
    lib.Cleared (net.resolver (first + hop)) egress request.url request.addrInfos ∧
      ∀ address ∈ request.connections, lib.ValidatedFor request address

theorem Safe.nil (first : Nat) : Safe net lib egress first [] := by
  intro hop request at_
  exact nomatch at_

theorem Safe.cons {first : Nat} {request : FetchRequest} {rest : List FetchRequest}
    (head : lib.Cleared (net.resolver first) egress request.url request.addrInfos ∧
      ∀ address ∈ request.connections, lib.ValidatedFor request address)
    (tail : Safe net lib egress (first + 1) rest) :
    Safe net lib egress first (request :: rest) := by
  intro hop other at_
  cases hop with
  | zero =>
    obtain rfl := Option.some.inj at_
    exact head
  | succ hop =>
    have later := tail hop other at_
    rwa [Nat.add_assoc, Nat.add_comm 1 hop] at later

/-- The request of a hop that is pinned. -/
def requestOf (net : Internet) (hop : Nat) (url : String) (infos : List AddrInfo)
    (results : List ResolveResult) : FetchRequest :=
  ⟨url, infos, (net.exchange hop url results).connections⟩

/-- The rule for the requests of a fetch: none, the last one, or one before those of the next hop. -/
theorem requests_induct {motive : Nat → List FetchRequest → Prop}
    (none : ∀ hop, motive hop [])
    (last : ∀ hop url infos results, net.pin lib egress hop url = .ok (infos, results) →
      motive hop [net.requestOf hop url infos results])
    (redirected : ∀ hop url infos results rest,
      net.pin lib egress hop url = .ok (infos, results) → hop < maxWebFetchRedirects →
      motive (hop + 1) rest → motive hop (net.requestOf hop url infos results :: rest))
    (redirectHops : Nat) (currentUrl : String) :
    motive redirectHops (net.fetchFrom lib egress redirectHops currentUrl).requests := by
  induction redirectHops, currentUrl using fetchFrom.induct net lib egress with
  | case1 hop url error unpinned =>
    unfold fetchFrom
    rw [unpinned]
    exact none hop
  | case2 hop url infos results pinned exchange error failed =>
    unfold fetchFrom
    rw [pinned]
    simp only [show (net.exchange hop url results).outcome = .error error from failed]
    exact last hop url infos results pinned
  | case3 hop url infos results pinned exchange response answered error raised =>
    unfold fetchFrom
    rw [pinned]
    simp only [show (net.exchange hop url results).outcome = .ok response from answered]
    split
    · exact last hop url infos results pinned
    · exact last hop url infos results pinned
    · rename_i follows
      exact nomatch raised.symm.trans follows
  | case4 hop url infos results pinned exchange response answered page read =>
    unfold fetchFrom
    rw [pinned]
    simp only [show (net.exchange hop url results).outcome = .ok response from answered]
    split
    · exact last hop url infos results pinned
    · exact last hop url infos results pinned
    · rename_i follows
      exact nomatch read.symm.trans follows
  | case5 hop url infos results pinned exchange response answered next follows ih =>
    unfold fetchFrom
    rw [pinned]
    simp only [show (net.exchange hop url results).outcome = .ok response from answered]
    split
    · exact last hop url infos results pinned
    · exact last hop url infos results pinned
    · rename_i other followed
      obtain rfl := HopResult.redirect.inj (follows.symm.trans followed)
      exact redirected hop url infos results _ pinned (below_of_redirect follows) ih

/-- **The run lemma**: the requests from any hop on. -/
theorem safe_of_fetchFrom (publicOnly : egress.allowPrivateNetworkTargets = false)
    (parseable : net.Parseable lib) (client : net.Aiohttp lib) (numeric : lib.KeepsAddress)
    (redirectHops : Nat) (currentUrl : String) :
    Safe net lib egress redirectHops
      (net.fetchFrom lib egress redirectHops currentUrl).requests := by
  refine requests_induct Safe.nil ?_ ?_ redirectHops currentUrl
  · intro hop url infos results pinned
    exact Safe.cons (validated_of_hop publicOnly parseable client numeric pinned) (Safe.nil _)
  · intro hop url infos results rest pinned _ later
    exact Safe.cons (validated_of_hop publicOnly parseable client numeric pinned) later

/-- One request more than there are redirects left. -/
theorem length_of_fetchFrom (redirectHops : Nat) (currentUrl : String) :
    (net.fetchFrom lib egress redirectHops currentUrl).requests.length ≤
      maxWebFetchRedirects - redirectHops + 1 := by
  refine @requests_induct net lib egress
    (fun hop requests => requests.length ≤ maxWebFetchRedirects - hop + 1) ?_ ?_ ?_
    redirectHops currentUrl
  · intro hop
    exact Nat.zero_le _
  · intro hop url infos results _
    exact Nat.succ_le_succ (Nat.zero_le _)
  · intro hop url infos results rest _ below later
    rw [List.length_cons]
    omega

/-- **Egress safety.** Whatever the resolver and the servers answer, each request is made with an
allowed scheme, and each of its connections goes to a global address that was validated for that
hop; a redirect at the limit is not followed. -/
theorem connections_are_cleared (net : Internet) (lib : Stdlib) (egress : WebFetchEgressPolicy)
    (publicOnly : egress.allowPrivateNetworkTargets = false)
    (parseable : net.Parseable lib) (client : net.Aiohttp lib) (numeric : lib.KeepsAddress)
    (url : String) :
    (∀ hop request, (net.runWebFetch lib egress url).requests[hop]? = some request →
      lib.Cleared (net.resolver hop) egress request.url request.addrInfos ∧
        ∀ address ∈ request.connections, lib.ValidatedFor request address) ∧
      (net.runWebFetch lib egress url).requests.length ≤ maxWebFetchRedirects + 1 := by
  refine ⟨?_, length_of_fetchFrom 0 url⟩
  intro hop request made
  have safe := safe_of_fetchFrom publicOnly parseable client numeric 0 url hop request made
  rwa [Nat.zero_add] at safe

/-! ### A name that redirects to an address -/

/-- The standard library, on the two URLs of the example. -/
def redirectedLib : Stdlib where
  urlparse url :=
    if url = "https://example.com/start" then .ok ⟨"https", some "example.com", .ok none⟩
    else if url = "https://8.8.8.8/final" then .ok ⟨"https", some "8.8.8.8", .ok none⟩
    else .ok ⟨"", none, .ok none⟩
  urljoin _ location := .ok location
  lower text := text
  repr text := "'" ++ text ++ "'"
  ipAddress text :=
    if text = "93.184.216.34" then some ⟨4, 1572395042⟩
    else if text = "8.8.8.8" then some ⟨4, 134744072⟩
    else none
  ipText text := text
  isGlobal ip := ip = ⟨4, 1572395042⟩ ∨ ip = ⟨4, 134744072⟩
  getnameinfo sockaddr := .ok (sockaddr.host, sockaddr.port)

/-- A server that is found by its name sends the client on to an address. -/
def redirectedNet : Internet where
  resolver _ host port :=
    if host = "example.com" then .ok [⟨.inet, 6, ⟨"93.184.216.34", port, []⟩⟩]
    else if host = "8.8.8.8" then .ok [⟨.inet, 6, ⟨"8.8.8.8", port, []⟩⟩]
    else .error (.osError "Name or service not known")
  exchange hop url results :=
    { connections := if url = "https://8.8.8.8/final" then ["8.8.8.8"] else results.map (·.host)
      outcome := .ok
        { status := if hop = 0 then 302 else 200, url
          location := if hop = 0 then some "https://8.8.8.8/final" else none
          contentType := some "text/plain", getEncoding := .ok "utf-8", chunks := []
          chunksError := none, raiseForStatus := .ok () } }

theorem redirectedNet_parseable : redirectedNet.Parseable redirectedLib := by
  intro hop host port infos answered info row
  simp only [redirectedNet] at answered
  split at answered
  · obtain rfl := Except.ok.inj answered
    obtain rfl := List.mem_singleton.mp row
    rfl
  · split at answered
    · obtain rfl := Except.ok.inj answered
      obtain rfl := List.mem_singleton.mp row
      rfl
    · exact nomatch answered

theorem redirectedNet_aiohttp : redirectedNet.Aiohttp redirectedLib := by
  constructor
  · intro hop url results host hosted literal address connected
    simp only [redirectedNet] at connected
    split at connected
    · rename_i final
      subst final
      rw [List.mem_singleton.mp connected]
      exact Except.ok.inj hosted
    · rename_i notFinal
      simp only [redirectedLib, Stdlib.hostOf, notFinal, if_false] at hosted literal
      split at hosted <;> obtain rfl := Except.ok.inj hosted <;> exact absurd literal (by decide)
  · intro hop url results host hosted named address connected
    simp only [redirectedNet] at connected
    split at connected
    · rename_i final
      subst final
      obtain rfl := Except.ok.inj hosted
      exact absurd named (by decide)
    · obtain ⟨result, returned, same⟩ := List.mem_map.mp connected
      exact ⟨result, returned, same⟩

theorem redirectedLib_keepsAddress : redirectedLib.KeepsAddress := by
  intro sockaddr host port named
  obtain ⟨rfl, rfl⟩ := Prod.mk.inj (Except.ok.inj named)
  rfl

theorem redirectedNet_is_cleared :
    (∀ hop request, (redirectedNet.runWebFetch redirectedLib ⟨false, ["http", "https"]⟩
        "https://example.com/start").requests[hop]? = some request →
      redirectedLib.Cleared (redirectedNet.resolver hop) ⟨false, ["http", "https"]⟩ request.url
          request.addrInfos ∧
        ∀ address ∈ request.connections, redirectedLib.ValidatedFor request address) ∧
      (redirectedNet.runWebFetch redirectedLib ⟨false, ["http", "https"]⟩
        "https://example.com/start").requests.length ≤ maxWebFetchRedirects + 1 :=
  connections_are_cleared redirectedNet redirectedLib ⟨false, ["http", "https"]⟩ rfl
    redirectedNet_parseable redirectedNet_aiohttp redirectedLib_keepsAddress
    "https://example.com/start"

/-- Two requests, each with a connection. -/
example : (redirectedNet.runWebFetch redirectedLib ⟨false, ["http", "https"]⟩
    "https://example.com/start").requests.map (·.connections) =
      [["93.184.216.34"], ["8.8.8.8"]] := by
  decide +kernel

end Internet

end ClaudeProxy
