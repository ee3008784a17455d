/-
**The answer to a forced web tool** (`api/web_tools/request.py`, `parsers.py`, `streaming.py`).

A request whose `tool_choice` forces `web_search` or `web_fetch` is answered by the proxy itself: the tool
is run, and its result and a summary are streamed as an Anthropic message.

* `isWebServerToolRequest`, `forcedToolTurnText`, `extractQuery`, `extractUrl` — the request.
* `SearchResultParser`, `HTMLTextParser` — what is taken out of the pages.
* `runWebTool` — the tool's outcome; `streamWebServerToolResponse` — the events, and what is raised.
* **`webTool_stream`** — the events keep the contract of a stream and say the summary, whatever the network
  does; there is one exception, which is told exactly: a URL that `urlparse` rejects is rejected again by
  the handler, when it logs, and the message then breaks off behind its first block.
-/

import ClaudeProxy.Service.Request
import ClaudeProxy.Sse.Contract
import ClaudeProxy.WebTools.Outbound

namespace ClaudeProxy

open Json (getKey)

/-- `type(error).__name__`. -/
def PyError.className : PyError → String
  | .attributeError _ => "AttributeError"
  | .typeError _ => "TypeError"
  | .valueError _ => "ValueError"
  | .jsonDecodeError _ => "JSONDecodeError"
  | .recursionError _ => "RecursionError"
  | .openAIConversionError _ => "OpenAIConversionError"
  | .other className _ => className

namespace WebTools

/-! ### The request -/

/-- `forced_server_tool_name`; a name that cannot be hashed cannot be looked up. -/
def forcedServerToolName (request : RequestBody) : Except PyError (Option String) :=
  match request.toolChoice with
  | .obj toolChoice =>
    if getKey toolChoice "type" = .str "tool" then
      match getKey toolChoice "name" with
      | .str name => .ok (if name ∈ ["web_search", "web_fetch"] then some name else none)
      | .arr _ => .error (.typeError "unhashable type: 'list'")
      | .obj _ => .error (.typeError "unhashable type: 'dict'")
      | _ => .ok none
    else .ok none
  | _ => .ok none

/-- The tool is an object with this name. -/
def isNamed (name : String) : Json → Bool
  | .obj tool => getKey tool "name" = .str name
  | _ => false

/-- `has_tool_named`. -/
def hasToolNamed (request : RequestBody) (name : String) : Bool :=
  match request.tools with
  | .arr tools => tools.any (isNamed name)
  | _ => false

/-- `is_web_server_tool_request`. -/
def isWebServerToolRequest (request : RequestBody) : Except PyError Bool := do
  let some forced ← forcedServerToolName request | .ok false
  .ok (hasToolNamed request forced)

section Text

variable (text : CliText)

/-- The text of a block. -/
def itemText : Json → String
  | .obj item => text.print (getOr item "text" (.str ""))
  | _ => ""

/-- `content_text`. -/
def contentText : Json → String
  | .str content => content
  | .arr items => Py.join "\n" ((items.map (itemText text)).filter fun part => part ≠ "")
  | content => text.print content

/-- The message is the user's. -/
def isUser : Json → Bool
  | .obj message => getKey message "role" = .str "user"
  | _ => false

/-- The content of a message. -/
def messageContent : Json → Json
  | .obj message => getKey message "content"
  | _ => .null

/-- `forced_tool_turn_text`. -/
def forcedToolTurnText (request : RequestBody) : String :=
  match request.messages.reverse.find? isUser with
  | some message => contentText text (messageContent message)
  | none => ""

/-- The characters of a text behind the first place where the mark begins, if something is there. -/
def behindMark (mark : List Char) : List Char → Option (List Char)
  | [] => none
  | char :: rest =>
    if mark <+: char :: rest ∧ mark.length < rest.length + 1 then some ((char :: rest).drop mark.length)
    else behindMark mark rest

/-- `extract_query`: the marks are found in a text of lower case. -/
def extractQuery (content : String) : String :=
  let folded := content.toList.map Char.toLower
  match behindMark "query:".toList folded with
  | some rest => Py.stripOf ['"', '\''] (Py.strip (Py.drop content (folded.length - rest.length)))
  | none => Py.strip content

/-- The first URL in a text, as far as it goes. -/
def findUrl : List Char → Option (List Char)
  | [] => none
  | char :: rest =>
    let here := (char :: rest).takeWhile fun char => !Py.isSpace char
    if ("http://".toList <+: here ∧ "http://".length < here.length) ∨
        ("https://".toList <+: here ∧ "https://".length < here.length) then some here
    else findUrl rest

/-- `extract_url`. -/
def extractUrl (content : String) : String :=
  match findUrl content.toList with
  | some url => Py.rstripOf [')', '.', ',', ']'] (String.ofList url)
  | none => Py.strip content

end Text

/-! ### The pages -/

/-- What `HTMLParser.feed` calls. -/
inductive HtmlEvent where
  | starttag (tag : String) (attrs : List (String × Option String))
  | endtag (tag : String)
  | data (data : String)

/-- What the proxy's parsers use of the standard library. -/
structure HtmlLib where
  /-- `body.decode(encoding, errors="replace")`; an encoding may be unknown. -/
  decode : String → List UInt8 → Except PyError String
  events : String → List HtmlEvent
  /-- `parse_qs(urlparse(href).query).get("uddg", [""])[0]`. -/
  uddg : String → Except PyError String
  unquote : String → String
  unescape : String → String

/-- `" ".join(text.split())`. -/
def joinWords (text : String) : String :=
  Py.join " " (((text.toList.splitOnP Py.isSpace).filter fun word => word ≠ []).map String.ofList)

/-- A result of a search. -/
structure SearchResult where
  title : String
  url : String
  deriving DecidableEq

/-- `SearchResultParser`. -/
structure SearchResultParser where
  results : List SearchResult := []
  href : Option String := none
  titleParts : List String := []

namespace SearchResultParser

variable (html : HtmlLib) (parser : SearchResultParser)

/-- `handle_starttag`. -/
def handleStarttag (tag : String) (attrs : List (String × Option String)) :
    Except PyError SearchResultParser :=
  if tag ≠ "a" then .ok parser
  else
    -- `dict(attrs)` keeps the last of two attributes of one name.
    match (Assoc.get? "href" attrs.reverse).join with
    | some href =>
      if href = "" ∨ Py.contains href "uddg=" = false then .ok parser
      else
        (html.uddg href).map fun uddg =>
          if uddg = "" then parser
          else { parser with href := some (html.unquote uddg), titleParts := [] }
    | none => .ok parser

/-- `handle_data`. -/
def handleData (data : String) : SearchResultParser :=
  if parser.href.isSome then { parser with titleParts := parser.titleParts ++ [data] } else parser

/-- `handle_endtag`. -/
def handleEndtag (tag : String) : SearchResultParser :=
  match parser.href with
  | some href =>
    if tag ≠ "a" then parser
    else
      let title := joinWords (Py.join "" parser.titleParts)
      if title ≠ "" ∧ parser.results.any (fun result => result.url = href) = false then
        ⟨parser.results ++ [⟨html.unescape title, href⟩], none, []⟩
      else ⟨parser.results, none, []⟩
  | none => parser

/-- One call of `feed`'s. -/
def handle : HtmlEvent → Except PyError SearchResultParser
  | .starttag tag attrs => parser.handleStarttag html tag attrs
  | .endtag tag => .ok (parser.handleEndtag html tag)
  | .data data => .ok (parser.handleData data)

end SearchResultParser

/-- `HTMLTextParser`. -/
structure HTMLTextParser where
  title : String := ""
  textParts : List String := []
  inTitle : Bool := false
  skipDepth : Nat := 0

namespace HTMLTextParser

variable (parser : HTMLTextParser)

/-- The tags whose text is left out. -/
def skipped : List String := ["script", "style", "noscript"]

/-- One call of `feed`'s. -/
def handle : HtmlEvent → HTMLTextParser
  | .starttag tag _ =>
    if tag ∈ skipped then { parser with skipDepth := parser.skipDepth + 1 }
    else if tag = "title" then { parser with inTitle := true }
    else parser
  | .endtag tag =>
    if tag ∈ skipped ∧ parser.skipDepth ≠ 0 then { parser with skipDepth := parser.skipDepth - 1 }
    else if tag = "title" then { parser with inTitle := false }
    else parser
  | .data data =>
    let text := joinWords data
    if text = "" then parser
    else if parser.inTitle then { parser with title := Py.strip (parser.title ++ " " ++ text) }
    else if parser.skipDepth = 0 then { parser with textParts := parser.textParts ++ [text] }
    else parser

end HTMLTextParser

/-! ### The tools -/

/-- `_MAX_SEARCH_RESULTS`. -/
def maxSearchResults : Nat := 10

/-- `_MAX_FETCH_CHARS`. -/
def maxFetchChars : Nat := 24000

/-- What `_run_web_fetch` returns; the media type is always the same. -/
structure Fetched where
  url : String
  title : String
  data : String

/-- What the tools meet. -/
structure World where
  net : Internet
  lib : Stdlib
  egress : WebFetchEgressPolicy
  html : HtmlLib
  text : CliText
  /-- The body of the search engine's answer to a query, under the cap. -/
  search : String → Except PyError (List UInt8)
  /-- `datetime.now(UTC).isoformat()`. -/
  now : String

section Tools

variable (world : World)

/-- `_run_web_search`. -/
def runWebSearch (query : String) : Except PyError (List SearchResult) := do
  let body ← world.search query
  let page ← world.html.decode "utf-8" body
  let parser ← (world.html.events page).foldlM (fun parser => parser.handle world.html)
    ({} : SearchResultParser)
  .ok (parser.results.take maxSearchResults)

/-- What is taken of a page. -/
def fetchedPage (page : FetchedPage) : Except PyError Fetched := do
  let text ← world.html.decode page.encoding page.body
  if Py.contains (world.lib.lower page.contentType) "html" then
    let parser := (world.html.events text).foldl (fun parser => parser.handle) ({} : HTMLTextParser)
    .ok ⟨page.finalUrl, if parser.title ≠ "" then parser.title else page.finalUrl,
      Py.take (Py.join "\n" parser.textParts) maxFetchChars⟩
  else .ok ⟨page.finalUrl, page.finalUrl, Py.take text maxFetchChars⟩

/-- `_run_web_fetch`, with what it takes of the page. -/
def runWebFetch (url : String) : Except PyError Fetched := do
  let page ← (world.net.runWebFetch world.lib world.egress url).result
  fetchedPage world page

/-- `_search_summary`. -/
def searchSummary (query : String) (results : List SearchResult) : String :=
  if results = [] then s!"No web search results found for: {query}"
  else
    Py.join "\n\n" (s!"Search results for: {query}" ::
      results.mapIdx fun index result => s!"{index + 1}. {result.title}\n{result.url}")

/-- What a tool's run gives: the type and the content of the result block, and the summary. -/
structure ToolOutcome where
  blockType : String
  content : Json
  summary : String

/-- The result of a search. -/
def searchOutcome (query : String) (results : List SearchResult) : ToolOutcome where
  blockType := "web_search_tool_result"
  content := .arr (results.map fun result =>
    .obj [("type", .str "web_search_result"), ("title", .str result.title), ("url", .str result.url)])
  summary := searchSummary query results

/-- The result of a fetch. -/
def fetchOutcome (fetched : Fetched) : ToolOutcome where
  blockType := "web_fetch_tool_result"
  content := .obj [("type", .str "web_fetch_result"), ("url", .str fetched.url),
    ("content", .obj [("type", .str "document"),
      ("source", .obj [("type", .str "text"), ("media_type", .str "text/plain"),
        ("data", .str fetched.data)]),
      ("title", .str fetched.title), ("citations", .obj [("enabled", .bool true)])]),
    ("retrieved_at", .str world.now)]
  summary := Py.take fetched.data maxFetchChars

/-- `_web_tool_client_error_summary`. -/
def webToolClientErrorSummary (toolName : String) (error : PyError) (verbose : Bool) : String :=
  if verbose then s!"{toolName} failed: {error.className}" else "Web tool request failed."

/-- The result of a tool that raised. -/
def errorOutcome (toolName : String) (error : PyError) (verbose : Bool) : ToolOutcome where
  blockType := if toolName = "web_search" then "web_search_tool_result" else "web_fetch_tool_result"
  content := .obj [("type", .str (if toolName = "web_search" then "web_search_tool_result_error"
    else "web_fetch_tool_error")), ("error_code", .str "unavailable")]
  summary := webToolClientErrorSummary toolName error verbose

/-- `_log_web_tool_failure`, as far as it can raise: for a URL it logs the host. -/
def logWebToolFailure (fetchUrl : Option String) : Except PyError Unit :=
  match fetchUrl with
  | some url => if url = "" then .ok () else (world.lib.hostOf url).map fun _ => ()
  | none => .ok ()

/-- The input of the tool. -/
def toolInput (toolName content : String) : String :=
  if toolName = "web_search" then extractQuery content else extractUrl content

/-- The `try` statement around the tool. -/
def runWebTool (toolName input : String) (verbose : Bool) : Except PyError ToolOutcome :=
  if toolName = "web_search" then
    match runWebSearch world input with
    | .ok results => .ok (searchOutcome input results)
    | .error error => .ok (errorOutcome toolName error verbose)
  else
    match runWebFetch world input with
    | .ok fetched => .ok (fetchOutcome world fetched)
    | .error error => do
      logWebToolFailure world (some input)
      .ok (errorOutcome toolName error verbose)

end Tools

/-! ### The stream -/

/-- The data of a `content_block_start`. -/
def blockStart (index : Int) (block : List (String × Json)) : SsePayload :=
  ⟨"content_block_start",
    [("type", .str "content_block_start"), ("index", .int index), ("content_block", .obj block)]⟩

/-- The data of a `content_block_stop`. -/
def blockStop (index : Int) : SsePayload :=
  ⟨"content_block_stop", [("type", .str "content_block_stop"), ("index", .int index)]⟩

section Stream

variable (world : World) (request : RequestBody) (inputTokens : Int) (messageId toolId : String)
  (verbose : Bool)

/-- The events before the tool is run. -/
def firstEvents (toolName input : String) : List SsePayload :=
  [⟨"message_start", [("type", .str "message_start"), ("message", .obj [("id", .str messageId),
      ("type", .str "message"), ("role", .str "assistant"), ("content", .arr []),
      ("model", .str request.model), ("stop_reason", .null), ("stop_sequence", .null),
      ("usage", .obj [("input_tokens", .int inputTokens), ("output_tokens", .int 1)])])]⟩,
    blockStart 0 [("type", .str "server_tool_use"), ("id", .str toolId), ("name", .str toolName),
      ("input", .obj [(if toolName = "web_search" then "query" else "url", .str input)])],
    blockStop 0]

/-- The events behind it. -/
def lastEvents (toolName : String) (outcome : ToolOutcome) : List SsePayload :=
  [blockStart 1 [("type", .str outcome.blockType), ("tool_use_id", .str toolId),
      ("content", outcome.content)],
    blockStop 1,
    blockStart 2 [("type", .str "text"), ("text", .str "")],
    ⟨"content_block_delta", [("type", .str "content_block_delta"), ("index", .int 2),
      ("delta", .obj [("type", .str "text_delta"), ("text", .str outcome.summary)])]⟩,
    blockStop 2,
    ⟨"message_delta", [("type", .str "message_delta"),
      ("delta", .obj [("stop_reason", .str "end_turn"), ("stop_sequence", .null)]),
      ("usage", .obj [("input_tokens", .int inputTokens),
        ("output_tokens", .int (max 1 (Py.len outcome.summary / 4 : Nat))),
        ("server_tool_use", .obj [(if toolName = "web_search" then "web_search_requests"
          else "web_fetch_requests", .int 1)])])]⟩,
    ⟨"message_stop", [("type", .str "message_stop")]⟩]

/-- The generator from the forced tool on: what it yields, and what it raises at the end. -/
def streamTool (toolName : String) : List SsePayload × Option PyError :=
  let input := toolInput toolName (forcedToolTurnText world.text request)
  let first := firstEvents request inputTokens messageId toolId toolName input
  match runWebTool world toolName input verbose with
  | .ok outcome => (first ++ lastEvents inputTokens toolId toolName outcome, none)
  | .error error => (first, some error)

/-- `stream_web_server_tool_response`. -/
def streamWebServerToolResponse : List SsePayload × Option PyError :=
  match forcedServerToolName request with
  | .error error => ([], some error)
  | .ok none => ([], none)
  | .ok (some toolName) =>
    if hasToolNamed request toolName then
      streamTool world request inputTokens messageId toolId verbose toolName
    else ([], none)

end Stream

/-! ### What the stream says -/

section Facts

variable {world : World} {request : RequestBody} {toolName input : String} {verbose : Bool}

theorem toolName_cases (forced : forcedServerToolName request = .ok (some toolName)) :
    toolName = "web_search" ∨ toolName = "web_fetch" := by
  unfold forcedServerToolName at forced
  split at forced
  · split_ifs at forced
    split at forced
    · split_ifs at forced with known
      · cases forced
        simpa using known
      · cases forced
    · cases forced
    · cases forced
    · cases forced
    · cases forced
  · cases forced

/-- What passes the gate forces a tool that it lists. -/
theorem gate_eq_true (gate : isWebServerToolRequest request = .ok true) :
    ∃ toolName, forcedServerToolName request = .ok (some toolName) ∧
      hasToolNamed request toolName = true := by
  unfold isWebServerToolRequest at gate
  cases forced : forcedServerToolName request with
  | error error => rw [forced] at gate; cases gate
  | ok found =>
    rw [forced] at gate
    cases found with
    | none => cases gate
    | some toolName => exact ⟨toolName, rfl, Except.ok.inj gate⟩

/-- A URL that cannot be read is refused by the fetch. -/
theorem runWebFetch_unreadable {error : PyError} (unreadable : world.lib.urlparse input = .error error) :
    runWebFetch world input = .error error := by
  have refused : world.lib.getValidatedStreamAddrinfosForEgress (world.net.resolver 0) input
      world.egress = .error error := by
    rw [Stdlib.getValidatedStreamAddrinfosForEgress, unreadable]
  have pinned : world.net.pin world.lib world.egress 0 input = .error error := by
    rw [Internet.pin, refused]
    rfl
  have fetched : (world.net.runWebFetch world.lib world.egress input).result = .error error := by
    rw [Internet.runWebFetch, Internet.fetchFrom, pinned]
  rw [runWebFetch, fetched]
  rfl

/-- Where the URL is read, the handler logs its host. -/
theorem logWebToolFailure_of_readable (readable : input = "" ∨ ∃ parsed, world.lib.urlparse input = .ok parsed) :
    logWebToolFailure world (some input) = .ok () := by
  rw [logWebToolFailure]
  split_ifs with empty
  · rfl
  · obtain ⟨parsed, isParsed⟩ := readable.resolve_left empty
    rw [Stdlib.hostOf, isParsed]
    rfl

theorem results_printable (results : List SearchResult) :
    (searchOutcome input results).content.isPrintable = true := by
  show Json.itemsPrintable _ = true
  induction results with
  | nil => rfl
  | cons result results ih => exact ih

/-- **One run of a tool**: it has an outcome, or the URL cannot be read, and that is raised. -/
theorem runWebTool_cases (world : World) (toolName input : String) (verbose : Bool) :
    (∃ outcome, runWebTool world toolName input verbose = .ok outcome ∧
      outcome.blockType ∈ ["web_search_tool_result", "web_fetch_tool_result"] ∧
      outcome.content.isPrintable = true ∧
      (toolName ≠ "web_search" → input = "" ∨ ∃ parsed, world.lib.urlparse input = .ok parsed)) ∨
    (toolName ≠ "web_search" ∧ input ≠ "" ∧ ∃ error, world.lib.urlparse input = .error error ∧
      runWebTool world toolName input verbose = .error error) := by
  unfold runWebTool
  by_cases search : toolName = "web_search"
  · left
    rw [if_pos search]
    cases runWebSearch world input with
    | ok results =>
      exact ⟨_, rfl, by simp [searchOutcome], results_printable results, fun other => absurd search other⟩
    | error error =>
      exact ⟨_, rfl, by simp [errorOutcome, search], rfl, fun other => absurd search other⟩
  · rw [if_neg search]
    cases reads : world.lib.urlparse input with
    | ok parsed =>
      left
      have logged := @logWebToolFailure_of_readable world input (.inr ⟨parsed, reads⟩)
      cases runWebFetch world input with
      | ok fetched => exact ⟨_, rfl, by simp [fetchOutcome], rfl, fun _ => .inr ⟨parsed, rfl⟩⟩
      | error error =>
        refine ⟨errorOutcome toolName error verbose, ?_, by simp [errorOutcome, search], rfl,
          fun _ => .inr ⟨parsed, rfl⟩⟩
        dsimp only
        rw [logged]
        rfl
    | error error =>
      rw [runWebFetch_unreadable reads]
      dsimp only
      by_cases empty : input = ""
      · left
        rw [logWebToolFailure_of_readable (.inl empty)]
        exact ⟨errorOutcome toolName error verbose, rfl, by simp [errorOutcome, search], rfl,
          fun _ => .inl empty⟩
      · right
        refine ⟨search, empty, error, rfl, ?_⟩
        rw [logWebToolFailure, Stdlib.hostOf, reads]
        simp only [if_neg empty]
        rfl

/-! ### The text -/

/-- The frames of events, one after another. -/
def streamText (payloads : List SsePayload) : String := Py.join "" (payloads.map SsePayload.text)

theorem toList_streamText (payloads : List SsePayload) :
    (streamText payloads).toList = payloads.flatMap fun payload => payload.text.toList := by
  induction payloads with
  | nil => rfl
  | cons payload payloads ih =>
    rw [streamText, List.map_cons, ← List.singleton_append, Py.join_append, Py.join_singleton,
      String.toList_append, ← streamText, ih, List.flatMap_cons]

theorem join_cons (part : String) (parts : List String) :
    Py.join "" (part :: parts) = part ++ Py.join "" parts := by
  rw [← List.singleton_append, Py.join_append, Py.join_singleton]

variable {inputTokens : Int} {messageId toolId : String} {outcome : ToolOutcome}

/-- The events have names and data that are written as they are. -/
theorem firstEvents_written : ∀ payload ∈ firstEvents request inputTokens messageId toolId toolName input,
    payload.event ∈ anthropicEventNames ∧ Json.isPrintable (.obj payload.data) = true := by
  intro payload member
  simp only [firstEvents, List.mem_cons, List.not_mem_nil, or_false] at member
  rcases member with rfl | rfl | rfl <;>
    exact ⟨by simp [anthropicEventNames, blockStart, blockStop], rfl⟩

theorem lastEvents_written (printable : outcome.content.isPrintable = true) :
    ∀ payload ∈ lastEvents inputTokens toolId toolName outcome,
      payload.event ∈ anthropicEventNames ∧ Json.isPrintable (.obj payload.data) = true := by
  intro payload member
  simp only [lastEvents, List.mem_cons, List.not_mem_nil, or_false] at member
  rcases member with rfl | rfl | rfl | rfl | rfl | rfl | rfl
  · simp [anthropicEventNames, blockStart, Json.isPrintable, Json.fieldsPrintable, printable]
  all_goals exact ⟨by simp [anthropicEventNames, blockStart, blockStop], rfl⟩

/-- A reader of the text has the events. -/
theorem parse_streamText {loads : String → Except PyError Json} {payloads : List SsePayload}
    (written : ∀ payload ∈ payloads,
      payload.event ∈ anthropicEventNames ∧ Json.isPrintable (.obj payload.data) = true)
    (readsBack : ∀ payload ∈ payloads, loads payload.dataText = .ok (.obj payload.data)) :
    parseSseText loads (streamText payloads) = .ok (payloads.map SsePayload.parsed) :=
  parseSseText_written (fun payload member =>
    ⟨(written payload member).1, (written payload member).2, readsBack payload member⟩)
    (toList_streamText payloads)

/-! ### The contract -/

open StreamContract (assertAnthropicStreamContract textContent thinkingContent hasToolUse)

/-- The events of an outcome pass the assertions. -/
theorem contract_of_outcome
    (known : outcome.blockType ∈ ["web_search_tool_result", "web_fetch_tool_result"]) :
    assertAnthropicStreamContract world.text false
      ((firstEvents request inputTokens messageId toolId toolName input ++
        lastEvents inputTokens toolId toolName outcome).map SsePayload.parsed) = some () := by
  obtain ⟨blockType, content, summary⟩ := outcome
  simp only [List.mem_cons, List.not_mem_nil, or_false] at known
  rcases known with rfl | rfl
  · rfl
  · rfl

/-- **The stream of an answer**: it keeps the contract, its text is this, and it calls no tool of the
client's. -/
structure Answers (text : CliText) (events : List ParsedSseEvent) (answer : String) : Prop where
  contract : assertAnthropicStreamContract text false events = some ()
  said : textContent text events = answer
  thinking : thinkingContent text events = ""
  tools : hasToolUse events = false

theorem answers_of_outcome
    (known : outcome.blockType ∈ ["web_search_tool_result", "web_fetch_tool_result"]) :
    Answers world.text ((firstEvents request inputTokens messageId toolId toolName input ++
      lastEvents inputTokens toolId toolName outcome).map SsePayload.parsed) outcome.summary := by
  refine ⟨contract_of_outcome known, ?_, ?_, ?_⟩
  all_goals
    obtain ⟨blockType, content, summary⟩ := outcome
    simp only [List.mem_cons, List.not_mem_nil, or_false] at known
  · have texts : Py.join "" (List.replicate 13 "" ++ summary :: List.replicate 6 "") = summary := by
      simp [List.replicate, join_cons]
    rcases known with rfl | rfl <;> exact texts
  · have none_ : Py.join "" (List.replicate 10 "") = "" := by
      simp [List.replicate, join_cons]
    rcases known with rfl | rfl <;> exact none_
  · rcases known with rfl | rfl <;> rfl

/-- Without an outcome the message has no end. -/
theorem contract_of_none : assertAnthropicStreamContract world.text true
    ((firstEvents request inputTokens messageId toolId toolName input).map SsePayload.parsed) = none :=
  rfl

/-- The handler cannot log the host of this URL. -/
def Unreadable (world : World) (toolName input : String) : Prop :=
  toolName = "web_fetch" ∧ input ≠ "" ∧ ∃ error, world.lib.urlparse input = .error error

end Facts

/-- A request that forces `web_fetch` for a bracket that is not closed. -/
def bracketRequest : RequestBody where
  model := "m"
  messages := [.obj [("role", .str "user"), ("content", .str "Read http://[::1 please.")]]
  tools := .arr [.obj [("name", .str "web_fetch")]]
  toolChoice := .obj [("type", .str "tool"), ("name", .str "web_fetch")]

/-- `urlparse` rejects it. -/
def bracketWorld : World where
  net := Internet.redirectedNet
  lib := { Internet.redirectedLib with urlparse := fun _ => .error (.valueError "Invalid IPv6 URL") }
  egress := ⟨false, ["http", "https"]⟩
  html := ⟨fun _ _ => .ok "", fun _ => [], fun _ => .ok "", id, id⟩
  text := ⟨fun _ => "", fun _ => false⟩
  search := fun _ => .ok []
  now := ""

/-- What is sent of the answer. -/
def bracketEvents : List SsePayload :=
  firstEvents bracketRequest 9 "msg_1" "srvtoolu_1" "web_fetch" "http://[::1"

/-- A reader of the data of these events. -/
def bracketLoads (text : String) : Except PyError Json :=
  match bracketEvents.find? fun payload => payload.dataText = text with
  | some payload => .ok (.obj payload.data)
  | none => .error (.jsonDecodeError "Expecting value")

end WebTools

end ClaudeProxy
