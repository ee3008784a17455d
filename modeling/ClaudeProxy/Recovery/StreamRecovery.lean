/-
**Recovery helpers** (`core/anthropic/stream_recovery.py`).

`Runtime` is what the helpers call and do not define: `json.loads`, with whatever exception it may
raise on a text (`JSONDecodeError`, but also the integer-length `ValueError` and the
`RecursionError` of deep nesting), `json.dumps`, and the `jsonschema` package.

An exception of the upstream connection is an `UpstreamError`; `isRetryableStreamError` sorts them.
-/

import ClaudeProxy.Json
import ClaudeProxy.Python

namespace ClaudeProxy

open Json (getKey setKey)

/-! ### The runtime -/

/-- What checking an input against a schema with `jsonschema` comes to. -/
inductive SchemaCheck where
  | valid
  | schemaError
  | validationError
  | raised (error : PyError)
  deriving DecidableEq

/-- The library functions the recovery helpers call. -/
structure Runtime where
  loads : String → Except PyError Json
  dumps : Json → String
  checkSchema : List (String × Json) → List (String × Json) → SchemaCheck

/-- `except json.JSONDecodeError`: the value, or `none` for undecodable text; other exceptions of
`json.loads` propagate. -/
def Runtime.loadsOrNone (runtime : Runtime) (text : String) : Except PyError (Option Json) :=
  match runtime.loads text with
  | .ok value => .ok (some value)
  | .error (.jsonDecodeError _) => .ok none
  | .error error => .error error

/-! ### Upstream errors -/

/-- The exceptions an upstream connection raises, by class; a status is the response's. -/
inductive UpstreamError where
  | truncatedProviderStream
  | openaiAuthentication
  | openaiBadRequest
  | httpStatus (status : Int)
  | openaiRateLimit
  | openaiApiStatus (status : Option Int)
  | timeout
  | httpxReadTimeout
  | httpxReadError
  | httpxRemoteProtocol
  | httpxConnect
  | httpxNetwork
  | openaiApiTimeout
  | openaiApiConnection
  | python (error : PyError)
  deriving DecidableEq

/-- `status == 429 or 500 <= status <= 599`. -/
def isRetryableStatus (status : Int) : Bool :=
  status == 429 || (decide (500 ≤ status) && decide (status ≤ 599))

/-- `is_retryable_stream_error`. -/
def isRetryableStreamError : UpstreamError → Bool
  | .truncatedProviderStream => true
  | .openaiAuthentication | .openaiBadRequest => false
  | .httpStatus status => isRetryableStatus status
  | .openaiRateLimit => true
  | .openaiApiStatus status => status.elim false isRetryableStatus
  | .timeout | .httpxReadTimeout | .httpxReadError | .httpxRemoteProtocol | .httpxConnect
  | .httpxNetwork | .openaiApiTimeout | .openaiApiConnection => true
  | .python _ => false

/-- `EARLY_TRANSPARENT_MAX_RETRIES`. -/
def earlyTransparentMaxRetries : Nat := 4

/-- `MIDSTREAM_RECOVERY_ATTEMPTS`. -/
def midstreamRecoveryAttempts : Nat := 5

/-! ### Tool inputs -/

/-- A tool of the request, as the two attributes that are read of it. -/
structure RequestTool where
  name : Json
  inputSchema : Json

/-- `ToolSchema`. -/
structure ToolSchema where
  name : String
  inputSchema : List (String × Json)

/-- `tool_schemas_by_name`. -/
def toolSchemasByName (tools : List RequestTool) : Dict String ToolSchema :=
  tools.foldl (fun schemas tool =>
    match tool.name with
    | .str name =>
      if name = "" then schemas
      else schemas.set name
        ⟨name, (tool.inputSchema.asObj?).getD [("type", .str "object")]⟩
    | _ => schemas) ∅

section ToolInput

variable (runtime : Runtime) (schemas : Dict String ToolSchema)

/-- `validate_tool_input`. -/
def validateToolInput (toolName : String) (parsedInput : List (String × Json)) :
    Except PyError Bool :=
  match schemas.get? toolName with
  | none => .ok true
  | some schema =>
    match runtime.checkSchema schema.inputSchema parsedInput with
    | .valid => .ok true
    | .schemaError => .ok true
    | .validationError => .ok false
    | .raised error => .error error

/-- `parse_complete_tool_input`. -/
def parseCompleteToolInput (rawJson toolName : String) :
    Except PyError (Option (List (String × Json))) :=
  match runtime.loadsOrNone rawJson with
  | .error error => .error error
  | .ok (some (.obj parsed)) =>
    match validateToolInput runtime schemas toolName parsed with
    | .error error => .error error
    | .ok true => .ok (some parsed)
    | .ok false => .ok none
  | .ok _ => .ok none

/-- The lines of a fenced candidate without its fences. -/
def stripFences (lines : List String) : List String :=
  let lines := match lines with
    | first :: rest => if Py.startsWith first "```" then rest else first :: rest
    | [] => []
  match lines.getLast? with
  | some last => if Py.strip last = "```" then lines.dropLast else lines
  | none => lines

/-- `_repair_suffix_candidates`. -/
def repairSuffixCandidates (pre candidate : String) : List String :=
  let raw := Py.strip candidate
  if raw = "" then []
  else
    let raw := if Py.startsWith raw "```" then
        Py.strip (Py.join "\n" (stripFences (Py.splitlines raw)))
      else raw
    let candidates := if Py.startsWith raw pre then [raw, Py.drop raw (Py.len pre)] else [raw]
    candidates.eraseDups

/-- The first suffix that completes the prefix; the loop of `accept_tool_json_repair`. -/
def firstRepair (pre toolName : String) :
    List String → Except PyError (Option (String × List (String × Json)))
  | [] => .ok none
  | suffix :: rest =>
    match parseCompleteToolInput runtime schemas (pre ++ suffix) toolName with
    | .error error => .error error
    | .ok (some parsed) => .ok (some (suffix, parsed))
    | .ok none => firstRepair pre toolName rest

/-- `accept_tool_json_repair`: the accepted suffix and the input it completes. -/
def acceptToolJsonRepair (pre candidate toolName : String) :
    Except PyError (Option (String × List (String × Json))) :=
  firstRepair runtime schemas pre toolName (repairSuffixCandidates pre candidate)

/-- An accepted repair completes the prefix. -/
theorem firstRepair_completes {pre toolName suffix : String} {parsed : List (String × Json)}
    {candidates : List String}
    (accepted : firstRepair runtime schemas pre toolName candidates = .ok (some (suffix, parsed))) :
    parseCompleteToolInput runtime schemas (pre ++ suffix) toolName = .ok (some parsed) := by
  induction candidates with
  | nil => cases accepted
  | cons candidate rest ih =>
    rw [firstRepair] at accepted
    split at accepted
    · cases accepted
    · rename_i found
      cases accepted
      exact found
    · exact ih accepted

theorem acceptToolJsonRepair_completes {pre candidate toolName suffix : String}
    {parsed : List (String × Json)}
    (accepted : acceptToolJsonRepair runtime schemas pre candidate toolName =
      .ok (some (suffix, parsed))) :
    parseCompleteToolInput runtime schemas (pre ++ suffix) toolName = .ok (some parsed) :=
  firstRepair_completes runtime schemas accepted

end ToolInput

/-! ### Continuations -/

/-- The candidate behind its longest overlap of at most `size` with the end of `existing`. -/
def dropOverlap (existing candidate : String) : Nat → Option String
  | 0 => none
  | size + 1 =>
    if Py.endsWith existing (Py.take candidate (size + 1)) then
      some (Py.drop candidate (size + 1))
    else dropOverlap existing candidate size

/-- `continuation_suffix`. -/
def continuationSuffix (existing candidate : String) : Option String :=
  if candidate = "" then some ""
  else if existing = "" then some candidate
  else if Py.startsWith candidate existing then some (Py.drop candidate (Py.len existing))
  else
    match dropOverlap existing candidate (min (Py.len existing) (Py.len candidate)) with
    | some suffix => some suffix
    | none =>
      if Py.len candidate < max 200 (Py.len existing / 2) then some candidate else none

/-! ### Recovery requests -/

/-- A request body. -/
abbrev Body := List (String × Json)

/-- `_RECOVERY_USER_PREFIX`. -/
def recoveryUserPrefix : String :=
  "The previous provider stream was interrupted. Continue the assistant response " ++
    "exactly where it stopped. Do not repeat text already written."

/-- `_tool_repair_prompt`. -/
def toolRepairPrompt (runtime : Runtime) (toolName pre : String) (inputSchema : Option Body) :
    String :=
  let schema := match inputSchema with
    | some (field :: fields) => field :: fields
    | _ => [("type", .str "object")]
  "A streamed tool call was interrupted while writing JSON arguments.\n" ++
    "Tool name: " ++ toolName ++ "\n" ++
    "JSON schema: " ++ runtime.dumps (.obj schema) ++ "\n" ++
    "Already emitted JSON prefix: " ++ pre ++ "\n\n" ++
    "Return only the exact missing JSON suffix needed to complete the same object. " ++
    "Do not repeat the prefix. Do not include markdown or explanation."

/-- The body shared by the four recovery requests: no tools, streamed, with further messages. -/
def recoveryBody (body : Body) (further : List Json) : Body :=
  let recovery := body.filter fun field => field.1 ≠ "tools" && field.1 ≠ "tool_choice"
  let recovery := setKey recovery "stream" (.bool true)
  let messages := match getKey recovery "messages" with
    | .arr messages => messages
    | _ => []
  setKey recovery "messages" (.arr (messages ++ further))

/-- A chat message. -/
def chatMessage (role content : String) : Json :=
  .obj [("role", .str role), ("content", .str content)]

/-- `make_openai_text_recovery_body` and `make_native_text_recovery_body`, which are the same. -/
def makeTextRecoveryBody (body : Body) (partialText : String) : Body :=
  recoveryBody body ((if partialText = "" then [] else [chatMessage "assistant" partialText]) ++
    [chatMessage "user" recoveryUserPrefix])

/-- `make_openai_tool_repair_body` and `make_native_tool_repair_body`, which are the same. -/
def makeToolRepairBody (runtime : Runtime) (body : Body) (toolName pre : String)
    (inputSchema : Option Body) : Body :=
  recoveryBody body [chatMessage "user" (toolRepairPrompt runtime toolName pre inputSchema)]

end ClaudeProxy
