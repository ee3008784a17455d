/-
**The events of a CLI session** (`messaging/event_parser.py`).

* `CliText` — `str()` and the comparison of a float with zero, the two things a float literal is
  asked for here.
* `ParsedEvent`, `parseCliEvent` — `parse_cli_event` on any JSON value.
* `Signal`, `signal` — what an event says about the turn it belongs to.
* `plain_of_parseCliEvent` — errors and completions come from `error` and `exit` events only.
-/

import ClaudeProxy.Json
import ClaudeProxy.Python

namespace ClaudeProxy

/-- How Python prints a value that is no string, and whether a float literal is zero. -/
structure CliText where
  str : Json → String
  isZero : String → Bool

namespace CliText

variable (text : CliText)

/-- `str(value)`. -/
def print : Json → String
  | .str value => value
  | value => text.str value

/-- `bool(value)`. -/
def truthy : Json → Bool
  | .null => false
  | .bool value => value
  | .int value => decide (value ≠ 0)
  | .float literal => !text.isZero literal
  | .str value => decide (value ≠ "")
  | .arr items => !items.isEmpty
  | .obj fields => !fields.isEmpty

/-- `value == 0`. -/
def equalsZero : Json → Bool
  | .bool value => !value
  | .int value => decide (value = 0)
  | .float literal => text.isZero literal
  | _ => false

/-- `str(value or "").strip()`. -/
def printId (value : Json) : String :=
  if text.truthy value then Py.strip (text.print value) else ""

end CliText

/-- `fields.get(key, default)`. -/
def getOr (fields : List (String × Json)) (key : String) (default : Json) : Json :=
  (Assoc.get? key fields).getD default

/-- What the parser returns, by its `type`. -/
inductive ParsedEvent where
  | textChunk (text : Json)
  | thinkingChunk (text : Json)
  | toolUse (id : String) (name input : Json)
  | toolResult (toolUseId : String) (content : Json) (isError : Bool)
  | textDelta (index text : Json)
  | thinkingDelta (index text : Json)
  | toolUseDelta (index partialJson : Json)
  | thinkingStart (index : Json)
  | textStart (index : Json)
  | toolUseStart (index : Json) (id : String) (name input : Json)
  | blockStop (index : Json)
  | error (message : Json)
  | complete (failed : Bool)

section Parser

variable (text : CliText)

/-- A content block of a full message. -/
def parseContent (block : Json) : Option ParsedEvent :=
  match block with
  | .obj fields =>
    match getOr fields "type" .null with
    | .str "text" => some (.textChunk (getOr fields "text" (.str "")))
    | .str "thinking" => some (.thinkingChunk (getOr fields "thinking" (.str "")))
    | .str "tool_use" => some (.toolUse (text.printId (getOr fields "id" (.str "")))
        (getOr fields "name" (.str "")) (getOr fields "input" .null))
    | .str "tool_result" => some (.toolResult
        (text.printId (getOr fields "tool_use_id" (.str ""))) (getOr fields "content" .null)
        (text.truthy (getOr fields "is_error" (.bool false))))
    | _ => none
  | _ => none

/-- The content blocks of a message object, in order. -/
def parseMessage (message : Json) : List ParsedEvent :=
  match message with
  | .obj fields =>
    match getOr fields "content" (.arr []) with
    | .arr items => items.filterMap (parseContent text)
    | _ => []
  | _ => []

/-- The message of a `result` event: in its result, in the event, or made of their content. -/
def resultMessage (fields : List (String × Json)) : Json :=
  let ofContent (message : Json) (holder : List (String × Json)) : Json :=
    match text.truthy message, getOr holder "content" .null with
    | false, .arr items => .obj [("content", .arr items)]
    | _, _ => message
  let inner :=
    match getOr fields "result" .null with
    | .obj result => ofContent (getOr result "message" .null) result
    | _ => .null
  ofContent (if text.truthy inner then inner else getOr fields "message" .null) fields

/-- A streaming delta. -/
def parseDelta (fields : List (String × Json)) : List ParsedEvent :=
  let index := getOr fields "index" (.int (-1))
  match getOr fields "delta" (.obj []) with
  | .obj delta =>
    match getOr delta "type" .null with
    | .str "text_delta" => [.textDelta index (getOr delta "text" (.str ""))]
    | .str "thinking_delta" => [.thinkingDelta index (getOr delta "thinking" (.str ""))]
    | .str "input_json_delta" => [.toolUseDelta index (getOr delta "partial_json" (.str ""))]
    | _ => []
  | _ => []

/-- The start of a content block. -/
def parseStart (fields : List (String × Json)) : List ParsedEvent :=
  let index := getOr fields "index" (.int (-1))
  match getOr fields "content_block" (.obj []) with
  | .obj block =>
    match getOr block "type" .null with
    | .str "thinking" => [.thinkingStart index]
    | .str "text" => [.textStart index]
    | .str "tool_use" => [.toolUseStart index (text.printId (getOr block "id" (.str "")))
        (getOr block "name" (.str "")) (getOr block "input" .null)]
    | _ => []
  | _ => []

/-- The message of an `error` event. -/
def errorMessage (fields : List (String × Json)) : Json :=
  match getOr fields "error" .null with
  | .obj error => getOr error "message" .null
  | error => .str (text.print error)

/-- An `exit` event: a failed one is an error and then a completion. -/
def parseExit (fields : List (String × Json)) : List ParsedEvent :=
  let code := getOr fields "code" (.int 0)
  let stderr := getOr fields "stderr" .null
  if text.equalsZero code then [.complete false]
  else
    let message := if text.truthy stderr then stderr
      else .str ("Process exited with code " ++ text.print code)
    [.error message, .complete true]

def parseCliEvent (event : Json) : List ParsedEvent :=
  match event with
  | .obj fields =>
    match getOr fields "type" .null with
    | .str "assistant" | .str "user" => parseMessage text (getOr fields "message" .null)
    | .str "result" => parseMessage text (resultMessage text fields)
    | .str "content_block_delta" => parseDelta fields
    | .str "content_block_start" => parseStart text fields
    | .str "content_block_stop" => [.blockStop (getOr fields "index" (.int (-1)))]
    | .str "error" => [.error (errorMessage text fields)]
    | .str "exit" => parseExit text fields
    | _ => []
  | _ => []

/-! ### What an event says about the turn -/

/-- An event that brings a session id, reports an error, is an exit, or is none of these. -/
inductive Signal where
  | session
  | error
  | failedExit
  | cleanExit
  | other
  deriving DecidableEq, Repr

def signal (event : Json) : Signal :=
  match event with
  | .obj fields =>
    match getOr fields "type" .null with
    | .str "session_info" => if text.truthy (getOr fields "session_id" .null) then .session else .other
    | .str "error" => .error
    | .str "exit" => if text.equalsZero (getOr fields "code" (.int 0)) then .cleanExit else .failedExit
    | _ => .other
  | _ => .other

/-- Neither an error nor a completion. -/
def ParsedEvent.Plain : ParsedEvent → Prop
  | .error _ | .complete _ => False
  | _ => True

theorem plain_of_parseContent {block : Json} {parsed : ParsedEvent}
    (found : parseContent text block = some parsed) : parsed.Plain := by
  unfold parseContent at found
  split at found
  · split at found <;> first | (obtain rfl := Option.some.inj found; trivial) | exact nomatch found
  · exact nomatch found

theorem plain_of_parseMessage {message : Json} :
    ∀ parsed ∈ parseMessage text message, parsed.Plain := by
  intro parsed member
  unfold parseMessage at member
  split at member
  · split at member
    · obtain ⟨block, -, found⟩ := List.mem_filterMap.mp member
      exact plain_of_parseContent text found
    · exact nomatch member
  · exact nomatch member

omit text in
theorem plain_of_parseDelta {fields : List (String × Json)} :
    ∀ parsed ∈ parseDelta fields, parsed.Plain := by
  intro parsed member
  unfold parseDelta at member
  dsimp only at member
  split at member
  · split at member <;>
      first
      | (rw [List.mem_singleton.mp member]; trivial)
      | exact nomatch member
  · exact nomatch member

theorem plain_of_parseStart {fields : List (String × Json)} :
    ∀ parsed ∈ parseStart text fields, parsed.Plain := by
  intro parsed member
  unfold parseStart at member
  dsimp only at member
  split at member
  · split at member <;>
      first
      | (rw [List.mem_singleton.mp member]; trivial)
      | exact nomatch member
  · exact nomatch member

/-- Whatever is neither an `error` nor an `exit` event parses to plain events. -/
theorem plain_of_parseCliEvent {event : Json}
    (noError : ∀ fields, event = .obj fields → getOr fields "type" .null ≠ .str "error")
    (noExit : ∀ fields, event = .obj fields → getOr fields "type" .null ≠ .str "exit") :
    ∀ parsed ∈ parseCliEvent text event, parsed.Plain := by
  intro parsed member
  unfold parseCliEvent at member
  split at member
  · rename_i fields
    split at member
    · exact plain_of_parseMessage text parsed member
    · exact plain_of_parseMessage text parsed member
    · exact plain_of_parseMessage text parsed member
    · exact plain_of_parseDelta parsed member
    · exact plain_of_parseStart text parsed member
    · rw [List.mem_singleton.mp member]
      trivial
    · rename_i type
      exact absurd type (noError fields rfl)
    · rename_i type
      exact absurd type (noExit fields rfl)
    · exact nomatch member
  · exact nomatch member

theorem parseCliEvent_error {fields : List (String × Json)}
    (type : getOr fields "type" .null = .str "error") :
    parseCliEvent text (.obj fields) = [.error (errorMessage text fields)] := by
  unfold parseCliEvent
  dsimp only
  rw [type]
  rfl

theorem parseCliEvent_exit {fields : List (String × Json)}
    (type : getOr fields "type" .null = .str "exit") :
    parseCliEvent text (.obj fields) = parseExit text fields := by
  unfold parseCliEvent
  dsimp only
  rw [type]
  rfl

/-- The event that a signal comes from. -/
theorem type_of_signal (event : Json) :
    (signal text event = .error ∧ ∃ fields, event = .obj fields ∧
      getOr fields "type" .null = .str "error") ∨
    (∃ fields, event = .obj fields ∧ getOr fields "type" .null = .str "exit" ∧
      signal text event =
        if text.equalsZero (getOr fields "code" (.int 0)) then .cleanExit else .failedExit) ∨
    (∃ fields, event = .obj fields ∧ getOr fields "type" .null = .str "session_info" ∧
      signal text event =
        if text.truthy (getOr fields "session_id" .null) then .session else .other) ∨
    (signal text event = .other ∧ ∀ fields, event = .obj fields →
      getOr fields "type" .null ≠ .str "error" ∧ getOr fields "type" .null ≠ .str "exit" ∧
      getOr fields "type" .null ≠ .str "session_info") := by
  cases event with
  | obj fields =>
    unfold signal
    dsimp only
    split
    · rename_i type
      exact .inr (.inr (.inl ⟨fields, rfl, type, rfl⟩))
    · rename_i type
      exact .inl ⟨rfl, fields, rfl, type⟩
    · rename_i type
      exact .inr (.inl ⟨fields, rfl, type, rfl⟩)
    · rename_i noSession noError noExit
      refine .inr (.inr (.inr ⟨rfl, ?_⟩))
      rintro other ⟨⟩
      exact ⟨noError, noExit, noSession⟩
  | _ => exact .inr (.inr (.inr ⟨rfl, nofun⟩))

end Parser

end ClaudeProxy
