/-
**The heuristic tool parser** (`core/anthropic/tools.py`).

Its regular expressions are written out as functions on the text: each gives what the first match
consists of. Which characters are alphanumeric is a parameter, and so is the sequence of the ids that
`uuid4` gives.

* `HeuristicToolParser.turn` — one iteration of the outer loop of `feed`.
* `HeuristicToolParser.feed`, `HeuristicToolParser.flush` — the filtered text and the tools.
* **`turn_goesOn`** — a turn behind which the loop goes on has consumed something, or has left
  `PARSING_PARAMETERS`.
-/

import ClaudeProxy.Recovery.StreamRecovery

namespace ClaudeProxy

open Json (getKey setKey)

/-! ### Control tokens -/

/-- The length of a match of `<\|[^|>]{1,80}\|>` at the head of the text. -/
def controlToken? : List Char → Option Nat
  | '<' :: '|' :: rest =>
    let name := rest.takeWhile fun char => char ≠ '|' && char ≠ '>'
    if 1 ≤ name.length ∧ name.length ≤ 80 ∧ "|>".toList <+: rest.drop name.length then
      some (name.length + 4)
    else none
  | _ => none

/-- The text without its control tokens, the first `skip` characters belonging to one. -/
def stripFrom (skip : Nat) : List Char → List Char
  | [] => []
  | char :: rest =>
    match skip with
    | skip + 1 => stripFrom skip rest
    | 0 =>
      match controlToken? (char :: rest) with
      | some length => stripFrom (length - 1) rest
      | none => char :: stripFrom 0 rest

/-- `_strip_control_tokens`. -/
def stripControlTokens (text : List Char) : List Char := stripFrom 0 text

/-! ### Function calls -/

/-- A tag with a name at the head of the text: the name, and what is behind the tag. -/
def namedTag? (tag text : List Char) : Option (List Char × List Char) :=
  if tag <+: text then
    let body := text.drop tag.length
    match body.takeWhile (· ≠ '>'), body.dropWhile (· ≠ '>') with
    | char :: name, _ :: rest => some (char :: name, rest)
    | _, _ => none
  else none

/-- The first match of `●\s*<function=([^>]+)>`: the name, and what is behind it. -/
def functionStart? : List Char → Option (List Char × List Char)
  | [] => none
  | char :: rest =>
    match if char = '●' then namedTag? "<function=".toList (rest.dropWhile Py.isSpace) else none with
    | some found => some found
    | none => functionStart? rest

/-- The first match of `<parameter=([^>]+)>`: the text before it, the name, the text behind it. -/
def parameterStart? : List Char → Option (List Char × List Char × List Char)
  | [] => none
  | char :: rest =>
    match namedTag? "<parameter=".toList (char :: rest) with
    | some (name, behind) => some ([], name, behind)
    | none => (parameterStart? rest).map fun (before, found) => (char :: before, found)

def parameterEnd : List Char := "</parameter>".toList

/-- What `$` matches before: the end of the text, or its last newline. -/
def beforeLastNewline (text : List Char) : List Char :=
  if text.getLast? = some '\n' then text.dropLast else text

/-- A match of `<parameter=([^>]+)>(.*?)(?:</parameter>|$)`; `whole` is `group(0)`. -/
structure ParameterMatch where
  before : List Char
  name : List Char
  value : List Char
  whole : List Char
  behind : List Char

/-- The first match. -/
def parameter? (text : List Char) : Option ParameterMatch :=
  (parameterStart? text).map fun (before, name, behind) =>
    let value := match Py.find? parameterEnd behind with
      | some position => behind.take position
      | none => beforeLastNewline behind
    let ending := match Py.find? parameterEnd behind with
      | some _ => parameterEnd
      | none => []
    { before, name, value
      whole := "<parameter=".toList ++ name ++ '>' :: (value ++ ending)
      behind := behind.drop (value.length + ending.length) }

/-! ### JSON calls of the web tools -/

section WebTools

variable (isAlnum : Char → Bool)

/-- `\w`. -/
def isWord (char : Char) : Bool := isAlnum char || char == '_'

/-- `\b` between two characters. -/
def isBoundary (before behind : Option Char) : Bool :=
  before.any (isWord isAlnum) != behind.any (isWord isAlnum)

/-- A character under `re.IGNORECASE`. -/
def foldCase (char : Char) : Char := if char = 'ſ' then 's' else char.toLower

/-- The name of a web tool at the head of the text, in any case. -/
def webTool? (text : List Char) : Option (List Char) :=
  let folded := text.map foldCase
  if "webfetch".toList <+: folded then some (text.take 8)
  else if "websearch".toList <+: folded then some (text.take 9)
  else none

/-- A match of `_WEB_TOOL_JSON_PATTERN` at its tool name: the name, the JSON text and the length. The
optional `use` before the name changes neither the groups nor the end of a match. -/
def webToolCall? (previous : Option Char) (text : List Char) :
    Option (List Char × List Char × Nat) :=
  match webTool? text with
  | none => none
  | some tool =>
    let rest := text.drop tool.length
    let between := rest.takeWhile (· ≠ '{')
    let json := rest.dropWhile (· ≠ '{')
    let body := json.takeWhile (· ≠ '}')
    if isBoundary isAlnum previous text.head? ∧ isBoundary isAlnum tool.getLast? rest.head? ∧
        '}' ∈ json then
      some (tool, body ++ ['}'], tool.length + between.length + body.length + 1)
    else none

/-- The matches in the text, the first `skip` characters belonging to one. -/
def webToolCalls (previous : Option Char) (skip : Nat) :
    List Char → List (List Char × List Char)
  | [] => []
  | char :: rest =>
    match skip with
    | skip + 1 => webToolCalls (some char) skip rest
    | 0 =>
      match webToolCall? isAlnum previous (char :: rest) with
      | some (tool, json, length) => (tool, json) :: webToolCalls (some char) (length - 1) rest
      | none => webToolCalls (some char) 0 rest

end WebTools

/-! ### The parser -/

/-- A detected tool call. -/
structure HeuristicTool where
  id : String
  name : String
  input : List (String × Json)
  deriving DecidableEq

inductive ParserState where
  | text
  | matchingFunction
  | parsingParameters
  deriving DecidableEq, Repr

/-- `HeuristicToolParser`; `ids` counts the ids that were drawn. -/
structure HeuristicToolParser where
  state : ParserState := .text
  buffer : List Char := []
  currentToolId : String := ""
  currentFunctionName : String := ""
  currentParameters : List (String × Json) := []
  ids : Nat := 0

/-- What one turn appends to `filtered_output_parts` and to `detected_tools`. -/
structure FeedTurn where
  parser : HeuristicToolParser
  output : List Char
  tools : List HeuristicTool
  goesOn : Bool

/-- A turn behind further output. -/
def FeedTurn.behind (turn : FeedTurn) (output : List Char) : FeedTurn :=
  { turn with output := output ++ turn.output }

theorem namedTag?_shorter {tag text name rest : List Char}
    (found : namedTag? tag text = some (name, rest)) : rest.length < text.length := by
  unfold namedTag? at found
  split_ifs at found
  dsimp only at found
  split at found
  · rename_i behind
    obtain ⟨-, rfl⟩ := Prod.mk.inj (Option.some.inj found)
    have shorter := (@List.dropWhile_suffix _ (text.drop tag.length) (· ≠ '>')).length_le
    rw [behind, List.length_cons, List.length_drop] at shorter
    omega
  · cases found

theorem functionStart?_shorter {text name rest : List Char}
    (found : functionStart? text = some (name, rest)) : rest.length < text.length := by
  induction text with
  | nil => cases found
  | cons char text ih =>
    unfold functionStart? at found
    split at found
    · rename_i here
      cases found
      split_ifs at here
      have shorter := namedTag?_shorter here
      have space := (@List.dropWhile_suffix _ text Py.isSpace).length_le
      rw [List.length_cons]
      omega
    · rw [List.length_cons]
      exact Nat.lt_succ_of_lt (ih found)

theorem parameterStart?_shorter {text before name behind : List Char}
    (found : parameterStart? text = some (before, name, behind)) :
    behind.length < text.length := by
  induction text generalizing before with
  | nil => cases found
  | cons char text ih =>
    unfold parameterStart? at found
    split at found
    · rename_i here
      cases found
      exact namedTag?_shorter here
    · obtain ⟨⟨before, rest⟩, there, same⟩ := Option.map_eq_some_iff.mp found
      cases same
      rw [List.length_cons]
      exact Nat.lt_succ_of_lt (ih there)

theorem parameter?_shorter {text : List Char} {found : ParameterMatch}
    (matched : parameter? text = some found) : found.behind.length < text.length := by
  obtain ⟨⟨before, name, behind⟩, start, rfl⟩ := Option.map_eq_some_iff.mp matched
  have shorter := parameterStart?_shorter start
  show (behind.drop _).length < _
  rw [List.length_drop]
  omega

namespace HeuristicToolParser

variable (freshId : Nat → String)

/-- The loop over the complete parameters: the text between them. -/
def parseParameters (parser : HeuristicToolParser) : List Char × HeuristicToolParser :=
  match _matched : parameter? parser.buffer with
  | some found =>
    if parameterEnd <:+: found.whole then
      let key := Py.strip (String.ofList found.name)
      let value := Py.strip (String.ofList found.value)
      let (output, parser) := parseParameters { parser with
        buffer := found.behind
        currentParameters := setKey parser.currentParameters key (.str value) }
      (found.before ++ output, parser)
    else ([], parser)
  | none => ([], parser)
termination_by parser.buffer.length
decreasing_by exact parameter?_shorter _matched

/-- The call that is being parsed. -/
def currentTool (parser : HeuristicToolParser) : HeuristicTool :=
  ⟨parser.currentToolId, parser.currentFunctionName, parser.currentParameters⟩

/-- The call is finished. -/
def finished (parser : HeuristicToolParser) (output rest : List Char) : FeedTurn :=
  ⟨{ parser with state := .text, buffer := rest }, output, [parser.currentTool], true⟩

/-- The branch of `PARSING_PARAMETERS`. -/
def parsingTurn (parser : HeuristicToolParser) : FeedTurn :=
  let (output, parser) := parser.parseParameters
  if '●' ∈ parser.buffer then
    parser.finished (output ++ parser.buffer.takeWhile (· ≠ '●'))
      (parser.buffer.dropWhile (· ≠ '●'))
  else if parser.buffer ≠ [] ∧ (parser.buffer.dropWhile Py.isSpace).head? ≠ some '<' ∧
      ¬ "<parameter=".toList <:+: parser.buffer then
    parser.finished (output ++ parser.buffer) []
  else ⟨parser, output, [], false⟩

/-- The branch of `MATCHING_FUNCTION`, and the next one when it is reached. -/
def matchingTurn (parser : HeuristicToolParser) : FeedTurn :=
  match functionStart? parser.buffer with
  | some (name, rest) =>
    parsingTurn { parser with
      state := .parsingParameters
      buffer := rest
      currentToolId := "toolu_heuristic_" ++ freshId parser.ids
      currentFunctionName := Py.strip (String.ofList name)
      currentParameters := []
      ids := parser.ids + 1 }
  | none =>
    if 100 < parser.buffer.length then
      ⟨{ parser with state := .text, buffer := parser.buffer.tail }, parser.buffer.take 1, [], true⟩
    else ⟨parser, [], [], false⟩

/-- The end of the text, behind the last `●`; `_split_incomplete_control_token_tail`. -/
def textEnd (parser : HeuristicToolParser) : FeedTurn :=
  let prefixLength := match Py.rfind? "<|".toList parser.buffer with
    | some start =>
      if Py.find? "|>".toList (parser.buffer.drop start) = none then start else 0
    | none => 0
  if prefixLength ≠ 0 then
    ⟨{ parser with buffer := parser.buffer.drop prefixLength }, parser.buffer.take prefixLength, [],
      false⟩
  else ⟨{ parser with buffer := [] }, parser.buffer, [], false⟩

/-- One turn of the outer loop. -/
def turn (parser : HeuristicToolParser) : FeedTurn :=
  match parser.state with
  | .text =>
    if '●' ∈ parser.buffer then
      (matchingTurn freshId { parser with
        state := .matchingFunction
        buffer := parser.buffer.dropWhile (· ≠ '●') }).behind (parser.buffer.takeWhile (· ≠ '●'))
    else parser.textEnd
  | .matchingFunction => matchingTurn freshId parser
  | .parsingParameters => parser.parsingTurn

theorem parseParameters_length (parser : HeuristicToolParser) :
    parser.parseParameters.2.buffer.length ≤ parser.buffer.length := by
  induction parser using parseParameters.induct with
  | case1 parser found matched complete key value _ _ _ ih =>
    unfold parseParameters
    split
    · rename_i other matched'
      obtain rfl := Option.some.inj (matched.symm.trans matched')
      rw [if_pos complete]
      exact ih.trans (parameter?_shorter matched).le
    · exact le_rfl
  | case2 parser found matched incomplete =>
    unfold parseParameters
    split
    · rename_i other matched'
      obtain rfl := Option.some.inj (matched.symm.trans matched')
      rw [if_neg incomplete]
    · exact le_rfl
  | case3 parser missing =>
    unfold parseParameters
    split
    · rename_i other matched'
      cases missing.symm.trans matched'
    · exact le_rfl

theorem parsingTurn_goesOn {parser : HeuristicToolParser} (more : parser.parsingTurn.goesOn = true) :
    parser.parsingTurn.parser.state = .text ∧
      parser.parsingTurn.parser.buffer.length ≤ parser.buffer.length := by
  have shorter := parser.parseParameters_length
  unfold parsingTurn at more ⊢
  dsimp only at more ⊢
  split_ifs at more ⊢
  · have rest := (@List.dropWhile_suffix _ parser.parseParameters.2.buffer (· ≠ '●')).length_le
    exact ⟨rfl, rest.trans shorter⟩
  · exact ⟨rfl, Nat.zero_le _⟩

theorem matchingTurn_goesOn {parser : HeuristicToolParser}
    (more : (matchingTurn freshId parser).goesOn = true) :
    (matchingTurn freshId parser).parser.state = .text ∧
      (matchingTurn freshId parser).parser.buffer.length < parser.buffer.length := by
  unfold matchingTurn at more ⊢
  split at more
  · rename_i found
    obtain ⟨state, shorter⟩ := parsingTurn_goesOn more
    exact ⟨state, lt_of_le_of_lt shorter (functionStart?_shorter found)⟩
  · split_ifs at more ⊢ with long
    refine ⟨rfl, ?_⟩
    show parser.buffer.tail.length < _
    rw [List.length_tail]
    omega

/-- How far the loop still has to go. -/
def work (parser : HeuristicToolParser) : Nat :=
  parser.buffer.length + if parser.state = .parsingParameters then 1 else 0

/-- **A turn behind which the loop goes on** has consumed something, or has left
`PARSING_PARAMETERS`. -/
theorem turn_goesOn {parser : HeuristicToolParser} (more : (parser.turn freshId).goesOn = true) :
    (parser.turn freshId).parser.work < parser.work := by
  have lighter : ∀ next : HeuristicToolParser, next.state = .text →
      next.work = next.buffer.length := by
    intro next text
    unfold work
    rw [text]
    rfl
  unfold turn at more ⊢
  cases state : parser.state with
  | text =>
    rw [state] at more
    dsimp only at more ⊢
    split_ifs at more ⊢
    · obtain ⟨text, shorter⟩ := matchingTurn_goesOn freshId more
      have rest := (@List.dropWhile_suffix _ parser.buffer (· ≠ '●')).length_le
      show (matchingTurn freshId _).parser.work < _
      rw [lighter _ text, lighter _ state]
      exact lt_of_lt_of_le shorter rest
    · unfold textEnd at more
      dsimp only at more
      split_ifs at more
  | matchingFunction =>
    rw [state] at more
    obtain ⟨text, shorter⟩ := matchingTurn_goesOn freshId more
    rw [lighter _ text]
    exact lt_of_lt_of_le shorter (Nat.le_add_right _ _)
  | parsingParameters =>
    rw [state] at more
    obtain ⟨text, shorter⟩ := parsingTurn_goesOn more
    rw [lighter _ text]
    unfold work
    rw [state]
    exact Nat.lt_succ_of_le shorter

/-- The outer loop of `feed`. -/
def feedLoop (parser : HeuristicToolParser) : List Char × List HeuristicTool × HeuristicToolParser :=
  if _more : (parser.turn freshId).goesOn = true then
    let (output, tools, last) := feedLoop (parser.turn freshId).parser
    ((parser.turn freshId).output ++ output, (parser.turn freshId).tools ++ tools, last)
  else ((parser.turn freshId).output, (parser.turn freshId).tools, (parser.turn freshId).parser)
termination_by parser.work
decreasing_by exact turn_goesOn freshId _more

variable (isAlnum : Char → Bool) (runtime : Runtime)

/-- A web tool is called with the argument that it needs; the names are compared as they are
written. -/
def acceptsInput (toolName : String) (toolInput : List (String × Json)) : Bool :=
  !(toolName = "WebFetch" && !toolInput.any fun field => field.1 = "url") &&
    !(toolName = "WebSearch" && !toolInput.any fun field => field.1 = "query")

/-- The loop over the matches, with the number of the next id. -/
def webToolsFrom (ids : Nat) : List (List Char × List Char) → Except PyError (List HeuristicTool × Nat)
  | [] => .ok ([], ids)
  | (tool, json) :: rest =>
    match runtime.loadsOrNone (String.ofList json) with
    | .error error => .error error
    | .ok (some (.obj toolInput)) =>
      if acceptsInput (String.ofList tool) toolInput then
        match webToolsFrom (ids + 1) rest with
        | .error error => .error error
        | .ok (tools, ids') =>
          .ok (⟨"toolu_heuristic_" ++ freshId ids, String.ofList tool, toolInput⟩ :: tools, ids')
      else webToolsFrom ids rest
    | .ok _ => webToolsFrom ids rest

/-- `_extract_web_tool_json_calls`: when there is a call, nothing is left of the buffer. -/
def extractWebToolJsonCalls (parser : HeuristicToolParser) :
    Except PyError (List HeuristicTool × HeuristicToolParser) :=
  match webToolsFrom freshId runtime parser.ids (webToolCalls isAlnum none 0 parser.buffer) with
  | .error error => .error error
  | .ok (tools, ids) =>
    .ok (tools, { parser with ids, buffer := if tools = [] then parser.buffer else [] })

/-- `feed`: the filtered text, the detected tools and the parser; `json.loads` may raise. -/
def feed (parser : HeuristicToolParser) (text : String) :
    Except PyError (String × List HeuristicTool × HeuristicToolParser) :=
  match extractWebToolJsonCalls freshId isAlnum runtime
    { parser with buffer := stripControlTokens (parser.buffer ++ text.toList) } with
  | .error error => .error error
  | .ok (called, parser) =>
    let (output, tools, parser) := parser.feedLoop freshId
    .ok (String.ofList output, called ++ tools, parser)

/-- `flush`: a call whose last parameter is not closed. -/
def flush (parser : HeuristicToolParser) : List HeuristicTool × HeuristicToolParser :=
  let buffer := stripControlTokens parser.buffer
  match parser.state with
  | .parsingParameters =>
    let parameters := match parameterStart? buffer with
      | some (_, name, value) =>
        setKey parser.currentParameters (Py.strip (String.ofList name))
          (.str (Py.strip (String.ofList value)))
      | none => parser.currentParameters
    let parser := { parser with currentParameters := parameters, state := .text, buffer := [] }
    ([parser.currentTool], parser)
  | _ => ([], { parser with buffer })

end HeuristicToolParser

end ClaudeProxy
