/-
**Plain text in the parsers of the content.**

A text without tags, calls, words that name a web tool and complete control tokens goes through both
parsers unchanged, but for what they hold back as the possible beginning of one. A fragment that begins
inside a word can still be taken for a call of a web tool.

* `PlainText` — the text has none of these; `Part` — a part of it that the heuristic parser looks at.
* `heldBack` — what the heuristic parser keeps of a text; **`feed_markless`** — it gives the rest, unless
  a call is taken out.
* **`heldBack_eq_nil_iff`** — when it keeps nothing.
* `partialEnd` — what the think-tag parser keeps; **`feed_untagged`**.
* `TextReading` — what both have kept of a text that came in pieces.
-/

import ClaudeProxy.Parsers.Patterns
import ClaudeProxy.Parsers.Segmentation

namespace ClaudeProxy

/-! ### Plain text -/

/-- The text has no function call and no complete control token. -/
structure Markless (text : List Char) : Prop where
  functionFree : ¬ "<function=".toList <:+: text
  controlFree : ∀ suffix, suffix <:+ text → controlToken? suffix = none

/-- The name of a web tool does not stand there as a word. -/
def WordFreeAt (isAlnum : Char → Bool) (front behind : List Char) : Prop :=
  ∀ tool ∈ webTool? behind, ¬ (isBoundary isAlnum front.getLast? behind.head? = true ∧
    isBoundary isAlnum tool.getLast? (behind.drop tool.length).head? = true)

instance (isAlnum : Char → Bool) (front behind : List Char) :
    Decidable (WordFreeAt isAlnum front behind) := by
  unfold WordFreeAt
  infer_instance

/-- No word of the text names a web tool. -/
def WordFree (isAlnum : Char → Bool) (text : List Char) : Prop :=
  ∀ front behind, front ++ behind = text → WordFreeAt isAlnum front behind

theorem wordFree_iff (isAlnum : Char → Bool) (text : List Char) :
    (∀ place ∈ List.range (text.length + 1),
      WordFreeAt isAlnum (text.take place) (text.drop place)) ↔ WordFree isAlnum text := by
  constructor
  · rintro checked front behind rfl
    have here := checked front.length (List.mem_range.mpr (by
      rw [List.length_append]
      omega))
    rwa [List.take_left, List.drop_left] at here
  · exact fun free place _ => free _ _ (List.take_append_drop place text)

instance (isAlnum : Char → Bool) (text : List Char) : Decidable (WordFree isAlnum text) :=
  @decidable_of_iff _ _ (wordFree_iff isAlnum text) inferInstance

/-- Nor a think tag, nor a word that names a web tool. -/
structure PlainText (isAlnum : Char → Bool) (text : List Char) : Prop extends Markless text where
  openFree : ¬ openTag <:+: text
  closeFree : ¬ closeTag <:+: text
  wordFree : WordFree isAlnum text

instance (text : List Char) : Decidable (Markless text) :=
  decidable_of_iff (¬ "<function=".toList <:+: text ∧ ∀ suffix ∈ text.tails, controlToken? suffix = none)
    ⟨fun checked =>
      ⟨checked.1, fun suffix isSuffix => checked.2 suffix ((List.mem_tails _ _).mpr isSuffix)⟩,
      fun markless => ⟨markless.functionFree,
        fun suffix isTail => markless.controlFree suffix ((List.mem_tails _ _).mp isTail)⟩⟩

instance (isAlnum : Char → Bool) (text : List Char) : Decidable (PlainText isAlnum text) :=
  decidable_of_iff
    (Markless text ∧ ¬ openTag <:+: text ∧ ¬ closeTag <:+: text ∧ WordFree isAlnum text)
    ⟨fun checked => ⟨checked.1, checked.2.1, checked.2.2.1, checked.2.2.2⟩,
      fun plain => ⟨plain.toMarkless, plain.openFree, plain.closeFree, plain.wordFree⟩⟩

namespace Markless

variable {text part : List Char}

/-- A part of such a text is such a text. -/
theorem of_infix (markless : Markless text) (isPart : part <:+: text) : Markless part := by
  obtain ⟨front, back, rfl⟩ := isPart
  refine ⟨fun inside => markless.functionFree (inside.trans ⟨front, back, rfl⟩), ?_⟩
  rintro suffix ⟨before, rfl⟩
  cases found : controlToken? suffix with
  | none => rfl
  | some length =>
    have whole := markless.controlFree (suffix ++ back) ⟨front ++ before, by simp⟩
    rw [controlToken?_append back found] at whole
    cases whole

theorem stripControlTokens_eq (markless : Markless text) : stripControlTokens text = text := by
  refine Tokenless.stripControlTokens_eq fun suffix isSuffix _ => ?_
  rw [List.append_nil]
  exact markless.controlFree suffix isSuffix

theorem functionStart?_eq (markless : Markless text) : functionStart? text = none := by
  induction text with
  | nil => rfl
  | cons char text ih =>
    have none_here : (if char = '●' then
        namedTag? "<function=".toList (text.dropWhile Py.isSpace) else none) = none := by
      split_ifs
      · rw [namedTag?, if_neg]
        intro opens
        refine markless.functionFree ?_
        exact opens.isInfix.trans ((List.dropWhile_suffix _).trans (List.suffix_cons _ _)).isInfix
      · rfl
    rw [functionStart?, none_here]
    exact ih (markless.of_infix (List.suffix_cons char text).isInfix)

end Markless

/-! ### Calls of the web tools -/

/-- The name is at the head of the text. -/
theorem webTool?_eq_some {text tool : List Char} (found : webTool? text = some tool) :
    tool <+: text ∧ 8 ≤ text.length ∧ (text.head?.map foldCase) = some 'w' := by
  unfold webTool? at found
  dsimp only at found
  have front {name : List Char} (isFront : name <+: text.map foldCase) :
      name.length ≤ text.length ∧ (name.head?.isSome → (text.head?.map foldCase) = name.head?) := by
    refine ⟨by simpa using isFront.length_le, fun some_ => ?_⟩
    obtain ⟨behind, whole⟩ := isFront
    rw [← List.head?_map, ← whole, List.head?_append]
    obtain ⟨first, isFirst⟩ := Option.isSome_iff_exists.mp some_
    rw [isFirst]
    rfl
  split_ifs at found with fetch search
  · obtain rfl := Option.some.inj found
    exact ⟨List.take_prefix _ _, (front fetch).1, (front fetch).2 rfl⟩
  · obtain rfl := Option.some.inj found
    have long : 9 ≤ text.length := (front search).1
    exact ⟨List.take_prefix _ _, by omega, (front search).2 rfl⟩

/-- A name is read from what follows it no more than it needs. -/
theorem webTool?_append {text : List Char} (more : List Char) {tool : List Char}
    (found : webTool? text = some tool) : webTool? (text ++ more) = some tool := by
  have long := (webTool?_eq_some found).2.1
  unfold webTool? at found ⊢
  dsimp only at found ⊢
  rw [List.map_append]
  split_ifs at found with fetch search
  · obtain rfl := Option.some.inj found
    rw [if_pos (fetch.trans (List.prefix_append _ _)), List.take_append_of_le_length long]
  · obtain rfl := Option.some.inj found
    have enough : 9 ≤ text.length := by simpa using search.length_le
    have notFetch : ¬ "webfetch".toList <+: text.map foldCase ++ more.map foldCase := by
      intro other
      refine fetch (List.prefix_of_prefix_length_le other (List.prefix_append _ _) ?_)
      rw [List.length_map]
      exact long
    rw [if_neg notFetch, if_pos (search.trans (List.prefix_append _ _)),
      List.take_append_of_le_length enough]

/-- A match of the pattern has its name as a word, and text behind it. -/
theorem webToolCall?_eq_some {isAlnum : Char → Bool} {previous : Option Char} {text tool json : List Char}
    {length : Nat} (found : webToolCall? isAlnum previous text = some (tool, json, length)) :
    webTool? text = some tool ∧ isBoundary isAlnum previous text.head? = true ∧
      isBoundary isAlnum tool.getLast? (text.drop tool.length).head? = true ∧
      text.drop tool.length ≠ [] := by
  unfold webToolCall? at found
  split at found
  · exact nomatch found
  · rename_i name named
    dsimp only at found
    split_ifs at found with matched
    obtain ⟨rfl, -⟩ := Prod.mk.inj (Option.some.inj found)
    refine ⟨named, matched.1, matched.2.1, fun nothing => ?_⟩
    have closed := matched.2.2
    rw [nothing] at closed
    exact absurd closed List.not_mem_nil

section Part

variable {isAlnum : Char → Bool} {text front part back : List Char}

/-- **Inside a plain text no call of a web tool is read.** -/
theorem webToolCalls_inside (plain : PlainText isAlnum text) (isText : front ++ part ++ back = text) :
    webToolCalls isAlnum front.getLast? 0 part = [] := by
  induction part generalizing front with
  | nil => rfl
  | cons char part ih =>
    have none_here : webToolCall? isAlnum front.getLast? (char :: part) = none := by
      cases found : webToolCall? isAlnum front.getLast? (char :: part) with
      | none => rfl
      | some call =>
        obtain ⟨tool, json, length⟩ := call
        obtain ⟨named, before, after, more⟩ := webToolCall?_eq_some found
        have free := plain.wordFree front (char :: part ++ back)
          (by rw [← isText, List.append_assoc]) tool (webTool?_append back named)
        have isFront := (webTool?_eq_some named).1.length_le
        refine absurd ⟨before, ?_⟩ free
        rw [List.drop_append_of_le_length isFront, List.head?_append_of_ne_nil _ more]
        exact after
    rw [webToolCalls, none_here]
    have next := @ih (front ++ [char]) (by rw [← isText]; simp)
    rwa [List.getLast?_append, List.getLast?_singleton, Option.some_or] at next

/-- **A fragment of a plain text**: a call is read at its head, or not at all. -/
theorem webToolCalls_part (plain : PlainText isAlnum text) (isText : front ++ part ++ back = text)
    (called : webToolCalls isAlnum none 0 part ≠ []) :
    8 ≤ part.length ∧ part.head?.map foldCase = some 'w' := by
  cases part with
  | nil => exact absurd rfl called
  | cons char part =>
    rw [webToolCalls] at called
    cases found : webToolCall? isAlnum none (char :: part) with
    | some call =>
      obtain ⟨tool, json, length⟩ := call
      exact (webTool?_eq_some (webToolCall?_eq_some found).1).2
    | none =>
      rw [found] at called
      have next := @webToolCalls_inside isAlnum text (front ++ [char]) part back plain
        (by rw [← isText]; simp)
      rw [List.getLast?_append, List.getLast?_singleton, Option.some_or] at next
      exact absurd next called

end Part

namespace HeuristicToolParser

/-- A call is taken out of the text: the JSON behind a name is an object with the argument that the tool
needs. -/
def webCalled (isAlnum : Char → Bool) (runtime : Runtime) (text : List Char) : Bool :=
  (webToolCalls isAlnum none 0 text).any fun call =>
    match runtime.loadsOrNone (String.ofList call.2) with
    | .ok (some (.obj toolInput)) => acceptsInput (String.ofList call.1) toolInput
    | _ => false

/-- The loop over the matches finds a call where one is accepted. -/
theorem webToolsFrom_eq_nil_iff {freshId : Nat → String} {runtime : Runtime}
    {calls : List (List Char × List Char)} {ids ids' : Nat} {tools : List HeuristicTool}
    (ran : webToolsFrom freshId runtime ids calls = .ok (tools, ids')) :
    tools = [] ↔ calls.any (fun call =>
      match runtime.loadsOrNone (String.ofList call.2) with
      | .ok (some (.obj toolInput)) => acceptsInput (String.ofList call.1) toolInput
      | _ => false) = false := by
  induction calls generalizing ids tools with
  | nil =>
    obtain ⟨rfl, -⟩ := Prod.mk.inj (Except.ok.inj ran)
    exact iff_of_true rfl rfl
  | cons call calls ih =>
    obtain ⟨tool, json⟩ := call
    rw [webToolsFrom] at ran
    rw [List.any_cons, Bool.or_eq_false_iff]
    dsimp only
    split at ran
    · exact nomatch ran
    · rename_i toolInput loaded
      rw [loaded]
      dsimp only
      split_ifs at ran with accepted
      · split at ran
        · exact nomatch ran
        · obtain ⟨rfl, -⟩ := Prod.mk.inj (Except.ok.inj ran)
          exact iff_of_false (List.cons_ne_nil _ _) fun none_ =>
            absurd (accepted.symm.trans none_.1) Bool.false_ne_true.symm
      · rw [ih ran]
        exact (and_iff_right (Bool.eq_false_iff.mpr accepted)).symm
    · rename_i value notObject loaded
      rw [ih ran, loaded]
      refine (and_iff_right ?_).symm
      split
      · rename_i toolInput isObject
        exact absurd isObject (fun same => notObject toolInput (Except.ok.inj same))
      · rfl

end HeuristicToolParser

/-! ### What the heuristic parser holds back -/

/-- Where the beginning of a control token may stand at the end of a text, if not at its head. -/
def tokenStart (text : List Char) : Nat :=
  match Py.rfind? "<|".toList text with
  | some start => if Py.find? "|>".toList (text.drop start) = none then start else 0
  | none => 0

/-- Behind the last `●`, what might be the beginning of a control token. -/
def tokenTail (text : List Char) : List Char :=
  if tokenStart text ≠ 0 then text.drop (tokenStart text) else []

/-- What the heuristic parser keeps of a text without marks. -/
def heldBack : List Char → List Char
  | [] => []
  | char :: rest =>
    if char = '●' then if 100 ≤ rest.length then heldBack rest else char :: rest
    else if '●' ∈ rest then heldBack rest
    else tokenTail (char :: rest)

theorem heldBack_dropWhile {text : List Char} (bullet : '●' ∈ text) :
    heldBack (text.dropWhile (· ≠ '●')) = heldBack text := by
  induction text with
  | nil => simp at bullet
  | cons char text ih =>
    by_cases here : char = '●'
    · rw [List.dropWhile_cons_of_neg (by simp [here])]
    · have later : '●' ∈ text := (List.mem_cons.mp bullet).resolve_left fun same => here same.symm
      rw [List.dropWhile_cons_of_pos (by simp [here]), ih later, heldBack, if_neg here, if_pos later]

theorem heldBack_of_notMem {text : List Char} (plain : '●' ∉ text) :
    heldBack text = tokenTail text := by
  cases text with
  | nil => rfl
  | cons char text =>
    obtain ⟨notHere, notLater⟩ := not_or.mp (List.mem_cons.not.mp plain)
    rw [heldBack, if_neg fun same => notHere same.symm, if_neg notLater]

theorem tokenTail_suffix (text : List Char) : tokenTail text <:+ text := by
  unfold tokenTail
  split_ifs
  · exact List.drop_suffix _ _
  · exact List.nil_suffix

/-- It keeps an end of the text. -/
theorem heldBack_suffix (text : List Char) : heldBack text <:+ text := by
  induction text with
  | nil => exact List.suffix_rfl
  | cons char rest ih =>
    rw [heldBack]
    split_ifs
    · exact ih.trans (List.suffix_cons _ _)
    · exact List.suffix_rfl
    · exact ih.trans (List.suffix_cons _ _)
    · exact tokenTail_suffix _

/-! ### When nothing is held back -/

/-- The text behind the last `●`. -/
def behindBullet : List Char → List Char
  | [] => []
  | char :: rest =>
    if '●' ∈ rest then behindBullet rest else if char = '●' then rest else char :: rest

/-- **Nothing of the text is held back**: a hundred characters stand behind the last `●`, and no
control token may begin there, but at the head. -/
def Released (text : List Char) : Prop :=
  ('●' ∈ text → 100 ≤ (behindBullet text).length) ∧ tokenStart (behindBullet text) = 0

instance (text : List Char) : Decidable (Released text) := inferInstanceAs (Decidable (_ ∧ _))

theorem behindBullet_suffix (text : List Char) : behindBullet text <:+ text := by
  induction text with
  | nil => exact List.suffix_rfl
  | cons char rest ih =>
    rw [behindBullet]
    split_ifs
    · exact ih.trans (List.suffix_cons _ _)
    · exact List.suffix_cons _ _
    · exact List.suffix_rfl

theorem behindBullet_of_notMem {text : List Char} (plain : '●' ∉ text) :
    behindBullet text = text := by
  cases text with
  | nil => rfl
  | cons char rest =>
    obtain ⟨notHere, notLater⟩ := not_or.mp (List.mem_cons.not.mp plain)
    rw [behindBullet, if_neg notLater, if_neg fun same => notHere same.symm]

theorem tokenTail_eq_nil_iff (text : List Char) : tokenTail text = [] ↔ tokenStart text = 0 := by
  unfold tokenTail
  split_ifs with start
  · refine iff_of_false (fun empty => ?_) start
    unfold tokenStart at start empty
    split at start
    · rename_i position found
      split_ifs at start empty with unfinished
      · obtain ⟨occurs, -⟩ := Py.rfind?_eq_some found
        rw [found] at empty
        simp only [if_pos unfinished] at empty
        rw [empty] at occurs
        exact absurd (List.prefix_nil.mp occurs) (by decide)
      · exact start rfl
    · exact start rfl
  · exact iff_of_true rfl (not_not.mp start)

theorem heldBack_eq_nil_iff (text : List Char) : heldBack text = [] ↔ Released text := by
  induction text with
  | nil => exact iff_of_true rfl ⟨fun none => absurd none List.not_mem_nil, rfl⟩
  | cons char rest ih =>
    have within := (behindBullet_suffix rest).length_le
    unfold Released at ih ⊢
    rw [heldBack, behindBullet]
    by_cases later : '●' ∈ rest
    · rw [if_pos later, if_pos later]
      have some : '●' ∈ char :: rest := List.mem_cons_of_mem _ later
      simp only [later, some, true_implies] at ih ⊢
      split_ifs with here long
      · exact ih
      · exact iff_of_false (by simp) fun released => by omega
      · exact ih
    · rw [if_neg later, if_neg later]
      rw [behindBullet_of_notMem later] at ih
      simp only [later, false_implies, true_and] at ih
      split_ifs with here long
      · simp [here, ih, long]
      · simp [here, long]
      · have nowhere : '●' ∉ char :: rest := fun member =>
          (List.mem_cons.mp member).elim (fun same => here same.symm) later
        rw [tokenTail_eq_nil_iff]
        simp [nowhere]

namespace HeuristicToolParser

/-- The parser is at no call. -/
def Waits (parser : HeuristicToolParser) : Prop :=
  parser.state = .text ∨ parser.state = .matchingFunction ∧ parser.buffer.head? = some '●'

section Feed

variable (freshId : Nat → String) {parser : HeuristicToolParser}

/-- What the parser keeps from the first `●` on. -/
theorem buffer_of_waits (waits : parser.Waits) {rest : List Char}
    (isRest : parser.buffer.dropWhile (· ≠ '●') = '●' :: rest) :
    parser.state = .text ∨ parser.state = .matchingFunction ∧ parser.buffer = '●' :: rest := by
  refine waits.imp_right fun matching => ⟨matching.1, ?_⟩
  obtain ⟨tail, isTail⟩ := List.head?_eq_some_iff.mp matching.2
  rw [← isRest, isTail, List.dropWhile_cons_of_neg (by simp)]

/-- A turn at a `●` with a hundred characters behind it: the `●` is given out. -/
theorem turn_long (waits : parser.Waits) (markless : Markless parser.buffer) {rest : List Char}
    (isRest : parser.buffer.dropWhile (· ≠ '●') = '●' :: rest) (long : 100 ≤ rest.length) :
    parser.turn freshId = ⟨{ parser with state := .text, buffer := rest },
      parser.buffer.takeWhile (· ≠ '●') ++ ['●'], [], true⟩ := by
  have suffix : '●' :: rest <:+ parser.buffer := isRest ▸ List.dropWhile_suffix _
  have bullet : '●' ∈ parser.buffer := suffix.subset List.mem_cons_self
  have start : functionStart? ('●' :: rest) = none :=
    (markless.of_infix suffix.isInfix).functionStart?_eq
  have enough : 100 < rest.length + 1 := by omega
  rcases buffer_of_waits waits isRest with isText | ⟨isMatching, whole⟩
  · rw [turn, isText]
    simp only [if_pos bullet, isRest, matchingTurn, start, List.length_cons, if_pos enough,
      FeedTurn.behind, List.tail_cons, List.take_succ_cons, List.take_zero]
  · rw [turn, isMatching]
    simp [matchingTurn, whole, start, enough]

/-- A turn at a `●` with less behind it: all is held back from there. -/
theorem turn_short (waits : parser.Waits) (markless : Markless parser.buffer) {rest : List Char}
    (isRest : parser.buffer.dropWhile (· ≠ '●') = '●' :: rest) (short : ¬ 100 ≤ rest.length) :
    parser.turn freshId = ⟨{ parser with state := .matchingFunction, buffer := '●' :: rest },
      parser.buffer.takeWhile (· ≠ '●'), [], false⟩ := by
  have suffix : '●' :: rest <:+ parser.buffer := isRest ▸ List.dropWhile_suffix _
  have bullet : '●' ∈ parser.buffer := suffix.subset List.mem_cons_self
  have start : functionStart? ('●' :: rest) = none :=
    (markless.of_infix suffix.isInfix).functionStart?_eq
  have few : ¬ 100 < rest.length + 1 := by omega
  rcases buffer_of_waits waits isRest with isText | ⟨isMatching, whole⟩
  · rw [turn, isText]
    simp only [if_pos bullet, isRest, matchingTurn, start, List.length_cons, if_neg few,
      FeedTurn.behind, List.append_nil]
  · rw [turn, isMatching]
    obtain ⟨_, _, _, _, _, _⟩ := parser
    subst isMatching whole
    simp [matchingTurn, start, few]

/-- A turn without a `●`. -/
theorem turn_end (isText : parser.state = .text) (plain : '●' ∉ parser.buffer) :
    ∃ output, parser.turn freshId =
        ⟨{ parser with buffer := tokenTail parser.buffer }, output, [], false⟩ ∧
      output ++ tokenTail parser.buffer = parser.buffer := by
  have ends : parser.textEnd = if tokenStart parser.buffer ≠ 0 then
      ⟨{ parser with buffer := parser.buffer.drop (tokenStart parser.buffer) },
        parser.buffer.take (tokenStart parser.buffer), [], false⟩
    else ⟨{ parser with buffer := [] }, parser.buffer, [], false⟩ := rfl
  have turned : parser.turn freshId = parser.textEnd := by
    rw [turn, isText]
    exact if_neg plain
  rw [turned, ends, tokenTail]
  split_ifs
  · exact ⟨_, rfl, List.take_append_drop _ _⟩
  · exact ⟨_, rfl, List.append_nil _⟩

/-- **The loop** gives out a text without marks but for what is held back. -/
theorem feedLoop_markless (waits : parser.Waits) (markless : Markless parser.buffer) :
    ∃ output last, parser.feedLoop freshId = (output, [], last) ∧
      output ++ last.buffer = parser.buffer ∧ last.buffer = heldBack parser.buffer ∧ last.Waits := by
  induction size : parser.buffer.length using Nat.strongRecOn generalizing parser with
  | _ _ ih =>
    by_cases bullet : '●' ∈ parser.buffer
    · have split := List.takeWhile_append_dropWhile (p := (· ≠ '●')) (l := parser.buffer)
      obtain ⟨rest, isRest⟩ : ∃ rest, parser.buffer.dropWhile (· ≠ '●') = '●' :: rest := by
        cases found : parser.buffer.dropWhile (· ≠ '●') with
        | nil => simpa using List.dropWhile_eq_nil_iff.mp found '●' bullet
        | cons char rest =>
          have stops := List.head?_dropWhile_not (· ≠ '●') parser.buffer
          rw [found] at stops
          exact ⟨rest, by simpa using stops⟩
      have suffix : '●' :: rest <:+ parser.buffer := isRest ▸ List.dropWhile_suffix _
      rw [← heldBack_dropWhile bullet, isRest, heldBack, if_pos rfl]
      by_cases long : 100 ≤ rest.length
      · have turn := parser.turn_long freshId waits markless isRest long
        have behind : rest <:+ parser.buffer := (List.suffix_cons _ _).trans suffix
        have shorter := suffix.length_le
        rw [List.length_cons] at shorter
        obtain ⟨output, last, run, whole, held, waiting⟩ := @ih rest.length (by omega)
          { parser with state := .text, buffer := rest } (.inl rfl)
          (markless.of_infix behind.isInfix) rfl
        refine ⟨parser.buffer.takeWhile (· ≠ '●') ++ ['●'] ++ output, last, ?_, ?_, ?_, waiting⟩
        · rw [feedLoop, dif_pos (by rw [turn]), turn, run]
          rfl
        · calc parser.buffer.takeWhile (· ≠ '●') ++ ['●'] ++ output ++ last.buffer
              = parser.buffer.takeWhile (· ≠ '●') ++ '●' :: rest := by simp [whole]
            _ = parser.buffer := by rw [← isRest, split]
        · rw [if_pos long, held]
      · have turn := parser.turn_short freshId waits markless isRest long
        refine ⟨parser.buffer.takeWhile (· ≠ '●'),
          { parser with state := .matchingFunction, buffer := '●' :: rest }, ?_, ?_, ?_, .inr ⟨rfl, rfl⟩⟩
        · rw [feedLoop, dif_neg (by rw [turn]; simp), turn]
        · rw [← isRest, split]
        · rw [if_neg long]
    · have isText : parser.state = .text := by
        refine waits.resolve_right fun matching => bullet ?_
        exact List.mem_of_head? matching.2
      obtain ⟨output, turn, whole⟩ := parser.turn_end freshId isText bullet
      refine ⟨output, { parser with buffer := tokenTail parser.buffer }, ?_, whole, ?_, .inl isText⟩
      · rw [feedLoop, dif_neg (by rw [turn]; simp), turn]
      · rw [heldBack_of_notMem bullet]

variable (isAlnum : Char → Bool) (runtime : Runtime)

/-- **A fragment of a text without marks**, where no call is read: all that is not held back is given
out. -/
theorem feed_markless {text : String} (waits : parser.Waits)
    (markless : Markless (parser.buffer ++ text.toList))
    {result : String × List HeuristicTool × HeuristicToolParser}
    (fed : parser.feed freshId isAlnum runtime text = .ok result)
    (uncalled : webCalled isAlnum runtime (parser.buffer ++ text.toList) = false) :
    result.2.1 = [] ∧ result.1.toList ++ result.2.2.buffer = parser.buffer ++ text.toList ∧
      result.2.2.buffer = heldBack (parser.buffer ++ text.toList) ∧ result.2.2.Waits := by
  unfold feed extractWebToolJsonCalls at fed
  rw [markless.stripControlTokens_eq] at fed
  dsimp only at fed
  split at fed
  · exact nomatch fed
  · rename_i called extracted isExtracted
    split at isExtracted
    · exact nomatch isExtracted
    · rename_i tools ids ran
      obtain ⟨rfl, rfl⟩ := Prod.mk.inj (Except.ok.inj isExtracted)
      obtain rfl := (webToolsFrom_eq_nil_iff ran).mpr uncalled
      have waiting : ({ parser with ids, buffer := parser.buffer ++ text.toList } :
          HeuristicToolParser).Waits := by
        refine waits.imp_right fun matching => ⟨matching.1, ?_⟩
        rw [List.head?_append, matching.2]
        rfl
      obtain ⟨output, last, loop, whole, held, waitsLast⟩ := feedLoop_markless freshId waiting markless
      rw [if_pos rfl, loop] at fed
      rw [← Except.ok.inj fed]
      refine ⟨rfl, ?_, held, waitsLast⟩
      rw [String.toList_ofList]
      exact whole

/-- **A fragment that a call is read from** is dropped. -/
theorem feed_called {text : String} (waits : parser.Waits)
    (markless : Markless (parser.buffer ++ text.toList))
    (atHead : (parser.buffer ++ text.toList).head?.map foldCase = some 'w')
    {result : String × List HeuristicTool × HeuristicToolParser}
    (fed : parser.feed freshId isAlnum runtime text = .ok result)
    (called : webCalled isAlnum runtime (parser.buffer ++ text.toList) = true) :
    result.1 = "" ∧ result.2.2.buffer = [] ∧ result.2.2.Waits := by
  have isText : parser.state = .text := by
    refine waits.resolve_right fun matching => ?_
    rw [List.head?_append, matching.2, Option.some_or] at atHead
    exact absurd atHead (by decide)
  unfold feed extractWebToolJsonCalls at fed
  rw [markless.stripControlTokens_eq] at fed
  dsimp only at fed
  split at fed
  · exact nomatch fed
  · rename_i calls extracted isExtracted
    split at isExtracted
    · exact nomatch isExtracted
    · rename_i tools ids ran
      obtain ⟨rfl, rfl⟩ := Prod.mk.inj (Except.ok.inj isExtracted)
      have some_ : tools ≠ [] := by
        intro none_
        have uncalled := (webToolsFrom_eq_nil_iff ran).mp none_
        exact absurd (called.symm.trans uncalled) Bool.false_ne_true.symm
      obtain ⟨output, turned, whole⟩ := @turn_end freshId
        { parser with ids, buffer := [] } isText List.not_mem_nil
      have nothing : output = [] := (List.append_eq_nil_iff.mp whole).1
      have empty : tokenTail [] = [] := rfl
      rw [if_neg some_, feedLoop, dif_neg (by rw [turned]; simp), turned] at fed
      rw [← Except.ok.inj fed, nothing]
      exact ⟨rfl, empty, .inl isText⟩

end Feed

end HeuristicToolParser

/-! ### What the think-tag parser holds back -/

/-- The text may be the beginning of a tag. -/
def startsTag (text : List Char) : Bool :=
  [openTag, closeTag].any fun tag => isPartOf tag text

/-- The beginning of a tag at the end of a text. -/
def partialEnd : List Char → List Char
  | [] => []
  | char :: rest => if startsTag (char :: rest) then char :: rest else partialEnd rest

/-- The text in front of it. -/
def settled (text : List Char) : List Char := text.take (text.length - (partialEnd text).length)

theorem partialEnd_suffix (text : List Char) : partialEnd text <:+ text := by
  induction text with
  | nil => exact List.suffix_rfl
  | cons char rest ih =>
    rw [partialEnd]
    split_ifs
    · exact List.suffix_rfl
    · exact ih.trans (List.suffix_cons _ _)

theorem settled_append (text : List Char) : settled text ++ partialEnd text = text := by
  obtain ⟨front, whole⟩ := partialEnd_suffix text
  have size := congrArg List.length whole
  rw [List.length_append] at size
  have isFront : settled text = front := by
    rw [settled, show text.length - (partialEnd text).length = front.length by omega]
    conv_lhs => rw [← whole]
    exact List.take_left
  rw [isFront, whole]

/-- A beginning of a tag, cut short. -/
theorem startsTag_of_front {text front : List Char} (starts : startsTag text = true)
    (isFront : front <+: text) : startsTag front = true := by
  obtain ⟨tag, isTag, isPart⟩ := List.any_eq_true.mp starts
  refine List.any_eq_true.mpr ⟨tag, isTag, ?_⟩
  rw [isPartOf, Bool.and_eq_true, decide_eq_true_eq, decide_eq_true_eq] at isPart ⊢
  exact ⟨isFront.length_le.trans_lt isPart.1, isFront.trans isPart.2⟩

/-- **More text behind what is held** gives what more text behind the whole gives. -/
theorem partialEnd_append (text more : List Char) :
    partialEnd (partialEnd text ++ more) = partialEnd (text ++ more) := by
  induction text with
  | nil => rfl
  | cons char rest ih =>
    rw [partialEnd]
    split_ifs with starts
    · rfl
    · have longer : ¬ startsTag (char :: (rest ++ more)) = true := fun whole =>
        starts (startsTag_of_front whole (List.prefix_append _ _))
      rw [ih, List.cons_append, partialEnd, if_neg longer]

theorem partialEnd_partialEnd (text : List Char) : partialEnd (partialEnd text) = partialEnd text := by
  have same := partialEnd_append text []
  rwa [List.append_nil, List.append_nil] at same

/-- A beginning of a tag has its only bracket at its head. -/
theorem startsTag_bracket {char : Char} {rest : List Char} (starts : startsTag (char :: rest) = true) :
    char = '<' ∧ '<' ∉ rest := by
  obtain ⟨tag, isTag, isPart⟩ := List.any_eq_true.mp starts
  obtain ⟨behind, isBracket, only⟩ := @tag_bracket false tag isTag
  rw [isPartOf, Bool.and_eq_true, decide_eq_true_eq, decide_eq_true_eq, isBracket,
    List.cons_prefix_cons] at isPart
  exact ⟨isPart.2.1, fun member => only (isPart.2.2.subset member)⟩

namespace ThinkTagParser

/-- The last bracket is where a tag may begin. -/
theorem partialEnd_eq (text : List Char) :
    partialEnd text = ((partialTag text [openTag, closeTag]).map text.drop).getD [] := by
  induction text with
  | nil => rfl
  | cons char rest ih =>
    rw [partialEnd, ih]
    unfold partialTag
    rw [Py.rfind?]
    cases found : Py.rfind? ['<'] rest with
    | some last =>
      have bracket : '<' ∈ rest := by
        obtain ⟨occurs, -⟩ := Py.rfind?_eq_some found
        exact List.mem_of_mem_drop (occurs.subset List.mem_cons_self)
      have notHere : ¬ startsTag (char :: rest) = true := fun starts =>
        (startsTag_bracket starts).2 bracket
      rw [if_neg notHere, Option.filter_some, Option.filter_some]
      simp only [List.drop_succ_cons]
      split_ifs <;> rfl
    | none =>
      rw [Option.filter_none]
      split_ifs with starts here
      · rw [Option.filter_some]
        unfold startsTag at starts
        simp [starts]
      · exact absurd (by simp [(startsTag_bracket starts).1]) here
      · rw [Option.filter_some]
        unfold startsTag at starts
        simp [starts]
      · rfl

/-- A text without tags: all but the beginning of one is emitted. -/
theorem parse_untagged {buffer : List Char} (openFree : ¬ openTag <:+: buffer)
    (closeFree : ¬ closeTag <:+: buffer) :
    parse ⟨buffer, false⟩ = (chunkOf .text (settled buffer), ⟨partialEnd buffer, false⟩) := by
  have nowhere : ∀ {tag : List Char}, ¬ tag <:+: buffer → Py.find? tag buffer = none := by
    intro tag free
    cases found : Py.find? tag buffer with
    | none => rfl
    | some position =>
      obtain ⟨occurs, -⟩ := Py.find?_eq_some found
      exact absurd (occurs.isInfix.trans (List.drop_suffix _ _).isInfix) free
  have whole := settled_append buffer
  have last := partialEnd_eq buffer
  rw [parse, if_neg Bool.false_ne_true, parseOutsideThink]
  simp only [nowhere openFree, nowhere closeFree]
  rw [emit]
  cases found : partialTag buffer [openTag, closeTag] with
  | none =>
    rw [found] at last
    change partialEnd buffer = [] at last
    rw [last, List.append_nil] at whole
    rw [last, whole]
  | some position =>
    rw [found] at last
    change partialEnd buffer = buffer.drop position at last
    have front : buffer.take position = settled buffer := by
      rw [last] at whole
      exact List.append_cancel_right ((List.take_append_drop _ _).trans whole.symm)
    rw [last, ← front]

/-- **A fragment of a text without tags**: all but the beginning of one is emitted as text. -/
theorem feed_untagged {buffer : List Char} {content : String}
    (openFree : ¬ openTag <:+: buffer ++ content.toList)
    (closeFree : ¬ closeTag <:+: buffer ++ content.toList) :
    feed ⟨buffer, false⟩ content =
      ((chunkOf .text (settled (buffer ++ content.toList))).toList,
        ⟨partialEnd (buffer ++ content.toList), false⟩) := by
  rw [feed]
  dsimp only
  generalize buffer ++ content.toList = text at *
  have stays : ∀ {text : List Char}, ¬ openTag <:+: text → ¬ closeTag <:+: text →
      partialEnd text = text → feedLoop ⟨text, false⟩ = ([], ⟨text, false⟩) := by
    intro text openFree closeFree held
    have none : settled text = [] := by
      have whole := settled_append text
      rw [held] at whole
      exact List.append_left_eq_self.mp whole
    have turn := parse_untagged openFree closeFree
    rw [held, none] at turn
    rw [feedLoop]
    split_ifs with empty stuck
    · rfl
    · rw [turn]
    · exact absurd ⟨by rw [turn]; rfl, by rw [turn]⟩ stuck
  by_cases held : partialEnd text = text
  · have none : settled text = [] := by
      have whole := settled_append text
      rw [held] at whole
      exact List.append_left_eq_self.mp whole
    rw [stays openFree closeFree held, held, none]
    rfl
  · have turn := parse_untagged openFree closeFree
    have some : text ≠ [] := fun empty => held (by rw [empty]; rfl)
    have visible : settled text ≠ [] := fun none => held (by
      have whole := settled_append text
      rwa [none, List.nil_append] at whole)
    have goesOn : ¬ ((parse ⟨text, false⟩).1 = none ∧
        (parse ⟨text, false⟩).2.buffer.length = text.length) := by
      rw [turn, chunkOf, if_neg visible]
      simp
    have tail := (partialEnd_suffix text).isInfix
    rw [feedLoop, dif_neg some, dif_neg goesOn, turn,
      stays (fun inside => openFree (inside.trans tail)) (fun inside => closeFree (inside.trans tail))
        (partialEnd_partialEnd text)]
    simp

end ThinkTagParser

/-! ### What both parsers have kept -/

/-- What the parsers have kept of a text that comes in pieces: the beginning of a tag, and the text that
the heuristic parser looked at last; and whether a call was taken out of it. -/
structure TextReading where
  pending : List Char := []
  looked : List Char := []
  called : Bool := false

/-- What the heuristic parser keeps. -/
def TextReading.kept (reading : TextReading) : List Char := heldBack reading.looked

/-- The next piece: what the think-tag parser gives of it comes behind what is kept. -/
def TextReading.next (isAlnum : Char → Bool) (runtime : Runtime) (reading : TextReading)
    (content : String) : TextReading :=
  let given := settled (reading.pending ++ content.toList)
  let pending := partialEnd (reading.pending ++ content.toList)
  let looked := reading.kept ++ given
  if given = [] then { reading with pending }
  else if HeuristicToolParser.webCalled isAlnum runtime looked then { pending, called := true }
  else { reading with pending, looked }

/-- All the pieces of a text. -/
def TextReading.ofPieces (isAlnum : Char → Bool) (runtime : Runtime) (contents : List String) :
    TextReading :=
  contents.foldl (TextReading.next isAlnum runtime) {}

end ClaudeProxy
