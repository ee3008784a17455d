/-
**How far the heuristic parser depends on the chunks** (`core/anthropic/tools.py`).

What the parser has given out it does not look at again, so a cut matters where it has less in hand
than it needs. A regular text has no such place.

* `Regular` — the texts that the loop of `feed` reads in the same way however they are cut.
* **`cuts_of_regular`** — one cut: what the first part gives, and the rest behind what is held back.
* **`readAll_chunks`** — `feed` over all chunks and then `flush`: any two ways of cutting a regular text
  without calls of web tools give the same text and the same tools.
-/

import ClaudeProxy.Parsers.FeedLoop

namespace ClaudeProxy

namespace HeuristicToolParser

/-! ### Texts that may be cut anywhere -/

/-- All of the text is held back. -/
def HoldsBack : ParserState → List Char → Prop
  | .text, _ => False
  | .matchingFunction, text => functionStart? text = none ∧ text.length ≤ 100
  | .parsingParameters, text => Incomplete text ∧ '●' ∉ text ∧ ¬ EndsCall text

/-- **A text that may be cut anywhere**, from a state of the parser on. -/
inductive Regular : ParserState → List Char → Prop
  /-- Text up to the end. -/
  | plain {text : List Char} (noBullet : '●' ∉ text) (tokenless : Tokenless text [])
      (released : tokenStart text = 0) : Regular .text text
  /-- Text up to a `●`. -/
  | bullet {front rest : List Char} (noBullet : '●' ∉ front) (tokenless : Tokenless front ('●' :: rest))
      (regular : Regular .matchingFunction ('●' :: rest)) : Regular .text (front ++ '●' :: rest)
  /-- A control token that is complete while all is still held back. -/
  | token {state : ParserState} {before token rest : List Char}
      (isToken : controlToken? token = some token.length)
      (held : ∀ part, part <+: before ++ token → part ≠ before ++ token → HoldsBack state part)
      (tokenless : Tokenless before (token ++ rest)) (stays : Tokenless before rest)
      (regular : Regular state (before ++ rest)) : Regular state (before ++ (token ++ rest))
  /-- All is held back up to the end. -/
  | held {state : ParserState} {text : List Char} (tokenless : Tokenless text [])
      (held : ∀ part, part <+: text → HoldsBack state part) : Regular state text
  /-- A `●` with no call behind it. -/
  | released {front rest : List Char} (long : front.length = 101) (tokenless : Tokenless front rest)
      (noCall : ∀ part, part <+: front ++ rest → functionStart? (stripControlTokens part) = none)
      (regular : Regular .text (front.tail ++ rest)) : Regular .matchingFunction (front ++ rest)
  /-- A call begins. -/
  | call {front rest name : List Char} (found : functionStart? front = some (name, []))
      (held : ∀ part, part <+: front → part ≠ front → HoldsBack .matchingFunction part)
      (tokenless : Tokenless front rest) (regular : Regular .parsingParameters rest) :
      Regular .matchingFunction (front ++ rest)
  /-- A parameter. -/
  | parameter {front gap name value behind : List Char} (closed : Closed front gap name value [])
      (held : ∀ part, part <+: front → part ≠ front → HoldsBack .parsingParameters part)
      (tokenless : Tokenless front behind) (regular : Regular .parsingParameters behind) :
      Regular .parsingParameters (front ++ behind)
  /-- The call ends at the next `●`, at the latest. -/
  | next {front rest : List Char}
      (incomplete : ∀ part, part <+: rest → Incomplete (front ++ '●' :: stripControlTokens part))
      (noBullet : '●' ∉ front) (tokenless : Tokenless front ('●' :: rest))
      (regular : Regular .matchingFunction ('●' :: rest)) :
      Regular .parsingParameters (front ++ '●' :: rest)
  /-- The call ends at its first character that is no parameter. -/
  | ends {text : List Char} (incomplete : Incomplete text) (noBullet : '●' ∉ text)
      (ends : EndsCall text) (tokenless : Tokenless text []) (released : tokenStart text.tail = 0) :
      Regular .parsingParameters text

section

variable (isAlnum : Char → Bool) (runtime : Runtime)

/-- What looks like a call of a web tool in the text is none. -/
def CallsNoTool (text : List Char) : Prop :=
  ∀ call ∈ webToolCalls isAlnum none 0 text,
    ∃ answer, runtime.loadsOrNone (String.ofList call.2) = .ok answer ∧
      ∀ toolInput, answer = some (.obj toolInput) → acceptsInput (String.ofList call.1) toolInput = false

/-- **No part of the text calls a web tool**, control tokens apart. -/
def CallFree (text : List Char) : Prop :=
  ∀ part, part <:+: text → CallsNoTool isAlnum runtime (stripControlTokens part)

/-- **A cut**: what the first part gives, then the rest behind what was held back. -/
def Cuts (freshId : Nat → String) (parser : HeuristicToolParser) (first second : List Char) : Prop :=
  ∃ output tools next, parser.on freshId (stripControlTokens first) = (output, tools, next) ∧
    Regular next.state (next.buffer ++ second) ∧
    (CallFree isAlnum runtime (first ++ second) → CallFree isAlnum runtime (next.buffer ++ second)) ∧
    parser.on freshId (stripControlTokens (first ++ second)) =
      preceded output tools (next.on freshId (stripControlTokens (next.buffer ++ second)))

end

section Cut

variable {isAlnum : Char → Bool} {runtime : Runtime} {freshId : Nat → String}
  {parser : HeuristicToolParser} {text part first second : List Char}

theorem CallFree.of_infix (callFree : CallFree isAlnum runtime text) (isPart : part <:+: text) :
    CallFree isAlnum runtime part :=
  fun inner isInner => callFree inner (isInner.trans isPart)

/-- Without a control token, whose removal makes no other one. -/
theorem CallFree.of_token {before token rest : List Char}
    (callFree : CallFree isAlnum runtime (before ++ (token ++ rest)))
    (isToken : controlToken? token = some token.length) (tokenless : Tokenless before (token ++ rest))
    (stays : Tokenless before rest) : CallFree isAlnum runtime (before ++ rest) := by
  intro part inside
  rcases List.infix_append_iff.mp inside with inBefore | inRest | ⟨front, behind, rfl, isSuffix, isPrefix⟩
  · exact callFree part (inBefore.trans List.infix_append_left)
  · exact callFree part (inRest.trans ((List.suffix_append token rest).trans (List.suffix_append before _)).isInfix)
  · obtain ⟨right, rfl⟩ := isPrefix
    have same : stripControlTokens (front ++ (token ++ behind)) = stripControlTokens (front ++ behind) := by
      have inFront := tokenless.of_suffix isSuffix
      rw [← List.append_assoc] at inFront
      rw [inFront.of_part.stripControlTokens_append, stripControlTokens_token isToken,
        (stays.of_suffix isSuffix).of_part.stripControlTokens_append]
    rw [← same]
    obtain ⟨left, rfl⟩ := isSuffix
    exact callFree _ ⟨left, right, by simp⟩

theorem on_held (held : HoldsBack parser.state text) :
    parser.on freshId text = ([], [], { parser with buffer := text }) := by
  unfold HoldsBack at held
  split at held
  · exact held.elim
  · rename_i isMatching
    exact on_short isMatching held.1 held.2
  · rename_i isParsing
    exact on_waits isParsing held.1 held.2.1 held.2.2

/-- All is held back. -/
theorem Cuts.wait (regular : Regular parser.state (first ++ second)) (tokenless : Tokenless first [])
    (held : HoldsBack parser.state first) : Cuts isAlnum runtime freshId parser first second := by
  refine ⟨[], [], { parser with buffer := first }, ?_, regular, id, rfl⟩
  rw [tokenless.stripControlTokens_eq]
  exact on_held held

/-- Some of the first part is passed in the same way. -/
theorem Cuts.after {later : HeuristicToolParser} {rest : List Char} (output : List Char)
    (tools : List HeuristicTool) (cuts : Cuts isAlnum runtime freshId later rest second) (isRest : rest <:+ first)
    (part : parser.on freshId (stripControlTokens first) =
      preceded output tools (later.on freshId (stripControlTokens rest)))
    (whole : parser.on freshId (stripControlTokens (first ++ second)) =
      preceded output tools (later.on freshId (stripControlTokens (rest ++ second)))) :
    Cuts isAlnum runtime freshId parser first second := by
  obtain ⟨more, others, next, run, regular, free, same⟩ := cuts
  refine ⟨output ++ more, tools ++ others, next, ?_, regular, fun callFree => free ?_, ?_⟩
  · rw [part, run]
    rfl
  · obtain ⟨front, rfl⟩ := isRest
    exact callFree.of_infix ⟨front, [], by simp⟩
  · rw [whole, same, preceded_preceded]

/-- A first part without control tokens is passed. -/
theorem Cuts.pass {later : HeuristicToolParser} {front : List Char} (output : List Char)
    (tools : List HeuristicTool) (tokenless : Tokenless front (part ++ second))
    (cuts : Cuts isAlnum runtime freshId later part second)
    (passPart : parser.on freshId (front ++ stripControlTokens part) =
      preceded output tools (later.on freshId (stripControlTokens part)))
    (passWhole : parser.on freshId (front ++ stripControlTokens (part ++ second)) =
      preceded output tools (later.on freshId (stripControlTokens (part ++ second)))) :
    Cuts isAlnum runtime freshId parser (front ++ part) second := by
  refine Cuts.after output tools cuts (List.suffix_append _ _) ?_ ?_
  · rw [tokenless.of_part.stripControlTokens_append]
    exact passPart
  · rw [List.append_assoc, tokenless.stripControlTokens_append]
    exact passWhole

theorem stripControlTokens_bullet (text : List Char) :
    stripControlTokens ('●' :: text) = '●' :: stripControlTokens text := rfl

theorem on_released (isText : parser.state = .text) (noBullet : '●' ∉ text)
    (released : tokenStart text = 0) :
    parser.on freshId text = (text, [], { parser with buffer := [] }) := by
  obtain ⟨output, run, whole⟩ := @on_plain freshId parser text isText noBullet
  rw [(tokenTail_eq_nil_iff text).mpr released] at run whole
  rw [run, ← whole, List.append_nil]

/-- A text without its first character. -/
theorem tokenStart_tail {char : Char} {rest : List Char} (released : tokenStart (char :: rest) = 0) :
    tokenStart rest = 0 := by
  unfold tokenStart at released ⊢
  rw [Py.rfind?] at released
  cases found : Py.rfind? "<|".toList rest with
  | none => rfl
  | some start =>
    rw [found] at released
    simp only [List.drop_succ_cons] at released
    dsimp only
    split_ifs at released ⊢ with unfinished
    rfl

theorem tokenStart_of_suffix {suffix : List Char} (released : tokenStart text = 0)
    (isSuffix : suffix <:+ text) : tokenStart suffix = 0 := by
  induction text with
  | nil => rwa [List.suffix_nil.mp isSuffix]
  | cons char rest ih =>
    rcases List.suffix_cons_iff.mp isSuffix with rfl | behind
    · exact released
    · exact ih (tokenStart_tail released) behind

theorem tokenTail_append_suffix (text more : List Char) : tokenTail text ++ more <:+ text ++ more := by
  obtain ⟨passed, isPassed⟩ := tokenTail_suffix text
  exact ⟨passed, by rw [← List.append_assoc, isPassed]⟩

/-- A text with a `●`, cut in front of it. -/
theorem Cuts.front (isText : parser.state = .text) {more rest : List Char} (noBullet : '●' ∉ first ++ more)
    (tokenless : Tokenless (first ++ more) ('●' :: rest)) (regular : Regular .matchingFunction ('●' :: rest)) :
    Cuts isAlnum runtime freshId parser first (more ++ '●' :: rest) := by
  have noFirst : '●' ∉ first := fun member => noBullet (List.mem_append_left more member)
  have isSuffix := tokenTail_append_suffix first more
  obtain ⟨output, run, whole⟩ := @on_plain freshId parser first isText noFirst
  have noHeld : '●' ∉ tokenTail first ++ more := fun member => noBullet (isSuffix.subset member)
  have tokenlessHeld := tokenless.of_suffix isSuffix
  refine ⟨output, [], { parser with buffer := tokenTail first }, ?_, ?_, ?_, ?_⟩
  · rw [tokenless.of_append.of_front.stripControlTokens_eq]
    exact run
  · dsimp only
    rw [isText, ← List.append_assoc]
    exact .bullet noHeld tokenlessHeld regular
  · exact fun callFree => callFree.of_infix (tokenTail_append_suffix first _).isInfix
  · rw [← List.append_assoc, tokenless.stripControlTokens_append, stripControlTokens_bullet,
      on_bullet isText noBullet, ← List.append_assoc, tokenlessHeld.stripControlTokens_append,
      stripControlTokens_bullet]
    refine Eq.trans ?_ (congrArg (preceded output []) (@on_bullet freshId parser isText _ _ noHeld)).symm
    rw [preceded_preceded, ← List.append_assoc, whole]
    rfl

/-- The part of a text in front of its first `●` is cut, or what is from there on. -/
theorem bullet_cases {front rest : List Char} (split : front ++ '●' :: rest = first ++ second) :
    (∃ more, second = more ++ '●' :: rest ∧ front = first ++ more) ∨
      ∃ part, first = front ++ '●' :: part ∧ rest = part ++ second := by
  rcases List.append_eq_append_iff.mp split with ⟨part, isFirst, isSecond⟩ | ⟨more, isFront, isSecond⟩
  · cases part with
    | nil => exact .inl ⟨[], isSecond.symm, by rw [isFirst, List.append_nil, List.append_nil]⟩
    | cons char part =>
      rw [List.cons_append, List.cons.injEq] at isSecond
      exact .inr ⟨part, by rw [isFirst, ← isSecond.1], isSecond.2⟩
  · exact .inl ⟨more, isSecond, isFront⟩

/-- The first part of a text is cut, or what is behind it. -/
theorem front_cases {front rest : List Char} (split : front ++ rest = first ++ second) :
    (∃ more, more ≠ [] ∧ second = more ++ rest ∧ front = first ++ more) ∨
      ∃ part, first = front ++ part ∧ rest = part ++ second := by
  rcases List.append_eq_append_iff.mp split with ⟨part, isFirst, isRest⟩ | ⟨more, isFront, isSecond⟩
  · exact .inr ⟨part, isFirst, isRest⟩
  · cases more with
    | nil =>
      refine .inr ⟨[], ?_, isSecond.symm⟩
      rw [List.append_nil, isFront, List.append_nil]
    | cons char more => exact .inl ⟨char :: more, List.cons_ne_nil _ _, isSecond, isFront⟩

/-- A proper part at the beginning. -/
theorem ne_of_cut {front more : List Char} (split : front = first ++ more) (visible : more ≠ []) :
    first ≠ front := fun same => visible (List.append_right_eq_self.mp (split.symm.trans same.symm))

/-- **A regular text may be cut anywhere.** -/
theorem cuts_of_regular {state : ParserState} {text : List Char} (regular : Regular state text) :
    ∀ {parser : HeuristicToolParser} {first second : List Char}, parser.state = state →
      text = first ++ second → Cuts isAlnum runtime freshId parser first second := by
  induction regular with
  | @plain text noBullet tokenless released =>
    intro parser first second isText split
    subst split
    have noFirst : '●' ∉ first := fun member => noBullet (List.mem_append_left second member)
    obtain ⟨output, run, whole⟩ := @on_plain freshId parser first isText noFirst
    have isSuffix := tokenTail_append_suffix first second
    have noHeld : '●' ∉ tokenTail first ++ second := fun member => noBullet (isSuffix.subset member)
    have stillReleased := tokenStart_of_suffix released isSuffix
    have tokenlessHeld := tokenless.of_suffix isSuffix
    refine ⟨output, [], { parser with buffer := tokenTail first }, ?_, ?_,
      fun callFree => callFree.of_infix isSuffix.isInfix, ?_⟩
    · rw [tokenless.of_append.of_front.stripControlTokens_eq]
      exact run
    · dsimp only
      rw [isText]
      exact .plain noHeld tokenlessHeld stillReleased
    · rw [tokenless.stripControlTokens_eq, tokenlessHeld.stripControlTokens_eq,
        on_released isText noBullet released]
      refine Eq.trans ?_
        (congrArg (preceded output []) (@on_released freshId parser _ isText noHeld stillReleased)).symm
      rw [preceded, ← List.append_assoc, whole]
      rfl
  | @bullet front rest noBullet tokenless regular ih =>
    intro parser first second isText split
    rcases bullet_cases split with ⟨more, rfl, rfl⟩ | ⟨part, rfl, rfl⟩
    · exact Cuts.front isText noBullet tokenless regular
    · have later := @ih { parser with state := .matchingFunction } ('●' :: part) second rfl rfl
      exact Cuts.pass front [] tokenless later (on_bullet isText noBullet) (on_bullet isText noBullet)
  | @token state before token rest isToken held tokenless stays regular ih =>
    intro parser first second isState split
    rw [← List.append_assoc] at split
    rcases front_cases split with ⟨more, visible, rfl, isFront⟩ | ⟨part, rfl, rfl⟩
    · have isPart : first <+: before ++ token := ⟨more, isFront.symm⟩
      refine Cuts.wait ?_ (tokenless_of_cut tokenless isToken isFront visible) ?_
      · rw [isState, ← split, List.append_assoc]
        exact .token isToken held tokenless stays regular
      · rw [isState]
        exact held first isPart (ne_of_cut isFront visible)
    · obtain ⟨output, tools, next, run, regular, free, whole⟩ :=
        @ih parser (before ++ part) second isState (List.append_assoc _ _ _).symm
      have removed : ∀ {more : List Char}, Tokenless before (token ++ more) → Tokenless before more →
          stripControlTokens (before ++ token ++ more) = stripControlTokens (before ++ more) := by
        intro more tokenless stays
        rw [List.append_assoc, tokenless.stripControlTokens_append, stays.stripControlTokens_append,
          stripControlTokens_token isToken]
      refine ⟨output, tools, next, ?_, regular, fun callFree => free ?_, ?_⟩
      · rw [← List.append_assoc] at tokenless
        rw [removed tokenless.of_part stays.of_part]
        exact run
      · rw [List.append_assoc, List.append_assoc] at callFree
        rw [List.append_assoc]
        exact callFree.of_token isToken tokenless stays
      · rw [List.append_assoc _ part, removed tokenless stays, ← List.append_assoc]
        exact whole
  | @held state text tokenless held =>
    intro parser first second isState split
    subst split
    refine Cuts.wait ?_ tokenless.of_append.of_front ?_
    · rw [isState]
      exact .held tokenless held
    · rw [isState]
      exact held first (List.prefix_append _ _)
  | @released front rest long tokenless noCall regular ih =>
    intro parser first second isMatching split
    have isFirst := noCall first ⟨second, split.symm⟩
    rcases front_cases split with ⟨more, visible, rfl, rfl⟩ | ⟨part, rfl, rfl⟩
    · rw [tokenless.of_append.of_front.stripControlTokens_eq] at isFirst
      refine Cuts.wait ?_ tokenless.of_append.of_front ?_
      · rw [isMatching, ← split]
        exact .released long tokenless noCall regular
      · rw [isMatching]
        have some_more := List.length_pos_iff.mpr visible
        rw [List.length_append] at long
        exact ⟨isFirst, by omega⟩
    · obtain ⟨char, front, rfl⟩ := List.exists_cons_of_length_pos (by rw [long]; decide : 0 < front.length)
      have later := @ih { parser with state := .text } (front ++ part) second rfl
        (List.append_assoc _ _ _).symm
      have released : ∀ {more : List Char}, Tokenless (char :: front) more →
          functionStart? (stripControlTokens (char :: front ++ more)) = none →
            parser.on freshId (stripControlTokens (char :: front ++ more)) = preceded [char] []
              (on freshId { parser with state := .text } (stripControlTokens (front ++ more))) := by
        intro more tokenless noCall
        have behind := tokenless.of_suffix (List.suffix_cons char front)
        rw [tokenless.stripControlTokens_append] at noCall ⊢
        rw [behind.stripControlTokens_append]
        refine on_release isMatching noCall ?_
        rw [List.length_append]
        omega
      refine Cuts.after [char] [] later (List.suffix_cons _ _) (released tokenless.of_part isFirst) ?_
      rw [List.append_assoc (char :: front), List.append_assoc front]
      exact released tokenless (noCall _ List.prefix_rfl)
  | @call front rest name found held tokenless regular ih =>
    intro parser first second isMatching split
    rcases front_cases split with ⟨more, visible, rfl, isFront⟩ | ⟨part, rfl, rfl⟩
    · refine Cuts.wait ?_ (isFront ▸ tokenless).of_append.of_front ?_
      · rw [isMatching, ← split]
        exact .call found held tokenless regular
      · rw [isMatching]
        exact held first ⟨more, isFront.symm⟩ (ne_of_cut isFront visible)
    · have later := @ih (parser.begun freshId name) part second rfl rfl
      exact Cuts.pass [] [] tokenless later (on_call isMatching (functionStart?_append _ found))
        (on_call isMatching (functionStart?_append _ found))
  | @parameter front gap name value behind closed held tokenless regular ih =>
    intro parser first second isParsing split
    rcases front_cases split with ⟨more, visible, rfl, isFront⟩ | ⟨part, rfl, rfl⟩
    · refine Cuts.wait ?_ (isFront ▸ tokenless).of_append.of_front ?_
      · rw [isParsing, ← split]
        exact .parameter closed held tokenless regular
      · rw [isParsing]
        exact held first ⟨more, isFront.symm⟩ (ne_of_cut isFront visible)
    · have later := @ih (parser.given name value) part second isParsing rfl
      exact Cuts.pass gap [] tokenless later (on_parameter isParsing (closed.append _))
        (on_parameter isParsing (closed.append _))
  | @next front rest incomplete noBullet tokenless regular ih =>
    intro parser first second isParsing split
    rcases bullet_cases split with ⟨more, rfl, rfl⟩ | ⟨part, rfl, rfl⟩
    · have noFirst : '●' ∉ first := fun member => noBullet (List.mem_append_left more member)
      have isFirst : Incomplete first := by
        have shown := incomplete [] List.nil_prefix
        rw [List.append_assoc] at shown
        exact shown.of_append
      by_cases ends : EndsCall first
      · have noMore : '●' ∉ more := fun member => noBullet (List.mem_append_right first member)
        have tokenlessMore := tokenless.of_suffix (List.suffix_append first more)
        refine ⟨first, [parser.currentTool], { parser with state := .text, buffer := [] }, ?_,
          .bullet noMore tokenlessMore regular,
          fun callFree => callFree.of_infix (List.suffix_append _ _).isInfix, ?_⟩
        · rw [tokenless.of_append.of_front.stripControlTokens_eq]
          exact on_ends isParsing isFirst noFirst ends
        · rw [← List.append_assoc, tokenless.stripControlTokens_append, stripControlTokens_bullet,
            on_next isParsing (incomplete rest List.prefix_rfl) noBullet, List.nil_append,
            tokenlessMore.stripControlTokens_append, stripControlTokens_bullet]
          refine Eq.trans ?_ (congrArg (preceded first [parser.currentTool])
            (@on_bullet freshId { parser with state := .text, buffer := [] } rfl more _ noMore)).symm
          rw [preceded_preceded]
          rfl
      · refine Cuts.wait ?_ tokenless.of_append.of_front ?_
        · rw [isParsing, ← split]
          exact .next incomplete noBullet tokenless regular
        · rw [isParsing]
          exact ⟨isFirst, noFirst, ends⟩
    · have later := @ih { parser with state := .matchingFunction } ('●' :: part) second rfl rfl
      exact Cuts.pass front [parser.currentTool] tokenless later
        (on_next isParsing (incomplete part (List.prefix_append _ _)) noBullet)
        (on_next isParsing (incomplete _ List.prefix_rfl) noBullet)
  | @ends text incomplete noBullet ends tokenless released =>
    intro parser first second isParsing split
    subst split
    have noFirst : '●' ∉ first := fun member => noBullet (List.mem_append_left second member)
    have noSecond : '●' ∉ second := fun member => noBullet (List.mem_append_right first member)
    have tokenlessFirst := tokenless.of_append.of_front
    cases first with
    | nil =>
      refine Cuts.wait ?_ tokenlessFirst ?_
      · rw [isParsing]
        exact .ends incomplete noBullet ends tokenless released
      · rw [isParsing]
        exact ⟨incomplete.of_append, noFirst, fun ends => ends.1 rfl⟩
    | cons char first =>
      have isSuffix : second <:+ first ++ second := List.suffix_append first second
      have stillReleased := tokenStart_of_suffix released isSuffix
      have tokenlessSecond := tokenless.of_suffix (List.suffix_append (char :: first) second)
      have endsFirst : EndsCall (char :: first) := by
        refine ⟨List.cons_ne_nil _ _, fun tag => ends.2.1 ?_,
          fun inside => ends.2.2 (inside.trans List.infix_append_left)⟩
        have visible : ¬ ((char :: first).dropWhile Py.isSpace).isEmpty = true := by
          intro empty
          rw [List.isEmpty_iff.mp empty] at tag
          cases tag
        rw [List.dropWhile_append, if_neg visible, List.head?_append, tag]
        rfl
      refine ⟨char :: first, [parser.currentTool], { parser with state := .text, buffer := [] }, ?_,
        .plain noSecond tokenlessSecond stillReleased,
        fun callFree => callFree.of_infix (List.suffix_append _ _).isInfix, ?_⟩
      · rw [tokenlessFirst.stripControlTokens_eq]
        exact on_ends isParsing incomplete.of_append noFirst endsFirst
      · rw [tokenless.stripControlTokens_eq, List.nil_append, tokenlessSecond.stripControlTokens_eq,
          on_ends isParsing incomplete noBullet ends]
        exact (congrArg (preceded (char :: first) [parser.currentTool])
          (@on_released freshId { parser with state := .text, buffer := [] } second rfl noSecond
            stillReleased)).symm

end Cut

/-! ### What is held back -/

section Held

variable {text front gap name value : List Char}

theorem not_endsCall (opens : ∀ char, text.head? = some char → char = '<') : ¬ EndsCall text := by
  rintro ⟨visible, noTag, -⟩
  cases text with
  | nil => exact visible rfl
  | cons char text =>
    obtain rfl := opens char rfl
    exact noTag rfl

/-- **The tag of a call** that is not too long. -/
theorem holdsBack_of_call (found : functionStart? front = some (name, [])) (near : front.length ≤ 101)
    (part : List Char) (isPart : part <+: front) (proper : part ≠ front) :
    HoldsBack .matchingFunction part := by
  obtain ⟨more, rfl⟩ := isPart
  have some_more : 0 < more.length := by
    refine List.length_pos_iff.mpr ?_
    rintro rfl
    exact proper (List.append_nil part).symm
  refine ⟨functionStart?_of_short found some_more, ?_⟩
  rw [List.length_append] at near
  omega

/-- **A parameter** behind nothing or something like a tag, with no `●` in it. -/
theorem holdsBack_of_parameter (closed : Closed front gap name value [])
    (plainName : ¬ parameterEnd <:+: "<parameter=".toList ++ name ++ ['>'])
    (noBullet : '●' ∉ gap ++ name ++ value) (opens : ∀ char, gap.head? = some char → char = '<')
    (part : List Char) (isPart : part <+: front) (proper : part ≠ front) :
    HoldsBack .parsingParameters part := by
  have whole := parameterStart?_split closed.starts
  have noFront : '●' ∉ front := by
    intro member
    have noTag : '●' ∉ "<parameter=".toList := by decide
    have noEnd : '●' ∉ parameterEnd := by decide
    rw [whole] at member
    simp only [List.mem_append, List.mem_cons, not_or, List.append_nil] at member noBullet
    rcases member with inGap | inTag | inName | isClose | inValue | inEnd
    · exact noBullet.1.1 inGap
    · exact noTag inTag
    · exact noBullet.1.2 inName
    · exact absurd isClose (by decide)
    · exact noBullet.2 inValue
    · exact noEnd inEnd
  obtain ⟨more, rfl⟩ := isPart
  have some_more : 0 < more.length := by
    refine List.length_pos_iff.mpr ?_
    rintro rfl
    exact proper (List.append_nil part).symm
  refine ⟨closed.incomplete_of_append some_more plainName,
    fun member => noFront (List.mem_append_left more member), not_endsCall fun char head => ?_⟩
  have begins : (part ++ more).head? = some char := by
    rw [List.head?_append, head]
    rfl
  rw [whole] at begins
  cases gap with
  | nil =>
    cases begins
    rfl
  | cons other gap => exact opens char begins

end Held

/-! ### Reading a text in chunks -/

section Reading

variable (freshId : Nat → String) (isAlnum : Char → Bool) (runtime : Runtime)

/-- All chunks are fed. -/
def feedAll (parser : HeuristicToolParser) :
    List String → Except PyError (String × List HeuristicTool × HeuristicToolParser)
  | [] => .ok ("", [], parser)
  | chunk :: chunks =>
    match parser.feed freshId isAlnum runtime chunk with
    | .error error => .error error
    | .ok (output, tools, next) =>
      match feedAll next chunks with
      | .error error => .error error
      | .ok (more, others, last) => .ok (output ++ more, tools ++ others, last)

/-- All chunks are fed, and the parser is flushed: the filtered text, and the names and the inputs of
the tools. -/
def readAll (chunks : List String) :
    Except PyError (String × List (String × List (String × Json))) :=
  match feedAll freshId isAlnum runtime {} chunks with
  | .error error => .error error
  | .ok (output, tools, last) =>
    .ok (output, (tools ++ last.flush.1).map fun tool => (tool.name, tool.input))

/-- **A text that is read in the same way however it is cut.** -/
structure Cuttable (text : List Char) : Prop where
  regular : Regular .text text
  callFree : CallFree isAlnum runtime text

variable {freshId isAlnum runtime} {parser : HeuristicToolParser}

theorem webToolsFrom_eq {ids : Nat} {calls : List (List Char × List Char)}
    (refused : ∀ call ∈ calls, ∃ answer, runtime.loadsOrNone (String.ofList call.2) = .ok answer ∧
      ∀ toolInput, answer = some (.obj toolInput) →
        acceptsInput (String.ofList call.1) toolInput = false) :
    webToolsFrom freshId runtime ids calls = .ok ([], ids) := by
  induction calls with
  | nil => rfl
  | cons call calls ih =>
    obtain ⟨answer, answers, refuses⟩ := refused call List.mem_cons_self
    have rest := ih fun call member => refused call (List.mem_cons_of_mem _ member)
    unfold webToolsFrom
    rw [answers]
    split
    · rename_i raised
      cases raised
    · rename_i toolInput isInput
      rw [if_neg (by rw [refuses toolInput (Except.ok.inj isInput)]; exact Bool.false_ne_true), rest]
    · exact rest

/-- A chunk without calls of web tools is what the loop does with it. -/
theorem feed_eq {chunk : String} {output : List Char} {tools : List HeuristicTool}
    {next : HeuristicToolParser}
    (free : CallsNoTool isAlnum runtime (stripControlTokens (parser.buffer ++ chunk.toList)))
    (run : parser.on freshId (stripControlTokens (parser.buffer ++ chunk.toList)) =
      (output, tools, next)) :
    parser.feed freshId isAlnum runtime chunk = .ok (String.ofList output, tools, next) := by
  have run : feedLoop freshId
      { parser with buffer := stripControlTokens (parser.buffer ++ chunk.toList) } =
        (output, tools, next) := run
  simp only [feed, extractWebToolJsonCalls, webToolsFrom_eq free, if_true, run, List.nil_append]

/-- **Chunks of a regular text** are read as the text in one. -/
theorem feedAll_of_regular {chunks : List String} (visible : chunks ≠ [])
    (regular : Regular parser.state (parser.buffer ++ (String.join chunks).toList))
    (callFree : CallFree isAlnum runtime (parser.buffer ++ (String.join chunks).toList)) :
    ∃ output tools last, parser.feedAll freshId isAlnum runtime chunks =
        .ok (String.ofList output, tools, last) ∧
      parser.on freshId (stripControlTokens (parser.buffer ++ (String.join chunks).toList)) =
        (output, tools, last) := by
  induction chunks generalizing parser with
  | nil => exact absurd rfl visible
  | cons chunk chunks ih =>
    have split : parser.buffer ++ (String.join (chunk :: chunks)).toList =
        parser.buffer ++ chunk.toList ++ (String.join chunks).toList := by
      simp [String.toList_join]
    rw [split] at regular callFree ⊢
    have free := callFree _ List.infix_append_left
    obtain ⟨output, tools, next, run, later, free', whole⟩ :=
      @cuts_of_regular isAlnum runtime freshId _ _ regular parser _ _ rfl rfl
    rw [feedAll, feed_eq free run]
    dsimp only
    cases chunks with
    | nil =>
      refine ⟨output, tools, next, ?_, ?_⟩
      · rw [feedAll]
        simp
      · simpa using run
    | cons other chunks =>
      obtain ⟨more, others, last, rest, isRest⟩ := ih (List.cons_ne_nil _ _) later (free' callFree)
      refine ⟨output ++ more, tools ++ others, last, ?_, ?_⟩
      · rw [rest]
        simp
      · rw [whole, isRest]
        rfl

theorem readAll_eq {text : String} (cuttable : Cuttable isAlnum runtime text.toList)
    {chunks : List String} (joined : String.join chunks = text) {output : List Char}
    {tools : List HeuristicTool} {last : HeuristicToolParser}
    (run : on freshId {} (stripControlTokens text.toList) = (output, tools, last)) :
    readAll freshId isAlnum runtime chunks =
      .ok (String.ofList output, (tools ++ last.flush.1).map fun tool => (tool.name, tool.input)) := by
  subst joined
  cases chunks with
  | nil =>
    obtain ⟨rest, stays, whole⟩ := @on_plain freshId {} [] rfl List.not_mem_nil
    obtain ⟨rfl, -⟩ := List.append_eq_nil_iff.mp whole
    cases stays.symm.trans run
    rfl
  | cons chunk chunks =>
    obtain ⟨output', tools', last', fed, isRun⟩ := @feedAll_of_regular freshId isAlnum runtime {}
      (chunk :: chunks) (List.cons_ne_nil _ _) cuttable.regular cuttable.callFree
    cases isRun.symm.trans run
    rw [readAll, fed]

/-- **A regular text without calls of web tools** is read in the same way however it is cut. -/
theorem readAll_chunks {text : String} (cuttable : Cuttable isAlnum runtime text.toList)
    {chunks others : List String} (first : String.join chunks = text) (second : String.join others = text) :
    ∃ reading, readAll freshId isAlnum runtime chunks = .ok reading ∧
      readAll freshId isAlnum runtime others = .ok reading := by
  rcases run : on freshId {} (stripControlTokens text.toList) with ⟨output, tools, last⟩
  exact ⟨_, readAll_eq cuttable first run, readAll_eq cuttable second run⟩

/-! ### A token in a parameter -/

/-- Without a name of a web tool there is no call of one. -/
theorem webToolCalls_eq_nil {text : List Char} (isAlnum : Char → Bool) (previous : Option Char)
    (nameless : ∀ suffix, suffix <:+ text → webTool? suffix = none) :
    webToolCalls isAlnum previous 0 text = [] := by
  induction text generalizing previous with
  | nil => rfl
  | cons char text ih =>
    have none_here : webToolCall? isAlnum previous (char :: text) = none := by
      rw [webToolCall?, nameless _ List.suffix_rfl]
    rw [webToolCalls, none_here]
    exact ih _ fun suffix isSuffix => nameless suffix (isSuffix.trans (List.suffix_cons char text))

/-- A text without the letter that both names begin with. -/
theorem callFree_of_letterless {text : List Char} (letterless : ∀ char ∈ text, foldCase char ≠ 'w') :
    CallFree isAlnum runtime text := by
  intro part inside call member
  have within : stripControlTokens part ⊆ text :=
    List.Subset.trans (stripFrom_subset 0 part) inside.subset
  rw [webToolCalls_eq_nil isAlnum none] at member
  · cases member
  · intro suffix isSuffix
    have noLetter : 'w' ∉ suffix.map foldCase := by
      intro inSuffix
      obtain ⟨char, inChar, folded⟩ := List.mem_map.mp inSuffix
      exact letterless char (within (isSuffix.subset inChar)) folded
    rw [webTool?, if_neg fun fetch => noLetter (fetch.subset (by decide)),
      if_neg fun search => noLetter (search.subset (by decide))]

/-- No text is decoded. -/
def undecodingRuntime : Runtime where
  loads _ := .error (.jsonDecodeError "Expecting value")
  dumps _ := ""
  checkSchema _ _ := .valid

/-- A text that opens with `<` and has no complete parameter. -/
theorem holdsBack_of_opens {text : List Char} (incomplete : Incomplete text) (noBullet : '●' ∉ text)
    (opens : ∀ char, text.head? = some char → char = '<') (part : List Char) (isPart : part <+: text) :
    HoldsBack .parsingParameters part := by
  obtain ⟨more, rfl⟩ := isPart
  refine ⟨incomplete.of_append, fun member => noBullet (List.mem_append_left more member),
    not_endsCall fun char head => opens char ?_⟩
  rw [List.head?_append, head]
  rfl

/-- A call whose parameter has a control token, and text behind it. -/
theorem cuttable_token : Cuttable Char.isAlphanum undecodingRuntime
    "● <function=F><parameter=a>1<|x|></parameter>\nOk".toList := by
  have ends : Regular .parsingParameters "\nOk".toList :=
    .ends (fun _ matched => nomatch matched) (by decide) (by decide) (by decide) (by decide)
  have parameter : Regular .parsingParameters ("<parameter=a>1</parameter>".toList ++ "\nOk".toList) := by
    have closed : Closed "<parameter=a>1</parameter>".toList [] "a".toList "1".toList [] :=
      ⟨by decide, by decide⟩
    exact .parameter closed (holdsBack_of_parameter closed (by decide) (by decide) (by simp)) (by decide) ends
  have incomplete : Incomplete "<parameter=a>1<|x|>".toList := by
    intro found matched
    cases matched
    decide
  have opens (char : Char) (head : "<parameter=a>1<|x|>".toList.head? = some char) : char = '<' :=
    (Option.some.inj head).symm
  have token : Regular .parsingParameters
      ("<parameter=a>1".toList ++ ("<|x|>".toList ++ "</parameter>\nOk".toList)) :=
    .token (by decide) (fun part isPart _ => holdsBack_of_opens incomplete (by decide) opens part isPart)
      (by decide) (by decide) parameter
  have call : Regular .matchingFunction ("● <function=F>".toList ++
      ("<parameter=a>1".toList ++ ("<|x|>".toList ++ "</parameter>\nOk".toList))) :=
    .call rfl (holdsBack_of_call rfl (by decide)) (by decide) token
  exact ⟨@Regular.bullet [] _ List.not_mem_nil (by decide) call,
    callFree_of_letterless (List.forall_iff_forall_mem.mp (by decide))⟩

theorem readAll_token : ∃ reading,
    readAll (fun _ => "") Char.isAlphanum undecodingRuntime
      ["● <function=F><parameter=a>1<|x|></parameter>\nOk"] = .ok reading ∧
    readAll (fun _ => "") Char.isAlphanum undecodingRuntime
      ["● <func", "tion=F><parameter=a>1<", "|x|></para", "meter>\nOk"] = .ok reading :=
  readAll_chunks cuttable_token rfl rfl

end Reading

end HeuristicToolParser

end ClaudeProxy
