/-
**What the patterns of the heuristic parser find in a part of a text** (`core/anthropic/tools.py`).

The parser looks for its patterns in what has arrived, so each of them is asked what it finds in the
first part of a text, and what in the whole.

* **`Tokenless.stripControlTokens_append`** — nothing is removed where no control token begins;
  `stripControlTokens_token`.
* `namedTag?_append`, `functionStart?_append`, `parameterStart?_append` — a first match stays the first
  match, whatever comes behind it.
* `Closed`, `Incomplete` — the first parameter with its end tag, and none.
-/

import ClaudeProxy.Parsers.HeuristicTool

namespace ClaudeProxy

/-! ### Control tokens -/

section ControlTokens

variable {text token front rest part more : List Char} {length : Nat}

/-- **A control token**, taken apart. -/
theorem controlToken?_eq_some (found : controlToken? text = some length) :
    ∃ name behind, text = '<' :: '|' :: (name ++ '|' :: '>' :: behind) ∧
      (∀ char ∈ name, (char ≠ '|' && char ≠ '>') = true) ∧ 1 ≤ name.length ∧ name.length ≤ 80 ∧
      length = name.length + 4 := by
  unfold controlToken? at found
  split at found
  · rename_i rest
    dsimp only at found
    split_ifs at found with complete
    obtain ⟨visible, short, behind, closes⟩ := complete
    set name := rest.takeWhile fun char => char ≠ '|' && char ≠ '>' with isName
    refine ⟨name, behind, ?_, fun char member => ?_, visible, short, (Option.some.inj found).symm⟩
    · conv_lhs => rw [← List.take_append_drop name.length rest, ← closes]
      rw [← List.prefix_iff_eq_take.mp (List.takeWhile_prefix _)]
      rfl
    · exact List.mem_takeWhile_imp (p := fun char => char ≠ '|' && char ≠ '>') member
  · cases found

theorem controlToken?_append {text : List Char} (more : List Char) {length : Nat}
    (found : controlToken? text = some length) : controlToken? (text ++ more) = some length := by
  obtain ⟨name, behind, rfl, plain, visible, short, rfl⟩ := controlToken?_eq_some found
  have same : (name ++ '|' :: '>' :: behind ++ more).takeWhile
      (fun char => char ≠ '|' && char ≠ '>') = name := by
    rw [List.append_assoc, List.takeWhile_append_of_pos plain]
    simp
  have closes : "|>".toList <+: (name ++ '|' :: '>' :: behind ++ more).drop name.length := by
    rw [List.append_assoc, List.drop_left]
    exact ⟨behind ++ more, rfl⟩
  rw [List.cons_append, List.cons_append, controlToken?, same, if_pos ⟨visible, short, closes⟩]

/-- No control token begins in the first part. -/
def Tokenless (front rest : List Char) : Prop :=
  ∀ suffix, suffix <:+ front → suffix ≠ [] → controlToken? (suffix ++ rest) = none

instance (front rest : List Char) : Decidable (Tokenless front rest) :=
  decidable_of_iff (∀ suffix ∈ front.tails, suffix ≠ [] → controlToken? (suffix ++ rest) = none)
    ⟨fun checked suffix isSuffix => checked suffix ((List.mem_tails _ _).mpr isSuffix),
      fun tokenless suffix isTail => tokenless suffix ((List.mem_tails _ _).mp isTail)⟩

namespace Tokenless

theorem of_append (tokenless : Tokenless (front ++ more) rest) : Tokenless front (more ++ rest) := by
  intro suffix isSuffix visible
  rw [← List.append_assoc]
  refine tokenless _ ?_ (by simp [visible])
  obtain ⟨before, rfl⟩ := isSuffix
  exact ⟨before, by simp⟩

theorem of_suffix (tokenless : Tokenless front rest) (isSuffix : part <:+ front) :
    Tokenless part rest :=
  fun suffix inPart => tokenless suffix (inPart.trans isSuffix)

/-- Neither with less behind it. -/
theorem of_part (tokenless : Tokenless front (part ++ more)) : Tokenless front part := by
  intro suffix isSuffix visible
  cases found : controlToken? (suffix ++ part) with
  | none => rfl
  | some length =>
    have whole := controlToken?_append more found
    rw [List.append_assoc, tokenless suffix isSuffix visible] at whole
    cases whole

/-- In the first part by itself. -/
theorem of_front (tokenless : Tokenless front rest) : Tokenless front [] :=
  @of_part front [] rest tokenless

end Tokenless

theorem stripFrom_subset (skip : Nat) (text : List Char) : stripFrom skip text ⊆ text := by
  induction text generalizing skip with
  | nil => exact List.nil_subset _
  | cons char text ih =>
    cases skip with
    | succ skip => exact List.Subset.trans (ih skip) (List.subset_cons_self _ _)
    | zero =>
      rw [stripFrom]
      split
      · exact List.Subset.trans (ih _) (List.subset_cons_self _ _)
      · exact List.cons_subset_cons char (ih 0)

theorem stripFrom_append (text rest : List Char) :
    stripFrom text.length (text ++ rest) = stripFrom 0 rest := by
  induction text with
  | nil => rfl
  | cons char text ih => exact ih

/-- A control token is removed. -/
theorem stripControlTokens_token (isToken : controlToken? token = some token.length)
    (rest : List Char) : stripControlTokens (token ++ rest) = stripControlTokens rest := by
  have whole := controlToken?_append rest isToken
  cases token with
  | nil => cases isToken
  | cons char token =>
    rw [stripControlTokens, List.cons_append, stripFrom, ← List.cons_append, whole]
    exact stripFrom_append token rest

/-- **Where no control token begins**, nothing is removed. -/
theorem Tokenless.stripControlTokens_append (tokenless : Tokenless front rest) :
    stripControlTokens (front ++ rest) = front ++ stripControlTokens rest := by
  induction front with
  | nil => rfl
  | cons char front ih =>
    have notHere := tokenless _ List.suffix_rfl (List.cons_ne_nil char front)
    rw [stripControlTokens, List.cons_append, stripFrom, ← List.cons_append, notHere]
    exact congrArg (char :: ·) (ih (tokenless.of_suffix (List.suffix_cons char front)))

theorem Tokenless.stripControlTokens_eq (tokenless : Tokenless text []) : stripControlTokens text = text := by
  have same := tokenless.stripControlTokens_append
  rwa [List.append_nil, show stripControlTokens [] = [] from rfl, List.append_nil] at same

/-- A control token has its only `>` at its end. -/
theorem notMem_of_token (isToken : controlToken? token = some token.length)
    (split : token = front ++ rest) (cut : rest ≠ []) : '>' ∉ front := by
  obtain ⟨name, behind, whole, plain, -, -, size⟩ := controlToken?_eq_some isToken
  have last : behind = [] := by
    have sizes := congrArg List.length whole
    simp only [List.length_cons, List.length_append] at sizes
    exact List.eq_nil_of_length_eq_zero (by omega)
  subst last
  intro member
  have shorter : front <+: '<' :: '|' :: (name ++ ['|']) := by
    have begins : '<' :: '|' :: (name ++ ['|']) <+: token := by
      rw [whole]
      exact ⟨['>'], by simp⟩
    refine List.prefix_of_prefix_length_le ⟨rest, split.symm⟩ begins ?_
    have sizes := congrArg List.length (split.symm.trans whole)
    have some_rest := List.length_pos_iff.mpr cut
    simp only [List.length_cons, List.length_append, List.length_nil] at sizes ⊢
    omega
  have inName : '>' ∈ name := by simpa using shorter.subset member
  have notThere := plain '>' inName
  cases notThere

/-- **A control token that is cut** does not show. -/
theorem tokenless_of_cut (tokenless : Tokenless front (token ++ rest))
    (isToken : controlToken? token = some token.length) (split : front ++ token = part ++ more)
    (cut : more ≠ []) : Tokenless part [] := by
  rcases List.append_eq_append_iff.mp split with ⟨first, isPart, isTail⟩ | ⟨behind, isFront, -⟩
  · have noEnd := notMem_of_token isToken isTail cut
    intro suffix isSuffix visible
    rw [List.append_nil]
    cases found : controlToken? suffix with
    | none => rfl
    | some length =>
      obtain ⟨name, behind, whole, -⟩ := controlToken?_eq_some found
      rw [isPart] at isSuffix
      rcases List.suffix_or_suffix_of_suffix isSuffix (List.suffix_append front first) with inFirst | longer
      · refine absurd (inFirst.subset ?_) noEnd
        rw [whole]
        simp
      · obtain ⟨begins, rfl⟩ := longer
        cases begins with
        | nil =>
          refine absurd ?_ noEnd
          rw [← List.nil_append first, whole]
          simp
        | cons char begins =>
          obtain ⟨before, isBefore⟩ := isSuffix
          rw [← List.append_assoc] at isBefore
          have inFront : char :: begins <:+ front := ⟨before, List.append_cancel_right isBefore⟩
          have none_ := tokenless _ inFront (List.cons_ne_nil _ _)
          have more_ := controlToken?_append (more ++ rest) found
          rw [isTail, List.append_assoc, ← List.append_assoc] at none_
          rw [none_] at more_
          cases more_
  · rw [isFront] at tokenless
    exact tokenless.of_append.of_front

end ControlTokens

/-! ### Tags -/

section Tags

variable {tag text name rest more before behind : List Char}

/-- **A tag with a name** at the head of a text. -/
theorem namedTag?_eq_some :
    namedTag? tag text = some (name, rest) ↔
      text = tag ++ (name ++ '>' :: rest) ∧ name ≠ [] ∧ '>' ∉ name := by
  unfold namedTag?
  constructor
  · intro found
    split_ifs at found with starts
    obtain ⟨body, rfl⟩ := starts
    rw [List.drop_left] at found
    have split := List.takeWhile_append_dropWhile (p := (· ≠ '>')) (l := body)
    have stops := List.head?_dropWhile_not (· ≠ '>') body
    have within : '>' ∉ body.takeWhile (· ≠ '>') := fun member => by
      simpa using List.mem_takeWhile_imp member
    dsimp only at found
    split at found
    · rename_i isName isRest
      cases found
      rw [isName] at split within
      rw [isRest] at split stops
      refine ⟨?_, List.cons_ne_nil _ _, within⟩
      simp only [decide_not, Bool.not_eq_false', decide_eq_true_eq] at stops
      rw [← split, stops]
    · cases found
  · rintro ⟨rfl, some_name, within⟩
    have plain : ∀ char ∈ name, decide (char ≠ '>') = true := by
      intro char member
      rw [decide_eq_true_eq]
      rintro rfl
      exact within member
    rw [if_pos (List.prefix_append _ _), List.drop_left]
    dsimp only
    rw [List.takeWhile_append_of_pos plain, List.dropWhile_append_of_pos plain,
      List.takeWhile_cons_of_neg (by simp), List.dropWhile_cons_of_neg (by simp), List.append_nil]
    cases name with
    | nil => exact absurd rfl some_name
    | cons char name => rfl

/-- A tag that is found is found with more text behind it, too. -/
theorem namedTag?_append (more : List Char) (found : namedTag? tag text = some (name, rest)) :
    namedTag? tag (text ++ more) = some (name, rest ++ more) := by
  obtain ⟨rfl, visible⟩ := namedTag?_eq_some.mp found
  exact namedTag?_eq_some.mpr ⟨by simp, visible⟩

/-- A text with a `>` settles its tags. -/
theorem namedTag?_of_mem (noTag : '>' ∉ tag) (closes : '>' ∈ text)
    (found : namedTag? tag (text ++ more) = some (name, behind)) :
    ∃ rest, behind = rest ++ more ∧ namedTag? tag text = some (name, rest) := by
  obtain ⟨whole, some_name, within⟩ := namedTag?_eq_some.mp found
  rw [← List.append_assoc] at whole
  have front : '>' ∉ tag ++ name := fun member => (List.mem_append.mp member).elim noTag within
  rcases List.append_eq_append_iff.mp whole with ⟨rest, same, -⟩ | ⟨rest, same, split⟩
  · exact absurd (same ▸ List.mem_append_left rest closes) front
  · cases rest with
    | nil =>
      rw [List.append_nil] at same
      exact absurd (same ▸ closes) front
    | cons char rest =>
      rw [List.cons_append, List.cons.injEq] at split
      refine ⟨rest, split.2, namedTag?_eq_some.mpr ⟨?_, some_name, within⟩⟩
      rw [same, split.1, List.append_assoc]

/-- A tag behind blanks, in a text with more behind it. -/
theorem namedTag?_dropWhile {p : Char → Bool}
    (found : namedTag? tag (text.dropWhile p) = some (name, rest)) (opens : tag ≠ []) :
    namedTag? tag ((text ++ more).dropWhile p) = some (name, rest ++ more) := by
  have visible : ¬ (text.dropWhile p).isEmpty = true := by
    intro empty
    obtain ⟨whole, -⟩ := namedTag?_eq_some.mp found
    rw [List.isEmpty_iff.mp empty] at whole
    exact opens (List.append_eq_nil_iff.mp whole.symm).1
  rw [List.dropWhile_append, if_neg visible]
  exact namedTag?_append more found

end Tags

/-! ### Parameters -/

section Find

variable {part text more : List Char} {position : Nat}

/-- The first occurrence in a text is the first one with more text behind it, too. -/
theorem find?_append (more : List Char) (visible : part ≠ []) (found : Py.find? part text = some position) :
    Py.find? part (text ++ more) = some position := by
  induction text generalizing position with
  | nil =>
    rw [Py.find?, if_neg visible] at found
    cases found
  | cons char rest ih =>
    have occurs := (Py.find?_eq_some found).1.length_le
    rw [Py.find?] at found
    rw [List.cons_append, Py.find?]
    by_cases here : part <+: char :: rest
    · rw [if_pos here] at found
      have still : part <+: char :: (rest ++ more) := here.trans ⟨more, rfl⟩
      rw [if_pos still, found]
    · rw [if_neg here] at found
      have notHere : ¬ part <+: char :: (rest ++ more) := fun there => here
        (List.prefix_of_prefix_length_le there ⟨more, rfl⟩ (by
          rw [List.length_drop] at occurs
          omega))
      obtain ⟨later, isLater, rfl⟩ := Option.map_eq_some_iff.mp found
      rw [if_neg notHere, ih isLater, Option.map_some]

end Find

section Parameters

variable {text name more before behind : List Char}

theorem parameterStart?_cons (char : Char) (text : List Char) :
    parameterStart? (char :: text) =
      ((namedTag? "<parameter=".toList (char :: text)).map fun (name, behind) => ([], name, behind)).or
        ((parameterStart? text).map fun (before, found) => (char :: before, found)) := by
  rw [parameterStart?]
  split
  · rename_i here
    rw [here]
    rfl
  · rename_i here
    rw [here]
    rfl

theorem mem_of_parameterStart? (found : parameterStart? text = some (before, name, behind)) :
    '>' ∈ text := by
  induction text generalizing before with
  | nil => cases found
  | cons char text ih =>
    rw [parameterStart?_cons, Option.or_eq_some_iff] at found
    rcases found with here | ⟨-, later⟩
    · obtain ⟨⟨name, behind⟩, here, -⟩ := Option.map_eq_some_iff.mp here
      rw [(namedTag?_eq_some.mp here).1]
      simp
    · obtain ⟨⟨before, found⟩, later, same⟩ := Option.map_eq_some_iff.mp later
      cases same
      exact List.mem_cons_of_mem _ (ih later)

/-- **The first parameter of a text** is the first one with more text behind it, too. -/
theorem parameterStart?_append (more : List Char)
    (found : parameterStart? text = some (before, name, behind)) :
    parameterStart? (text ++ more) = some (before, name, behind ++ more) := by
  induction text generalizing before with
  | nil => cases found
  | cons char text ih =>
    rw [parameterStart?_cons, Option.or_eq_some_iff] at found
    rw [List.cons_append, parameterStart?_cons, Option.or_eq_some_iff]
    rcases found with here | ⟨notHere, later⟩
    · obtain ⟨⟨_, _⟩, here, same⟩ := Option.map_eq_some_iff.mp here
      cases same
      left
      rw [← List.cons_append, namedTag?_append more here, Option.map_some]
    · obtain ⟨⟨_, _⟩, later, same⟩ := Option.map_eq_some_iff.mp later
      cases same
      refine .inr ⟨?_, by rw [ih later, Option.map_some]⟩
      rw [Option.map_eq_none_iff] at notHere ⊢
      cases whole : namedTag? "<parameter=".toList (char :: (text ++ more)) with
      | none => rfl
      | some found =>
        rw [← List.cons_append] at whole
        obtain ⟨_, -, here⟩ := namedTag?_of_mem (by decide)
          (List.mem_cons_of_mem char (mem_of_parameterStart? later)) whole
        rw [notHere] at here
        cases here

/-- **The first parameter of a text**, with its end tag. -/
structure Closed (text before name value behind : List Char) : Prop where
  starts : parameterStart? text = some (before, name, value ++ (parameterEnd ++ behind))
  ends : Py.find? parameterEnd (value ++ (parameterEnd ++ behind)) = some value.length

/-- What is found is taken for no complete parameter. -/
def Incomplete (text : List Char) : Prop :=
  ∀ found, parameter? text = some found → ¬ parameterEnd <:+: found.whole

theorem parameter?_of_closed {value : List Char} (closed : Closed text before name value behind) :
    parameter? text = some ⟨before, name, value,
      "<parameter=".toList ++ name ++ '>' :: (value ++ parameterEnd), behind⟩ := by
  rw [parameter?, closed.starts, Option.map_some]
  dsimp only
  rw [closed.ends]
  dsimp only
  rw [List.take_left, ← List.append_assoc, ← List.length_append, List.drop_left]

/-- A closed parameter is the first one with more text behind it, too. -/
theorem Closed.append {value : List Char} (closed : Closed text before name value behind)
    (more : List Char) : Closed (text ++ more) before name value (behind ++ more) := by
  have starts := parameterStart?_append more closed.starts
  have ends := find?_append more (by decide) closed.ends
  simp only [List.append_assoc] at starts ends
  exact ⟨starts, ends⟩

/-- The text, taken apart. -/
theorem parameterStart?_split (found : parameterStart? text = some (before, name, behind)) :
    text = before ++ ("<parameter=".toList ++ (name ++ '>' :: behind)) := by
  induction text generalizing before with
  | nil => cases found
  | cons char text ih =>
    rw [parameterStart?_cons, Option.or_eq_some_iff] at found
    rcases found with here | ⟨-, later⟩
    · obtain ⟨⟨_, _⟩, here, same⟩ := Option.map_eq_some_iff.mp here
      cases same
      exact (namedTag?_eq_some.mp here).1
    · obtain ⟨⟨_, _⟩, later, same⟩ := Option.map_eq_some_iff.mp later
      cases same
      exact congrArg (char :: ·) (ih later)

/-- A part that ends in its only such character, in a text around that character. -/
theorem infix_cons_cases {char : Char} {front before behind : List Char} (only : char ∉ front)
    (inside : front ++ [char] <:+: before ++ char :: behind) :
    front ++ [char] <:+: before ++ [char] ∨ front ++ [char] <:+: behind := by
  rw [show before ++ char :: behind = (before ++ [char]) ++ behind by simp] at inside
  rcases List.infix_append_iff_ne_nil.mp inside with
    inFront | inBehind | ⟨left, right, some_left, some_right, split, isSuffix, -⟩
  · exact .inl inFront
  · exact .inr inBehind
  · -- The left part ends in the character, but it is in front of the last one.
    have last := isSuffix.getLast some_left
    rw [List.getLast_append_singleton] at last
    have within : left <+: front := by
      refine List.prefix_of_prefix_length_le ⟨right, split.symm⟩ (List.prefix_append front [char]) ?_
      have size := congrArg List.length split
      have visible := List.length_pos_iff.mpr some_right
      simp only [List.length_append, List.length_singleton] at size
      omega
    exact absurd (within.subset (last ▸ List.getLast_mem some_left)) only

theorem beforeLastNewline_within (text : List Char) : beforeLastNewline text <+: text := by
  unfold beforeLastNewline
  split_ifs
  · exact List.dropLast_prefix text
  · exact List.prefix_rfl

theorem beforeLastNewline_append (text more : List Char) :
    beforeLastNewline text <+: beforeLastNewline (text ++ more) := by
  cases more with
  | nil => rw [List.append_nil]
  | cons char more =>
    refine (beforeLastNewline_within text).trans ?_
    unfold beforeLastNewline
    split_ifs
    · rw [List.dropLast_append_of_ne_nil (List.cons_ne_nil char more)]
      exact List.prefix_append _ _
    · exact List.prefix_append _ _

/-- A match, whether it is closed or not. -/
theorem parameter?_cases {found : ParameterMatch} (matched : parameter? text = some found) :
    (∃ value, Closed text found.before found.name value found.behind) ∨
      ∃ behind, parameterStart? text = some (found.before, found.name, behind) ∧
        Py.find? parameterEnd behind = none ∧
        found.whole = "<parameter=".toList ++ found.name ++ '>' :: beforeLastNewline behind := by
  obtain ⟨⟨before, name, behind⟩, starts, same⟩ := Option.map_eq_some_iff.mp matched
  cases ends : Py.find? parameterEnd behind with
  | none =>
    simp only [ends, List.append_nil] at same
    subst same
    exact .inr ⟨behind, starts, ends, rfl⟩
  | some position =>
    simp only [ends] at same
    subst same
    left
    obtain ⟨rest, occurs⟩ := (Py.find?_eq_some ends).1
    have within : position ≤ behind.length := by
      by_contra outside
      rw [List.drop_eq_nil_of_le (by omega)] at occurs
      exact absurd (List.append_eq_nil_iff.mp occurs).1 (by decide)
    have size : (behind.take position).length = position := by
      rw [List.length_take]
      omega
    have split : behind.take position ++ (parameterEnd ++ rest) = behind := by
      rw [occurs, List.take_append_drop]
    refine ⟨behind.take position, ?_⟩
    dsimp only
    rw [size, ← List.drop_drop, ← occurs, List.drop_left]
    exact ⟨by rw [split]; exact starts, by rw [split, size]; exact ends⟩

/-- **A part of an incomplete text** is incomplete. -/
theorem Incomplete.of_append (incomplete : Incomplete (text ++ more)) : Incomplete text := by
  intro found matched complete
  rcases parameter?_cases matched with ⟨value, closed⟩ | ⟨behind, starts, -, whole⟩
  · refine incomplete _ (parameter?_of_closed (closed.append more)) ⟨?_, [], ?_⟩
    · exact "<parameter=".toList ++ found.name ++ '>' :: value
    · simp
  · have later := parameterStart?_append more starts
    obtain ⟨other, matched'⟩ : ∃ other, parameter? (text ++ more) = some other := by
      rw [parameter?, later]
      exact ⟨_, rfl⟩
    rcases parameter?_cases matched' with ⟨value, closed⟩ | ⟨behind', starts', -, whole'⟩
    · refine incomplete _ (parameter?_of_closed closed) ⟨?_, [], ?_⟩
      · exact "<parameter=".toList ++ other.name ++ '>' :: value
      · simp
    · have same := later.symm.trans starts'
      simp only [Option.some.injEq, Prod.mk.injEq] at same
      refine incomplete other matched' (complete.trans ?_)
      obtain ⟨back, longer⟩ := beforeLastNewline_append behind more
      rw [whole, whole', ← same.2.1, ← same.2.2, ← longer]
      exact ⟨[], back, by simp⟩

/-- Neither is a text in which the end tag is cut, unless the name ends in one. -/
theorem Closed.incomplete_of_append {value : List Char}
    (closed : Closed (text ++ more) before name value behind) (short : behind.length < more.length)
    (plain : ¬ parameterEnd <:+: "<parameter=".toList ++ name ++ ['>']) : Incomplete text := by
  intro found matched complete
  rcases parameter?_cases matched with ⟨other, part⟩ | ⟨left, starts, nowhere, whole⟩
  · have same := (parameter?_of_closed (part.append more)).symm.trans (parameter?_of_closed closed)
    have behindSame := congrArg ParameterMatch.behind (Option.some.inj same)
    dsimp only at behindSame
    rw [← behindSame, List.length_append] at short
    omega
  · have named : found.name = name := by
      have same := (parameterStart?_append more starts).symm.trans closed.starts
      simp only [Option.some.injEq, Prod.mk.injEq] at same
      exact same.2.1
    rw [whole, named] at complete
    rcases @infix_cons_cases '>' "</parameter".toList _ _ (by decide) complete with inName | inValue
    · exact plain inName
    · obtain ⟨front, back, split⟩ := inValue.trans (beforeLastNewline_within left).isInfix
      refine Py.find?_eq_none nowhere front.length ?_
      rw [← split, List.append_assoc, List.drop_left]
      exact List.prefix_append _ _

end Parameters

/-! ### Function calls -/

section FunctionCalls

variable {text name rest more behind : List Char}

theorem mem_dropWhile_isSpace (closes : '>' ∈ text) : '>' ∈ text.dropWhile Py.isSpace := by
  rw [← List.takeWhile_append_dropWhile (p := Py.isSpace) (l := text), List.mem_append] at closes
  refine closes.resolve_left fun blank => ?_
  exact absurd (List.mem_takeWhile_imp blank) (by decide)

/-- What the head of a text that begins with a character says. -/
def callHere? (char : Char) (text : List Char) : Option (List Char × List Char) :=
  if char = '●' then namedTag? "<function=".toList (text.dropWhile Py.isSpace) else none

theorem functionStart?_cons (char : Char) (text : List Char) :
    functionStart? (char :: text) = (callHere? char text).or (functionStart? text) := by
  rw [functionStart?, callHere?]
  split
  · rename_i found here
    rw [here]
    rfl
  · rename_i here
    rw [here]
    rfl

theorem mem_of_functionStart? (found : functionStart? text = some (name, rest)) : '>' ∈ text := by
  induction text with
  | nil => cases found
  | cons char text ih =>
    rw [functionStart?_cons, Option.or_eq_some_iff] at found
    rcases found with here | ⟨-, later⟩
    · unfold callHere? at here
      split_ifs at here
      obtain ⟨whole, -⟩ := namedTag?_eq_some.mp here
      have member : '>' ∈ text.dropWhile Py.isSpace := by
        rw [whole]
        simp
      exact List.mem_cons_of_mem _ ((List.dropWhile_suffix _).subset member)
    · exact List.mem_cons_of_mem _ (ih later)

theorem callHere?_append {char : Char} (more : List Char)
    (found : callHere? char text = some (name, rest)) :
    callHere? char (text ++ more) = some (name, rest ++ more) := by
  unfold callHere? at found ⊢
  split_ifs at found ⊢
  exact namedTag?_dropWhile found (by decide)

/-- **A call that begins in a text** begins there with more behind it, too. -/
theorem functionStart?_append (more : List Char) (found : functionStart? text = some (name, rest)) :
    functionStart? (text ++ more) = some (name, rest ++ more) := by
  induction text with
  | nil => cases found
  | cons char text ih =>
    rw [functionStart?_cons, Option.or_eq_some_iff] at found
    rw [List.cons_append, functionStart?_cons, Option.or_eq_some_iff]
    rcases found with here | ⟨notHere, later⟩
    · exact .inl (callHere?_append more here)
    · refine .inr ⟨?_, ih later⟩
      -- The `>` of the later call would be in the name of an earlier one.
      cases whole : callHere? char (text ++ more) with
      | none => rfl
      | some found =>
        obtain ⟨other, behind⟩ := found
        unfold callHere? at whole notHere
        split_ifs at whole notHere
        have closes := mem_dropWhile_isSpace (mem_of_functionStart? later)
        rw [List.dropWhile_append, if_neg (by
          rw [List.isEmpty_iff]
          exact List.ne_nil_of_mem closes)] at whole
        obtain ⟨left, -, here⟩ := namedTag?_of_mem (by decide) closes whole
        rw [notHere] at here
        cases here

/-- The beginning of a call does not show it. -/
theorem functionStart?_of_short (found : functionStart? (text ++ more) = some (name, rest))
    (short : rest.length < more.length) : functionStart? text = none := by
  cases earlier : functionStart? text with
  | none => rfl
  | some part =>
    rw [functionStart?_append more earlier, Option.some.injEq, Prod.mk.injEq] at found
    rw [← found.2, List.length_append] at short
    omega

end FunctionCalls

end ClaudeProxy
