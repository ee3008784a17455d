/-
**The text of a JSON value** (`json.dumps` with its default separators and `ensure_ascii`).

* `escapeChar`, `unescape` — a character in a string literal, and its reading back.
* `dumps` — the text of a value; `sortKeys` — the value with the members of its objects in the order
  of their names, which is what `sort_keys=True` prints.
* `isPrintable` — every float carries a literal that `float.__repr__` can print.
* **`dumps_inj`** — the text determines the value, whatever follows it, as long as that does not go on
  like a number.
-/

import ClaudeProxy.Json
import Mathlib.Data.List.Sort
import Mathlib.Tactic.IntervalCases

namespace ClaudeProxy

namespace Json

/-! ### String literals -/

/-- The letter behind the backslash, where `ESCAPE_DCT` has a short form. -/
def shortEscape? (char : Char) : Option Char :=
  if char = '"' then some '"'
  else if char = '\\' then some '\\'
  else if char = '\n' then some 'n'
  else if char = '\r' then some 'r'
  else if char = '\t' then some 't'
  else if char = '\x0c' then some 'f'
  else if char = '\x08' then some 'b'
  else none

/-- A UTF-16 code unit as a `u` escape. -/
def hexUnit (unit : Nat) : List Char :=
  ['\\', 'u', (unit / 4096).digitChar, (unit / 256 % 16).digitChar, (unit / 16 % 16).digitChar,
    (unit % 16).digitChar]

/-- A character in a string literal; behind the basic plane it is a surrogate pair. -/
def escapeChar (char : Char) : List Char :=
  match shortEscape? char with
  | some letter => ['\\', letter]
  | none =>
    if 0x20 ≤ char.toNat ∧ char.toNat ≤ 0x7e then [char]
    else if char.toNat < 0x10000 then hexUnit char.toNat
    else
      hexUnit (0xd800 + (char.toNat - 0x10000) / 0x400) ++
        hexUnit (0xdc00 + (char.toNat - 0x10000) % 0x400)

/-- The character behind a short escape. -/
def longEscape? (letter : Char) : Option Char :=
  if letter = '"' then some '"'
  else if letter = '\\' then some '\\'
  else if letter = 'n' then some '\n'
  else if letter = 'r' then some '\r'
  else if letter = 't' then some '\t'
  else if letter = 'f' then some '\x0c'
  else if letter = 'b' then some '\x08'
  else none

/-- The value of a hexadecimal digit. -/
def digitValue (digit : Char) : Nat :=
  (List.range 16).findIdx fun value => value.digitChar = digit

/-- Reads a `u` escape. -/
def readUnit : List Char → Option (Nat × List Char)
  | '\\' :: 'u' :: first :: second :: third :: fourth :: rest =>
    some (digitValue first * 4096 + digitValue second * 256 + digitValue third * 16 +
      digitValue fourth, rest)
  | _ => none

/-- Reads one character of a string literal. -/
def unescape (chars : List Char) : Option (Char × List Char) :=
  match readUnit chars with
  | some (unit, rest) =>
    if 0xd800 ≤ unit ∧ unit < 0xdc00 then
      (readUnit rest).map fun (low, rest) =>
        (Char.ofNat (0x10000 + (unit - 0xd800) * 0x400 + (low - 0xdc00)), rest)
    else some (Char.ofNat unit, rest)
  | none =>
    match chars with
    | '\\' :: letter :: rest => (longEscape? letter).map (·, rest)
    | char :: rest => some (char, rest)
    | [] => none

theorem digitValue_digitChar {value : Nat} (small : value < 16) :
    digitValue value.digitChar = value := by
  interval_cases value <;> decide

theorem readUnit_hexUnit {unit : Nat} (small : unit < 0x10000) (rest : List Char) :
    readUnit (hexUnit unit ++ rest) = some (unit, rest) := by
  rw [hexUnit, List.cons_append, List.cons_append, List.cons_append, List.cons_append,
    List.cons_append, List.cons_append, List.nil_append, readUnit,
    digitValue_digitChar (by omega), digitValue_digitChar (by omega),
    digitValue_digitChar (by omega), digitValue_digitChar (by omega)]
  congr 2
  omega

theorem longEscape?_shortEscape? {char letter : Char} (short : shortEscape? char = some letter) :
    longEscape? letter = some char ∧ letter ≠ 'u' := by
  unfold shortEscape? at short
  split_ifs at short with h₁ h₂ h₃ h₄ h₅ h₆ h₇
  all_goals
    subst_vars
    obtain rfl := Option.some.inj short
    decide

theorem ne_backslash_of_shortEscape? {char : Char} (plain : shortEscape? char = none) :
    char ≠ '\\' := by
  rintro rfl
  exact absurd plain (by decide)

theorem readUnit_of_ne {char : Char} (plain : char ≠ '\\') (rest : List Char) :
    readUnit (char :: rest) = none := by
  unfold readUnit
  split
  · rename_i same
    exact absurd (List.cons.inj same).1 plain
  · rfl

/-- **Reading back** what was escaped. -/
theorem unescape_escapeChar (char : Char) (rest : List Char) :
    unescape (escapeChar char ++ rest) = some (char, rest) := by
  unfold escapeChar
  split
  · rename_i letter short
    obtain ⟨long, notUnit⟩ := longEscape?_shortEscape? short
    have noUnit : readUnit ('\\' :: letter :: rest) = none := by
      unfold readUnit
      split
      · rename_i same
        exact absurd (List.cons.inj (List.cons.inj same).2).1 notUnit
      · rfl
    rw [List.cons_append, List.singleton_append, unescape, noUnit]
    simp only [long, Option.map_some]
  · rename_i plain
    have scalar := char.valid
    split
    · have different := ne_backslash_of_shortEscape? plain
      rw [List.singleton_append, unescape, readUnit_of_ne different]
      exact fun _ _ same _ => absurd same different
    · have valid : char.toNat < 0xd800 ∨ 0xdfff < char.toNat ∧ char.toNat < 0x110000 := char.valid
      split
      · rename_i basic
        unfold unescape
        rw [readUnit_hexUnit basic]
        simp only [Char.ofNat_toNat]
        rw [if_neg (by omega)]
      · unfold unescape
        rw [List.append_assoc, readUnit_hexUnit (by omega)]
        simp only
        rw [if_pos (by omega), readUnit_hexUnit (by omega), Option.map_some]
        have whole : 0x10000 + (0xd800 + (char.toNat - 0x10000) / 0x400 - 0xd800) * 0x400 +
            (0xdc00 + (char.toNat - 0x10000) % 0x400 - 0xdc00) = char.toNat := by omega
        rw [whole, Char.ofNat_toNat]

theorem escapeChar_inj {char other : Char} {rest rest' : List Char}
    (same : escapeChar char ++ rest = escapeChar other ++ rest') : char = other ∧ rest = rest' := by
  have read := unescape_escapeChar char rest
  rw [same, unescape_escapeChar] at read
  exact ⟨(Prod.mk.inj (Option.some.inj read)).1.symm, (Prod.mk.inj (Option.some.inj read)).2.symm⟩

/-- An escaped character does not begin with the closing quote. -/
theorem escapeChar_ne_quote (char : Char) (rest rest' : List Char) :
    escapeChar char ++ rest ≠ '"' :: rest' := by
  intro same
  unfold escapeChar at same
  split at same
  · exact absurd (List.cons.inj same).1 (by decide)
  · rename_i plain
    split_ifs at same
    · obtain rfl := (List.cons.inj same).1
      exact absurd plain (by decide)
    · exact absurd (List.cons.inj same).1 (by decide)
    · exact absurd (List.cons.inj same).1 (by decide)

/-- A string literal. -/
def dumpsString (text : String) : List Char := '"' :: (text.toList.flatMap escapeChar ++ ['"'])

theorem escaped_inj {chars chars' rest rest' : List Char}
    (same : chars.flatMap escapeChar ++ '"' :: rest = chars'.flatMap escapeChar ++ '"' :: rest') :
    chars = chars' ∧ rest = rest' := by
  induction chars generalizing chars' with
  | nil =>
    cases chars' with
    | nil => exact ⟨rfl, (List.cons.inj same).2⟩
    | cons char chars' =>
      rw [List.flatMap_cons, List.append_assoc] at same
      exact absurd same.symm (escapeChar_ne_quote _ _ _)
  | cons char chars ih =>
    rw [List.flatMap_cons, List.append_assoc] at same
    cases chars' with
    | nil => exact absurd same (escapeChar_ne_quote _ _ _)
    | cons other chars' =>
      rw [List.flatMap_cons, List.append_assoc] at same
      obtain ⟨rfl, sameTail⟩ := escapeChar_inj same
      obtain ⟨rfl, sameRest⟩ := ih sameTail
      exact ⟨rfl, sameRest⟩

/-- **A string literal determines its text**, whatever follows it. -/
theorem dumpsString_inj {text text' : String} {rest rest' : List Char}
    (same : dumpsString text ++ rest = dumpsString text' ++ rest') : text = text' ∧ rest = rest' := by
  rw [dumpsString, dumpsString, List.cons_append, List.cons_append, List.append_assoc,
    List.append_assoc, List.singleton_append, List.singleton_append] at same
  obtain ⟨sameChars, sameRest⟩ := escaped_inj (List.cons.inj same).2
  exact ⟨String.toList_inj.mp sameChars, sameRest⟩

/-! ### Numbers -/

/-- The characters of a number, `NaN` and `Infinity` included. -/
def isNumberChar (char : Char) : Bool :=
  char.isDigit || "+-.eNaInfity".toList.contains char

/-- The characters a number begins with. -/
def isNumberLead (char : Char) : Bool := char.isDigit || "-NI".toList.contains char

/-- A literal that `float.__repr__` prints: made of number characters, and no integer. -/
def isFloatLiteral (literal : List Char) : Bool :=
  (literal.head?.any isNumberLead) && literal.all isNumberChar &&
    literal.any fun char => !(char.isDigit || char = '-')

/-- The text of an integer. -/
def dumpsInt : Int → List Char
  | .ofNat value => Nat.toDigits 10 value
  | .negSucc value => '-' :: Nat.toDigits 10 (value + 1)

/-- What follows does not go on like a number. -/
def Ends (rest : List Char) : Prop := ∀ char ∈ rest.head?, isNumberChar char = false

theorem isDigit_of_mem_digits {value : Nat} {char : Char} (member : char ∈ Nat.toDigits 10 value) :
    char.isDigit = true :=
  Nat.isDigit_of_mem_toDigits (by omega) (by omega) member

theorem digits_inj {value value' : Nat} (same : Nat.toDigits 10 value = Nat.toDigits 10 value') :
    value = value' := by
  rw [← @Nat.ofDigitChars_ten_toDigits value, same, Nat.ofDigitChars_ten_toDigits]

theorem mem_dumpsInt {value : Int} {char : Char} (member : char ∈ dumpsInt value) :
    char.isDigit = true ∨ char = '-' := by
  cases value with
  | ofNat value => exact Or.inl (isDigit_of_mem_digits member)
  | negSucc value =>
    rcases List.mem_cons.mp member with rfl | member
    · exact Or.inr rfl
    · exact Or.inl (isDigit_of_mem_digits member)

theorem dumpsInt_inj {value value' : Int} (same : dumpsInt value = dumpsInt value') :
    value = value' := by
  have noSign : ∀ value rest, Nat.toDigits 10 value ≠ '-' :: rest := by
    intro value rest same
    have digit := @isDigit_of_mem_digits value '-' (same ▸ List.mem_cons_self)
    exact absurd digit (by decide)
  cases value with
  | ofNat value =>
    cases value' with
    | ofNat value' => rw [digits_inj same]
    | negSucc value' => exact absurd same (noSign _ _)
  | negSucc value =>
    cases value' with
    | ofNat value' => exact absurd same.symm (noSign _ _)
    | negSucc value' =>
      have same := digits_inj (List.cons.inj same).2
      rw [Nat.succ.inj same]

/-- Two number texts with no number going on behind them. -/
theorem number_inj {text text' rest rest' : List Char} (number : ∀ char ∈ text, isNumberChar char)
    (number' : ∀ char ∈ text', isNumberChar char) (ends : Ends rest) (ends' : Ends rest')
    (same : text ++ rest = text' ++ rest') : text = text' ∧ rest = rest' := by
  have token : ∀ {text rest : List Char}, (∀ char ∈ text, isNumberChar char) → Ends rest →
      (text ++ rest).takeWhile isNumberChar = text := by
    intro text rest number ends
    rw [List.takeWhile_append_of_pos number]
    cases rest with
    | nil => rw [List.takeWhile_nil, List.append_nil]
    | cons char rest =>
      rw [List.takeWhile_cons_of_neg, List.append_nil]
      rw [ends char rfl]
      exact Bool.false_ne_true
  have sameText : text = text' := by rw [← token number ends, same, token number' ends']
  subst sameText
  exact ⟨rfl, List.append_cancel_left same⟩

/-! ### Values -/

mutual

/-- The text of a value. -/
def dumps : Json → List Char
  | .null => "null".toList
  | .bool true => "true".toList
  | .bool false => "false".toList
  | .int value => dumpsInt value
  | .float literal => literal.toList
  | .str text => dumpsString text
  | .arr [] => "[]".toList
  | .arr (item :: items) => '[' :: (dumps item ++ dumpsItems items)
  | .obj [] => '\x7b' :: ['\x7d']
  | .obj ((name, value) :: fields) =>
    '\x7b' :: (dumpsString name ++ ':' :: ' ' :: (dumps value ++ dumpsFields fields))

/-- The items behind the first one, and the end of the array. -/
def dumpsItems : List Json → List Char
  | [] => [']']
  | item :: items => ',' :: ' ' :: (dumps item ++ dumpsItems items)

/-- The members behind the first one, and the end of the object. -/
def dumpsFields : List (String × Json) → List Char
  | [] => ['\x7d']
  | (name, value) :: fields =>
    ',' :: ' ' :: (dumpsString name ++ ':' :: ' ' :: (dumps value ++ dumpsFields fields))

end

mutual

/-- Every float in the value carries the literal of a float. -/
def isPrintable : Json → Bool
  | .float literal => isFloatLiteral literal.toList
  | .arr items => itemsPrintable items
  | .obj fields => fieldsPrintable fields
  | .null | .bool _ | .int _ | .str _ => true

def itemsPrintable : List Json → Bool
  | [] => true
  | item :: items => isPrintable item && itemsPrintable items

def fieldsPrintable : List (String × Json) → Bool
  | [] => true
  | (_, value) :: fields => isPrintable value && fieldsPrintable fields

end

mutual

/-- The value with the members of every object in the order of their names. -/
def sortKeys : Json → Json
  | .arr items => .arr (sortItems items)
  | .obj fields => .obj ((sortFields fields).insertionSort fun first second => first.1 ≤ second.1)
  | .null => .null
  | .bool value => .bool value
  | .int value => .int value
  | .float literal => .float literal
  | .str text => .str text

def sortItems : List Json → List Json
  | [] => []
  | item :: items => sortKeys item :: sortItems items

def sortFields : List (String × Json) → List (String × Json)
  | [] => []
  | (name, value) :: fields => (name, sortKeys value) :: sortFields fields

end

/-- The kinds of value that the first character of the text tells apart. -/
inductive Lead where
  | null | yes | no | number | string | array | object
  deriving DecidableEq

def lead : Json → Lead
  | .null => .null
  | .bool value => if value then .yes else .no
  | .int _ | .float _ => .number
  | .str _ => .string
  | .arr _ => .array
  | .obj _ => .object

def leadOf (char : Char) : Lead :=
  if char = 'n' then .null
  else if char = 't' then .yes
  else if char = 'f' then .no
  else if char = '"' then .string
  else if char = '[' then .array
  else if char = '\x7b' then .object
  else .number

theorem leadOf_number {char : Char} (number : isNumberLead char = true) :
    leadOf char = .number ∧ char ≠ ']' := by
  refine ⟨?_, ?_⟩
  · unfold leadOf
    split_ifs with h₁ h₂ h₃ h₄ h₅ h₆
    all_goals first
      | rfl
      | subst_vars
        exact absurd number (by decide)
  · rintro rfl
    exact absurd number (by decide)

theorem number_dumpsInt (value : Int) : ∀ char ∈ dumpsInt value, isNumberChar char = true := by
  intro char member
  rw [isNumberChar, Bool.or_eq_true]
  rcases mem_dumpsInt member with digit | rfl
  · exact Or.inl digit
  · exact Or.inr (by decide)

theorem lead_dumpsInt (value : Int) :
    ∃ char rest, dumpsInt value = char :: rest ∧ leadOf char = .number ∧ char ≠ ']' := by
  obtain ⟨char, rest, same⟩ : ∃ char rest, dumpsInt value = char :: rest := by
    apply List.exists_cons_of_ne_nil
    cases value with
    | ofNat value => exact Nat.toDigits_ne_nil
    | negSucc value => exact List.cons_ne_nil _ _
  refine ⟨char, rest, same, leadOf_number ?_⟩
  rw [isNumberLead, Bool.or_eq_true]
  rcases @mem_dumpsInt value char (same ▸ List.mem_cons_self) with digit | rfl
  · exact Or.inl digit
  · exact Or.inr (by decide)

/-- The first character of the text tells the kind of the value, and closes no array. -/
theorem lead_dumps {value : Json} (printable : isPrintable value = true) :
    ∃ char rest, dumps value = char :: rest ∧ leadOf char = value.lead ∧ char ≠ ']' := by
  cases value with
  | null => exact ⟨'n', _, rfl, rfl, by decide⟩
  | bool value =>
    cases value with
    | true => exact ⟨'t', _, rfl, rfl, by decide⟩
    | false => exact ⟨'f', _, rfl, rfl, by decide⟩
  | int value => exact lead_dumpsInt value
  | float literal =>
    rw [isPrintable, isFloatLiteral, Bool.and_eq_true, Bool.and_eq_true] at printable
    rw [dumps]
    rcases shape : literal.toList with _ | ⟨char, rest⟩
    · rw [shape] at printable
      cases printable.1.1
    · rw [shape] at printable
      exact ⟨char, rest, rfl, leadOf_number printable.1.1⟩
  | str text => exact ⟨'"', _, rfl, rfl, by decide⟩
  | arr items => cases items <;> exact ⟨'[', _, rfl, rfl, by decide⟩
  | obj fields => cases fields <;> exact ⟨'\x7b', _, rfl, rfl, by decide⟩

/-- The text of an array that has items is not that of the empty one. -/
theorem dumps_ne_close {item : Json} (printable : isPrintable item = true)
    (rest rest' : List Char) : dumps item ++ rest ≠ ']' :: rest' := by
  obtain ⟨char, tail, text, -, notClose⟩ := lead_dumps printable
  rw [text]
  exact fun same => notClose (List.cons.inj same).1

theorem ends_items (items : List Json) (rest : List Char) : Ends (dumpsItems items ++ rest) := by
  intro char member
  cases items <;>
    obtain rfl := Option.some.inj member <;>
    decide

theorem ends_fields (fields : List (String × Json)) (rest : List Char) :
    Ends (dumpsFields fields ++ rest) := by
  intro char member
  rcases fields with _ | ⟨⟨name, value⟩, fields⟩ <;>
    obtain rfl := Option.some.inj member <;>
    decide

/-- An integer's text is no float's. -/
theorem int_ne_float {value : Int} {literal : List Char} (isFloat : isFloatLiteral literal = true) :
    dumpsInt value ≠ literal := by
  rintro rfl
  rw [isFloatLiteral, Bool.and_eq_true] at isFloat
  obtain ⟨char, member, other⟩ := List.any_eq_true.mp isFloat.2
  rcases mem_dumpsInt member with digit | rfl
  · rw [digit] at other
    cases other
  · exact absurd other (by decide)

theorem number_of_isFloat {literal : List Char} (isFloat : isFloatLiteral literal = true) :
    ∀ char ∈ literal, isNumberChar char = true := by
  rw [isFloatLiteral, Bool.and_eq_true, Bool.and_eq_true] at isFloat
  exact List.all_eq_true.mp isFloat.1.2

section Injectivity

variable {rest rest' : List Char}

/-- The same text begins values of the same kind. -/
theorem lead_eq {first second : Json} (printable : isPrintable first = true)
    (printable' : isPrintable second = true)
    (same : dumps first ++ rest = dumps second ++ rest') : first.lead = second.lead := by
  obtain ⟨char, tail, text, lead, -⟩ := lead_dumps printable
  obtain ⟨char', tail', text', lead', -⟩ := lead_dumps printable'
  rw [text, text', List.cons_append, List.cons_append] at same
  rw [← lead, ← lead', (List.cons.inj same).1]

/-- The text of an array goes on from its first item as that of a list of further items does. -/
theorem dumpsItems_of_array : (first second : List Json) → itemsPrintable first = true →
    itemsPrintable second = true → dumps (.arr first) ++ rest = dumps (.arr second) ++ rest' →
    dumpsItems first ++ rest = dumpsItems second ++ rest'
  | [], [], _, _, same => congrArg (']' :: ·) (List.append_cancel_left same)
  | [], item :: items, _, printable, same => by
    rw [itemsPrintable, Bool.and_eq_true] at printable
    rw [dumps, dumps, List.cons_append, List.append_assoc] at same
    exact absurd (List.cons.inj same).2.symm (dumps_ne_close printable.1 _ _)
  | item :: items, [], printable, _, same => by
    rw [itemsPrintable, Bool.and_eq_true] at printable
    rw [dumps, dumps, List.cons_append, List.append_assoc] at same
    exact absurd (List.cons.inj same).2 (dumps_ne_close printable.1 _ _)
  | item :: items, item' :: items', _, _, same => by
    rw [dumps, dumps] at same
    rw [dumpsItems, dumpsItems]
    exact congrArg (fun text => ',' :: ' ' :: text) (List.cons.inj same).2

/-- The text of an object, likewise. -/
theorem dumpsFields_of_object : (first second : List (String × Json)) →
    dumps (.obj first) ++ rest = dumps (.obj second) ++ rest' →
    dumpsFields first ++ rest = dumpsFields second ++ rest'
  | [], [], same => congrArg ('\x7d' :: ·) (List.append_cancel_left same)
  | [], (_, _) :: _, same => absurd (List.cons.inj (List.cons.inj same).2).1 (by decide)
  | (_, _) :: _, [], same => absurd (List.cons.inj (List.cons.inj same).2).1 (by decide)
  | (_, _) :: _, (_, _) :: _, same => by
    rw [dumps, dumps] at same
    rw [dumpsFields, dumpsFields]
    exact congrArg (fun text => ',' :: ' ' :: text) (List.cons.inj same).2

mutual

/-- **The text determines the value**, whatever follows that does not go on like a number. -/
theorem dumps_inj {rest rest' : List Char} : (first second : Json) → isPrintable first = true →
    isPrintable second = true → Ends rest → Ends rest' →
    dumps first ++ rest = dumps second ++ rest' → first = second ∧ rest = rest'
  | first, second, printable, printable', ends, ends', same => by
    have kind := lead_eq printable printable' same
    cases first with
    | null =>
      cases second with
      | null => exact ⟨rfl, List.append_cancel_left same⟩
      | bool value => cases value <;> cases kind
      | _ => cases kind
    | bool value =>
      cases second with
      | bool value' =>
        cases value <;> cases value' <;> first
          | exact ⟨rfl, List.append_cancel_left same⟩
          | cases kind
      | _ => cases value <;> cases kind
    | int value =>
      rw [dumps] at same
      cases second with
      | int value' =>
        rw [dumps] at same
        obtain ⟨sameText, sameRest⟩ := number_inj (number_dumpsInt value) (number_dumpsInt value')
          ends ends' same
        exact ⟨congrArg _ (dumpsInt_inj sameText), sameRest⟩
      | float literal =>
        rw [dumps] at same
        rw [isPrintable] at printable'
        obtain ⟨sameText, -⟩ := number_inj (number_dumpsInt value) (number_of_isFloat printable')
          ends ends' same
        exact absurd sameText (int_ne_float printable')
      | bool value => cases value <;> cases kind
      | _ => cases kind
    | float literal =>
      rw [dumps] at same
      rw [isPrintable] at printable
      cases second with
      | int value =>
        rw [dumps] at same
        obtain ⟨sameText, -⟩ := number_inj (number_of_isFloat printable) (number_dumpsInt value)
          ends ends' same
        exact absurd sameText.symm (int_ne_float printable)
      | float literal' =>
        rw [dumps] at same
        rw [isPrintable] at printable'
        obtain ⟨sameText, sameRest⟩ := number_inj (number_of_isFloat printable)
          (number_of_isFloat printable') ends ends' same
        exact ⟨congrArg _ (String.toList_inj.mp sameText), sameRest⟩
      | bool value => cases value <;> cases kind
      | _ => cases kind
    | str text =>
      rw [dumps] at same
      cases second with
      | str text' =>
        rw [dumps] at same
        obtain ⟨sameText, sameRest⟩ := dumpsString_inj same
        exact ⟨congrArg _ sameText, sameRest⟩
      | bool value => cases value <;> cases kind
      | _ => cases kind
    | arr items =>
      cases second with
      | arr items' =>
        obtain ⟨rfl, sameRest⟩ := items_inj items items' printable printable'
          (dumpsItems_of_array items items' printable printable' same)
        exact ⟨rfl, sameRest⟩
      | bool value => cases value <;> cases kind
      | _ => cases kind
    | obj fields =>
      cases second with
      | obj fields' =>
        obtain ⟨rfl, sameRest⟩ := fields_inj fields fields' printable printable'
          (dumpsFields_of_object fields fields' same)
        exact ⟨rfl, sameRest⟩
      | bool value => cases value <;> cases kind
      | _ => cases kind

theorem items_inj {rest rest' : List Char} : (first second : List Json) →
    itemsPrintable first = true → itemsPrintable second = true →
    dumpsItems first ++ rest = dumpsItems second ++ rest' → first = second ∧ rest = rest'
  | [], [], _, _, same => ⟨rfl, List.append_cancel_left same⟩
  | [], item :: items, _, _, same => absurd (List.cons.inj same).1 (by decide)
  | item :: items, [], _, _, same => absurd (List.cons.inj same).1 (by decide)
  | item :: items, item' :: items', printable, printable', same => by
    rw [itemsPrintable, Bool.and_eq_true] at printable printable'
    rw [dumpsItems, dumpsItems, List.cons_append, List.cons_append, List.cons_append,
      List.cons_append, List.append_assoc, List.append_assoc] at same
    obtain ⟨rfl, sameItems⟩ := dumps_inj item item' printable.1 printable'.1 (ends_items _ _)
      (ends_items _ _) (List.cons.inj (List.cons.inj same).2).2
    obtain ⟨rfl, sameRest⟩ := items_inj items items' printable.2 printable'.2 sameItems
    exact ⟨rfl, sameRest⟩

theorem fields_inj {rest rest' : List Char} : (first second : List (String × Json)) →
    fieldsPrintable first = true → fieldsPrintable second = true →
    dumpsFields first ++ rest = dumpsFields second ++ rest' → first = second ∧ rest = rest'
  | [], [], _, _, same => ⟨rfl, List.append_cancel_left same⟩
  | [], (name, value) :: fields, _, _, same => absurd (List.cons.inj same).1 (by decide)
  | (name, value) :: fields, [], _, _, same => absurd (List.cons.inj same).1 (by decide)
  | (name, value) :: fields, (name', value') :: fields', printable, printable', same => by
    rw [fieldsPrintable, Bool.and_eq_true] at printable printable'
    rw [dumpsFields, dumpsFields, List.cons_append, List.cons_append, List.cons_append,
      List.cons_append, List.append_assoc, List.append_assoc] at same
    obtain ⟨rfl, sameValue⟩ := dumpsString_inj (List.cons.inj (List.cons.inj same).2).2
    rw [List.cons_append, List.cons_append, List.cons_append, List.cons_append, List.append_assoc,
      List.append_assoc] at sameValue
    obtain ⟨rfl, sameFields⟩ := dumps_inj value value' printable.1 printable'.1 (ends_fields _ _)
      (ends_fields _ _) (List.cons.inj (List.cons.inj sameValue).2).2
    obtain ⟨rfl, sameRest⟩ := fields_inj fields fields' printable.2 printable'.2 sameFields
    exact ⟨rfl, sameRest⟩

end

/-- An array's text ends with its bracket, whatever follows. -/
theorem array_inj {first second : List Json} (printable : isPrintable (.arr first) = true)
    (printable' : isPrintable (.arr second) = true)
    (same : dumps (.arr first) ++ rest = dumps (.arr second) ++ rest') :
    first = second ∧ rest = rest' :=
  items_inj first second printable printable'
    (dumpsItems_of_array first second printable printable' same)

end Injectivity

/-! ### Sorted members -/

theorem fieldsPrintable_iff {fields : List (String × Json)} :
    fieldsPrintable fields = true ↔ ∀ field ∈ fields, isPrintable field.2 = true := by
  induction fields with
  | nil => simp [fieldsPrintable]
  | cons field fields ih => simp [fieldsPrintable, ih]

mutual

theorem isPrintable_sortKeys : (value : Json) → isPrintable value = true →
    isPrintable (sortKeys value) = true
  | .arr items, printable => itemsPrintable_sortItems items printable
  | .obj fields, printable => by
    have sorted := fieldsPrintable_sortFields fields printable
    rw [sortKeys, isPrintable]
    rw [fieldsPrintable_iff] at sorted ⊢
    intro field member
    exact sorted field ((List.mem_insertionSort _).mp member)
  | .float _, printable => printable
  | .null, _ | .bool _, _ | .int _, _ | .str _, _ => rfl

theorem itemsPrintable_sortItems : (items : List Json) → itemsPrintable items = true →
    itemsPrintable (sortItems items) = true
  | [], _ => rfl
  | item :: items, printable => by
    rw [itemsPrintable, Bool.and_eq_true] at printable
    rw [sortItems, itemsPrintable, isPrintable_sortKeys item printable.1,
      itemsPrintable_sortItems items printable.2]
    rfl

theorem fieldsPrintable_sortFields : (fields : List (String × Json)) →
    fieldsPrintable fields = true → fieldsPrintable (sortFields fields) = true
  | [], _ => rfl
  | (_, value) :: fields, printable => by
    rw [fieldsPrintable, Bool.and_eq_true] at printable
    rw [sortFields, fieldsPrintable, isPrintable_sortKeys value printable.1,
      fieldsPrintable_sortFields fields printable.2]
    rfl

end

/-- The same value, but for the order of the members of its objects. -/
def Same (first second : Json) : Prop := sortKeys first = sortKeys second

instance (first second : Json) : Decidable (Same first second) :=
  inferInstanceAs (Decidable (_ = _))

theorem mem_sortFields {fields : List (String × Json)} {name : String} {sorted : Json} :
    (name, sorted) ∈ sortFields fields ↔ ∃ value, (name, value) ∈ fields ∧ sortKeys value = sorted := by
  induction fields with
  | nil => simp [sortFields]
  | cons field fields ih =>
    obtain ⟨other, value⟩ := field
    simp only [sortFields, List.mem_cons, ih, Prod.mk.injEq]
    constructor
    · rintro (⟨rfl, rfl⟩ | ⟨inner, member, rfl⟩)
      · exact ⟨value, Or.inl ⟨rfl, rfl⟩, rfl⟩
      · exact ⟨inner, Or.inr member, rfl⟩
    · rintro ⟨inner, ⟨rfl, rfl⟩ | member, rfl⟩
      · exact Or.inl ⟨rfl, rfl⟩
      · exact Or.inr ⟨inner, member, rfl⟩

/-- Objects that are the same have the same values under each name. -/
theorem Same.field {fields fields' : List (String × Json)} (same : Same (.obj fields) (.obj fields'))
    (distinct : (fields'.map Prod.fst).Nodup) {name : String} {value value' : Json}
    (member : (name, value) ∈ fields) (member' : (name, value') ∈ fields') : Same value value' := by
  rw [Same, sortKeys, sortKeys, Json.obj.injEq] at same
  have sorted := (List.mem_insertionSort fun first second : String × Json =>
    first.1 ≤ second.1).mpr (mem_sortFields.mpr ⟨value, member, rfl⟩)
  rw [same, List.mem_insertionSort, mem_sortFields] at sorted
  obtain ⟨other, inside, equal⟩ := sorted
  have only : other = value' := by
    have found := Assoc.get?_eq_some_of_mem distinct inside
    rw [Assoc.get?_eq_some_of_mem distinct member', Option.some.injEq] at found
    exact found.symm
  rw [Same, ← equal, only]

/-- **The sorted text determines the value**, but for the order of members. -/
theorem same_iff_dumps {first second : Json} (printable : isPrintable first = true)
    (printable' : isPrintable second = true) :
    first.sortKeys.dumps = second.sortKeys.dumps ↔ Same first second := by
  refine ⟨fun same => ?_, fun same => congrArg dumps same⟩
  have ends : Ends [] := fun _ member => by cases member
  exact (dumps_inj _ _ (isPrintable_sortKeys first printable)
    (isPrintable_sortKeys second printable') ends ends (congrArg (· ++ []) same)).1

/-! ### Printable text -/

/-- A printable ASCII character. -/
def isPlain (char : Char) : Bool := decide (0x20 ≤ char.toNat) && decide (char.toNat ≤ 0x7e)

theorem plain_digitChar {value : Nat} (small : value < 16) : isPlain value.digitChar = true := by
  interval_cases value <;> decide

theorem plain_hexUnit {unit : Nat} (small : unit < 0x10000) {char : Char}
    (member : char ∈ hexUnit unit) : isPlain char = true := by
  simp only [hexUnit, List.mem_cons, List.not_mem_nil, or_false] at member
  rcases member with rfl | rfl | rfl | rfl | rfl | rfl
  · decide
  · decide
  · exact plain_digitChar (by omega)
  · exact plain_digitChar (by omega)
  · exact plain_digitChar (by omega)
  · exact plain_digitChar (by omega)

theorem plain_shortEscape? {char letter : Char} (short : shortEscape? char = some letter) :
    isPlain letter = true := by
  unfold shortEscape? at short
  split_ifs at short <;> (obtain rfl := Option.some.inj short; decide)

theorem plain_escapeChar {char escaped : Char} (member : escaped ∈ escapeChar char) :
    isPlain escaped = true := by
  have scalar : char.toNat < 0x110000 := by
    rcases char.valid with small | large
    · exact lt_of_lt_of_le small (by decide)
    · exact large.2
  unfold escapeChar at member
  split at member
  · rename_i letter short
    simp only [List.mem_cons, List.not_mem_nil, or_false] at member
    rcases member with rfl | rfl
    · decide
    · exact plain_shortEscape? short
  · split_ifs at member with ascii basic
    · obtain rfl := List.mem_singleton.mp member
      simpa [isPlain] using ascii
    · exact plain_hexUnit basic member
    · rcases List.mem_append.mp member with high | low
      · exact plain_hexUnit (by omega) high
      · exact plain_hexUnit (by omega) low

theorem plain_dumpsString {text : String} {char : Char} (member : char ∈ dumpsString text) :
    isPlain char = true := by
  simp only [dumpsString, List.mem_cons, List.mem_append, List.mem_flatMap, List.not_mem_nil,
    or_false] at member
  rcases member with rfl | ⟨source, -, escaped⟩ | rfl
  · decide
  · exact plain_escapeChar escaped
  · decide

theorem plain_number {char : Char} (number : isNumberChar char = true) : isPlain char = true := by
  rw [isNumberChar, Bool.or_eq_true, List.contains_iff_mem] at number
  rcases number with digit | sign
  · simp only [Char.isDigit, Bool.and_eq_true, decide_eq_true_eq] at digit
    have low : 0x30 ≤ char.toNat := digit.1
    have high : char.toNat ≤ 0x39 := digit.2
    simp only [isPlain, Bool.and_eq_true, decide_eq_true_eq]
    omega
  · have all : "+-.eNaInfity".toList.all isPlain = true := by decide
    exact List.all_eq_true.mp all char sign

mutual

/-- **The text is printable ASCII.** -/
theorem plain_dumps : (value : Json) → isPrintable value = true →
    ∀ char ∈ dumps value, isPlain char = true
  | .null, _ => List.all_eq_true.mp (by decide)
  | .bool true, _ => List.all_eq_true.mp (by decide)
  | .bool false, _ => List.all_eq_true.mp (by decide)
  | .int value, _ => fun char member => plain_number (number_dumpsInt value char member)
  | .float literal, printable => by
    intro char member
    rw [dumps] at member
    rw [isPrintable] at printable
    exact plain_number (number_of_isFloat printable char member)
  | .str text, _ => by
    intro char member
    rw [dumps] at member
    exact plain_dumpsString member
  | .arr [], _ => List.all_eq_true.mp (by decide)
  | .arr (item :: items), printable => by
    rw [isPrintable, itemsPrintable, Bool.and_eq_true] at printable
    intro char member
    rw [dumps, List.mem_cons, List.mem_append] at member
    rcases member with rfl | inside | later
    · decide
    · exact plain_dumps item printable.1 char inside
    · exact plain_dumpsItems items printable.2 char later
  | .obj [], _ => List.all_eq_true.mp (by decide)
  | .obj ((name, value) :: fields), printable => by
    rw [isPrintable, fieldsPrintable, Bool.and_eq_true] at printable
    intro char member
    simp only [dumps, List.mem_cons, List.mem_append] at member
    rcases member with rfl | named | rfl | rfl | inside | later
    · decide
    · exact plain_dumpsString named
    · decide
    · decide
    · exact plain_dumps value printable.1 char inside
    · exact plain_dumpsFields fields printable.2 char later

theorem plain_dumpsItems : (items : List Json) → itemsPrintable items = true →
    ∀ char ∈ dumpsItems items, isPlain char = true
  | [], _ => List.all_eq_true.mp (by decide)
  | item :: items, printable => by
    rw [itemsPrintable, Bool.and_eq_true] at printable
    intro char member
    simp only [dumpsItems, List.mem_cons, List.mem_append] at member
    rcases member with rfl | rfl | inside | later
    · decide
    · decide
    · exact plain_dumps item printable.1 char inside
    · exact plain_dumpsItems items printable.2 char later

theorem plain_dumpsFields : (fields : List (String × Json)) → fieldsPrintable fields = true →
    ∀ char ∈ dumpsFields fields, isPlain char = true
  | [], _ => List.all_eq_true.mp (by decide)
  | (name, value) :: fields, printable => by
    rw [fieldsPrintable, Bool.and_eq_true] at printable
    intro char member
    simp only [dumpsFields, List.mem_cons, List.mem_append] at member
    rcases member with rfl | rfl | named | rfl | rfl | inside | later
    · decide
    · decide
    · exact plain_dumpsString named
    · decide
    · decide
    · exact plain_dumps value printable.1 char inside
    · exact plain_dumpsFields fields printable.2 char later

end

theorem dumpsFields_closes (fields : List (String × Json)) :
    ∃ inner, dumpsFields fields = inner ++ ['\x7d'] := by
  induction fields with
  | nil => exact ⟨[], rfl⟩
  | cons field fields ih =>
    obtain ⟨name, value⟩ := field
    obtain ⟨inner, same⟩ := ih
    refine ⟨',' :: ' ' :: (dumpsString name ++ ':' :: ' ' :: (dumps value ++ inner)), ?_⟩
    simp [dumpsFields, same]

/-- The text of an object stands between its braces. -/
theorem dumps_obj (fields : List (String × Json)) :
    ∃ inner, dumps (.obj fields) = '\x7b' :: (inner ++ ['\x7d']) := by
  cases fields with
  | nil => exact ⟨[], rfl⟩
  | cons field fields =>
    obtain ⟨name, value⟩ := field
    obtain ⟨inner, same⟩ := dumpsFields_closes fields
    refine ⟨dumpsString name ++ ':' :: ' ' :: (dumps value ++ inner), ?_⟩
    simp [dumps, same]

end Json

end ClaudeProxy
