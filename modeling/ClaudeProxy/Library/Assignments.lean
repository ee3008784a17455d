/-
**Which keys a text can assign.**

A reader that has lost its place in an env file reads keys and values where none were written. What
it can read is limited by the text: `Suspicious` is a value that could be read as one beginning with a
single quote, and `Owned` a text in which such values stand only behind the given keys, at the
beginning of a line.

* `suspicious_of_head?` — only a suspicious value is read as one that begins with a single quote;
* `Owned.append`, `Owned.entry` — owned texts put together, and what is left behind an entry;
* **`Owned.get?_foldl`** — so no other key ever gets such a value.
-/

import ClaudeProxy.Library.Dotenv

namespace ClaudeProxy

namespace Dotenv

open Py (isSpace)

/-! ### Values that begin with a single quote -/

/-- The text could be read as a value that begins with a single quote. -/
def Suspicious (text : List Char) : Prop :=
  ['\'', '\\', '\''] <+: text ∨ text.head? = some '$' ∨
    ∃ char rest, text = '"' :: char :: rest ∧ char ≠ '\n'

theorem head?_quoted {quote : Char} {decode : Char → List Char} {char : Char} {rest : List Char}
    {parts : List Char × List Char} (notQuote : char ≠ quote) (notBackslash : char ≠ '\\')
    (read : quoted quote decode (char :: rest) = some parts) : parts.1.head? = some char := by
  cases rest with
  | nil => simp [quoted, notQuote] at read
  | cons next rest =>
    rw [quoted, if_neg notQuote, if_neg notBackslash] at read
    obtain ⟨inner, -, rfl⟩ := Option.map_eq_some_iff.mp read
    rfl

theorem expand_cons (lookup : String → Option String) {char : Char} (plain : char ≠ '$')
    (text : List Char) : expand lookup (char :: text) = char :: expand lookup text := by
  rw [expand, Framing.drain_of_some atom_shrinks (atom_of_ne plain text), List.flatMap_cons]
  rfl

theorem head?_expand (lookup : String → Option String) {text : List Char}
    (plain : text.head? ≠ some '$') : (expand lookup text).head? = text.head? := by
  cases text with
  | nil => rfl
  | cons char text => rw [expand_cons lookup (by simpa using plain)]; rfl

theorem head?_beforeComment (text : List Char) :
    (beforeComment text).head? = none ∨ (beforeComment text).head? = text.head? := by
  cases text with
  | nil => exact .inl rfl
  | cons char text =>
    rw [beforeComment]
    split
    · exact .inl rfl
    · exact .inr rfl

theorem head?_of_prefix {first second : List Char} (isPrefix : first <+: second) :
    first.head? = none ∨ first.head? = second.head? := by
  obtain ⟨rest, rfl⟩ := isPrefix
  cases first with
  | nil => exact .inl rfl
  | cons char first => exact .inr rfl

theorem head?_unquoted (text : List Char) :
    (unquoted text).head? = none ∨ (unquoted text).head? = text.head? := by
  have front := head?_of_prefix (List.takeWhile_prefix (l := text) fun char => !isBreak char)
  have inner := head?_beforeComment (text.takeWhile fun char => !isBreak char)
  have outer := head?_of_prefix (List.rdropWhile_prefix isSpace
    (beforeComment (text.takeWhile fun char => !isBreak char)))
  rw [unquoted]
  grind

/-- **Only a suspicious value** is read as one that begins with a single quote. -/
theorem suspicious_of_head? {text behind : List Char} {written : Written}
    {environ : String → Option String} {earlier : Dict String (Option String)}
    (read : value text = some (written, behind))
    (opens : (Written.resolve environ earlier written).toList.head? = some '\'') :
    Suspicious text := by
  unfold value at read
  split at read
  · rename_i rest
    obtain ⟨parts, isParts, same⟩ := Option.map_eq_some_iff.mp read
    obtain ⟨rfl, -⟩ := Prod.mk.inj same
    rw [Written.resolve, String.toList_ofList] at opens
    refine .inl ?_
    rcases rest with _ | ⟨first, _ | ⟨second, rest⟩⟩
    · simp [singleQuoted, quoted] at isParts
    · by_cases closes : first = '\''
      · simp [singleQuoted, quoted, closes] at isParts
        simp [← isParts] at opens
      · simp [singleQuoted, quoted, closes] at isParts
    · by_cases closes : first = '\''
      · simp [singleQuoted, quoted, closes] at isParts
        simp [← isParts] at opens
      · by_cases backslash : first = '\\'
        · rw [singleQuoted, quoted, if_neg closes, if_pos backslash] at isParts
          obtain ⟨inner, -, rfl⟩ := Option.map_eq_some_iff.mp isParts
          have isQuote : second = '\'' := by
            unfold escapedSingle at opens
            split at opens <;> simp_all
          simp [backslash, isQuote]
        · have first_char := head?_quoted closes backslash isParts
          rw [opens, Option.some.injEq] at first_char
          exact absurd first_char.symm closes
  · rename_i rest
    obtain ⟨parts, isParts, same⟩ := Option.map_eq_some_iff.mp read
    obtain ⟨rfl, -⟩ := Prod.mk.inj same
    refine .inr (.inr ?_)
    cases rest with
    | nil => simp [doubleQuoted, quoted] at isParts
    | cons char rest =>
      refine ⟨char, rest, rfl, ?_⟩
      rintro rfl
      have first_char := head?_quoted (by decide) (by decide) isParts
      rw [Written.resolve, String.toList_ofList, head?_expand _ (by simp [first_char]),
        first_char] at opens
      exact absurd opens (by decide)
  · rename_i notSingle notDouble
    obtain ⟨rfl, -⟩ := Prod.mk.inj (Option.some.inj read)
    refine .inr (.inl ?_)
    by_contra plain
    rw [Written.resolve, String.toList_ofList] at opens
    have front := head?_unquoted text
    rw [head?_expand _ (by grind)] at opens
    have isQuote : text.head? = some '\'' := by grind
    obtain ⟨rest, rfl⟩ := List.head?_eq_some_iff.mp isQuote
    exact notSingle rest rfl

/-! ### Where a key stands -/

/-- The text ends in the key, up to blanks. -/
inductive EndsInKey (name : List Char) : List Char → Prop where
  | quoted (front blanks : List Char) (areBlank : ∀ char ∈ blanks, isBlank char = true) :
    EndsInKey name (front ++ '\'' :: blanks)
  | bare (front blanks : List Char) (areBlank : ∀ char ∈ blanks, isBlank char = true)
      (nonempty : name ≠ []) (keyChars : ∀ char ∈ name, isKeyChar char = true)
      (begins : ∀ last ∈ front.getLast?, isSpace last = true) :
    EndsInKey name (front ++ name ++ blanks)

theorem EndsInKey.prepend {name text : List Char} (ends : EndsInKey name text) (front : List Char)
    (spaces : ∀ last ∈ front.getLast?, isSpace last = true) : EndsInKey name (front ++ text) := by
  cases ends with
  | quoted inner blanks areBlank =>
    rw [← List.append_assoc]
    exact .quoted _ blanks areBlank
  | bare inner blanks areBlank nonempty keyChars begins =>
    rw [← List.append_assoc, ← List.append_assoc]
    refine .bare _ blanks areBlank nonempty keyChars fun last isLast => ?_
    rw [List.getLast?_append] at isLast
    cases ending : inner.getLast? with
    | none => exact spaces last (by simpa [ending] using isLast)
    | some other => exact begins last (by simpa [ending] using isLast)

theorem key_eq_some {text name behind : List Char} (read : key text = some (name, behind)) :
    ∃ front, text = front ++ behind ∧ ∀ blanks, (∀ char ∈ blanks, isBlank char = true) →
      EndsInKey name (front ++ blanks) := by
  unfold key at read
  split at read
  · rename_i rest
    split at read
    · simp at read
    · rename_i quote tail isTail
      split at read
      · simp at read
      · obtain ⟨rfl, rfl⟩ := Prod.mk.inj (Option.some.inj read)
        have whole := List.takeWhile_append_dropWhile (p := (· ≠ '\'')) (l := rest)
        have isQuote : quote = '\'' := by
          have stops := List.head?_dropWhile_not (· ≠ '\'') rest
          rw [isTail] at stops
          simpa using stops
        rw [isTail, isQuote] at whole
        refine ⟨'\'' :: rest.takeWhile (· ≠ '\'') ++ ['\''], ?_, ?_⟩
        · rw [List.append_assoc, List.cons_append, List.singleton_append, whole]
        intro blanks areBlank
        rw [List.append_assoc]
        exact .quoted _ blanks areBlank
  · split at read
    · simp at read
    · rename_i nonempty
      obtain ⟨rfl, rfl⟩ := Prod.mk.inj (Option.some.inj read)
      refine ⟨text.takeWhile isKeyChar, (List.takeWhile_append_dropWhile).symm, ?_⟩
      intro blanks areBlank
      exact .bare [] blanks areBlank (by simpa using nonempty)
        (fun char member => List.mem_takeWhile_imp member) (by simp)

theorem withoutExport_eq_some (text : List Char) :
    ∃ front, text = front ++ withoutExport text ∧
      ∀ last ∈ front.getLast?, isSpace last = true := by
  unfold withoutExport
  split
  · rename_i exports
    obtain ⟨⟨tail, rfl⟩, blank⟩ := exports
    have behind : ("export".toList ++ tail).drop 6 = tail := rfl
    rw [behind] at blank ⊢
    refine ⟨"export".toList ++ tail.takeWhile isBlank, ?_, ?_⟩
    · rw [List.append_assoc, List.takeWhile_append_dropWhile]
    · intro last isLast
      cases tail with
      | nil => simp at blank
      | cons first tail =>
        have isFirst : isBlank first = true := by simpa using blank
        rw [List.takeWhile_cons_of_pos isFirst, List.getLast?_append_cons] at isLast
        have member := List.mem_of_getLast? isLast
        have isBlankLast : isBlank last = true := by
          rcases List.mem_cons.mp member with rfl | later
          · exact isFirst
          · exact List.mem_takeWhile_imp later
        simp_all [isBlank]
  · exact ⟨[], rfl, by simp⟩

/-- A binding with a value stands in the text, its key before the sign and its value behind it. -/
theorem entry_assigns {text rest : List Char} {name : String} {written : Written}
    (read : entry text = some (some ⟨name, some written⟩, rest)) :
    ∃ front assignment behind, text = front ++ '=' :: assignment ∧
      value (assignment.dropWhile isBlank) = some (written, behind) ∧
      EndsInKey name.toList front := by
  unfold entry at read
  split at read
  · simp at read
  · rename_i first tail isTail
    have spaces : ∀ last ∈ (text.takeWhile isSpace).getLast?, isSpace last = true :=
      fun last isLast => List.mem_takeWhile_imp (List.mem_of_getLast? isLast)
    have isText : text.takeWhile isSpace ++ first :: tail = text := by
      rw [← isTail, List.takeWhile_append_dropWhile]
    obtain ⟨exported, isExported, spacesExported⟩ := withoutExport_eq_some (first :: tail)
    have isLine := Option.some.inj read
    unfold line at isLine
    split at isLine
    · simp at isLine
    · rename_i word afterKey isKey
      obtain ⟨keyText, isKeyText, endsInKey⟩ := key_eq_some isKey
      split at isLine
      · simp at isLine
      · rename_i assigned_value behind isAssigned
        obtain ⟨isItem, -⟩ := Prod.mk.inj isLine
        split at isItem
        · obtain ⟨rfl, rfl⟩ := Binding.mk.inj (Option.some.inj isItem)
          have blanks := List.takeWhile_append_dropWhile (p := isBlank) (l := afterKey)
          unfold assigned at isAssigned
          split at isAssigned
          · rename_i assignment isAssignment
            obtain ⟨parts, isValue, same⟩ := Option.map_eq_some_iff.mp isAssigned
            obtain ⟨isWritten, rfl⟩ := Prod.mk.inj same
            obtain rfl := Option.some.inj isWritten
            have ends := ((endsInKey (afterKey.takeWhile isBlank) fun char member =>
              List.mem_takeWhile_imp member).prepend exported spacesExported).prepend
                (text.takeWhile isSpace) spaces
            refine ⟨_, assignment, parts.2, isText.symm.trans ?_, isValue,
              by rwa [String.toList_ofList]⟩
            rw [isAssignment] at blanks
            conv_lhs => rw [isExported, isKeyText, ← blanks]
            simp only [List.append_assoc]
          · simp at isAssigned
        · simp at isItem

/-! ### Owned texts -/

/-- Suspicious values stand only behind these keys, at the beginning of a line. -/
def Owned (keys : List (List Char)) (text : List Char) : Prop :=
  ∀ front assignment, text = front ++ '=' :: assignment →
    Suspicious (assignment.dropWhile isBlank) →
      ∃ before, ∃ name ∈ keys, front = before ++ name ∧ ∀ last ∈ before.getLast?, last = '\n'

/-- The text ends with a line. -/
def Closed (text : List Char) : Prop := ∃ front, text = front ++ ['\n']

/-- What is suspicious is so within its line. -/
theorem suspicious_of_append {text more : List Char} (closed : Closed text)
    (suspicious : Suspicious (text ++ more)) : Suspicious text := by
  obtain ⟨front, rfl⟩ := closed
  rcases suspicious with isPrefix | opens | ⟨char, rest, same, notBreak⟩
  · refine .inl ?_
    rcases front with _ | ⟨first, _ | ⟨second, _ | ⟨third, front⟩⟩⟩
    · simp [List.cons_prefix_cons] at isPrefix
    · simp [List.cons_prefix_cons] at isPrefix
    · simp [List.cons_prefix_cons] at isPrefix
    · simpa [List.cons_prefix_cons] using isPrefix
  · refine .inr (.inl ?_)
    cases front with
    | nil => simp at opens
    | cons first front => simpa using opens
  · refine .inr (.inr ?_)
    rcases front with _ | ⟨first, _ | ⟨second, front⟩⟩
    · simp at same
    · simp at same
      exact absurd same.2.1.symm notBreak
    · simp only [List.cons_append, List.cons.injEq] at same
      exact ⟨second, front ++ ['\n'], by simp [same.1], by rw [same.2.1]; exact notBreak⟩

theorem Closed.dropWhile {text : List Char} (closed : Closed text) (more : List Char) :
    (text ++ more).dropWhile isBlank = text.dropWhile isBlank ++ more ∧
      Closed (text.dropWhile isBlank) := by
  obtain ⟨front, rfl⟩ := closed
  have lineBreak : isBlank '\n' = false := by decide
  induction front with
  | nil => exact ⟨by simp [lineBreak], [], by simp [lineBreak]⟩
  | cons char front ih =>
    cases blank : isBlank char with
    | true => simpa [blank] using ih
    | false => exact ⟨by simp [blank], char :: front, by simp [blank]⟩

namespace Owned

variable {keys : List (List Char)}

theorem of_notMem {text : List Char} (absent : '=' ∉ text) : Owned keys text := by
  rintro front assignment rfl
  simp at absent

/-- Owned texts, line after line. -/
theorem append {first second : List Char} (owned : Owned keys first) (ownedMore : Owned keys second)
    (closed : Closed first) : Owned keys (first ++ second) := by
  intro front assignment same suspicious
  have breaks : ∀ last ∈ first.getLast?, last = '\n' := by
    obtain ⟨inner, rfl⟩ := closed
    simp
  rcases List.append_eq_append_iff.mp same with ⟨middle, rfl, isSecond⟩ | ⟨middle, isFirst, isRest⟩
  · obtain ⟨before, name, member, rfl, begins⟩ := ownedMore middle assignment isSecond suspicious
    refine ⟨first ++ before, name, member, (List.append_assoc _ _ _).symm, fun last isLast => ?_⟩
    rw [List.getLast?_append] at isLast
    cases ending : before.getLast? with
    | none => exact breaks last (by simpa [ending] using isLast)
    | some other => exact begins last (by simpa [ending] using isLast)
  · cases middle with
    | nil =>
      obtain ⟨before, name, member, isName, -⟩ := ownedMore [] assignment isRest.symm suspicious
      obtain ⟨-, rfl⟩ := List.append_eq_nil_iff.mp isName.symm
      exact ⟨first, [], member, by simpa using isFirst.symm, breaks⟩
    | cons sign middle =>
      obtain ⟨rfl, rfl⟩ := List.cons.inj isRest
      have closedMiddle : Closed middle := by
        obtain ⟨inner, rfl⟩ := closed
        rcases List.eq_nil_or_concat middle with rfl | ⟨init, last, rfl⟩
        · simp at isFirst
        · rw [List.concat_eq_append, ← List.cons_append, ← List.append_assoc] at isFirst
          obtain ⟨-, isLast⟩ := List.append_inj' isFirst rfl
          exact ⟨init, by rw [List.concat_eq_append, ← isLast]⟩
      obtain ⟨split, closedRest⟩ := closedMiddle.dropWhile second
      have inLine : Suspicious (middle.dropWhile isBlank ++ second) := split ▸ suspicious
      exact owned front middle isFirst (suspicious_of_append closedRest inLine)

/-- What begins behind a line break is owned. -/
theorem of_lineStart {front rest : List Char} {char : Char} (breaks : isBreak char = true)
    (oneLine : ∀ name ∈ keys, ∀ char ∈ name, isBreak char = false)
    (owned : Owned keys (front ++ [char] ++ rest)) : Owned keys rest := by
  intro inner assignment same suspicious
  obtain ⟨before, name, member, isName, begins⟩ :=
    owned (front ++ [char] ++ inner) assignment (by simp [same]) suspicious
  rcases List.append_eq_append_iff.mp isName with ⟨middle, rfl, isInner⟩ | ⟨middle, isFront, rfl⟩
  · refine ⟨middle, name, member, isInner, fun last isLast => begins last ?_⟩
    rw [List.getLast?_append, isLast]
    rfl
  · rcases List.eq_nil_or_concat middle with rfl | ⟨init, last, rfl⟩
    · exact ⟨[], inner, by simpa using member, rfl, by simp⟩
    · rw [List.concat_eq_append, ← List.append_assoc] at isFront
      obtain ⟨-, isLast⟩ := List.append_inj' isFront rfl
      obtain rfl := List.singleton_inj.mp isLast
      have whole := oneLine _ member char (by simp)
      exact absurd (breaks.symm.trans whole) (by decide)

/-- So is what is left behind a line. -/
theorem behindLine {text last : List Char} (suffix : last <:+ text)
    (oneLine : ∀ name ∈ keys, ∀ char ∈ name, isBreak char = false) (owned : Owned keys text) :
    Owned keys (behindLine last) := by
  obtain ⟨front, rfl⟩ := suffix
  have split := List.takeWhile_append_dropWhile (p := fun char => !isBreak char) (l := last)
  unfold Dotenv.behindLine
  cases isRest : last.dropWhile fun char => !isBreak char with
  | nil => exact of_notMem (by simp)
  | cons char rest =>
    have stops := List.head?_dropWhile_not (fun char => !isBreak char) last
    rw [isRest] at stops split
    rw [← split] at owned
    have whole : Owned keys ((front ++ last.takeWhile fun char => !isBreak char) ++ [char] ++ rest) := by
      simpa using owned
    exact whole.of_lineStart (by simpa using stops) oneLine

end Owned

/-! ### Keys that never get a value in single quotes -/

/-- A key at the end of a line's beginning is the key of the line. -/
theorem EndsInKey.eq {name other before : List Char} (ends : EndsInKey name (before ++ other))
    (isKey : PlainKey other) (begins : ∀ last ∈ before.getLast?, last = '\n') : name = other := by
  obtain ⟨init, last, rfl⟩ : ∃ init last, other = init ++ [last] := by
    rcases List.eq_nil_or_concat other with rfl | ⟨init, last, rfl⟩
    · exact absurd rfl isKey.nonempty
    · exact ⟨init, last, List.concat_eq_append⟩
  have keyChar : isKeyChar last = true := isKey.plain last (by simp)
  have notQuote : last ≠ '\'' := by
    rintro rfl
    exact isKey.unquoted (by simp)
  have notBlank : ∀ {front blanks : List Char}, (∀ char ∈ blanks, isBlank char = true) →
      front ++ blanks = before ++ (init ++ [last]) → blanks = [] := by
    intro front blanks areBlank same
    rcases List.eq_nil_or_concat blanks with rfl | ⟨more, blank, rfl⟩
    · rfl
    · rw [List.concat_eq_append, ← List.append_assoc, ← List.append_assoc] at same
      obtain ⟨-, isLast⟩ := List.append_inj' same rfl
      obtain rfl := List.singleton_inj.mp isLast
      have space : isSpace blank = true := (Bool.and_eq_true_iff.mp (areBlank blank (by simp))).1
      simp [isKeyChar, space] at keyChar
  generalize isText : before ++ (init ++ [last]) = text at ends
  cases ends with
  | quoted front blanks areBlank =>
    have empty := @notBlank (front ++ ['\'']) blanks areBlank (by simp [isText])
    rw [empty, ← List.append_assoc] at isText
    obtain ⟨-, isLast⟩ := List.append_inj' isText rfl
    exact absurd (List.singleton_inj.mp isLast) notQuote
  | bare front blanks areBlank nonempty keyChars spaces =>
    have empty := notBlank areBlank isText.symm
    rw [empty, List.append_nil] at isText
    rcases List.append_eq_append_iff.mp isText with ⟨middle, rfl, isOther⟩ | ⟨middle, rfl, isName⟩
    · rcases List.eq_nil_or_concat middle with rfl | ⟨more, space, rfl⟩
      · simpa using isOther.symm
      · have noKeyChar := isKey.plain space (by simp [isOther])
        simp [isKeyChar, spaces space (by simp)] at noKeyChar
    · rcases List.eq_nil_or_concat middle with rfl | ⟨more, char, rfl⟩
      · simpa using isName
      · obtain rfl := begins char (by simp)
        exact absurd (keyChars '\n' (by simp [isName])) (by decide)

namespace Owned

variable {keys : List (List Char)} {text : List Char} {name : String}

/-- An entry gives no other key a value that begins with a single quote. -/
theorem head?_entry (owned : Owned keys text) (plain : ∀ key ∈ keys, PlainKey key)
    (stranger : name.toList ∉ keys) {rest : List Char} {written : Written}
    (read : entry text = some (some ⟨name, some written⟩, rest)) (environ : String → Option String)
    (earlier : Dict String (Option String)) :
    (Written.resolve environ earlier written).toList.head? ≠ some '\'' := by
  intro opens
  obtain ⟨front, assignment, behind, isText, isValue, ends⟩ := entry_assigns read
  obtain ⟨before, key, member, rfl, begins⟩ :=
    owned front assignment isText (suspicious_of_head? isValue opens)
  exact stranger (ends.eq (plain key member) begins ▸ member)

/-- Nor does any of the entries. -/
theorem head?_entries (owned : Owned keys text) (plain : ∀ key ∈ keys, PlainKey key)
    (stranger : name.toList ∉ keys) (environ : String → Option String) :
    ∀ binding ∈ (entries text).filterMap id, binding.key = name → ∀ written,
      binding.value = some written → ∀ earlier : Dict String (Option String),
        (Written.resolve environ earlier written).toList.head? ≠ some '\'' := by
  induction size : text.length using Nat.strongRecOn generalizing text with
  | _ _ ih =>
    cases read : entry text with
    | none => simp [entries, Framing.drain_of_none read]
    | some pair =>
      obtain ⟨item, rest⟩ := pair
      obtain ⟨last, suffix, isRest, shorter⟩ := entry_eq_behindLine read
      have ownedRest : Owned keys rest := isRest ▸ owned.behindLine suffix fun key member =>
        (plain key member).oneLine
      have later := ih rest.length (by omega) ownedRest rfl
      rw [entries_of_entry read]
      intro binding member isName written isWritten earlier
      rcases List.mem_filterMap.mp member with ⟨found, isFound, same⟩
      obtain rfl : found = some binding := same
      rcases List.mem_cons.mp isFound with isItem | inRest
      · obtain ⟨key, value⟩ := binding
        obtain rfl : key = name := isName
        obtain rfl : value = some written := isWritten
        exact owned.head?_entry plain stranger (isItem ▸ read) environ earlier
      · exact later binding (List.mem_filterMap.mpr ⟨_, inRest, rfl⟩) isName written isWritten earlier

/-- **No other key gets a value that begins with a single quote.** -/
theorem get?_foldl (owned : Owned keys text) (plain : ∀ key ∈ keys, PlainKey key)
    (stranger : name.toList ∉ keys) {environ : String → Option String} {value : String}
    (opens : value.toList.head? = some '\'') (earlier : Dict String (Option String))
    (other : (earlier.get? name).map (fun value => value.getD "") ≠ some value) :
    ((((entries text).filterMap id).foldl (add environ) earlier).get? name).map
      (fun value => value.getD "") ≠ some value := by
  have never := owned.head?_entries plain stranger environ
  generalize (entries text).filterMap id = bound at never
  induction bound generalizing earlier with
  | nil => exact other
  | cons binding bound ih =>
    refine ih (add environ earlier binding) ?_ fun next member => never next (by simp [member])
    rw [add, Dict.get?_set]
    split
    · rename_i isName
      intro same
      cases isValue : binding.value with
      | none =>
        rw [isValue] at same
        obtain rfl : "" = value := Option.some.inj same
        simp at opens
      | some written =>
        rw [isValue] at same
        obtain rfl : Written.resolve environ earlier written = value := Option.some.inj same
        exact never binding (by simp) isName.symm written isValue earlier opens
    · exact other

end Owned

/-! ### Values without variables -/

theorem expand_of_plain (lookup : String → Option String) {text : List Char} (plain : '$' ∉ text) :
    expand lookup text = text := by
  induction text with
  | nil => rfl
  | cons char text ih =>
    rw [List.mem_cons, not_or] at plain
    rw [expand_cons lookup (Ne.symm plain.1), ih plain.2]

theorem standForThemselves_of_plain {environ : String → Option String} {pairs : List (String × String)}
    (plain : ∀ pair ∈ pairs, '$' ∉ pair.2.toList) {earlier : Dict String (Option String)} :
    StandForThemselves environ earlier pairs := by
  induction pairs generalizing earlier with
  | nil => trivial
  | cons pair pairs ih =>
    exact ⟨expand_of_plain _ (plain pair List.mem_cons_self),
      ih fun other inside => plain other (List.mem_cons_of_mem _ inside)⟩

end Dotenv

end ClaudeProxy
