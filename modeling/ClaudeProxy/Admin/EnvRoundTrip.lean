/-
**When the admin's env file gives back its values.**

A value that begins with a single quote and is written without double ones is lost, whatever the
other values are: no line behind it can assign its key such a value again.

* `value_ne_singleQuoted` — the line itself reads something else;
* `fieldLine_owned`, `section_owned` — the lines behind it assign such values to their own keys only;
* `not_readsBack` — so the value is not read back;
* **`renderEnvFile_exact`** — when the values of a file are those it was written with, and what the
  next write then writes.
-/

import ClaudeProxy.Admin.EnvFile
import ClaudeProxy.Library.Assignments

namespace ClaudeProxy

namespace AdminConfig

open Dotenv (PlainKey Reads Binding Owned Closed Suspicious isBlank)

/-! ### The line of a value in single quotes -/

/-- Single quotes that close on the line hold less than the line. -/
theorem length_singleQuoted {front more inner behind : List Char}
    (read : Dotenv.singleQuoted (front ++ '\n' :: more) = some (inner, behind)) :
    '\n' ∈ inner ∨ inner.length < front.length := by
  unfold Dotenv.singleQuoted at read
  generalize isText : front ++ '\n' :: more = text at read
  fun_induction Dotenv.quoted '\'' Dotenv.escapedSingle text generalizing front inner behind with
  | case1 => simp at read
  | case2 =>
    rcases front with _ | ⟨first, front⟩
    · simp at isText
    · simp at isText
  | case3 => simp at read
  | case4 next rest =>
    obtain ⟨rfl, -⟩ := Prod.mk.inj (Option.some.inj read)
    rcases front with _ | ⟨first, front⟩
    · simp at isText
    · exact .inr (by simp)
  | case5 next rest _ ih =>
    obtain ⟨parts, isParts, same⟩ := Option.map_eq_some_iff.mp read
    obtain ⟨rfl, rfl⟩ := Prod.mk.inj same
    rcases front with _ | ⟨first, _ | ⟨second, front⟩⟩
    · simp at isText
    · obtain rfl : '\n' = next := by simpa using (List.cons.inj (List.cons.inj isText).2).1
      exact .inl (by simp [Dotenv.escapedSingle])
    · have isRest : front ++ '\n' :: more = rest := (List.cons.inj (List.cons.inj isText).2).2
      rcases ih isRest isParts with inside | shorter
      · exact .inl (by simp [inside])
      · refine .inr ?_
        have short : (Dotenv.escapedSingle next).length ≤ 2 := by
          unfold Dotenv.escapedSingle
          split <;> simp
        simp only [List.length_append, List.length_cons]
        omega
  | case6 char next rest _ _ ih =>
    obtain ⟨parts, isParts, same⟩ := Option.map_eq_some_iff.mp read
    obtain ⟨rfl, rfl⟩ := Prod.mk.inj same
    rcases front with _ | ⟨first, front⟩
    · obtain ⟨rfl, -⟩ := List.cons.inj isText
      exact .inl (by simp)
    · have isRest : front ++ '\n' :: more = next :: rest := (List.cons.inj isText).2
      rcases ih isRest isParts with inside | shorter
      · exact .inl (by simp [inside])
      · exact .inr (by simpa using shorter)

theorem break_notMem_of_not_needsQuotes {value : String} (bare : needsQuotes value = false) :
    ∀ char ∈ value.toList, Dotenv.isBreak char = false := fun char member =>
  Dotenv.isBreak_of_isPlain (isPlain_of_not_needsQuotes bare char member)

/-- **The line reads something else** than the value it was written with. -/
theorem ne_of_singleQuoted {value : String} {inner more : List Char}
    {parts : List Char × List Char} (bare : needsQuotes value = false)
    (isValue : value.toList = '\'' :: inner)
    (read : Dotenv.singleQuoted (inner ++ '\n' :: more) = some parts) :
    parts.1 ≠ value.toList := by
  intro same
  rcases length_singleQuoted read with inside | shorter
  · exact absurd (break_notMem_of_not_needsQuotes bare '\n' (same ▸ inside)) (by decide)
  · rw [same, isValue, List.length_cons] at shorter
    omega

/-! ### The lines behind it -/

/-- The value holds no assignment of a variable. -/
def AssignsNoVariable (value : String) : Prop :=
  ∀ front rest, value.toList = front ++ '=' :: rest → (rest.dropWhile isBlank).head? ≠ some '$'

theorem flatMap_escape_eq {text front rest : List Char}
    (same : text.flatMap Dotenv.escape = front ++ '=' :: rest) :
    ∃ before after, text = before ++ '=' :: after ∧ rest = after.flatMap Dotenv.escape := by
  induction text generalizing front with
  | nil => simp at same
  | cons char text ih =>
    by_cases special : char = '\\' ∨ char = '"'
    · have pair : Dotenv.escape char = ['\\', char] := if_pos special
      rw [List.flatMap_cons, pair] at same
      rcases front with _ | ⟨first, _ | ⟨second, front⟩⟩
      · simp at same
      · simp at same
        obtain ⟨-, rfl, -⟩ := same
        exact absurd special (by decide)
      · simp only [List.cons_append, List.nil_append, List.cons.injEq] at same
        obtain ⟨before, after, rfl, isRest⟩ := ih same.2.2
        exact ⟨char :: before, after, rfl, isRest⟩
    · have single : Dotenv.escape char = [char] := if_neg special
      rw [List.flatMap_cons, single] at same
      rcases front with _ | ⟨first, front⟩
      · simp only [List.cons_append, List.nil_append, List.cons.injEq] at same
        exact ⟨[], text, by rw [same.1]; rfl, same.2.symm⟩
      · simp only [List.cons_append, List.nil_append, List.cons.injEq] at same
        obtain ⟨before, after, rfl, isRest⟩ := ih same.2
        exact ⟨char :: before, after, rfl, isRest⟩

theorem dropWhile_escape (text more : List Char) :
    (text.flatMap Dotenv.escape ++ '"' :: more).dropWhile isBlank =
      (text.dropWhile isBlank).flatMap Dotenv.escape ++ '"' :: more := by
  induction text with
  | nil => simp [isBlank, Py.isSpace]
  | cons char text ih =>
    cases blank : isBlank char with
    | true =>
      have single : Dotenv.escape char = [char] := by
        refine if_neg ?_
        rintro (rfl | rfl) <;> exact absurd blank (by decide)
      rw [List.flatMap_cons, single, List.append_assoc, List.singleton_append,
        List.dropWhile_cons_of_pos blank, List.dropWhile_cons_of_pos blank, ih]
    | false =>
      rw [List.dropWhile_cons_of_neg (by simp [blank])]
      by_cases special : char = '\\' ∨ char = '"'
      · have pair : Dotenv.escape char = ['\\', char] := if_pos special
        rw [List.flatMap_cons, pair]
        simp [isBlank, Py.isSpace]
      · have single : Dotenv.escape char = [char] := if_neg special
        rw [List.flatMap_cons, single, List.append_assoc, List.singleton_append,
          List.dropWhile_cons_of_neg (by simp [blank])]

/-- Within double quotes nothing is suspicious, up to the line's end. -/
theorem not_suspicious_escape {text : List Char} (plain : text.head? ≠ some '$') :
    ¬ Suspicious (text.flatMap Dotenv.escape ++ ['"', '\n']) := by
  have first : ∀ char : Char, (Dotenv.escape char).head? = some '\\' ∨
      Dotenv.escape char = [char] ∧ char ≠ '\\' ∧ char ≠ '"' := by
    intro char
    by_cases special : char = '\\' ∨ char = '"'
    · exact .inl (by rw [Dotenv.escape, if_pos special]; rfl)
    · exact .inr ⟨if_neg special, not_or.mp special⟩
  rcases text with _ | ⟨char, text⟩
  · rintro (isPrefix | opens | ⟨other, rest, same, notBreak⟩)
    · simp [List.cons_prefix_cons] at isPrefix
    · simp at opens
    · simp at same
      exact notBreak same.1.symm
  · rcases first char with backslash | ⟨single, notBackslash, notQuote⟩
    · obtain ⟨tail, isTail⟩ := List.head?_eq_some_iff.mp backslash
      rw [List.flatMap_cons, isTail]
      rintro (isPrefix | opens | ⟨other, rest, same, notBreak⟩)
      · simp [List.cons_prefix_cons] at isPrefix
      · simp at opens
      · simp at same
    · rw [List.flatMap_cons, single]
      rintro (isPrefix | opens | ⟨other, rest, same, notBreak⟩)
      · rcases text with _ | ⟨next, text⟩
        · simp [List.cons_prefix_cons] at isPrefix
        · have tailPrefix := (List.cons_prefix_cons.mp isPrefix).2
          rw [List.flatMap_cons] at tailPrefix
          by_cases special : next = '\\' ∨ next = '"'
          · rw [Dotenv.escape, if_pos special] at tailPrefix
            obtain rfl | rfl := special <;> simp [List.cons_prefix_cons] at tailPrefix
          · rw [Dotenv.escape, if_neg special] at tailPrefix
            have isNext := (List.cons_prefix_cons.mp tailPrefix).1
            exact special (.inl isNext.symm)
      · exact plain (by simpa using opens)
      · simp only [List.cons_append, List.cons.injEq] at same
        exact notQuote same.1

section Lines

variable {values : Dict String String} {keys : List (List Char)}

theorem closed_fieldLine (field : ConfigFieldSpec) :
    Closed ((fieldLine values false field).toList ++ ['\n']) := ⟨_, rfl⟩

/-- **A line assigns such a value to its own key only.** -/
theorem fieldLine_owned {field : ConfigFieldSpec} (isKey : PlainKey field.key.toList)
    (member : field.key.toList ∈ keys) (noVariable : AssignsNoVariable (valueOf values field)) :
    Owned keys ((fieldLine values false field).toList ++ ['\n']) := by
  intro front assignment same suspicious
  have isText : field.key.toList ++ '=' :: ((quoteEnvValue (valueOf values field)).toList ++ ['\n']) =
      front ++ '=' :: assignment := by
    rw [← same, toList_fieldLine]
    simp
  have noSign : '=' ∉ field.key.toList := fun inside =>
    absurd (isKey.plain '=' inside) (by decide)
  rcases List.append_eq_append_iff.mp isText with ⟨middle, isFront, isRest⟩ | ⟨middle, isName, -⟩
  · cases middle with
    | nil => exact ⟨[], _, member, by simpa using isFront, by simp⟩
    | cons sign middle =>
      obtain rfl := (List.cons.inj isRest).1
      have isTail : (quoteEnvValue (valueOf values field)).toList ++ ['\n'] =
          middle ++ '=' :: assignment := (List.cons.inj isRest).2
      exfalso
      cases bare : needsQuotes (valueOf values field) with
      | true =>
        rw [toList_quoteEnvValue_of_needsQuotes bare] at isTail
        have inner : (valueOf values field).toList.flatMap Dotenv.escape ++ ['"', '\n'] =
            middle.drop 1 ++ '=' :: assignment := by
          cases middle with
          | nil => simp at isTail
          | cons quote middle => simpa using (List.cons.inj isTail).2
        rcases List.append_eq_append_iff.mp inner with ⟨more, -, isEnd⟩ | ⟨more, isMore, isEnd⟩
        · rcases more with _ | ⟨first, _ | ⟨second, more⟩⟩
          · simp at isEnd
          · simp at isEnd
          · simp at isEnd
        · cases more with
          | nil => simp at isEnd
          | cons sign more =>
            obtain rfl := (List.cons.inj isEnd).1
            obtain ⟨before, after, isValue, isAfter⟩ := flatMap_escape_eq isMore
            have isAssignment : assignment = after.flatMap Dotenv.escape ++ '"' :: ['\n'] := by
              rw [← isAfter]
              exact (List.cons.inj isEnd).2
            rw [isAssignment, dropWhile_escape] at suspicious
            exact not_suspicious_escape (noVariable before after isValue) suspicious
      | false =>
        rw [quoteEnvValue_of_bare bare] at isTail
        have inside : '=' ∈ (valueOf values field).toList ++ ['\n'] := by
          rw [isTail]
          simp
        have inValue : '=' ∈ (valueOf values field).toList := by simpa using inside
        have quoted : needsQuotes (valueOf values field) = true := by
          simp [needsQuotes, inValue]
        exact absurd (bare.symm.trans quoted) (by decide)
  · cases middle with
    | nil => exact ⟨[], _, member, by simpa using isName.symm, by simp⟩
    | cons sign middle =>
      exact absurd (by simp_all) noSign

theorem owned_flatMap {α : Type} {pieces : List α} {text : α → List Char} {rest : List Char}
    (owned : ∀ piece ∈ pieces, Owned keys (text piece)) (closed : ∀ piece, Closed (text piece))
    (ownedRest : Owned keys rest) : Owned keys (pieces.flatMap text ++ rest) := by
  induction pieces with
  | nil => exact ownedRest
  | cons piece pieces ih =>
    rw [List.flatMap_cons, List.append_assoc]
    exact (owned piece (by simp)).append (ih fun other member => owned other (by simp [member]))
      (closed piece)

end Lines

/-! ### The file -/

section File

variable {manifest : Manifest} {values : Dict String String} {keys : List (List Char)}

theorem section_owned {group : ConfigSectionSpec} (isGroup : group ∈ manifest.SECTIONS)
    (owned : ∀ field ∈ manifest.fieldsBySection group.sectionId,
      Owned keys ((fieldLine values false field).toList ++ ['\n'])) :
    Owned keys (sectionText manifest values group) := by
  have label : Owned keys (linesText ["", "# " ++ group.label]) := by
    refine Owned.of_notMem ?_
    simpa [linesText] using (manifest.plainLabels group isGroup).assignsNothing
  have closed : Closed (linesText ["", "# " ++ group.label]) :=
    ⟨'\n' :: ("# " ++ group.label).toList, by simp [linesText]⟩
  have lines := owned_flatMap owned closed_fieldLine (Owned.of_notMem (List.not_mem_nil (a := '=')))
  rw [List.append_nil] at lines
  exact label.append lines closed

theorem closed_sectionText (group : ConfigSectionSpec) : Closed (sectionText manifest values group) := by
  rw [sectionText]
  rcases List.eq_nil_or_concat (manifest.fieldsBySection group.sectionId) with
    empty | ⟨fields, field, isFields⟩
  · exact ⟨'\n' :: ("# " ++ group.label).toList, by simp [empty, linesText]⟩
  · exact ⟨linesText ["", "# " ++ group.label] ++ (fields.flatMap fun other =>
      (fieldLine values false other).toList ++ ['\n']) ++ (fieldLine values false field).toList,
      by simp [isFields]⟩

/-- The file around the first line that is misread. -/
structure MisreadAt (manifest : Manifest) (values : Dict String String) (front : List Char)
    (items : List (Option Binding)) (before : List ConfigFieldSpec) (field : ConfigFieldSpec)
    (after : List ConfigFieldSpec) (rest : List Char) : Prop where
  isText : (renderEnvFile manifest values false).toList =
    front ++ ((fieldLine values false field).toList ++ '\n' :: rest)
  isFile : fileFields manifest = before ++ field :: after
  reads : Reads front items
  bound : (items.filterMap id).map Binding.key = before.map ConfigFieldSpec.key
  opens : OpensSingleQuote (valueOf values field)
  owned : (∀ other ∈ manifest.FIELDS, AssignsNoVariable (valueOf values other)) →
    Owned (after.map fun other => other.key.toList) rest

theorem exists_first {α : Type} {holds : α → Prop} {list : List α} (found : ∃ item ∈ list, holds item) :
    ∃ front item back, list = front ++ item :: back ∧ holds item ∧ ∀ other ∈ front, ¬ holds other := by
  induction list with
  | nil => simp at found
  | cons first list ih =>
    by_cases here : holds first
    · exact ⟨[], first, list, rfl, here, by simp⟩
    · obtain ⟨item, member, holdsItem⟩ := found
      have later : item ∈ list := by
        rcases List.mem_cons.mp member with rfl | later
        · exact absurd holdsItem here
        · exact later
      obtain ⟨front, other, back, rfl, holdsOther, none_before⟩ := ih ⟨item, later, holdsItem⟩
      exact ⟨first :: front, other, back, rfl, holdsOther, by simpa [here] using none_before⟩

theorem keys_settingItems (fields : List ConfigFieldSpec) :
    ((fields.flatMap fun field => [settingItem values field]).filterMap id).map Binding.key =
      fields.map ConfigFieldSpec.key := by
  induction fields with
  | nil => rfl
  | cons field fields ih =>
    rw [List.flatMap_cons, List.filterMap_append, List.map_append, ih]
    rfl

theorem keys_sectionItems (groups : List ConfigSectionSpec) :
    ((groups.flatMap (sectionItems manifest values)).filterMap id).map Binding.key =
      (groups.flatMap fun group => manifest.fieldsBySection group.sectionId).map
        ConfigFieldSpec.key := by
  induction groups with
  | nil => rfl
  | cons group groups ih =>
    rw [List.flatMap_cons, List.flatMap_cons, List.filterMap_append, List.map_append, ih,
      List.map_append, sectionItems, List.filterMap_cons_none rfl, keys_settingItems]

/-- There is a first line that is misread, if there is one. -/
theorem exists_misreadAt (opens : ¬ NoneOpensSingleQuote manifest values) :
    ∃ front items before field after rest,
      MisreadAt manifest values front items before field after rest := by
  obtain ⟨someField, isSome, opensSome⟩ : ∃ field ∈ manifest.FIELDS,
      OpensSingleQuote (valueOf values field) := by
    simpa [NoneOpensSingleQuote] using opens
  obtain ⟨someGroup, isGroup, inside⟩ := List.mem_flatMap.mp (mem_fileFields.mpr isSome)
  obtain ⟨groups, group, others, isSections, ⟨inGroup, isInGroup, opensIn⟩, cleanGroups⟩ :=
    @exists_first _ (fun group => ∃ field ∈ manifest.fieldsBySection group.sectionId,
      OpensSingleQuote (valueOf values field)) _ ⟨someGroup, isGroup, someField, inside, opensSome⟩
  obtain ⟨fields, field, more, isFields, opensHere, clean⟩ :=
    @exists_first _ (fun field => OpensSingleQuote (valueOf values field)) _
      ⟨inGroup, isInGroup, opensIn⟩
  have member : ∀ other ∈ groups ++ group :: others, other ∈ manifest.SECTIONS := by
    simp [isSections]
  have inFields : ∀ other ∈ fields ++ field :: more, other ∈ manifest.FIELDS := fun other isOther =>
    (mem_fieldsBySection.mp (isFields ▸ isOther)).1
  refine ⟨linesText ["# Managed by Free Claude Code /admin.", "# Edit in the server UI when possible."]
      ++ groups.flatMap (sectionText manifest values) ++ (linesText ["", "# " ++ group.label] ++
        fields.flatMap fun other => (fieldLine values false other).toList ++ ['\n']),
    [none, none] ++ groups.flatMap (sectionItems manifest values) ++
      ([none] ++ fields.flatMap fun other => [settingItem values other]),
    (groups.flatMap fun group => manifest.fieldsBySection group.sectionId) ++ fields, field,
    more ++ others.flatMap fun group => manifest.fieldsBySection group.sectionId,
    (more.flatMap fun other => (fieldLine values false other).toList ++ ['\n']) ++
      others.flatMap (sectionText manifest values), ?_, ?_, ?_, ?_, opensHere, ?_⟩
  · rw [renderEnvFile_text, linesText_bodyLines, isSections, List.flatMap_append, List.flatMap_cons]
    simp [sectionText, isFields]
  · rw [fileFields, isSections, List.flatMap_append, List.flatMap_cons, isFields]
    simp
  · refine (header_reads.append (Reads.flatMap fun other isOther => ?_)).append
      ((label_reads (member group (by simp))).append (Reads.flatMap fun other isOther => ?_))
    · exact section_reads (member other (by simp [isOther])) fun inner isInner opensInner =>
        cleanGroups other isOther ⟨inner, isInner, opensInner⟩
    · exact fieldLine_reads (manifest.plainKeys other (inFields other (by simp [isOther])))
        (clean other isOther)
  · rw [List.filterMap_append, List.filterMap_append, List.map_append, List.map_append,
      keys_sectionItems, List.filterMap_append, List.map_append, keys_settingItems]
    simp
  · intro noVariable
    have line : ∀ other ∈ manifest.FIELDS, other ∈ more ++ (others.flatMap fun group =>
        manifest.fieldsBySection group.sectionId) →
          Owned ((more ++ others.flatMap fun group => manifest.fieldsBySection group.sectionId).map
            fun other => other.key.toList) ((fieldLine values false other).toList ++ ['\n']) :=
      fun other isField isAfter => fieldLine_owned (manifest.plainKeys other isField)
        (List.mem_map.mpr ⟨other, isAfter, rfl⟩) (noVariable other isField)
    refine owned_flatMap (fun other isOther => line other (inFields other (by simp [isOther]))
      (by simp [isOther])) closed_fieldLine ?_
    rw [← List.append_nil (others.flatMap (sectionText manifest values))]
    refine owned_flatMap (fun other isOther => ?_) closed_sectionText (Owned.of_notMem (by simp))
    refine section_owned (member other (by simp [isOther])) fun inner isInner => ?_
    exact line inner (mem_fieldsBySection.mp isInner).1
      (List.mem_append_right _ (List.mem_flatMap.mpr ⟨other, isOther, isInner⟩))

/-- What is left behind the line is what follows it, or less. -/
theorem owned_behindLine {line rest last : List Char} (owned : Owned keys rest)
    (plain : ∀ key ∈ keys, PlainKey key) (oneLine : ∀ char ∈ line, Dotenv.isBreak char = false)
    (suffix : last <:+ line ++ '\n' :: rest) : Owned keys (Dotenv.behindLine last) := by
  obtain ⟨front, same⟩ := suffix
  rcases List.append_eq_append_iff.mp same with ⟨middle, isLine, rfl⟩ | ⟨middle, -, isRest⟩
  · rw [Dotenv.behindLine_append fun char member => oneLine char (by simp [isLine, member])]
    exact owned
  · cases middle with
    | nil =>
      obtain rfl : '\n' :: rest = last := isRest
      rw [show Dotenv.behindLine ('\n' :: rest) = rest from
        @Dotenv.behindLine_append [] (by simp) rest]
      exact owned
    | cons char middle =>
      obtain rfl : rest = middle ++ last := (List.cons.inj isRest).2
      exact owned.behindLine (List.suffix_append _ _) fun key member =>
        (plain key member).oneLine

/-- **A value that is lost** is lost whatever the other values are. -/
theorem not_readsBack {environ : String → Option String}
    (opens : ¬ NoneOpensSingleQuote manifest values)
    (noVariable : ∀ field ∈ manifest.FIELDS, AssignsNoVariable (valueOf values field)) :
    ¬ ReadsBack environ manifest values := by
  intro back
  obtain ⟨front, items, before, field, after, rest, misread⟩ := exists_misreadAt opens
  have inFile : ∀ other ∈ before ++ field :: after, other ∈ manifest.FIELDS := fun other isOther =>
    mem_fileFields.mp (misread.isFile ▸ isOther)
  have isField := inFile field (by simp)
  have isKey := manifest.plainKeys field isField
  obtain ⟨head, bare⟩ := misread.opens
  obtain ⟨inner, isInner⟩ : ∃ inner, (valueOf values field).toList = '\'' :: inner :=
    List.head?_eq_some_iff.mp head
  have isLine : (fieldLine values false field).toList ++ '\n' :: rest =
      field.key.toList ++ '=' :: '\'' :: (inner ++ '\n' :: rest) := by
    rw [toList_fieldLine, quoteEnvValue_of_bare bare, isInner]
    simp
  obtain ⟨⟨item, behind⟩, read⟩ : ∃ found, Dotenv.entry
      (field.key.toList ++ '=' :: '\'' :: (inner ++ '\n' :: rest)) = some found :=
    ⟨_, isKey.entry_eq _⟩
  obtain ⟨last, suffix, isBehind, -⟩ := Dotenv.entry_eq_behindLine read
  have plain : ∀ key ∈ after.map fun other => other.key.toList, PlainKey key := by
    intro key member
    obtain ⟨other, isOther, rfl⟩ := List.mem_map.mp member
    exact manifest.plainKeys other (inFile other (by simp [isOther]))
  have line : ∀ char ∈ field.key.toList ++ '=' :: '\'' :: inner, Dotenv.isBreak char = false := by
    have inValue := break_notMem_of_not_needsQuotes bare
    rw [isInner] at inValue
    intro char member
    rcases List.mem_append.mp member with inKey | inRest
    · exact isKey.oneLine char inKey
    · rcases List.mem_cons.mp inRest with rfl | isRest
      · decide
      · exact inValue char isRest
  have ownedBehind : Owned (after.map fun other => other.key.toList) behind := by
    rw [isBehind]
    refine owned_behindLine (misread.owned noVariable) plain line ?_
    simpa using suffix
  have distinct : ((before ++ field :: after).map ConfigFieldSpec.key).Nodup := by
    have nodup := @nodup_written manifest values
    rwa [written, List.map_map, misread.isFile] at nodup
  have stranger : field.key.toList ∉ after.map fun other => other.key.toList := by
    intro member
    obtain ⟨other, isOther, sameKey⟩ := List.mem_map.mp member
    rw [List.map_append, List.map_cons] at distinct
    have fresh := (List.nodup_cons.mp (List.nodup_append.mp distinct).2.1).1
    exact fresh (List.mem_map.mpr ⟨other, isOther, String.toList_inj.mp sameKey⟩)
  have notBefore : field.key ∉ (items.filterMap id).map Binding.key := by
    rw [misread.bound]
    intro member
    rw [List.map_append, List.map_cons] at distinct
    exact (List.nodup_append.mp distinct).2.2 _ member _ List.mem_cons_self rfl
  have entries : Dotenv.entries (renderEnvFile manifest values false).toList =
      items ++ item :: Dotenv.entries behind := by
    rw [misread.isText, misread.reads, isLine, Dotenv.entries_of_entry read]
  have value := back.settings field isField
  rw [dotenvValuesFromText, Dict.get?_map, Dotenv.dotenvValues, entries, Dotenv.resolve,
    List.filterMap_append, List.foldl_append] at value
  have nothing : ((items.filterMap id).foldl (Dotenv.add environ) ∅).get? field.key = none :=
    Dotenv.get?_foldl_add notBefore ∅
  rcases isKey.entry_singleQuoted _ read with rfl | ⟨parts, isParts, rfl⟩
  · rw [List.filterMap_cons_none rfl] at value
    refine ownedBehind.get?_foldl plain stranger head _ ?_ value
    rw [nothing]
    simp
  · rw [List.filterMap_cons_some (f := id) rfl, List.foldl_cons] at value
    refine ownedBehind.get?_foldl plain stranger head _ ?_ value
    rw [Dotenv.add, String.ofList_toList, Dict.get?_set_self]
    intro same
    refine ne_of_singleQuoted bare isInner isParts ?_
    rw [← Option.some.inj same]
    simp [Dotenv.Written.resolve]

end File

/-! ### The round trip -/

/-- **When the env file gives back its values**, and what that means for the next write.

The lines are read as they were written exactly when no value begins with a single quote unless it is
written in double ones. The values are then the written ones exactly when each stands for itself; if
a line is misread, and no value holds the assignment of a variable, some value is lost. -/
theorem renderEnvFile_exact (manifest : Manifest) (values : Dict String String)
    (environ : String → Option String) :
    (Dotenv.entries (renderEnvFile manifest values false).toList = writtenItems manifest values ↔
      NoneOpensSingleQuote manifest values) ∧
    ((NoneOpensSingleQuote manifest values ∨
        ∀ field ∈ manifest.FIELDS, AssignsNoVariable (valueOf values field)) →
      (ReadsBack environ manifest values ↔ NoneOpensSingleQuote manifest values ∧
        Dotenv.StandForThemselves environ ∅ (written manifest values))) ∧
    (ReadsBack environ manifest values →
      ∀ world : World, world.environ = environ →
        world.managedEnv = some (renderEnvFile manifest values false) →
          ∀ (strOf : Json → String) (updates : List (String × Json)), Untouched manifest updates →
            ∀ field ∈ manifest.FIELDS,
              (targetValuesWithUpdates manifest world strOf updates).get? field.key =
                some (valueOf values field)) := by
  refine ⟨entries_renderEnvFile_iff, fun covered => ⟨fun back => ?_, ?_⟩, ?_⟩
  · have clean : NoneOpensSingleQuote manifest values := by
      rcases covered with clean | noVariable
      · exact clean
      · by_contra opens
        exact not_readsBack opens noVariable back
    exact ⟨clean, (readsBack_iff clean).mp back⟩
  · rintro ⟨clean, stand⟩
    exact (readsBack_iff clean).mpr stand
  · rintro back world rfl managed strOf updates untouched field member
    exact second_write back managed untouched member

/-- The settings with a value each. -/
def Manifest.valuesOf (manifest : Manifest) (value : ConfigFieldSpec → String) :
    Dict String String where
  entries := manifest.FIELDS.map fun field => (field.key, value field)
  nodupKeys := by
    rw [List.map_map]
    exact manifest.distinctKeys

theorem Manifest.valueOf_valuesOf {manifest : Manifest} (value : ConfigFieldSpec → String)
    {field : ConfigFieldSpec} (member : field ∈ manifest.FIELDS) :
    valueOf (manifest.valuesOf value) field = value field := by
  have stored : (manifest.valuesOf value).get? field.key = some (value field) :=
    (manifest.valuesOf value).mem_entries_iff.mp (List.mem_map.mpr ⟨field, member, rfl⟩)
  rw [valueOf, stored, Option.getD_some]

/-- The defaults, and a key in single quotes. -/
def quotedKeyValue (field : ConfigFieldSpec) : String :=
  if field.key = "NVIDIA_NIM_API_KEY" then "'abc'" else field.default

/-- A key in single quotes does not come back. -/
theorem quotedKey_lost :
    ¬ ReadsBack (fun _ => none) adminManifest (adminManifest.valuesOf quotedKeyValue) := by
  have defaults : ∀ field ∈ FIELDS, '$' ∉ field.default.toList := by decide +kernel
  refine not_readsBack (fun clean => ?_) fun field member front rest isValue => ?_
  · have first : (⟨"NVIDIA_NIM_API_KEY", "providers", "", true⟩ : ConfigFieldSpec) ∈
        adminManifest.FIELDS := List.mem_cons_self
    refine clean _ first ?_
    rw [Manifest.valueOf_valuesOf _ first]
    decide
  · rw [Manifest.valueOf_valuesOf _ member, quotedKeyValue] at isValue
    intro opens
    have inRest : '$' ∈ rest :=
      (List.dropWhile_suffix isBlank).subset (List.mem_of_head? opens)
    split at isValue
    · have sign : '=' ∈ "'abc'".toList := by simp [isValue]
      exact absurd sign (by decide)
    · exact defaults field member (by simp [isValue, inRest])

end AdminConfig

end ClaudeProxy
