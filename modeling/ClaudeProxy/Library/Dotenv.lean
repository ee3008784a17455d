/-
**The grammar of env files.**

A file is read binding by binding: blank lines and comments in between, `KEY=value` on a line. A
value in quotes may run over several lines; what cannot be read is skipped to the end of its line.

* `doubleQuoted`, `singleQuoted`, `unquoted` — the three ways to write a value;
* `entry`, `entries` — what stands at the front of a text, and all of it;
* `expand`, `resolve` — `${VAR}` in a value is the earlier value of that name, or the environment's;
* **`entry_line`**, `entry_comment`, `entry_space` — a line is read as what its value is read as;
* **`get?_resolve`** — bindings whose values stand for themselves resolve to what they are.
-/

import ClaudeProxy.Library.Dict
import ClaudeProxy.Library.Framing
import ClaudeProxy.Python
import Mathlib.Data.List.DropRight

namespace ClaudeProxy

namespace Dotenv

open Py (isSpace)

/-! ### Characters -/

/-- A line ends here. -/
def isBreak (char : Char) : Bool := char = '\n' || char = '\r'

/-- Whitespace within a line. -/
def isBlank (char : Char) : Bool := isSpace char && !isBreak char

/-- A character of a key that stands without quotes. -/
def isKeyChar (char : Char) : Bool := !(char = '=' || char = '#' || isSpace char)

/-- The text behind the line. -/
def behindLine (text : List Char) : List Char := (text.dropWhile fun char => !isBreak char).drop 1

/-! ### The values of a file -/

/-- A value as it is written: only without quotes or in double ones does `${VAR}` mean anything. -/
inductive Written where
  | literal (text : List Char)
  | expandable (text : List Char)
  deriving DecidableEq

/-- What a backslash and this character stand for in double quotes. -/
def escaped (char : Char) : List Char :=
  match char with
  | '\\' => ['\\']
  | '\'' => ['\'']
  | '"' => ['"']
  | 'a' => ['\x07']
  | 'b' => ['\x08']
  | 'f' => ['\x0c']
  | 'n' => ['\n']
  | 'r' => ['\r']
  | 't' => ['\t']
  | 'v' => ['\x0b']
  | other => ['\\', other]

/-- What they stand for in single quotes. -/
def escapedSingle (char : Char) : List Char :=
  if char = '\\' ∨ char = '\'' then [char] else ['\\', char]

/-- The text up to the closing quote, with its escapes decoded, and the text behind the quote. A backslash
always takes the next character along. The real reader looks for the last quote that no backslash stands
directly in front of: where an escaped backslash stands before the closing quote and another quote
follows in the file, it reads on to that one. -/
def quoted (quote : Char) (decode : Char → List Char) : List Char → Option (List Char × List Char)
  | [] => none
  | [char] => if char = quote then some ([], []) else none
  | char :: next :: rest =>
    if char = quote then some ([], next :: rest)
    else if char = '\\' then
      (quoted quote decode rest).map fun parts => (decode next ++ parts.1, parts.2)
    else (quoted quote decode (next :: rest)).map fun parts => (char :: parts.1, parts.2)

/-- Double quotes. -/
def doubleQuoted : List Char → Option (List Char × List Char) := quoted '"' escaped

/-- Single quotes. -/
def singleQuoted : List Char → Option (List Char × List Char) := quoted '\'' escapedSingle

/-- The text before whitespace and a `#`. -/
def beforeComment : List Char → List Char
  | [] => []
  | char :: rest =>
    if isSpace char ∧ (rest.dropWhile isSpace).head? = some '#' then []
    else char :: beforeComment rest

/-- A value without quotes: the line, without the comment and the whitespace before it. -/
def unquoted (text : List Char) : List Char :=
  (beforeComment (text.takeWhile fun char => !isBreak char)).rdropWhile isSpace

/-- The value at the front of a text. -/
def value (text : List Char) : Option (Written × List Char) :=
  match text with
  | '\'' :: rest => (singleQuoted rest).map fun parts => (.literal parts.1, parts.2)
  | '"' :: rest => (doubleQuoted rest).map fun parts => (.expandable parts.1, parts.2)
  | _ => some (.expandable (unquoted text), text.dropWhile fun char => !isBreak char)

/-! ### Bindings -/

/-- A key, with its value if there is a `=`. -/
structure Binding where
  key : String
  value : Option Written
  deriving DecidableEq

/-- Whether the line ends here, but for whitespace and a comment. -/
def lineEnds (text : List Char) : Bool :=
  match text.dropWhile isBlank with
  | [] => true
  | char :: _ => isBreak char || char = '#'

/-- A line may begin with `export`. -/
def withoutExport (text : List Char) : List Char :=
  if "export".toList <+: text ∧ (text.drop 6).head?.any isBlank then (text.drop 6).dropWhile isBlank
  else text

/-- The key at the front of a text. -/
def key (text : List Char) : Option (List Char × List Char) :=
  match text with
  | '\'' :: rest =>
    match rest.dropWhile (· ≠ '\'') with
    | [] => none
    | _ :: behind =>
      if (rest.takeWhile (· ≠ '\'')).isEmpty then none
      else some (rest.takeWhile (· ≠ '\''), behind)
  | _ =>
    if (text.takeWhile isKeyChar).isEmpty then none
    else some (text.takeWhile isKeyChar, text.dropWhile isKeyChar)

/-- The value behind a key. -/
def assigned (text : List Char) : Option (Option Written × List Char) :=
  match text.dropWhile isBlank with
  | '=' :: rest => (value (rest.dropWhile isBlank)).map fun parts => (some parts.1, parts.2)
  | rest => some (none, rest)

/-- What a line holds, and the text behind it: a comment, and what cannot be read, holds nothing. -/
def line (text : List Char) : Option Binding × List Char :=
  match key (withoutExport text) with
  | none => (none, behindLine (withoutExport text))
  | some (name, rest) =>
    match assigned rest with
    | none => (none, behindLine rest)
    | some (written, behind) =>
      (if lineEnds behind then some ⟨String.ofList name, written⟩ else none, behindLine behind)

/-- The first line that is not empty. -/
def entry (text : List Char) : Option (Option Binding × List Char) :=
  match text.dropWhile isSpace with
  | [] => none
  | char :: rest => some (line (char :: rest))

/-- All the lines. -/
def entries (text : List Char) : List (Option Binding) := (Framing.drain entry text).1

/-! ### Interpolation -/

/-- A part of a value. -/
inductive Atom where
  | plain (char : Char)
  | variable (name default : List Char)
  deriving DecidableEq

/-- The placeholder `${name}` or `${name:-default}` at the front of a text. -/
def placeholder? (text : List Char) : Option (Atom × List Char) :=
  if "$\x7b".toList <+: text then
    match (text.drop 2).dropWhile fun char => !(char = '\x7d' || char = ':') with
    | '\x7d' :: rest =>
      some (.variable ((text.drop 2).takeWhile fun char => !(char = '\x7d' || char = ':')) [], rest)
    | ':' :: '-' :: rest =>
      match rest.dropWhile (· ≠ '\x7d') with
      | _ :: behind =>
        some (.variable ((text.drop 2).takeWhile fun char => !(char = '\x7d' || char = ':'))
          (rest.takeWhile (· ≠ '\x7d')), behind)
      | [] => none
    | _ => none
  else none

/-- The part at the front of a text. -/
def atom (text : List Char) : Option (Atom × List Char) :=
  match text with
  | [] => none
  | char :: rest => some ((placeholder? (char :: rest)).getD (.plain char, rest))

section Resolve

variable (environ : String → Option String)

/-- What a part stands for. -/
def Atom.resolve (lookup : String → Option String) : Atom → List Char
  | .plain char => [char]
  | .variable name default => ((lookup (String.ofList name)).elim default String.toList)

/-- The text with its placeholders filled in. -/
def expand (lookup : String → Option String) (text : List Char) : List Char :=
  (Framing.drain atom text).1.flatMap (Atom.resolve lookup)

/-- A name means the value it already has in the file, or else the environment's. -/
def lookup (earlier : Dict String (Option String)) (name : String) : Option String :=
  match earlier.get? name with
  | some value => some (value.getD "")
  | none => environ name

/-- A value as it was written, read. -/
def Written.resolve (earlier : Dict String (Option String)) : Written → String
  | .literal text => String.ofList text
  | .expandable text => String.ofList (expand (lookup environ earlier) text)

/-- A binding is added. -/
def add (earlier : Dict String (Option String)) (binding : Binding) :
    Dict String (Option String) :=
  earlier.set binding.key (binding.value.map (Written.resolve environ earlier))

/-- The values of the bindings. -/
def resolve (bindings : List Binding) : Dict String (Option String) :=
  bindings.foldl (add environ) ∅

/-- `dotenv_values`. -/
def dotenvValues (text : String) : Dict String (Option String) :=
  resolve environ ((entries text.toList).filterMap id)

end Resolve

/-! ### Every entry takes something off the text -/

theorem isSpace_of_isBreak {char : Char} (breaks : isBreak char = true) : isSpace char = true := by
  simp only [isBreak, Bool.or_eq_true, decide_eq_true_eq] at breaks
  obtain rfl | rfl := breaks <;> decide

theorem behindLine_suffix (text : List Char) : behindLine text <:+ text :=
  (List.drop_suffix _ _).trans (List.dropWhile_suffix _)

theorem withoutExport_suffix (text : List Char) : withoutExport text <:+ text := by
  unfold withoutExport
  split
  · exact (List.dropWhile_suffix _).trans (List.drop_suffix _ _)
  · exact List.suffix_rfl

theorem quoted_suffix {quote : Char} {decode : Char → List Char} {text inner behind : List Char}
    (read : quoted quote decode text = some (inner, behind)) : behind <:+ text := by
  fun_induction quoted quote decode text generalizing inner behind with
  | case1 => simp at read
  | case2 => grind
  | case3 => simp at read
  | case4 => grind
  | case5 next rest _ ih =>
    obtain ⟨parts, isParts, same⟩ := Option.map_eq_some_iff.mp read
    have tail : parts.2 <:+ rest := ih isParts
    obtain ⟨-, rfl⟩ := Prod.mk.inj same
    exact tail.trans ((List.suffix_cons next rest).trans (List.suffix_cons _ _))
  | case6 char next rest _ _ ih =>
    obtain ⟨parts, isParts, same⟩ := Option.map_eq_some_iff.mp read
    have tail : parts.2 <:+ next :: rest := ih isParts
    obtain ⟨-, rfl⟩ := Prod.mk.inj same
    exact tail.trans (List.suffix_cons _ _)

theorem value_suffix {text behind : List Char} {written : Written}
    (read : value text = some (written, behind)) : behind <:+ text := by
  unfold value at read
  split at read
  · rename_i rest
    obtain ⟨parts, isParts, same⟩ := Option.map_eq_some_iff.mp read
    obtain ⟨-, rfl⟩ := Prod.mk.inj same
    exact (quoted_suffix isParts).trans (List.suffix_cons _ _)
  · rename_i rest
    obtain ⟨parts, isParts, same⟩ := Option.map_eq_some_iff.mp read
    obtain ⟨-, rfl⟩ := Prod.mk.inj same
    exact (quoted_suffix isParts).trans (List.suffix_cons _ _)
  · obtain ⟨-, rfl⟩ := Prod.mk.inj (Option.some.inj read)
    exact List.dropWhile_suffix _

theorem assigned_suffix {text behind : List Char} {written : Option Written}
    (read : assigned text = some (written, behind)) : behind <:+ text := by
  have front : text.dropWhile isBlank <:+ text := List.dropWhile_suffix _
  unfold assigned at read
  split at read
  · rename_i rest isRest
    obtain ⟨parts, isParts, same⟩ := Option.map_eq_some_iff.mp read
    obtain ⟨-, rfl⟩ := Prod.mk.inj same
    rw [isRest] at front
    exact (value_suffix isParts).trans ((List.dropWhile_suffix _).trans
      ((List.suffix_cons _ _).trans front))
  · obtain ⟨-, rfl⟩ := Prod.mk.inj (Option.some.inj read)
    exact front

theorem key_shorter {text name behind : List Char} (read : key text = some (name, behind)) :
    behind <:+ text ∧ behind.length < text.length := by
  unfold key at read
  split at read
  · rename_i rest
    split at read
    · simp at read
    · rename_i quote tail isTail
      have suffix : rest.dropWhile (· ≠ '\'') <:+ rest := List.dropWhile_suffix _
      rw [isTail] at suffix
      have less := suffix.length_le
      split at read
      · simp at read
      · obtain ⟨-, rfl⟩ := Prod.mk.inj (Option.some.inj read)
        refine ⟨(List.suffix_cons _ _).trans (suffix.trans (List.suffix_cons _ _)), ?_⟩
        simp only [List.length_cons] at less ⊢
        omega
  · split at read
    · simp at read
    · rename_i some_key
      obtain ⟨-, rfl⟩ := Prod.mk.inj (Option.some.inj read)
      refine ⟨List.dropWhile_suffix _, ?_⟩
      have whole := congrArg List.length (List.takeWhile_append_dropWhile (p := isKeyChar) (l := text))
      have visible : 0 < (text.takeWhile isKeyChar).length := by
        simpa [List.length_pos_iff] using some_key
      simp only [List.length_append] at whole
      omega

theorem behindLine_length_lt {text : List Char} (visible : text ≠ []) :
    (behindLine text).length < text.length := by
  have shorter := (List.dropWhile_suffix (l := text) fun char => !isBreak char).length_le
  have positive := List.length_pos_iff.mpr visible
  rw [behindLine, List.length_drop]
  omega

/-- A line is read up to its end. -/
theorem line_eq_behindLine {text : List Char} (visible : text ≠ []) :
    ∃ last, last <:+ text ∧ (line text).2 = behindLine last ∧
      (behindLine last).length < text.length := by
  have front := withoutExport_suffix text
  have positive := List.length_pos_iff.mpr visible
  unfold line
  split
  · refine ⟨withoutExport text, front, rfl, ?_⟩
    rcases eq_or_ne (withoutExport text) [] with nothing | something
    · rw [nothing]
      exact positive
    · exact (behindLine_length_lt something).trans_le front.length_le
  · rename_i name rest isKey
    obtain ⟨behindKey, less⟩ := key_shorter isKey
    have enough := front.length_le
    split
    · exact ⟨rest, behindKey.trans front, rfl,
        (behindLine_suffix rest).length_le.trans_lt (less.trans_le enough)⟩
    · rename_i written behind isWritten
      have tail := assigned_suffix isWritten
      exact ⟨behind, tail.trans (behindKey.trans front), rfl,
        ((behindLine_suffix behind).trans tail).length_le.trans_lt (less.trans_le enough)⟩

theorem entry_eq_behindLine {text rest : List Char} {item : Option Binding}
    (read : entry text = some (item, rest)) :
    ∃ last, last <:+ text ∧ rest = behindLine last ∧ rest.length < text.length := by
  have front := List.dropWhile_suffix (l := text) isSpace
  unfold entry at read
  split at read
  · simp at read
  · rename_i char tail isTail
    obtain ⟨last, suffix, isRest, shorter⟩ := line_eq_behindLine (List.cons_ne_nil char tail)
    rw [Option.some.inj read] at isRest
    rw [← isTail] at suffix shorter
    obtain rfl : rest = behindLine last := isRest
    exact ⟨last, suffix.trans front, rfl, shorter.trans_le front.length_le⟩

theorem entry_shrinks : Framing.Shrinks entry := by
  intro text item rest read
  obtain ⟨_, _, _, shorter⟩ := entry_eq_behindLine read
  exact shorter

theorem placeholder?_shorter {text rest : List Char} {item : Atom}
    (read : placeholder? text = some (item, rest)) : rest.length < text.length := by
  unfold placeholder? at read
  split at read
  · rename_i opens
    have enough : 2 ≤ text.length := by simpa using opens.length_le
    have front := (List.dropWhile_suffix (l := text.drop 2)
      fun char => !(char = '\x7d' || char = ':')).length_le
    rw [List.length_drop] at front
    split at read
    · rename_i tail isTail
      obtain ⟨-, rfl⟩ := Prod.mk.inj (Option.some.inj read)
      rw [isTail, List.length_cons] at front
      omega
    · rename_i tail isTail
      have inner := (List.dropWhile_suffix (l := tail) (· ≠ '\x7d')).length_le
      split at read
      · rename_i behind isBehind
        obtain ⟨-, rfl⟩ := Prod.mk.inj (Option.some.inj read)
        rw [isTail, List.length_cons, List.length_cons] at front
        rw [isBehind, List.length_cons] at inner
        omega
      · simp at read
    · simp at read
  · simp at read

theorem atom_shrinks : Framing.Shrinks atom := by
  intro text item rest read
  unfold atom at read
  split at read
  · simp at read
  · rename_i char tail
    cases inside : placeholder? (char :: tail) with
    | none =>
      rw [inside] at read
      obtain ⟨-, rfl⟩ := Prod.mk.inj (Option.some.inj read)
      exact Nat.lt_succ_self _
    | some found =>
      rw [inside] at read
      rw [Option.getD_some, Option.some.injEq] at read
      exact placeholder?_shorter (inside.trans (congrArg Option.some read))

/-! ### Lines -/

theorem entries_of_entry {text rest : List Char} {item : Option Binding}
    (read : entry text = some (item, rest)) : entries text = item :: entries rest := by
  rw [entries, Framing.drain_of_some entry_shrinks read]
  rfl

/-- Whitespace between the lines does not matter. -/
theorem entry_space {char : Char} (blank : isSpace char = true) (text : List Char) :
    entry (char :: text) = entry text := by
  rw [entry, entry, List.dropWhile_cons_of_pos blank]

theorem entries_space {char : Char} (blank : isSpace char = true) (text : List Char) :
    entries (char :: text) = entries text := by
  cases read : entry text with
  | none =>
    rw [entries, entries, Framing.drain_of_none read, Framing.drain_of_none]
    rw [entry_space blank, read]
  | some pair =>
    obtain ⟨item, rest⟩ := pair
    rw [entries_of_entry read, entries_of_entry ((entry_space blank text).trans read)]

theorem entry_of_visible {char : Char} (visible : isSpace char = false) (text : List Char) :
    entry (char :: text) = some (line (char :: text)) := by
  rw [entry, List.dropWhile_cons_of_neg (by simp [visible])]

theorem behindLine_append {text : List Char} (oneLine : ∀ char ∈ text, isBreak char = false)
    (rest : List Char) : behindLine (text ++ '\n' :: rest) = rest := by
  have front : (text ++ '\n' :: rest).dropWhile (fun char => !isBreak char) = '\n' :: rest := by
    rw [List.dropWhile_append_of_pos (by simpa using oneLine)]
    rfl
  rw [behindLine, front]
  rfl

/-- A comment holds nothing. -/
theorem entry_comment {comment : List Char} (oneLine : ∀ char ∈ comment, isBreak char = false)
    (rest : List Char) : entry ('#' :: comment ++ '\n' :: rest) = some (none, rest) := by
  have plain : withoutExport ('#' :: comment ++ '\n' :: rest) = '#' :: comment ++ '\n' :: rest := by
    rw [withoutExport, if_neg]
    simp
  have noKey : key ('#' :: comment ++ '\n' :: rest) = none := by
    simp [key, isKeyChar]
  rw [List.cons_append, entry_of_visible (by decide), ← List.cons_append, line, plain, noKey]
  simp only
  rw [behindLine_append]
  simpa using ⟨by decide, oneLine⟩

/-! ### Assignments -/

/-- A key that needs no quotes. -/
structure PlainKey (name : List Char) : Prop where
  nonempty : name ≠ []
  plain : ∀ char ∈ name, isKeyChar char = true
  unquoted : '\'' ∉ name

namespace PlainKey

variable {name : List Char}

theorem takeWhile (isKey : PlainKey name) (text : List Char) :
    (name ++ '=' :: text).takeWhile isKeyChar = name := by
  rw [List.takeWhile_append_of_pos isKey.plain]
  simp [isKeyChar]

theorem dropWhile (isKey : PlainKey name) (text : List Char) :
    (name ++ '=' :: text).dropWhile isKeyChar = '=' :: text := by
  rw [List.dropWhile_append_of_pos isKey.plain]
  simp [isKeyChar]

theorem key_eq (isKey : PlainKey name) (text : List Char) :
    key (name ++ '=' :: text) = some (name, '=' :: text) := by
  have visible : ((name ++ '=' :: text).takeWhile isKeyChar).isEmpty = false := by
    simpa [isKey.takeWhile] using isKey.nonempty
  unfold key
  split
  · rename_i rest isText
    obtain ⟨first, behind, rfl⟩ := List.exists_cons_of_ne_nil isKey.nonempty
    obtain ⟨rfl, -⟩ := List.cons.inj isText
    exact absurd List.mem_cons_self isKey.unquoted
  · rw [if_neg (by simp [visible]), isKey.takeWhile, isKey.dropWhile]

/-- A key that begins with `export` is not taken for the word. -/
theorem withoutExport_eq (isKey : PlainKey name) (text : List Char) :
    withoutExport (name ++ '=' :: text) = name ++ '=' :: text := by
  rw [withoutExport, if_neg]
  rintro ⟨⟨tail, isText⟩, blank⟩
  have behind : (name ++ '=' :: text).drop 6 = tail := by rw [← isText]; rfl
  rw [behind] at blank
  rcases List.append_eq_append_iff.mp isText with ⟨more, isName, isTail⟩ | ⟨more, isWord, isRest⟩
  · cases more with
    | nil => simp [isTail, isBlank, Py.isSpace] at blank
    | cons char more =>
      have keyChar := isKey.plain char (by simp [isName])
      simp_all [isBlank, isKeyChar]
  · cases more with
    | nil => simp [← show '=' :: text = tail from isRest, isBlank, Py.isSpace] at blank
    | cons char more =>
      obtain ⟨rfl, -⟩ := List.cons.inj isRest
      have inside : '=' ∈ "export".toList := by simp [isWord]
      exact absurd inside (by decide)

theorem oneLine (isKey : PlainKey name) : ∀ char ∈ name, isBreak char = false := by
  intro char member
  by_contra breaks
  have space := isSpace_of_isBreak (by simpa using breaks)
  simpa [isKeyChar, space] using isKey.plain char member

/-- An assignment is what its value is read as. -/
theorem entry_eq (isKey : PlainKey name) (text : List Char) :
    entry (name ++ '=' :: text) =
      some (match value (text.dropWhile isBlank) with
        | none => (none, behindLine ('=' :: text))
        | some (written, behind) =>
          (if lineEnds behind then some ⟨String.ofList name, some written⟩ else none,
            behindLine behind)) := by
  obtain ⟨first, more, isName⟩ := List.exists_cons_of_ne_nil isKey.nonempty
  have visible : isSpace first = false := by
    have keyChar := isKey.plain first (by simp [isName])
    simp_all [isKeyChar]
  have opened : entry (name ++ '=' :: text) = some (line (name ++ '=' :: text)) := by
    rw [isName, List.cons_append]
    exact entry_of_visible visible _
  rw [opened, line, isKey.withoutExport_eq, isKey.key_eq]
  have front : ('=' :: text).dropWhile isBlank = '=' :: text := by simp [isBlank, Py.isSpace]
  simp only [assigned, front]
  cases value (text.dropWhile isBlank) <;> rfl

end PlainKey

/-! ### Keys of capital letters -/

/-- The bytes of a text. -/
def bytes (text : String) : List Nat := text.toByteArray.data.toList.map UInt8.toNat

theorem bytes_eq (text : String) :
    bytes text = text.toList.flatMap fun char => (String.utf8EncodeChar char).map UInt8.toNat := by
  rw [bytes, ← String.utf8Encode_toList]
  simp [List.utf8Encode, List.map_flatMap]

/-- In a text of single bytes a character is its byte. -/
theorem toNat_mem_bytes {text : String} {char : Char} (ascii : ∀ byte ∈ bytes text, byte < 128)
    (member : char ∈ text.toList) : char.toNat ∈ bytes text := by
  have inside : ∀ byte ∈ (String.utf8EncodeChar char).map UInt8.toNat, byte ∈ bytes text := by
    intro byte isByte
    rw [bytes_eq]
    exact List.mem_flatMap.mpr ⟨char, member, isByte⟩
  by_cases small : char.toNat ≤ 127
  · apply inside
    have single : String.utf8EncodeChar char = [UInt8.ofNat char.toNat] := if_pos small
    have fits : char.toNat % 256 = char.toNat := Nat.mod_eq_of_lt (by omega)
    simp [single, fits]
  · have least : ∃ byte ∈ (String.utf8EncodeChar char).map UInt8.toNat, 128 ≤ byte := by
      have wide : ¬ char.val.toNat ≤ 0x7f := small
      simp only [String.utf8EncodeChar, wide, if_false]
      split
      · exact ⟨_, List.mem_cons_self, by simp; omega⟩
      · split
        · exact ⟨_, List.mem_cons_self, by simp; omega⟩
        · exact ⟨_, List.mem_cons_self, by simp; omega⟩
    obtain ⟨byte, isByte, large⟩ := least
    exact absurd (ascii byte (inside byte isByte)) (by omega)

/-- Capital letters, digits and underscores. -/
def isConstant (name : String) : Bool :=
  bytes name != [] && (bytes name).all fun byte =>
    (48 ≤ byte && byte ≤ 57) || (65 ≤ byte && byte ≤ 90) || byte == 95

theorem PlainKey.of_isConstant {name : String} (constant : isConstant name = true) :
    PlainKey name.toList := by
  obtain ⟨visible, letters⟩ : bytes name ≠ [] ∧ ∀ byte ∈ bytes name,
      (48 ≤ byte ∧ byte ≤ 57 ∨ 65 ≤ byte ∧ byte ≤ 90) ∨ byte = 95 := by
    simpa [isConstant] using constant
  have ascii : ∀ byte ∈ bytes name, byte < 128 := by
    intro byte member
    have := letters byte member
    omega
  have codes : ∀ char ∈ name.toList, (48 ≤ char.toNat ∧ char.toNat ≤ 57 ∨
      65 ≤ char.toNat ∧ char.toNat ≤ 90) ∨ char.toNat = 95 := fun char member =>
    letters _ (toNat_mem_bytes ascii member)
  refine ⟨?_, ?_, ?_⟩
  · intro empty
    rw [bytes_eq, empty] at visible
    exact visible rfl
  · intro char member
    have code := codes char member
    have notEquals : char ≠ '=' := by rintro rfl; revert code; decide
    have notHash : char ≠ '#' := by rintro rfl; revert code; decide
    simp [isKeyChar, notEquals, notHash, Py.isSpace]
    omega
  · intro member
    have code := codes _ member
    revert code
    decide

/-! ### Values -/

/-- How a character is written between double quotes. -/
def escape (char : Char) : List Char :=
  if char = '\\' ∨ char = '"' then ['\\', char] else [char]

/-- What is escaped is read back. -/
theorem doubleQuoted_escape (text rest : List Char) :
    doubleQuoted (text.flatMap escape ++ '"' :: rest) = some (text, rest) := by
  unfold doubleQuoted
  induction text with
  | nil => cases rest <;> simp [quoted]
  | cons char text ih =>
    obtain ⟨next, more, isNext⟩ :
        ∃ next more, text.flatMap escape ++ '"' :: rest = next :: more :=
      List.exists_cons_of_ne_nil (by simp)
    by_cases special : char = '\\' ∨ char = '"'
    · have same : escaped char = [char] := by obtain rfl | rfl := special <;> rfl
      simp [escape, special, quoted, ih, same]
    · obtain ⟨notBackslash, notQuote⟩ := not_or.mp special
      have single : escape char = [char] := if_neg special
      rw [List.flatMap_cons, single, List.append_assoc, List.singleton_append, isNext, quoted,
        if_neg notQuote, if_neg notBackslash, ← isNext, ih]
      rfl

/-- A character that may stand in a value without quotes. -/
def isPlain (char : Char) : Bool := !(char = '#' || isSpace char)

theorem isBreak_of_isPlain {char : Char} (plain : isPlain char = true) : isBreak char = false := by
  by_contra breaks
  have space := isSpace_of_isBreak (by simpa using breaks)
  simp [isPlain, space] at plain

theorem beforeComment_plain {text : List Char} (plain : ∀ char ∈ text, isPlain char = true) :
    beforeComment text = text := by
  induction text with
  | nil => rfl
  | cons char text ih =>
    have here := plain char (by simp)
    have visible : isSpace char = false := by simp_all [isPlain]
    rw [beforeComment, if_neg (by simp [visible]), ih fun other member => plain other (by simp [member])]

theorem unquoted_plain {text : List Char} (plain : ∀ char ∈ text, isPlain char = true)
    (rest : List Char) : unquoted (text ++ '\n' :: rest) = text := by
  have front : (text ++ '\n' :: rest).takeWhile (fun char => !isBreak char) = text := by
    rw [List.takeWhile_append_of_pos fun char member => by
      simpa using isBreak_of_isPlain (plain char member)]
    simp [isBreak]
  rw [unquoted, front, beforeComment_plain plain, List.rdropWhile_eq_self_iff]
  intro visible
  have last := plain _ (List.getLast_mem visible)
  simp_all [isPlain]

/-- A value that needs no quotes is read back. -/
theorem value_plain {text : List Char} (plain : ∀ char ∈ text, isPlain char = true)
    (opens : text.head? ≠ some '\'' ∧ text.head? ≠ some '"') (rest : List Char) :
    value (text ++ '\n' :: rest) = some (.expandable text, '\n' :: rest) := by
  have front : (text ++ '\n' :: rest).dropWhile (fun char => !isBreak char) = '\n' :: rest := by
    rw [List.dropWhile_append_of_pos fun char member => by
      simpa using isBreak_of_isPlain (plain char member)]
    simp [isBreak]
  unfold value
  split
  · rename_i tail isText
    cases text with
    | nil => simp at isText
    | cons char text => simp_all
  · rename_i tail isText
    cases text with
    | nil => simp at isText
    | cons char text => simp_all
  · rw [unquoted_plain plain, front]

namespace PlainKey

variable {name : List Char}

/-- A value in double quotes is read back. -/
theorem entry_doubleQuoted (isKey : PlainKey name) (text rest : List Char) :
    entry (name ++ '=' :: '"' :: text.flatMap escape ++ '"' :: '\n' :: rest) =
      some (some ⟨String.ofList name, some (.expandable text)⟩, rest) := by
  have opened : ('"' :: (text.flatMap escape ++ '"' :: '\n' :: rest)).dropWhile isBlank =
      '"' :: (text.flatMap escape ++ '"' :: '\n' :: rest) := by simp [isBlank, Py.isSpace]
  have read : value ('"' :: (text.flatMap escape ++ '"' :: '\n' :: rest)) =
      some (.expandable text, '\n' :: rest) := by
    rw [value, doubleQuoted_escape]
    rfl
  have ends : lineEnds ('\n' :: rest) = true := by simp [lineEnds, isBlank, isBreak]
  have behind : behindLine ('\n' :: rest) = rest :=
    @behindLine_append [] (by simp) rest
  rw [List.append_assoc, List.cons_append, List.cons_append, isKey.entry_eq, opened, read]
  simp only [ends, behind, if_true]

/-- So is one that needs no quotes. -/
theorem entry_plain (isKey : PlainKey name) {text : List Char}
    (plain : ∀ char ∈ text, isPlain char = true)
    (opens : text.head? ≠ some '\'' ∧ text.head? ≠ some '"') (rest : List Char) :
    entry (name ++ '=' :: text ++ '\n' :: rest) =
      some (some ⟨String.ofList name, some (.expandable text)⟩, rest) := by
  have opened : (text ++ '\n' :: rest).dropWhile isBlank = text ++ '\n' :: rest := by
    cases text with
    | nil => simp [isBlank, isBreak]
    | cons char text =>
      have here := plain char (by simp)
      rw [List.cons_append, List.dropWhile_cons_of_neg]
      simp_all [isPlain, isBlank]
  have ends : lineEnds ('\n' :: rest) = true := by simp [lineEnds, isBlank, isBreak]
  have behind : behindLine ('\n' :: rest) = rest :=
    @behindLine_append [] (by simp) rest
  rw [List.append_assoc, List.cons_append, isKey.entry_eq, opened, value_plain plain opens]
  simp only [ends, behind, if_true]

/-- What begins with a single quote is read up to the next one, or not at all. -/
theorem entry_singleQuoted (isKey : PlainKey name) (text : List Char) {item : Option Binding}
    {rest : List Char} (read : entry (name ++ '=' :: '\'' :: text) = some (item, rest)) :
    item = none ∨ ∃ parts, singleQuoted text = some parts ∧
      item = some ⟨String.ofList name, some (.literal parts.1)⟩ := by
  have opened : ('\'' :: text).dropWhile isBlank = '\'' :: text := by simp [isBlank, Py.isSpace]
  rw [isKey.entry_eq, opened, value] at read
  cases closed : singleQuoted text with
  | none =>
    rw [closed] at read
    simp only [Option.map_none, Option.some.injEq, Prod.mk.injEq] at read
    exact .inl read.1.symm
  | some parts =>
    rw [closed] at read
    simp only [Option.map_some, Option.some.injEq, Prod.mk.injEq] at read
    obtain ⟨rfl, -⟩ := read
    split
    · exact .inr ⟨parts, rfl, rfl⟩
    · exact .inl rfl

end PlainKey

/-! ### Files -/

/-- The text is read as the items, whatever follows it. -/
def Reads (text : List Char) (items : List (Option Binding)) : Prop :=
  ∀ rest, entries (text ++ rest) = items ++ entries rest

/-- The text is not read as the items, whatever follows it. -/
def Misreads (text : List Char) (items : List (Option Binding)) : Prop :=
  ∀ rest, ¬ items <+: entries (text ++ rest)

namespace Reads

theorem nil : Reads [] [] := fun _ => rfl

theorem append {first second : List Char} {items more : List (Option Binding)}
    (reads : Reads first items) (readsMore : Reads second more) :
    Reads (first ++ second) (items ++ more) := by
  intro rest
  rw [List.append_assoc, reads, readsMore, List.append_assoc]

theorem of_entry {text : List Char} {item : Option Binding}
    (read : ∀ rest, entry (text ++ rest) = some (item, rest)) : Reads text [item] := by
  intro rest
  rw [entries_of_entry (read rest), List.singleton_append]

/-- A text of pieces is read as they are. -/
theorem flatMap {α : Type} {pieces : List α} {text : α → List Char}
    {items : α → List (Option Binding)} (reads : ∀ piece ∈ pieces, Reads (text piece) (items piece)) :
    Reads (pieces.flatMap text) (pieces.flatMap items) := by
  induction pieces with
  | nil => exact nil
  | cons piece pieces ih =>
    rw [List.flatMap_cons, List.flatMap_cons]
    exact (reads piece (by simp)).append (ih fun other member => reads other (by simp [member]))

end Reads

namespace Misreads

theorem of_entry {text : List Char} {item : Option Binding}
    (read : ∀ rest, ∃ other behind, entry (text ++ rest) = some (other, behind) ∧ other ≠ item) :
    Misreads text [item] := by
  rintro rest ⟨more, same⟩
  obtain ⟨other, behind, isEntry, different⟩ := read rest
  rw [entries_of_entry isEntry, List.singleton_append] at same
  exact different (List.cons.inj same).1.symm

theorem append {text : List Char} {items : List (Option Binding)} (misreads : Misreads text items)
    (more : List Char) (others : List (Option Binding)) :
    Misreads (text ++ more) (items ++ others) := by
  intro rest read
  rw [List.append_assoc] at read
  exact misreads _ ((List.prefix_append _ _).trans read)

theorem prepend {text more : List Char} {items others : List (Option Binding)}
    (reads : Reads text items) (misreads : Misreads more others) :
    Misreads (text ++ more) (items ++ others) := by
  intro rest read
  rw [List.append_assoc, reads] at read
  exact misreads _ ((List.prefix_append_right_inj _).mp read)

/-- A text of pieces is misread from the first piece that is. -/
theorem flatMap {α : Type} {pieces : List α} {text : α → List Char}
    {items : α → List (Option Binding)}
    (either : ∀ piece ∈ pieces, Reads (text piece) (items piece) ∨ Misreads (text piece) (items piece))
    (some_piece : ∃ piece ∈ pieces, Misreads (text piece) (items piece)) :
    Misreads (pieces.flatMap text) (pieces.flatMap items) := by
  induction pieces with
  | nil => simp at some_piece
  | cons piece pieces ih =>
    rw [List.flatMap_cons, List.flatMap_cons]
    rcases either piece (by simp) with reads | misreads
    · obtain ⟨other, member, misreads⟩ := some_piece
      rcases List.mem_cons.mp member with rfl | later
      · exact misreads.append _ _
      · exact prepend reads (ih (fun next isNext => either next (by simp [isNext]))
          ⟨other, later, misreads⟩)
    · exact misreads.append _ _

end Misreads

/-! ### Values that stand for themselves -/

theorem atom_of_ne {char : Char} (plain : char ≠ '$') (text : List Char) :
    atom (char :: text) = some (.plain char, text) := by
  have none_here : placeholder? (char :: text) = none := by
    rw [placeholder?, if_neg]
    rintro ⟨tail, same⟩
    exact plain (List.cons.inj same).1.symm
  rw [atom, none_here]
  rfl

section Resolve

variable (environ : String → Option String)

/-- The bindings of a file of keys and values. -/
def bindings (pairs : List (String × String)) : List Binding :=
  pairs.map fun pair => ⟨pair.1, some (.expandable pair.2.toList)⟩

/-- Every value, with the earlier ones known, stands for itself. -/
def StandForThemselves : Dict String (Option String) → List (String × String) → Prop
  | _, [] => True
  | earlier, (name, text) :: pairs =>
    expand (lookup environ earlier) text.toList = text.toList ∧
      StandForThemselves (earlier.set name (some text)) pairs

variable {environ}

theorem get?_foldl_add {bound : List Binding} {name : String}
    (absent : name ∉ bound.map Binding.key) (earlier : Dict String (Option String)) :
    (bound.foldl (add environ) earlier).get? name = earlier.get? name := by
  induction bound generalizing earlier with
  | nil => rfl
  | cons binding bound ih =>
    obtain ⟨notHere, notLater⟩ := not_or.mp (List.mem_cons.not.mp absent)
    rw [List.foldl_cons, ih notLater, add, Dict.get?_set_ne _ notHere]

/-- **The values that are read are the written ones** exactly when these stand for themselves. -/
theorem get?_resolve_iff {pairs : List (String × String)} (distinct : (pairs.map Prod.fst).Nodup)
    (earlier : Dict String (Option String)) :
    (∀ pair ∈ pairs, (((bindings pairs).foldl (add environ) earlier).get? pair.1).map
        (fun value => value.getD "") = some pair.2) ↔
      StandForThemselves environ earlier pairs := by
  induction pairs generalizing earlier with
  | nil => simp [StandForThemselves]
  | cons pair pairs ih =>
    obtain ⟨name, text⟩ := pair
    obtain ⟨fresh, distinctRest⟩ := List.nodup_cons.mp distinct
    have keys : (bindings pairs).map Binding.key = pairs.map Prod.fst := by simp [bindings]
    have first : (((bindings ((name, text) :: pairs)).foldl (add environ) earlier).get? name).map
        (fun value => value.getD "") =
          some (String.ofList (expand (lookup environ earlier) text.toList)) := by
      rw [bindings, List.map_cons, List.foldl_cons, get?_foldl_add (by simpa [keys] using fresh), add,
        Dict.get?_set]
      simp [Written.resolve]
    have here : some (String.ofList (expand (lookup environ earlier) text.toList)) = some text ↔
        expand (lookup environ earlier) text.toList = text.toList := by
      rw [Option.some.injEq, ← String.toList_inj, String.toList_ofList]
    rw [List.forall_mem_cons, first, here, StandForThemselves]
    refine and_congr_right fun same => ?_
    rw [← ih distinctRest]
    have added : add environ earlier ⟨name, some (.expandable text.toList)⟩ =
        earlier.set name (some text) := by
      rw [add, Option.map_some, Written.resolve, same, String.ofList_toList]
    rw [bindings, List.map_cons, List.foldl_cons, added]
    rfl

end Resolve

end Dotenv

end ClaudeProxy
