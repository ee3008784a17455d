/-
**Blackout windows** (`core/reliability/helpers.py`).

* `ClockTime`, `Window` — a time of day, and a window of a provider, or of all of them.
* `parsePart`, `parseBlackoutWindows`, `isInBlackout` — the setting is read part by part.
* `Window.print` — how a window is written down.
* `covers_iff` — the two comparisons of a window are one on the circle of a day.
* **`blackout_iff`** — a provider is in a blackout exactly when one of the windows that are written down,
  among whatever else is skipped, is its own and holds the time of day.
-/

import ClaudeProxy.Service.ModelRouter
import Mathlib.Tactic.NormNum

namespace ClaudeProxy

namespace Blackout

/-! ### The setting -/

/-- `str.isdigit`, and `int` of a text. -/
structure DigitText where
  isDigit : String → Bool
  toInt : String → Option Int

/-- `datetime.time`, of an hour and a minute. -/
structure ClockTime where
  hour : Fin 24
  minute : Fin 60
  deriving DecidableEq

/-- Microseconds since midnight. -/
def ClockTime.micros (time : ClockTime) : Nat := (time.hour * 60 + time.minute) * (60 * 10 ^ 6)

/-- A time of day. -/
abbrev DayTime := Fin (24 * 60 * 60 * 10 ^ 6)

structure Window where
  providerId : String
  start : ClockTime
  stop : ClockTime
  deriving DecidableEq

variable (py : DigitText)

/-- `datetime_time(hour, minute)`: a number that is no C integer is too large for it. -/
def datetimeTime (hour minute : Int) : Except PyError ClockTime :=
  let tooLarge (value : Int) : Prop := value < -2147483648 ∨ 2147483648 ≤ value
  if tooLarge hour ∨ tooLarge minute then
    .error (.other "OverflowError" "Python int too large to convert to C int")
  else if hour < 0 ∨ 24 ≤ hour then .error (.valueError "hour must be in 0..23")
  else if minute < 0 ∨ 60 ≤ minute then .error (.valueError "minute must be in 0..59")
  else .ok ⟨Fin.ofNat 24 hour.toNat, Fin.ofNat 60 minute.toNat⟩

/-- `map(int, text.strip().split(":"))`, of two numbers. -/
def twoInts (text : String) : Except PyError (Int × Int) :=
  match Py.split ':' (Py.strip text) with
  | [first, second] =>
    match py.toInt first, py.toInt second with
    | some first, some second => .ok (first, second)
    | _, _ => .error (.valueError "invalid literal for int() with base 10")
  | [_] => .error (.valueError "not enough values to unpack (expected 2, got 1)")
  | _ => .error (.valueError "too many values to unpack (expected 2)")

/-- The two times of a range. -/
def parseTimes (timeRange : String) : Except PyError (ClockTime × ClockTime) := do
  let (startHour, startMinute) ← twoInts py (Py.before '-' timeRange)
  let (endHour, endMinute) ← twoInts py (Py.behind '-' timeRange)
  let startTime ← datetimeTime startHour startMinute
  let endTime ← datetimeTime endHour endMinute
  .ok (startTime, endTime)

/-- The provider of a part, and its range. -/
def providerAndRange (part : String) : String × String :=
  if ':' ∈ part.toList then
    let potentialId := Py.before ':' part
    if py.isDigit (Py.strip potentialId) then ("*", part)
    else (Py.strip potentialId, Py.behind ':' part)
  else ("*", part)

/-- One part: a window, or nothing. A `ValueError` is logged, and another exception is not caught. -/
def parsePart (text : String) : Except PyError (Option Window) :=
  let part := Py.strip text
  if part = "" then .ok none
  else
    let (providerId, range) := providerAndRange py part
    let timeRange := Py.strip range
    if '-' ∉ timeRange.toList then .ok none
    else
      match parseTimes py timeRange with
      | .ok (start, stop) => .ok (some ⟨providerId, start, stop⟩)
      | .error (.valueError _) => .ok none
      | .error error => .error error

def parseBlackoutWindows (blackoutStr : String) : Except PyError (List Window) :=
  if Py.strip blackoutStr = "" then .ok []
  else (((Py.split ',' blackoutStr).mapM (parsePart py)).map fun found => found.filterMap id)

/-- The window is the provider's, and the time is in it. -/
def Window.covers (window : Window) (providerId : String) (currentTime : DayTime) : Bool :=
  (window.providerId = "*" || window.providerId = providerId) &&
    if window.start.micros ≤ window.stop.micros then
      window.start.micros ≤ currentTime.val && currentTime.val ≤ window.stop.micros
    else window.start.micros ≤ currentTime.val || currentTime.val ≤ window.stop.micros

def isInBlackout (providerId blackoutWindowsStr : String) (currentTime : DayTime) :
    Except PyError Bool :=
  (parseBlackoutWindows py blackoutWindowsStr).map fun windows =>
    windows.any (·.covers providerId currentTime)

/-! ### How a window is written down -/

/-- Two digits. -/
def twoDigits (value : Nat) : List Char := [Nat.digitChar (value / 10), Nat.digitChar (value % 10)]

def ClockTime.print (time : ClockTime) : List Char :=
  twoDigits time.hour ++ ':' :: twoDigits time.minute

def Window.print (window : Window) : String :=
  String.ofList (window.providerId.toList ++ ':' :: (window.start.print ++ '-' :: window.stop.print))

/-- A provider's name is written as it is. -/
structure Plain (providerId : String) : Prop where
  noComma : ',' ∉ providerId.toList
  noColon : ':' ∉ providerId.toList
  stripped : Py.strip providerId = providerId
  named : py.isDigit providerId = false

/-- `int` reads two digits. -/
def ReadsDigits : Prop := ∀ value < 60, py.toInt (String.ofList (twoDigits value)) = some (value : Int)

/-- A part of the setting: a window that is written down, or a text that is skipped. -/
inductive Part where
  | written (window : Window)
  | skipped (text : String)

def Part.print : Part → String
  | .written window => window.print
  | .skipped text => text

/-- The window of a part. -/
def Part.window? : Part → Option Window
  | .written window => some window
  | .skipped _ => none

/-- A part is one: it has no comma, and it is a window or is skipped. -/
def Part.Valid : Part → Prop
  | .written window => Plain py window.providerId
  | .skipped text => ',' ∉ text.toList ∧ parsePart py text = .ok none

/-- **The time of day lies on the arc** that leads from one time forward to another one. -/
def OnArc (start stop current : Nat) : Prop :=
  ((current : Int) - start) % (24 * 60 * 60 * 10 ^ 6) ≤ ((stop : Int) - start) % (24 * 60 * 60 * 10 ^ 6)

/-! ### Splitting -/

theorem splitAll_of_notMem {mark : Char} {chars : List Char} (absent : mark ∉ chars) :
    Py.splitAll mark chars = [chars] := by
  induction chars with
  | nil => rfl
  | cons char rest ih =>
    rw [Py.splitAll, if_neg (Ne.symm (List.ne_of_not_mem_cons absent)),
      ih (List.not_mem_of_not_mem_cons absent)]

theorem splitAll_append {mark : Char} {front : List Char} (absent : mark ∉ front) (back : List Char) :
    Py.splitAll mark (front ++ mark :: back) = front :: Py.splitAll mark back := by
  induction front with
  | nil => exact if_pos rfl
  | cons char rest ih =>
    rw [List.cons_append, Py.splitAll, if_neg (Ne.symm (List.ne_of_not_mem_cons absent)),
      ih (List.not_mem_of_not_mem_cons absent)]

theorem toList_join (part next : String) (rest : List String) :
    (Py.join "," (part :: next :: rest)).toList =
      part.toList ++ ',' :: (Py.join "," (next :: rest)).toList := by
  rw [Py.join, String.intercalate_cons_cons]
  simp [Py.join]

/-- Parts that were joined are split again. -/
theorem split_join {part : String} {parts : List String}
    (absent : ∀ other ∈ part :: parts, ',' ∉ other.toList) :
    Py.split ',' (Py.join "," (part :: parts)) = part :: parts := by
  induction parts generalizing part with
  | nil =>
    rw [Py.join_singleton, Py.split, splitAll_of_notMem (absent part List.mem_cons_self)]
    simp
  | cons next rest ih =>
    have later := @ih next fun other member => absent other (List.mem_cons_of_mem _ member)
    rw [Py.split, toList_join, splitAll_append (absent part List.mem_cons_self), List.map_cons,
      String.ofList_toList]
    exact congrArg (part :: ·) later

theorem before_append {mark : Char} {front : List Char} (absent : mark ∉ front) (back : List Char) :
    Py.before mark (String.ofList (front ++ mark :: back)) = String.ofList front := by
  rw [Py.before, String.toList_ofList, List.takeWhile_append_of_pos, List.takeWhile_cons_of_neg,
    List.append_nil]
  · simp
  · intro char member
    exact decide_eq_true fun same => absent (same ▸ member)

theorem behind_append {mark : Char} {front : List Char} (absent : mark ∉ front) (back : List Char) :
    Py.behind mark (String.ofList (front ++ mark :: back)) = String.ofList back := by
  rw [Py.behind, String.toList_ofList, List.dropWhile_append_of_pos, List.dropWhile_cons_of_neg]
  · rfl
  · simp
  · intro char member
    exact decide_eq_true fun same => absent (same ▸ member)

/-! ### Digits -/

theorem digitChar_plain : ∀ digit < 10, Py.isSpace (Nat.digitChar digit) = false ∧
    Nat.digitChar digit ≠ ':' ∧ Nat.digitChar digit ≠ '-' ∧ Nat.digitChar digit ≠ ',' := by
  decide

/-- What is written of a time: four digits, with a colon between them. -/
theorem print_cases (time : ClockTime) : ∃ first second third fourth,
    (∀ digit ∈ [first, second, third, fourth], digit < 10) ∧
      time.print = [Nat.digitChar first, Nat.digitChar second, ':', Nat.digitChar third,
        Nat.digitChar fourth] := by
  refine ⟨time.hour / 10, time.hour % 10, time.minute / 10, time.minute % 10, ?_, rfl⟩
  have hour := time.hour.isLt
  have minute := time.minute.isLt
  intro digit member
  simp only [List.mem_cons, List.not_mem_nil, or_false] at member
  omega

theorem strip_print (time : ClockTime) :
    Py.strip (String.ofList time.print) = String.ofList time.print := by
  obtain ⟨first, second, third, fourth, small, print⟩ := print_cases time
  rw [print]
  refine @Py.strip_of_visible _ _ [Nat.digitChar second, ':', Nat.digitChar third] ?_ ?_
  · exact (digitChar_plain first (small first (by simp))).1
  · exact (digitChar_plain fourth (small fourth (by simp))).1

theorem notMem_twoDigits {value : Nat} (small : value < 60) {mark : Char}
    (special : mark = ':' ∨ mark = '-' ∨ mark = ',') : mark ∉ twoDigits value := by
  have tens := digitChar_plain (value / 10) (by omega)
  have ones := digitChar_plain (value % 10) (by omega)
  unfold twoDigits
  rw [List.mem_pair]
  rintro (same | same)
  · rcases special with rfl | rfl | rfl
    · exact tens.2.1 same.symm
    · exact tens.2.2.1 same.symm
    · exact tens.2.2.2 same.symm
  · rcases special with rfl | rfl | rfl
    · exact ones.2.1 same.symm
    · exact ones.2.2.1 same.symm
    · exact ones.2.2.2 same.symm

theorem notMem_print (time : ClockTime) {mark : Char} (special : mark = '-' ∨ mark = ',') :
    mark ∉ time.print := by
  have hour := @notMem_twoDigits time.hour (by omega) _ (Or.inr special)
  have minute := @notMem_twoDigits time.minute (by omega) _ (Or.inr special)
  have colon : mark ≠ ':' := by rcases special with rfl | rfl <;> decide
  unfold ClockTime.print
  simp [hour, minute, colon]

/-! ### Reading back -/

variable {py}

theorem twoInts_print (reads : ReadsDigits py) (time : ClockTime) :
    twoInts py (String.ofList time.print) = .ok (time.hour, time.minute) := by
  have hour := @notMem_twoDigits time.hour (by omega) ':' (Or.inl rfl)
  have minute := @notMem_twoDigits time.minute (by omega) ':' (Or.inl rfl)
  have parts : Py.split ':' (String.ofList time.print) =
      [String.ofList (twoDigits time.hour), String.ofList (twoDigits time.minute)] := by
    rw [Py.split, String.toList_ofList, ClockTime.print, splitAll_append hour,
      splitAll_of_notMem minute]
    rfl
  rw [twoInts, strip_print, parts]
  dsimp only
  rw [reads _ (by omega), reads _ (by omega)]

theorem datetimeTime_of_time (time : ClockTime) :
    datetimeTime time.hour time.minute = .ok time := by
  obtain ⟨⟨hour, hourSmall⟩, ⟨minute, minuteSmall⟩⟩ := time
  unfold datetimeTime
  dsimp only
  rw [if_neg (by omega), if_neg (by omega), if_neg (by omega)]
  refine congrArg Except.ok ?_
  rw [ClockTime.mk.injEq]
  exact ⟨Fin.ext (Nat.mod_eq_of_lt hourSmall), Fin.ext (Nat.mod_eq_of_lt minuteSmall)⟩

theorem parseTimes_print (reads : ReadsDigits py) (start stop : ClockTime) :
    parseTimes py (String.ofList (start.print ++ '-' :: stop.print)) = .ok (start, stop) := by
  have absent := @notMem_print start '-' (Or.inl rfl)
  unfold parseTimes
  rw [before_append absent, behind_append absent, twoInts_print reads, twoInts_print reads]
  show (datetimeTime start.hour start.minute >>= fun startTime =>
    datetimeTime stop.hour stop.minute >>= fun endTime => .ok (startTime, endTime)) = _
  rw [datetimeTime_of_time, datetimeTime_of_time]
  rfl

/-- A name that nothing is stripped of begins visibly. -/
theorem head_visible {name : String} (stripped : Py.strip name = name) {first : Char} {rest : List Char}
    (chars : name.toList = first :: rest) : Py.isSpace first = false := by
  by_contra blank
  rw [Bool.not_eq_false] at blank
  have shorter : (Py.strip name).toList.length ≤ rest.length := by
    rw [Py.strip, String.toList_ofList, chars, List.dropWhile_cons_of_pos blank, List.length_reverse]
    refine (List.dropWhile_sublist _).length_le.trans ?_
    rw [List.length_reverse]
    exact (List.dropWhile_sublist _).length_le
  rw [stripped, chars] at shorter
  exact absurd shorter (Nat.not_succ_le_self _)

/-- Nothing is stripped of a window that is written down. -/
theorem strip_window {window : Window} (stripped : Py.strip window.providerId = window.providerId) :
    Py.strip window.print = window.print := by
  obtain ⟨first, second, third, fourth, small, print⟩ := print_cases window.stop
  have ends := (digitChar_plain fourth (small fourth (by simp))).1
  unfold Window.print
  rw [print]
  cases chars : window.providerId.toList with
  | nil =>
    exact @Py.strip_of_visible ':' (Nat.digitChar fourth)
      (window.start.print ++ '-' :: [Nat.digitChar first, Nat.digitChar second, ':',
        Nat.digitChar third]) rfl ends |> fun same => by simpa using same
  | cons letter rest =>
    have begins := head_visible stripped chars
    have same := @Py.strip_of_visible letter (Nat.digitChar fourth)
      (rest ++ ':' :: (window.start.print ++ '-' :: [Nat.digitChar first, Nat.digitChar second, ':',
        Nat.digitChar third])) begins ends
    simpa using same

/-- **A window that is written down is read back.** -/
theorem parsePart_print (reads : ReadsDigits py) {window : Window} (plain : Plain py window.providerId) :
    parsePart py window.print = .ok (some window) := by
  obtain ⟨-, noColon, stripped, named⟩ := plain
  have nonempty : window.print ≠ "" := by
    unfold Window.print
    intro nothing
    simpa using congrArg String.toList nothing
  have range : providerAndRange py window.print =
      (window.providerId, String.ofList (window.start.print ++ '-' :: window.stop.print)) := by
    unfold providerAndRange Window.print
    dsimp only
    rw [before_append noColon, behind_append noColon, String.ofList_toList, stripped, named]
    simp
  have rangeStrip : Py.strip (String.ofList (window.start.print ++ '-' :: window.stop.print)) =
      String.ofList (window.start.print ++ '-' :: window.stop.print) := by
    obtain ⟨first, second, third, fourth, small, print⟩ := print_cases window.start
    obtain ⟨first', second', third', fourth', small', print'⟩ := print_cases window.stop
    rw [print, print']
    exact @Py.strip_of_visible _ _ [Nat.digitChar second, ':', Nat.digitChar third,
      Nat.digitChar fourth, '-', Nat.digitChar first', Nat.digitChar second', ':',
      Nat.digitChar third'] (digitChar_plain first (small first (by simp))).1
      (digitChar_plain fourth' (small' fourth' (by simp))).1
  unfold parsePart
  rw [strip_window stripped]
  dsimp only
  rw [if_neg nonempty, range]
  dsimp only
  rw [rangeStrip, if_neg (by simp), parseTimes_print reads]

/-- The comma stays away from a window. -/
theorem noComma_window {window : Window} (noComma : ',' ∉ window.providerId.toList) :
    ',' ∉ window.print.toList := by
  have start := @notMem_print window.start ',' (Or.inr rfl)
  have stop := @notMem_print window.stop ',' (Or.inr rfl)
  unfold Window.print
  simp [noComma, start, stop]

/-! ### All parts -/

theorem noComma_part {part : Part} (valid : part.Valid py) : ',' ∉ part.print.toList := by
  cases part with
  | written window => exact noComma_window valid.noComma
  | skipped text => exact valid.1

theorem parsePart_part (reads : ReadsDigits py) {part : Part} (valid : part.Valid py) :
    parsePart py part.print = .ok part.window? := by
  cases part with
  | written window => exact parsePart_print reads valid
  | skipped text => exact valid.2

theorem mapM_parts (reads : ReadsDigits py) {parts : List Part} (valid : ∀ part ∈ parts, part.Valid py) :
    (parts.map Part.print).mapM (parsePart py) = .ok (parts.map Part.window?) := by
  induction parts with
  | nil => rfl
  | cons part rest ih =>
    rw [List.map_cons, List.mapM_cons, parsePart_part reads (valid part List.mem_cons_self),
      ih fun other member => valid other (List.mem_cons_of_mem _ member)]
    rfl

omit py in
/-- What is in a part is in what is joined. -/
theorem mem_join {part : String} {parts : List String} (inside : part ∈ parts) {char : Char}
    (member : char ∈ part.toList) : char ∈ (Py.join "," parts).toList := by
  induction parts with
  | nil => cases inside
  | cons first rest ih =>
    cases rest with
    | nil =>
      rw [Py.join_singleton, ← List.mem_singleton.mp inside]
      exact member
    | cons next rest =>
      rw [toList_join]
      rcases List.mem_cons.mp inside with rfl | later
      · exact List.mem_append_left _ member
      · exact List.mem_append_right _ (List.mem_cons_of_mem _ (ih later))

/-- A setting that is blank has no window. -/
theorem windows_of_blank {parts : List Part} (blank : Py.strip (Py.join "," (parts.map Part.print)) = "") :
    parts.filterMap Part.window? = [] := by
  refine List.filterMap_eq_nil_iff.mpr fun part member => ?_
  cases part with
  | skipped text => rfl
  | written window =>
    exfalso
    have inside : ':' ∈ window.print.toList := by
      unfold Window.print
      simp
    have colon : ':' ∈ (Py.join "," (parts.map Part.print)).toList :=
      mem_join (List.mem_map_of_mem member) inside
    exact nomatch (Py.strip_eq_empty_iff.mp blank) ':' colon

/-- **The windows of a setting** are those that are written in it. -/
theorem parse_parts (reads : ReadsDigits py) {parts : List Part} (valid : ∀ part ∈ parts, part.Valid py) :
    parseBlackoutWindows py (Py.join "," (parts.map Part.print)) =
      .ok (parts.filterMap Part.window?) := by
  unfold parseBlackoutWindows
  split_ifs with blank
  · rw [windows_of_blank blank]
  · cases parts with
    | nil => exact absurd rfl blank
    | cons part rest =>
      have absent : ∀ other ∈ part.print :: rest.map Part.print, ',' ∉ other.toList := by
        intro other member
        obtain ⟨source, inside, rfl⟩ := List.mem_map.mp (show other ∈ (part :: rest).map Part.print from
          member)
        exact noComma_part (valid source inside)
      rw [List.map_cons, split_join absent, ← List.map_cons, mapM_parts reads valid]
      show Except.ok (((part :: rest).map Part.window?).filterMap id) = _
      rw [List.filterMap_map]
      rfl

/-! ### The circle of a day -/

theorem micros_lt (time : ClockTime) : time.micros < 24 * 60 * 60 * 10 ^ 6 := by
  have hour := time.hour.isLt
  have minute := time.minute.isLt
  unfold ClockTime.micros
  omega

/-- **The comparisons of a window** say that the time of day lies on its arc. -/
theorem covers_iff (window : Window) (providerId : String) (currentTime : DayTime) :
    window.covers providerId currentTime = true ↔
      (window.providerId = "*" ∨ window.providerId = providerId) ∧
        OnArc window.start.micros window.stop.micros currentTime := by
  have start := micros_lt window.start
  have stop := micros_lt window.stop
  have current := currentTime.isLt
  unfold Window.covers OnArc
  rw [Bool.and_eq_true, Bool.or_eq_true, decide_eq_true_iff, decide_eq_true_iff]
  refine and_congr_right fun _ => ?_
  norm_num at start stop current ⊢
  split_ifs with forward
  · omega
  · omega

/-- **Blackouts.** Of a setting whose parts are windows that are written down and texts that are skipped,
in any order: a provider is in a blackout exactly when one of the windows is its own, or everyone's, and
the time of day lies on the arc from its start to its end. -/
theorem blackout_iff (reads : ReadsDigits py) {parts : List Part}
    (valid : ∀ part ∈ parts, part.Valid py) (providerId : String) (currentTime : DayTime) :
    ∃ blackout, isInBlackout py providerId (Py.join "," (parts.map Part.print)) currentTime =
        .ok blackout ∧
      (blackout = true ↔ ∃ window, Part.written window ∈ parts ∧
        (window.providerId = "*" ∨ window.providerId = providerId) ∧
        OnArc window.start.micros window.stop.micros currentTime) := by
  refine ⟨_, congrArg (Except.map _) (parse_parts reads valid), ?_⟩
  rw [List.any_eq_true]
  constructor
  · rintro ⟨window, member, covers⟩
    obtain ⟨part, inside, found⟩ := List.mem_filterMap.mp member
    cases part with
    | skipped text => cases found
    | written other =>
      obtain rfl := Option.some.inj found
      exact ⟨other, inside, (covers_iff _ _ _).mp covers⟩
  · rintro ⟨window, inside, covers⟩
    exact ⟨window, List.mem_filterMap.mpr ⟨_, inside, rfl⟩, (covers_iff _ _ _).mpr covers⟩

/-- ASCII digits. -/
def asciiDigits : DigitText where
  isDigit text := text ≠ "" && text.toList.all Char.isDigit
  toInt text :=
    match text.toList with
    | [tens, ones] =>
      if tens.isDigit ∧ ones.isDigit then some ((tens.toNat - 48) * 10 + (ones.toNat - 48)) else none
    | _ => none

/-- A window over midnight, an hour before it, behind a text that is skipped. -/
theorem nightWindow_blackout :
    isInBlackout asciiDigits "groq" "closed,groq:22:00-06:30" ⟨23 * 60 * 60 * 10 ^ 6, by decide⟩ =
      .ok true := by
  obtain ⟨blackout, found, same⟩ := @blackout_iff asciiDigits (by unfold ReadsDigits; decide +kernel)
    [.skipped "closed", .written ⟨"groq", ⟨22, 0⟩, ⟨6, 30⟩⟩]
    (by
      intro part member
      rcases List.mem_pair.mp member with rfl | rfl
      · exact ⟨by decide, by decide +kernel⟩
      · exact ⟨by decide, by decide, by decide +kernel, by decide⟩)
    "groq" ⟨23 * 60 * 60 * 10 ^ 6, by decide⟩
  have here : blackout = true := same.mpr
    ⟨_, List.mem_cons_of_mem _ (List.mem_singleton_self _), .inr rfl, by unfold OnArc; decide⟩
  rw [here] at found
  refine Eq.trans ?_ found
  decide +kernel

end Blackout

end ClaudeProxy
