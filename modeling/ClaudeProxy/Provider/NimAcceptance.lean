/-
**What a schema accepts once its booleans are removed.**

* `Keeps`, `AddsNothing` — the sanitized form accepts everything that the schema accepts, or nothing
  else.
* `keeps_properties` up to `keeps_oneOf` — when a sanitized member asks no more than the member.
* `Loosens` — the schemas from which removing the booleans only takes demands away; `Loosened` — a
  document all of whose followed references lead to such schemas. What `unevaluatedProperties` and
  `unevaluatedItems` ask is not modelled: that they ask no more afterwards is a hypothesis about the
  validator.
* `AddsNothing.of_fixed`, `AddsNothing.combined` — schemas without booleans, and nested `not`, `if` and
  `oneOf`, add nothing.
* **`sanitize_keeps_accepted`** — no boolean is left, sanitizing twice is sanitizing once, and a
  loosened document is accepted of all it was accepted of; `anyOfTrue_rejects` — `anyOf` without its
  `true`.
-/

import ClaudeProxy.Provider.NimSchema

namespace ClaudeProxy

namespace NimSchema

open JsonSchema

/-! ### Lists of schemas -/

/-- `isinstance(value, bool)`. -/
def isBool : Json → Bool
  | .bool _ => true
  | _ => false

/-- Behind a `true` there are only booleans, unless a `false` comes first. -/
def Aligned : List Json → Prop
  | [] => True
  | .bool false :: _ => True
  | .bool true :: rest => ∀ schema ∈ rest, isBool schema = true
  | _ :: rest => Aligned rest

/-- There is no `true`, unless a `false` comes first. -/
def NoTrueFirst : List Json → Prop
  | [] => True
  | .bool false :: _ => True
  | .bool true :: _ => False
  | _ :: rest => NoTrueFirst rest

theorem bool_or_sanitized (schema : Json) :
    schema = .bool false ∨ schema = .bool true ∨
      ∃ sanitized, sanitizeNimSchemaNode schema = some sanitized := by
  cases schema with
  | bool accepted => cases accepted <;> simp
  | _ => exact .inr (.inr ⟨_, by rw [sanitizeNimSchemaNode]⟩)

theorem isBool_of_sanitized {schema sanitized : Json}
    (done : sanitizeNimSchemaNode schema = some sanitized) : isBool schema = false := by
  cases schema with
  | bool accepted => cases done
  | _ => rfl

theorem Aligned.rest {schema sanitized : Json} {rest : List Json} (aligned : Aligned (schema :: rest))
    (done : sanitizeNimSchemaNode schema = some sanitized) : Aligned rest := by
  cases schema with
  | bool accepted => cases done
  | _ => exact aligned

theorem NoTrueFirst.rest {schema sanitized : Json} {rest : List Json}
    (noTrue : NoTrueFirst (schema :: rest))
    (done : sanitizeNimSchemaNode schema = some sanitized) : NoTrueFirst rest := by
  cases schema with
  | bool accepted => cases done
  | _ => exact noTrue

theorem sanitizeItems_of_bools {items : List Json} (bools : ∀ item ∈ items, isBool item = true) :
    sanitizeItems items = [] := by
  rw [sanitizeItems_eq, List.filterMap_eq_nil_iff]
  intro item there
  cases item with
  | bool accepted => rfl
  | _ => cases bools _ there

theorem sanitizeItems_cons_bool (accepted : Bool) (rest : List Json) :
    sanitizeItems (.bool accepted :: rest) = sanitizeItems rest := by
  rw [sanitizeItems_eq, sanitizeItems_eq, List.filterMap_cons_none rfl]

theorem sanitizeItems_cons {item sanitized : Json} (rest : List Json)
    (done : sanitizeNimSchemaNode item = some sanitized) :
    sanitizeItems (item :: rest) = sanitized :: sanitizeItems rest := by
  rw [sanitizeItems_eq, sanitizeItems_eq, List.filterMap_cons_some done]

theorem assertions_sanitizeFields (fields : List (String × Json)) :
    assertions (sanitizeFields fields) = assertions fields := by
  have known : ∀ key ∈ schemaValueKeys ++ schemaListKeys ++ schemaMapKeys, key ∈ applicators := by
    decide
  rw [sanitizeFields_eq, assertions, assertions]
  induction fields with
  | nil => rfl
  | cons field rest ih =>
    by_cases applies : field.1 ∈ applicators
    · rw [List.filter_cons_of_neg (by simpa using applies), ← ih, List.filterMap_cons]
      cases sanitizeMember field.1 field.2 with
      | none => rfl
      | some sanitized => exact List.filter_cons_of_neg (by simpa using applies)
    · have same : sanitizeMember field.1 field.2 = some field.2 := by
        refine sanitizeMember_other ?_ ?_ ?_ <;> intro there <;> refine applies (known _ ?_) <;>
          simp [there]
      rw [List.filter_cons_of_pos (by simpa using applies), List.filterMap_cons_some
        (by rw [same, Option.map_some]), List.filter_cons_of_pos (by simpa using applies), ih]

theorem bound?_sanitizeFields {keyword : String} (noValue : keyword ∉ schemaValueKeys)
    (noList : keyword ∉ schemaListKeys) (noMap : keyword ∉ schemaMapKeys)
    (fields : List (String × Json)) :
    bound? keyword (sanitizeFields fields) = bound? keyword fields := by
  rw [sanitizeFields_eq, bound?, bound?]
  induction fields with
  | nil => rfl
  | cons field rest ih =>
    by_cases same : field.1 = keyword
    · have kept : sanitizeMember field.1 field.2 = some field.2 := by
        rw [same, sanitizeMember_other noValue noList noMap]
      rw [List.filterMap_cons_some (by rw [kept, Option.map_some]), List.findSome?_cons,
        List.findSome?_cons, ih]
    · rw [List.findSome?_cons (a := field), if_neg same, ← ih, List.filterMap_cons]
      cases sanitizeMember field.1 field.2 with
      | none => rfl
      | some sanitized => rw [Option.map_some, List.findSome?_cons, if_neg same]

theorem isArray_of_sanitized {schema sanitized : Json}
    (done : sanitizeNimSchemaNode schema = some sanitized) : isArray sanitized = isArray schema := by
  cases schema <;> cases done <;> rfl

/-! ### What the members ask -/

section Keywords

variable (before after : Json → Json → Bool)

/-- What the schema accepts, its sanitized form accepts. -/
def Keeps (schema : Json) : Prop :=
  ∀ sanitized, sanitizeNimSchemaNode schema = some sanitized →
    ∀ subject, before schema subject = true → after sanitized subject = true

/-- What the sanitized form accepts, the schema accepts. -/
def Reflects (schema : Json) : Prop :=
  ∀ sanitized, sanitizeNimSchemaNode schema = some sanitized →
    ∀ subject, after sanitized subject = true → before schema subject = true

variable {before after} {validator : Validator} {references references' : String → Json → Bool}
  {fields : List (String × Json)} {item sanitized subject : Json}
  (bools : ∀ accepted subject, before (.bool accepted) subject = accepted)

include bools

/-- **Schemas in order** keep their places. -/
theorem keeps_inOrder {items : List Json} (aligned : Aligned items)
    (keeps : ∀ item ∈ items, Keeps before after item) {subjects : List Json}
    (accepted : inOrder (items.map before) subjects = true) :
    inOrder ((sanitizeItems items).map after) subjects = true := by
  induction items generalizing subjects with
  | nil => rfl
  | cons schema rest ih =>
    obtain ⟨here, below⟩ := List.forall_mem_cons.mp keeps
    cases subjects with
    | nil => exact inOrder_nil _
    | cons subject subjects =>
      rw [List.map_cons, inOrder_cons] at accepted
      rcases bool_or_sanitized schema with rfl | rfl | ⟨sanitized, done⟩
      · exact absurd accepted.1 (by rw [bools]; decide)
      · rw [sanitizeItems_cons_bool, sanitizeItems_of_bools aligned]
        rfl
      · rw [sanitizeItems_cons rest done, List.map_cons, inOrder_cons]
        exact ⟨here sanitized done subject accepted.1, ih (aligned.rest done) below accepted.2⟩

/-- A list that has a schema for an item still has one. -/
theorem lt_length_sanitizeItems {items : List Json} (noTrue : NoTrueFirst items)
    {subjects : List Json} (accepted : inOrder (items.map before) subjects = true) {index : Nat}
    (small : index < items.length) (there : index < subjects.length) :
    index < (sanitizeItems items).length := by
  induction items generalizing subjects index with
  | nil => exact small
  | cons schema rest ih =>
    cases subjects with
    | nil => exact absurd there (Nat.not_lt_zero index)
    | cons subject subjects =>
      rw [List.map_cons, inOrder_cons] at accepted
      rcases bool_or_sanitized schema with rfl | rfl | ⟨sanitized, done⟩
      · exact absurd accepted.1 (by rw [bools]; decide)
      · exact noTrue.elim
      · rw [sanitizeItems_cons rest done, List.length_cons]
        cases index with
        | zero => exact Nat.succ_pos _
        | succ index =>
          exact Nat.succ_lt_succ (ih (noTrue.rest done) accepted.2 (Nat.lt_of_succ_lt_succ small)
            (Nat.lt_of_succ_lt_succ there))

omit bools in
theorem keeps_not (reflects : Reflects before after item)
    (done : sanitizeNimSchemaNode item = some sanitized)
    (asked : asks validator references before fields ("not", item) subject = true) :
    asks validator references' after (sanitizeFields fields) ("not", sanitized) subject = true := by
  rw [asks_not] at asked ⊢
  refine Bool.eq_false_iff.mpr fun accepted => ?_
  rw [reflects sanitized done subject accepted] at asked
  cases asked

omit bools in
/-- A condition of the sanitized schema is the sanitized form of one. -/
theorem mem_of_value {key : String} (valueKey : key ∈ schemaValueKeys)
    (there : (key, sanitized) ∈ sanitizeFields fields) :
    ∃ item, (key, item) ∈ fields ∧ sanitizeNimSchemaNode item = some sanitized := by
  obtain ⟨item, there, kept⟩ := mem_sanitizeFields.mp there
  exact ⟨item, there, (sanitizeMember_value valueKey).symm.trans kept⟩

omit bools in
theorem keeps_then (reflects : ∀ condition, ("if", condition) ∈ fields → Reflects before after condition)
    (keeps : Keeps before after item) (done : sanitizeNimSchemaNode item = some sanitized)
    (asked : asks validator references before fields ("then", item) subject = true) :
    asks validator references' after (sanitizeFields fields) ("then", sanitized) subject = true := by
  rw [asks_then] at asked ⊢
  intro condition there holds
  obtain ⟨source, there, made⟩ := mem_of_value (by decide) there
  exact keeps sanitized done subject
    (asked source there (reflects source there condition made subject holds))

omit bools in
theorem keeps_else (conditions : ∀ condition, ("if", condition) ∈ fields → Keeps before after condition)
    (keeps : Keeps before after item) (done : sanitizeNimSchemaNode item = some sanitized)
    (asked : asks validator references before fields ("else", item) subject = true) :
    asks validator references' after (sanitizeFields fields) ("else", sanitized) subject = true := by
  rw [asks_else] at asked ⊢
  intro condition there fails
  obtain ⟨source, there, made⟩ := mem_of_value (by decide) there
  refine keeps sanitized done subject (asked source there (Bool.eq_false_iff.mpr fun accepted => ?_))
  rw [conditions source there condition made subject accepted] at fails
  cases fails

omit bools in
theorem keeps_propertyNames (keeps : Keeps before after item)
    (done : sanitizeNimSchemaNode item = some sanitized)
    (asked : asks validator references before fields ("propertyNames", item) subject = true) :
    asks validator references' after (sanitizeFields fields) ("propertyNames", sanitized) subject =
      true := by
  rw [asks_propertyNames] at asked ⊢
  exact fun entry there => keeps sanitized done _ (asked entry there)

/-- The names that a member speaks of, and that an accepted instance has, are still spoken of. -/
theorem speaksOf_sanitizeFields {entry : String × Json} (there : entry ∈ entries subject)
    (noTrue : ∀ key value, (key, value) ∈ fields → key = "properties" ∨ key = "patternProperties" →
      ∀ part ∈ entries value, part.2 ≠ .bool true)
    (asked : ∀ field ∈ fields, asks validator references before fields field subject = true)
    (spoken : validator.speaksOf fields entry.1 = true) :
    validator.speaksOf (sanitizeFields fields) entry.1 = true := by
  obtain ⟨key, value, member, part, inside, about⟩ := speaksOf_iff.mp spoken
  have mapKey : key = "properties" ∨ key = "patternProperties" := about.imp And.left And.left
  have accepted : before part.2 entry.2 = true := by
    have asks := asked (key, value) member
    rcases about with ⟨rfl, name⟩ | ⟨rfl, matching⟩
    · exact asks_properties.mp asks entry there part inside name
    · exact asks_patternProperties.mp asks entry there part inside matching
  rcases bool_or_sanitized part.2 with refused | passed | ⟨sanitized, done⟩
  · rw [refused, bools] at accepted
    cases accepted
  · exact absurd passed (noTrue key value member mapKey part inside)
  · cases value with
    | obj named =>
      refine speaksOf_iff.mpr ⟨key, .obj (sanitizeMap named), mem_sanitizeFields.mpr
        ⟨.obj named, member, ?_⟩, (part.1, sanitized), ?_, about⟩
      · rw [sanitizeMember_map (by rcases mapKey with rfl | rfl <;> decide), sanitizeNamed]
      · exact mem_sanitizeMap.mpr ⟨part.2, inside, done⟩
    | _ => cases inside

theorem keeps_additionalProperties (keeps : Keeps before after item)
    (noTrue : ∀ key value, (key, value) ∈ fields → key = "properties" ∨ key = "patternProperties" →
      ∀ part ∈ entries value, part.2 ≠ .bool true)
    (others : ∀ field ∈ fields, asks validator references before fields field subject = true)
    (done : sanitizeNimSchemaNode item = some sanitized)
    (asked : asks validator references before fields ("additionalProperties", item) subject = true) :
    asks validator references' after (sanitizeFields fields) ("additionalProperties", sanitized)
      subject = true := by
  rw [asks_additionalProperties] at asked ⊢
  intro entry there silent
  refine keeps sanitized done _ (asked entry there (Bool.eq_false_iff.mpr fun spoken => ?_))
  rw [speaksOf_sanitizeFields bools there noTrue others spoken] at silent
  cases silent

omit bools in
theorem keeps_properties (keeps : ∀ part ∈ entries item, Keeps before after part.2)
    (kept : sanitizeNamed item = some sanitized)
    (asked : asks validator references before fields ("properties", item) subject = true) :
    asks validator references' after (sanitizeFields fields) ("properties", sanitized) subject =
      true := by
  rw [asks_properties] at asked ⊢
  rintro entry there ⟨name, schema⟩ inside same
  obtain ⟨source, inside, made⟩ := mem_entries_sanitizeNamed kept inside
  exact keeps _ inside schema made _ (asked entry there _ inside same)

omit bools in
theorem keeps_patternProperties (keeps : ∀ part ∈ entries item, Keeps before after part.2)
    (kept : sanitizeNamed item = some sanitized)
    (asked : asks validator references before fields ("patternProperties", item) subject = true) :
    asks validator references' after (sanitizeFields fields) ("patternProperties", sanitized)
      subject = true := by
  rw [asks_patternProperties] at asked ⊢
  rintro entry there ⟨name, schema⟩ inside matching
  obtain ⟨source, inside, made⟩ := mem_entries_sanitizeNamed kept inside
  exact keeps _ inside schema made _ (asked entry there _ inside matching)

omit bools in
theorem keeps_dependentSchemas (keeps : ∀ part ∈ entries item, Keeps before after part.2)
    (kept : sanitizeNamed item = some sanitized)
    (asked : asks validator references before fields ("dependentSchemas", item) subject = true) :
    asks validator references' after (sanitizeFields fields) ("dependentSchemas", sanitized)
      subject = true := by
  rw [asks_dependentSchemas] at asked ⊢
  rintro entry there ⟨name, schema⟩ inside same
  obtain ⟨source, inside, made⟩ := mem_entries_sanitizeNamed kept inside
  exact keeps _ inside schema made _ (asked entry there _ inside same)

omit bools in
theorem keeps_allOf (keeps : ∀ schema ∈ elements item, Keeps before after schema)
    (kept : sanitizeListed item = some sanitized)
    (asked : asks validator references before fields ("allOf", item) subject = true) :
    asks validator references' after (sanitizeFields fields) ("allOf", sanitized) subject = true := by
  rw [asks_allOf] at asked ⊢
  intro schema inside
  obtain ⟨source, inside, made⟩ := mem_elements_sanitizeListed kept inside
  exact keeps source inside schema made subject (asked source inside)

/-- Where a list of schemas is kept, not all of them are booleans. -/
theorem keeps_anyOf (keeps : ∀ schema ∈ elements item, Keeps before after schema)
    (noTrue : .bool true ∈ elements item → ∀ schema ∈ elements item, isBool schema = true)
    (kept : sanitizeListed item = some sanitized)
    (asked : asks validator references before fields ("anyOf", item) subject = true) :
    asks validator references' after (sanitizeFields fields) ("anyOf", sanitized) subject = true := by
  rw [asks_anyOf] at asked ⊢
  intro array
  obtain ⟨items, rfl, rfl, left⟩ := sanitizeListed_eq_array kept array
  obtain ⟨schema, inside, accepted⟩ := asked rfl
  rcases bool_or_sanitized schema with rfl | rfl | ⟨made, done⟩
  · rw [bools] at accepted
    cases accepted
  · exact absurd (sanitizeItems_of_bools (noTrue inside)) left
  · exact ⟨made, mem_sanitizeItems.mpr ⟨schema, inside, done⟩,
      keeps schema inside made done subject accepted⟩

/-- Without a `true` among them, at least as many schemas accept afterwards. -/
theorem countP_le_countP_sanitizeItems (subject : Json) {items : List Json}
    (keeps : ∀ schema ∈ items, Keeps before after schema) (noTrue : .bool true ∉ items) :
    (items.countP fun schema => before schema subject) ≤
      (sanitizeItems items).countP fun schema => after schema subject := by
  induction items with
  | nil => exact Nat.le_refl _
  | cons schema rest ih =>
    obtain ⟨here, below⟩ := List.forall_mem_cons.mp keeps
    obtain ⟨noHere, noBelow⟩ := not_or.mp (List.mem_cons.not.mp noTrue)
    rcases bool_or_sanitized schema with rfl | rfl | ⟨made, done⟩
    · rw [List.countP_cons_of_neg (by rw [bools]; decide), sanitizeItems_cons_bool]
      exact ih below noBelow
    · exact absurd rfl noHere
    · rw [sanitizeItems_cons rest done, List.countP_cons, List.countP_cons]
      refine Nat.add_le_add (ih below noBelow) ?_
      split_ifs with accepted still
      · exact Nat.le_refl _
      · exact absurd (here made done subject accepted) still
      · exact Nat.zero_le _
      · exact Nat.le_refl _

omit bools in
/-- Where nothing is added, at most as many schemas accept afterwards. -/
theorem countP_sanitizeItems_le (subject : Json) {items : List Json}
    (reflects : ∀ schema ∈ items, Reflects before after schema) :
    ((sanitizeItems items).countP fun schema => after schema subject) ≤
      items.countP fun schema => before schema subject := by
  induction items with
  | nil => exact Nat.le_refl _
  | cons schema rest ih =>
    obtain ⟨here, below⟩ := List.forall_mem_cons.mp reflects
    cases made : sanitizeNimSchemaNode schema with
    | none =>
      rw [sanitizeItems_eq, List.filterMap_cons_none made, ← sanitizeItems_eq]
      exact Nat.le_trans (ih below) (List.sublist_cons_self schema rest).countP_le
    | some sanitized =>
      rw [sanitizeItems_cons rest made, List.countP_cons, List.countP_cons]
      refine Nat.add_le_add (ih below) ?_
      split_ifs with accepted was
      · exact Nat.le_refl _
      · exact absurd (here sanitized made subject accepted) was
      · exact Nat.zero_le _
      · exact Nat.le_refl _

theorem keeps_oneOf (keeps : ∀ schema ∈ elements item, Keeps before after schema)
    (single : (∀ schema ∈ elements item, isBool schema = true) ∨ .bool true ∉ elements item ∧
      ((sanitizeItems (elements item)).length ≤ 1 ∨
        ∀ schema ∈ elements item, Reflects before after schema))
    (kept : sanitizeListed item = some sanitized)
    (asked : asks validator references before fields ("oneOf", item) subject = true) :
    asks validator references' after (sanitizeFields fields) ("oneOf", sanitized) subject = true := by
  rw [asks_oneOf] at asked ⊢
  intro array
  obtain ⟨items, rfl, rfl, left⟩ := sanitizeListed_eq_array kept array
  have one := asked rfl
  rcases single with onlyBools | ⟨noTrue, alone | reflects⟩
  · exact absurd (sanitizeItems_of_bools onlyBools) left
  · have enough := countP_le_countP_sanitizeItems bools subject keeps noTrue
    have few := List.countP_le_length (p := fun schema => after schema subject)
      (l := sanitizeItems items)
    simp only [elements] at one alone enough ⊢
    omega
  · have enough := countP_le_countP_sanitizeItems bools subject keeps noTrue
    have few := countP_sanitizeItems_le subject reflects
    simp only [elements] at one enough few ⊢
    omega

theorem keeps_prefixItems (keeps : ∀ schema ∈ elements item, Keeps before after schema)
    (aligned : Aligned (elements item)) (kept : sanitizeListed item = some sanitized)
    (asked : asks validator references before fields ("prefixItems", item) subject = true) :
    asks validator references' after (sanitizeFields fields) ("prefixItems", sanitized) subject =
      true := by
  rw [asks_prefixItems] at asked ⊢
  cases item with
  | arr items =>
    obtain ⟨-, rfl⟩ := sanitizeListed_arr.mp kept
    exact keeps_inOrder bools aligned keeps asked
  | _ =>
    cases kept
    rfl

/-- The items behind all lists of a keyword are behind the sanitized lists, or not there. -/
theorem keeps_behind {keyword : String}
    (noTrue : ∀ items, (keyword, .arr items) ∈ fields → NoTrueFirst items)
    (ordered : ∀ items, (keyword, .arr items) ∈ fields →
      inOrder (items.map before) (elements subject) = true)
    (still : ∀ items, (keyword, .arr items) ∈ fields → sanitizeItems items ≠ [] →
      (keyword, .arr (sanitizeItems items)) ∈ sanitizeFields fields)
    (keeps : Keeps before after item) (done : sanitizeNimSchemaNode item = some sanitized)
    (accepted : behind (listsOf keyword fields) (before item) (elements subject) = true) :
    behind (listsOf keyword (sanitizeFields fields)) (after sanitized) (elements subject) = true := by
  rw [behind_iff] at accepted ⊢
  intro value index there short
  refine keeps sanitized done value (accepted value index there fun items member => ?_)
  have member := mem_listsOf.mp member
  by_contra long
  have longer : index < (sanitizeItems items).length :=
    lt_length_sanitizeItems bools (noTrue items member) (ordered items member) (Nat.lt_of_not_le long)
      (List.getElem?_eq_some_iff.mp there).1
  have left : sanitizeItems items ≠ [] := List.ne_nil_of_length_pos (Nat.zero_lt_of_lt longer)
  have bounded := short _ (mem_listsOf.mpr (still items member left))
  omega

theorem keeps_items (keeps : Keeps before after item)
    (below : ∀ schema ∈ elements item, Keeps before after schema) (aligned : Aligned (elements item))
    (noTrue : isArray item = false → ∀ items, ("prefixItems", .arr items) ∈ fields → NoTrueFirst items)
    (others : ∀ field ∈ fields, asks validator references before fields field subject = true)
    (done : sanitizeNimSchemaNode item = some sanitized)
    (asked : asks validator references before fields ("items", item) subject = true) :
    asks validator references' after (sanitizeFields fields) ("items", sanitized) subject = true := by
  rw [asks_items] at asked ⊢
  cases array : isArray item with
  | true =>
    cases item with
    | arr items =>
      cases done
      exact keeps_inOrder bools aligned below asked
    | _ => cases array
  | false =>
    have noArray : isArray sanitized = false := (isArray_of_sanitized done).trans array
    rw [array, if_neg Bool.false_ne_true] at asked
    rw [noArray, if_neg Bool.false_ne_true]
    refine keeps_behind bools (noTrue array) (fun items member => ?_) (fun items member left => ?_)
      keeps done asked
    · exact asks_prefixItems.mp (others _ member)
    · refine mem_sanitizeFields.mpr ⟨_, member, ?_⟩
      rw [sanitizeMember_list (by decide)]
      exact sanitizeListed_arr.mpr ⟨left, rfl⟩

theorem keeps_additionalItems (keeps : Keeps before after item)
    (noTrue : ∀ items, ("items", .arr items) ∈ fields → NoTrueFirst items)
    (others : ∀ field ∈ fields, asks validator references before fields field subject = true)
    (done : sanitizeNimSchemaNode item = some sanitized)
    (asked : asks validator references before fields ("additionalItems", item) subject = true) :
    asks validator references' after (sanitizeFields fields) ("additionalItems", sanitized) subject =
      true := by
  rw [asks_additionalItems] at asked ⊢
  intro some_list
  have some_before : listsOf "items" fields ≠ [] := by
    obtain ⟨list, member⟩ := List.exists_mem_of_ne_nil _ some_list
    obtain ⟨source, there, made⟩ := mem_of_value (by decide) (mem_listsOf.mp member)
    obtain ⟨items, rfl, -⟩ := sanitize_eq_arr made
    exact List.ne_nil_of_mem (mem_listsOf.mpr there)
  refine keeps_behind bools noTrue (fun items member => ?_) (fun items member _ => ?_) keeps done
    (asked some_before)
  · exact asks_items.mp (others _ member)
  · refine mem_sanitizeFields.mpr ⟨_, member, ?_⟩
    rw [sanitizeMember_value (by decide), sanitizeNimSchemaNode]

omit bools in
theorem keeps_contains (keeps : Keeps before after item)
    (reflects : bound? "maxContains" fields ≠ none → Reflects before after item)
    (done : sanitizeNimSchemaNode item = some sanitized)
    (asked : asks validator references before fields ("contains", item) subject = true) :
    asks validator references' after (sanitizeFields fields) ("contains", sanitized) subject =
      true := by
  rw [asks_contains] at asked ⊢
  rw [bound?_sanitizeFields (by decide) (by decide) (by decide),
    bound?_sanitizeFields (by decide) (by decide) (by decide)]
  intro array
  obtain ⟨enough, few⟩ := asked array
  refine ⟨Nat.le_trans enough (List.countP_mono_left fun value _ => keeps sanitized done value), ?_⟩
  intro most bounded
  have adds := reflects (by rw [bounded]; exact Option.some_ne_none most)
  exact Nat.le_trans (List.countP_mono_left fun value _ => adds sanitized done value)
    (few most bounded)

end Keywords

/-! ### Schemas that are loosened -/

section Documents

variable (validator : Validator) (document sanitized : Json) (followed : String → Prop)

/-- The sanitized form accepts nothing new, however many references are followed. -/
def AddsNothing (schema : Json) : Prop :=
  ∀ depth, Reflects (validator.accepts document depth) (validator.accepts sanitized depth) schema

/-- **Without its booleans, no member of an object asks more than before**, as far as that does not
depend on the schemas in it. -/
structure Undisturbed (fields : List (String × Json)) : Prop where
  references : ∀ reference, ("$ref", .str reference) ∈ fields → followed reference
  negated : ∀ schema, ("not", schema) ∈ fields → AddsNothing validator document sanitized schema
  conditions : ∀ consequent, ("then", consequent) ∈ fields → isBool consequent = false →
    ∀ condition, ("if", condition) ∈ fields → AddsNothing validator document sanitized condition
  anyOf : ∀ schemas, ("anyOf", schemas) ∈ fields → .bool true ∈ elements schemas →
    ∀ schema ∈ elements schemas, isBool schema = true
  oneOf : ∀ schemas, ("oneOf", schemas) ∈ fields →
    (∀ schema ∈ elements schemas, isBool schema = true) ∨ .bool true ∉ elements schemas ∧
      ((sanitizeItems (elements schemas)).length ≤ 1 ∨
        ∀ schema ∈ elements schemas, AddsNothing validator document sanitized schema)
  additionalProperties : ∀ schema, ("additionalProperties", schema) ∈ fields → isBool schema = false →
    ∀ key value, (key, value) ∈ fields → key = "properties" ∨ key = "patternProperties" →
      ∀ part ∈ entries value, part.2 ≠ .bool true
  prefixItems : ∀ schemas, ("prefixItems", schemas) ∈ fields → Aligned (elements schemas)
  listItems : ∀ schemas, ("items", schemas) ∈ fields → Aligned (elements schemas)
  items : ∀ schema, ("items", schema) ∈ fields → isBool schema = false → isArray schema = false →
    ∀ schemas, ("prefixItems", .arr schemas) ∈ fields → NoTrueFirst schemas
  additionalItems : ∀ schema, ("additionalItems", schema) ∈ fields → isBool schema = false →
    ∀ schemas, ("items", .arr schemas) ∈ fields → NoTrueFirst schemas
  contains : ∀ schema, ("contains", schema) ∈ fields → bound? "maxContains" fields ≠ none →
    AddsNothing validator document sanitized schema
  unevaluated : ∀ key schema, key = "unevaluatedProperties" ∨ key = "unevaluatedItems" →
    (key, schema) ∈ fields → isBool schema = false → ∀ depth subject,
      validator.unevaluated (validator.reference document depth) key fields subject = true →
        validator.unevaluated (validator.reference sanitized depth) key (sanitizeFields fields)
          subject = true

/-- **The removal of booleans only takes demands away**, here and in the schemas that are asked
themselves; a condition is one of them where it decides on an `else`. -/
inductive Loosens : Json → Prop
  | plain {schema : Json} : (∀ fields, schema ≠ .obj fields) → Loosens schema
  | object {fields : List (String × Json)} :
      Undisturbed validator document sanitized followed fields →
      (∀ key ∈ ["additionalProperties", "additionalItems", "items", "contains", "propertyNames",
        "then", "else"], ∀ schema, (key, schema) ∈ fields → Loosens schema) →
      (∀ alternative, ("else", alternative) ∈ fields → isBool alternative = false →
        ∀ condition, ("if", condition) ∈ fields → Loosens condition) →
      (∀ key ∈ ["allOf", "anyOf", "oneOf", "prefixItems", "items"], ∀ schemas, (key, schemas) ∈ fields →
        ∀ schema ∈ elements schemas, Loosens schema) →
      (∀ key ∈ ["properties", "patternProperties", "dependentSchemas"], ∀ named, (key, named) ∈ fields →
        ∀ part ∈ entries named, Loosens part.2) →
      Loosens (.obj fields)

/-- The document is loosened, and a followed reference leads to the sanitized form of the schema that
it led to, which is loosened; what led to `false` may lead nowhere. -/
structure Loosened : Prop where
  root : Loosens validator document sanitized followed document
  references : ∀ reference, followed reference → ∀ schema,
    validator.resolve document reference = some schema → schema ≠ .bool false →
      Loosens validator document sanitized followed schema ∧ ∃ result,
        sanitizeNimSchemaNode schema = some result ∧
          validator.resolve sanitized reference = some result

variable {validator document sanitized followed}

/-- **A loosened schema keeps what it accepts**, when the references do. -/
theorem keeps_of_loosens {depth : Nat}
    (kept : ∀ reference, followed reference → ∀ subject,
      validator.reference document depth reference subject = true →
        validator.reference sanitized depth reference subject = true)
    {schema : Json} (loosens : Loosens validator document sanitized followed schema) :
    Keeps (validator.accepts document depth) (validator.accepts sanitized depth) schema := by
  have bools : ∀ accepted subject,
      validator.accepts document depth (.bool accepted) subject = accepted :=
    accepts_bool validator (validator.reference document depth)
  induction loosens with
  | @plain schema noObject =>
    intro result done subject _
    refine accepts_of_plain _ _ (fun fields same => ?_) (fun accepted same => ?_) subject
    · obtain ⟨source, rfl, -⟩ := sanitize_eq_obj (done.trans (congrArg some same))
      exact noObject source rfl
    · exact sanitize_ne_bool (done.trans (congrArg some same))
  | @object fields undisturbed _ _ _ _ values conditions lists maps =>
    intro result done subject accepted
    cases done
    obtain ⟨asserted, asked⟩ := (accepts_obj _ _ fields subject).mp accepted
    refine (accepts_obj _ _ _ subject).mpr ⟨(assertions_sanitizeFields fields).symm ▸ asserted, ?_⟩
    rintro ⟨key, result⟩ there
    obtain ⟨item, member, done⟩ := mem_sanitizeFields.mp there
    have asks := asked (key, item) member
    by_cases applies : key ∈ applicators
    · simp only [applicators, List.mem_cons, List.not_mem_nil, or_false] at applies
      rcases applies with rfl | rfl | rfl | rfl | rfl | rfl | rfl | rfl | rfl | rfl | rfl | rfl | rfl |
        rfl | rfl | rfl | rfl | rfl | rfl | rfl | rfl
      -- `$ref`
      · rw [sanitizeMember_other (by decide) (by decide) (by decide)] at done
        cases done
        rw [asks_ref] at asks ⊢
        rintro reference rfl
        exact kept reference (undisturbed.references reference member) subject (asks reference rfl)
      -- the lists
      · exact keeps_allOf (lists "allOf" (by decide) item member)
          ((sanitizeMember_list (by decide)).symm.trans done) asks
      · exact keeps_anyOf bools (lists "anyOf" (by decide) item member)
          (undisturbed.anyOf item member) ((sanitizeMember_list (by decide)).symm.trans done) asks
      · refine keeps_oneOf bools (lists "oneOf" (by decide) item member) ?_
          ((sanitizeMember_list (by decide)).symm.trans done) asks
        exact (undisturbed.oneOf item member).imp_right fun single =>
          single.imp_right fun few => few.imp_right fun adds schema inside => adds schema inside depth
      -- `not`, and the condition with what it decides on
      · exact keeps_not (undisturbed.negated item member depth)
          ((sanitizeMember_value (by decide)).symm.trans done) asks
      · exact asks_passive (by decide)
      · have made := (sanitizeMember_value (by decide)).symm.trans done
        exact keeps_then (fun condition there => undisturbed.conditions item member
          (isBool_of_sanitized made) condition there depth) (values "then" (by decide) item member) made
          asks
      · have made := (sanitizeMember_value (by decide)).symm.trans done
        exact keeps_else (conditions item member (isBool_of_sanitized made))
          (values "else" (by decide) item member) made asks
      -- the members of an object
      · exact keeps_properties (maps "properties" (by decide) item member)
          ((sanitizeMember_map (by decide)).symm.trans done) asks
      · exact keeps_patternProperties (maps "patternProperties" (by decide) item member)
          ((sanitizeMember_map (by decide)).symm.trans done) asks
      · have made := (sanitizeMember_value (by decide)).symm.trans done
        exact keeps_additionalProperties bools (values "additionalProperties" (by decide) item member)
          (undisturbed.additionalProperties item member (isBool_of_sanitized made)) asked made asks
      · exact keeps_propertyNames (values "propertyNames" (by decide) item member)
          ((sanitizeMember_value (by decide)).symm.trans done) asks
      · exact keeps_dependentSchemas (maps "dependentSchemas" (by decide) item member)
          ((sanitizeMember_map (by decide)).symm.trans done) asks
      -- the items of an array
      · exact keeps_prefixItems bools (lists "prefixItems" (by decide) item member)
          (undisturbed.prefixItems item member) ((sanitizeMember_list (by decide)).symm.trans done) asks
      · have made := (sanitizeMember_value (by decide)).symm.trans done
        exact keeps_items bools (values "items" (by decide) item member)
          (lists "items" (by decide) item member) (undisturbed.listItems item member)
          (undisturbed.items item member (isBool_of_sanitized made)) asked made asks
      · have made := (sanitizeMember_value (by decide)).symm.trans done
        exact keeps_additionalItems bools (values "additionalItems" (by decide) item member)
          (undisturbed.additionalItems item member (isBool_of_sanitized made)) asked made asks
      · exact keeps_contains (values "contains" (by decide) item member)
          (fun bounded => undisturbed.contains item member bounded depth)
          ((sanitizeMember_value (by decide)).symm.trans done) asks
      -- what is left over, and the definitions
      · have made := (sanitizeMember_value (by decide)).symm.trans done
        rw [asks_unevaluated (.inl rfl)] at asks ⊢
        exact undisturbed.unevaluated _ item (.inl rfl) member (isBool_of_sanitized made) depth subject
          asks
      · have made := (sanitizeMember_value (by decide)).symm.trans done
        rw [asks_unevaluated (.inr rfl)] at asks ⊢
        exact undisturbed.unevaluated _ item (.inr rfl) member (isBool_of_sanitized made) depth subject
          asks
      · exact asks_passive (by decide)
      · exact asks_passive (by decide)
    · exact asks_of_notMem applies

/-- References keep what they accept, however many are followed. -/
theorem reference_of_loosened (loosened : Loosened validator document sanitized followed) (depth : Nat) :
    ∀ reference, followed reference → ∀ subject,
      validator.reference document depth reference subject = true →
        validator.reference sanitized depth reference subject = true := by
  induction depth with
  | zero => exact fun reference _ subject accepted => accepted
  | succ depth ih =>
    intro reference follows subject accepted
    obtain ⟨schema, leads, accepted⟩ := (Option.any_eq_true _ _).mp accepted
    have some_accepted : schema ≠ .bool false := by
      rintro rfl
      rw [accepts_bool] at accepted
      cases accepted
    obtain ⟨loosens, result, done, still⟩ := loosened.references reference follows schema leads
      some_accepted
    rw [Validator.reference, still]
    exact keeps_of_loosens ih loosens result done subject accepted

end Documents

/-! ### Where nothing is added -/

section Adding

variable {validator : Validator} {document sanitized schema : Json}

/-- **A schema without booleans and references** adds nothing, however it is nested. -/
theorem AddsNothing.of_fixed (fixed : sanitizeNimSchemaNode schema = some schema)
    (alone : NoReference schema) : AddsNothing validator document sanitized schema := by
  intro depth made done subject accepted
  obtain rfl := Option.some.inj (fixed.symm.trans done)
  rw [Validator.accepts, (alone.accepts_eq validator _ (validator.reference sanitized depth)).1]
  exact accepted

/-- The keywords that combine schemas, of which the others hold no schema. -/
def combining : List String := ["not", "if", "then", "else", "oneOf"]

/-- **Nested `not`, `if` and `oneOf`**: an object adds nothing whose schemas under `not` accept nothing
less, whose branches accept nothing more, and whose conditions and alternatives accept the same. -/
theorem AddsNothing.combined {fields : List (String × Json)}
    (known : ∀ field ∈ fields, field.1 ∈ applicators → field.1 ∈ combining)
    (noBool : ∀ field ∈ fields, isBool field.2 = false ∧ ∀ item ∈ elements field.2, isBool item = false)
    (less : ∀ key schema, key ∈ ["not", "if"] → (key, schema) ∈ fields → ∀ depth,
      Keeps (validator.accepts document depth) (validator.accepts sanitized depth) schema)
    (more : ∀ key schema, key ∈ ["if", "then", "else"] → (key, schema) ∈ fields →
      AddsNothing validator document sanitized schema)
    (alternatives : ∀ schemas, ("oneOf", schemas) ∈ fields → schemas ≠ .arr [] ∧
      ∀ schema ∈ elements schemas, AddsNothing validator document sanitized schema ∧ ∀ depth,
        Keeps (validator.accepts document depth) (validator.accepts sanitized depth) schema) :
    AddsNothing validator document sanitized (.obj fields) := by
  intro depth made done subject accepted
  obtain rfl : .obj (sanitizeFields fields) = made := by
    rw [sanitizeNimSchemaNode] at done
    exact Option.some.inj done
  obtain ⟨asserted, asked⟩ := (accepts_obj _ _ _ subject).mp accepted
  rw [assertions_sanitizeFields] at asserted
  refine (accepts_obj _ _ fields subject).mpr ⟨asserted, ?_⟩
  have kept {item : Json} (apart : isBool item = false) :
      ∃ result, sanitizeNimSchemaNode item = some result := by
    rcases bool_or_sanitized item with rfl | rfl | result
    · cases apart
    · cases apart
    · exact result
  rintro ⟨key, item⟩ there
  by_cases applies : key ∈ applicators
  · obtain ⟨apart, apartBelow⟩ := noBool (key, item) there
    -- what the loop keeps of the member asks the member's question of the sanitized schemas
    have asks {result : Json} (made : sanitizeMember key item = some result) :=
      asked (key, result) (mem_sanitizeFields.mpr ⟨item, there, made⟩)
    have combines := known (key, item) there applies
    simp only [combining, List.mem_cons, List.not_mem_nil, or_false] at combines
    rcases combines with rfl | rfl | rfl | rfl | rfl
    · obtain ⟨result, made⟩ := kept apart
      have asks := asks_not.mp (asks ((sanitizeMember_value (by decide)).trans made))
      refine asks_not.mpr (Bool.eq_false_iff.mpr fun accepted => ?_)
      rw [show accepts validator _ result subject = true from
        less "not" item (by decide) there depth result made subject accepted] at asks
      cases asks
    · exact asks_passive (by decide)
    · obtain ⟨result, made⟩ := kept apart
      have asks := asks_then.mp (asks ((sanitizeMember_value (by decide)).trans made))
      refine asks_then.mpr fun condition inside holds => ?_
      obtain ⟨second, madeToo⟩ := kept (noBool _ inside).1
      refine more "then" item (by decide) there depth result made subject (asks second ?_ ?_)
      · exact mem_sanitizeFields.mpr ⟨condition, inside, (sanitizeMember_value (by decide)).trans madeToo⟩
      · exact less "if" condition (by decide) inside depth second madeToo subject holds
    · obtain ⟨result, made⟩ := kept apart
      have asks := asks_else.mp (asks ((sanitizeMember_value (by decide)).trans made))
      refine asks_else.mpr fun condition inside fails => ?_
      obtain ⟨second, madeToo⟩ := kept (noBool _ inside).1
      refine more "else" item (by decide) there depth result made subject (asks second ?_ ?_)
      · exact mem_sanitizeFields.mpr ⟨condition, inside, (sanitizeMember_value (by decide)).trans madeToo⟩
      · refine Bool.eq_false_iff.mpr fun accepted => ?_
        have before : accepts validator (validator.reference document depth) condition subject = true :=
          more "if" condition (by decide) inside depth second madeToo subject accepted
        rw [before] at fails
        cases fails
    · refine asks_oneOf.mpr fun array => ?_
      cases item with
      | arr items =>
        obtain ⟨some_, same⟩ := alternatives _ there
        have left : sanitizeItems items ≠ [] := by
          cases items with
          | nil => exact absurd rfl some_
          | cons first rest =>
            obtain ⟨result, made⟩ := kept (apartBelow first List.mem_cons_self)
            rw [sanitizeItems_cons rest made]
            exact List.cons_ne_nil _ _
        have asks := asks_oneOf.mp
          (asks ((sanitizeMember_list (by decide)).trans (sanitizeListed_arr.mpr ⟨left, rfl⟩))) rfl
        have bools : ∀ accepted subject,
            validator.accepts document depth (.bool accepted) subject = accepted :=
          accepts_bool validator (validator.reference document depth)
        have noTrue : .bool true ∉ items := by
          intro inside
          cases apartBelow _ inside
        have enough := countP_le_countP_sanitizeItems bools subject
          (fun schema inside => (same schema inside).2 depth) noTrue
        have few := countP_sanitizeItems_le subject fun schema inside => (same schema inside).1 depth
        exact (Nat.le_antisymm enough few).trans asks
      | _ => cases array
  · exact asks_of_notMem applies

/-- A fixed schema without references keeps what it accepts, too. -/
theorem keeps_of_fixed (fixed : sanitizeNimSchemaNode schema = some schema) (alone : NoReference schema)
    (depth : Nat) : Keeps (validator.accepts document depth) (validator.accepts sanitized depth) schema := by
  intro made done subject accepted
  obtain rfl := Option.some.inj (fixed.symm.trans done)
  rw [Validator.accepts, ← (alone.accepts_eq validator (validator.reference document depth) _).1]
  exact accepted

end Adding

/-! ### The whole -/

/-- **Removing the boolean subschemas.** No boolean is left in a position that the key sets name;
sanitizing twice is sanitizing once; and whatever a loosened document accepts, the sanitized one
accepts. -/
theorem sanitize_keeps_accepted (fields : List (String × Json)) :
    ∃ sanitized, sanitizeNimSchemaNode (.obj fields) = some sanitized ∧
      (∀ sub, InSchemaPosition sanitized sub → ∀ accepted, sub ≠ .bool accepted) ∧
      sanitizeNimSchemaNode sanitized = some sanitized ∧
      ∀ (validator : Validator) (followed : String → Prop),
        Loosened validator (.obj fields) sanitized followed → ∀ depth subject,
          validator.accepts (.obj fields) depth (.obj fields) subject = true →
            validator.accepts sanitized depth sanitized subject = true := by
  have done : sanitizeNimSchemaNode (.obj fields) = some (.obj (sanitizeFields fields)) := by
    rw [sanitizeNimSchemaNode]
  refine ⟨_, done, fun sub => sanitized_no_bool done, sanitize_idem _ _ done, ?_⟩
  intro validator followed loosened depth subject accepted
  exact keeps_of_loosens (reference_of_loosened loosened depth) loosened.root _ done subject accepted

/-! ### Two schemas -/

/-- Whether an instance is of the type. -/
def isOfType (type : String) : Json → Bool
  | .null => type == "null"
  | .bool _ => type == "boolean"
  | .int _ => type == "integer" || type == "number"
  | .float _ => type == "number"
  | .str _ => type == "string"
  | .arr _ => type == "array"
  | .obj _ => type == "object"

/-- A validator for schemas with no other assertion than `type`, no pattern and no reference. -/
def typesOnly : Validator where
  asserts fields subject :=
    fields.all fun field => field.1 != "type" || field.2.asStr?.any fun type => isOfType type subject
  matchesPattern _ _ := false
  unevaluated _ _ _ _ := true
  resolve _ _ := none

/-- Whatever is named as options. -/
def anyOptions : Json := .obj [("properties", .obj [("options", .bool true)])]

/-- If there is a city, there are no such options. -/
def noOptions : Json :=
  .obj [("if", .obj [("required", .arr [.str "city"])]), ("then", .obj [("not", anyOptions)])]

/-- An object with a city, and no other member but options, which a city rules out in vain. -/
def citySchema : List (String × Json) :=
  [("type", .str "object"),
    ("properties", .obj [("city", .obj [("type", .str "string")]), ("options", .bool true)]),
    ("additionalProperties", .bool false), ("not", noOptions)]

/-- Nothing is added by what stands under `not`, though a `true` stands in it. -/
theorem noOptions_adds (document sanitized : Json) : AddsNothing typesOnly document sanitized noOptions := by
  have named : NoReference (.obj [("required", .arr [.str "city"])]) :=
    .obj (by decide) fun field there => List.mem_singleton.mp there ▸
      .arr fun item inside => List.mem_singleton.mp inside ▸ .plain (by simp) (by simp)
  have fixed : sanitizeNimSchemaNode (.obj [("required", .arr [.str "city"])]) =
      some (.obj [("required", .arr [.str "city"])]) := by decide
  have loosens : Loosens typesOnly document sanitized (fun _ => False) anyOptions := by
    refine .object (by constructor <;> simp [typesOnly]) (by simp) (by simp) (by simp) ?_
    simp only [List.mem_cons, List.not_mem_nil, or_false, Prod.mk.injEq]
    rintro key - named ⟨rfl, rfl⟩ part inside
    obtain rfl := List.mem_singleton.mp inside
    exact .plain (by simp)
  have negated : AddsNothing typesOnly document sanitized (.obj [("not", anyOptions)]) := by
    refine .combined (by decide) (by simp [isBool, elements, anyOptions]) ?_ ?_ (by simp)
    · intro key schema _ there depth
      obtain ⟨rfl, rfl⟩ := Prod.mk.inj (List.mem_singleton.mp there)
      exact keeps_of_loosens (fun _ follows => follows.elim) loosens
    · intro key schema direct there
      obtain ⟨rfl, rfl⟩ := Prod.mk.inj (List.mem_singleton.mp there)
      exact absurd direct (by decide)
  refine .combined (by decide) (by simp [isBool, elements]) ?_ ?_ (by simp)
  · simp only [List.mem_cons, List.not_mem_nil, or_false, Prod.mk.injEq]
    rintro key schema direct (⟨rfl, rfl⟩ | ⟨rfl, rfl⟩) depth
    · exact keeps_of_fixed fixed named depth
    · exact absurd direct (by decide)
  · simp only [List.mem_cons, List.not_mem_nil, or_false, Prod.mk.injEq]
    rintro key schema - (⟨rfl, rfl⟩ | ⟨rfl, rfl⟩)
    · exact .of_fixed fixed named
    · exact negated

theorem citySchema_loosened :
    Loosened typesOnly (.obj citySchema) (.obj (sanitizeFields citySchema)) fun _ => False := by
  have leaf : Loosens typesOnly (.obj citySchema) (.obj (sanitizeFields citySchema)) (fun _ => False)
      (.obj [("type", .str "string")]) := by
    refine .object ?_ (by simp) (by simp) (by simp) (by simp)
    constructor <;> simp [typesOnly]
  refine ⟨?_, fun _ follows => follows.elim⟩
  refine .object ?_ ?_ (by simp [citySchema]) (by simp [citySchema]) ?_
  · constructor
    case negated =>
      intro schema there
      have last : schema = noOptions := by simpa [citySchema] using there
      rw [last]
      exact noOptions_adds _ _
    all_goals simp [citySchema, isBool, typesOnly]
  · intro key direct schema there
    simp only [citySchema, List.mem_cons, Prod.mk.injEq, List.not_mem_nil, or_false] at there
    rcases there with ⟨rfl, rfl⟩ | ⟨rfl, rfl⟩ | ⟨rfl, rfl⟩ | ⟨rfl, rfl⟩
    · exact .plain (by simp)
    · exact absurd direct (by decide)
    · exact .plain (by simp)
    · exact absurd direct (by decide)
  · intro key names named there part inside
    simp only [citySchema, List.mem_cons, Prod.mk.injEq, List.not_mem_nil, or_false] at there
    rcases there with ⟨rfl, rfl⟩ | ⟨rfl, rfl⟩ | ⟨rfl, rfl⟩ | ⟨rfl, rfl⟩
    · cases inside
    · simp only [entries, List.mem_cons, List.not_mem_nil, or_false] at inside
      rcases inside with rfl | rfl
      · exact leaf
      · exact .plain (by simp)
    · cases inside
    · exact absurd names (by decide)

theorem citySchema_keeps : ∃ sanitized, sanitizeNimSchemaNode (.obj citySchema) = some sanitized ∧
    typesOnly.accepts sanitized 0 sanitized
      (.obj [("city", .str "Rome"), ("options", .arr [])]) = true := by
  obtain ⟨sanitized, done, -, -, keeps⟩ := sanitize_keeps_accepted citySchema
  have same : sanitized = .obj (sanitizeFields citySchema) := (Option.some.inj done).symm
  subst same
  exact ⟨_, done, keeps typesOnly _ citySchema_loosened 0 _ (by decide)⟩

/-- Anything, or a text. -/
def anythingOrText : Json :=
  .obj [("anyOf", .arr [.bool true, .obj [("type", .str "string")]])]

/-- **Without its `true`, `anyOf` asks for a text.** -/
theorem anyOfTrue_rejects : ∃ sanitized, sanitizeNimSchemaNode anythingOrText = some sanitized ∧
    typesOnly.accepts anythingOrText 0 anythingOrText (.int 5) = true ∧
      typesOnly.accepts sanitized 0 sanitized (.int 5) = false :=
  ⟨_, rfl, by decide, by decide⟩

end NimSchema

end ClaudeProxy
