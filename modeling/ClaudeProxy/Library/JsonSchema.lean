/-
**What a JSON schema accepts** (the applicators of draft 2020-12, and `additionalItems`, `definitions`
and the list form of `items` of the drafts before it).

* `Validator` — what a validator brings along: the members that hold no schema, patterns, the
  `unevaluated` members and the resolution of a reference. References that depend on the dynamic scope
  are left out.
* `Member`, `Member.holds` — a member of a schema object with the meanings of the schemas in it, and
  what it asks of an instance.
* `accepts` — the instances that a schema accepts, for a given meaning of the references;
  `Validator.accepts` — references into the document, followed so many times at most.
* **`accepts_obj`** — a schema object asks what each of its members asks, and `asks_ref` up to
  `asks_contains` say what that is.
* `NoReference.accepts_eq` — a schema without references, whatever these mean.
-/

import ClaudeProxy.Json

namespace ClaudeProxy

namespace JsonSchema

/-- What a validator brings along. -/
structure Validator where
  /-- The members that hold no schema: `type`, `enum`, `required` and so on. -/
  asserts : List (String × Json) → Json → Bool
  matchesPattern : String → String → Bool
  /-- `unevaluatedProperties` and `unevaluatedItems`, given what the references mean. -/
  unevaluated : (String → Json → Bool) → String → List (String × Json) → Json → Bool
  resolve : (document : Json) → (reference : String) → Option Json

/-- The members of an object; any other instance has none. -/
def entries : Json → List (String × Json)
  | .obj fields => fields
  | _ => []

/-- The items of an array; any other instance has none. -/
def elements : Json → List Json
  | .arr items => items
  | _ => []

def isArray : Json → Bool
  | .arr _ => true
  | _ => false

def isObject : Json → Bool
  | .obj _ => true
  | _ => false

/-- **Induction over a JSON value**; with an object it reaches the members of its members, too. -/
theorem induct {motive : Json → Prop}
    (plain : ∀ value, (∀ items, value ≠ .arr items) → (∀ fields, value ≠ .obj fields) → motive value)
    (arr : ∀ items, (∀ item ∈ items, motive item) → motive (.arr items))
    (obj : ∀ fields, (∀ field ∈ fields, motive field.2 ∧ ∀ entry ∈ entries field.2, motive entry.2) →
      motive (.obj fields)) (value : Json) : motive value := by
  have leaf : ∀ value, (∀ items, value ≠ .arr items) → (∀ fields, value ≠ .obj fields) →
      motive value ∧ ∀ entry ∈ entries value, motive entry.2 := by
    intro value noArray noObject
    refine ⟨plain value noArray noObject, ?_⟩
    cases value with
    | obj fields => exact absurd rfl (noObject fields)
    | _ => exact fun entry there => absurd there List.not_mem_nil
  refine And.left (@Json.rec (fun value => motive value ∧ ∀ entry ∈ entries value, motive entry.2)
    (fun items => ∀ item ∈ items, motive item)
    (fun fields => ∀ field ∈ fields, motive field.2 ∧ ∀ entry ∈ entries field.2, motive entry.2)
    (fun field => motive field.2 ∧ ∀ entry ∈ entries field.2, motive entry.2)
    (leaf .null (by simp) (by simp)) (fun accepted => leaf (.bool accepted) (by simp) (by simp))
    (fun number => leaf (.int number) (by simp) (by simp))
    (fun literal => leaf (.float literal) (by simp) (by simp))
    (fun text => leaf (.str text) (by simp) (by simp)) ?ofArray ?ofObject ?noItem ?moreItems
    ?noField ?moreFields ?ofPair value)
  case ofArray =>
    exact fun items below => ⟨arr items below, fun entry there => absurd there List.not_mem_nil⟩
  case ofObject =>
    exact fun fields below => ⟨obj fields below, fun entry there => (below entry there).1⟩
  case noItem => exact fun item there => absurd there List.not_mem_nil
  case moreItems => exact fun first rest here below => List.forall_mem_cons.mpr ⟨here.1, below⟩
  case noField => exact fun field there => absurd there List.not_mem_nil
  case moreFields => exact fun first rest here below => List.forall_mem_cons.mpr ⟨here, below⟩
  case ofPair => exact fun key value below => below

/-- The keywords whose values are schemas, or hold them, and `$ref`. -/
def applicators : List String :=
  ["$ref", "allOf", "anyOf", "oneOf", "not", "if", "then", "else", "properties", "patternProperties",
    "additionalProperties", "propertyNames", "dependentSchemas", "prefixItems", "items",
    "additionalItems", "contains", "unevaluatedProperties", "unevaluatedItems", "$defs", "definitions"]

/-- The members that hold no schema. -/
def assertions (fields : List (String × Json)) : List (String × Json) :=
  fields.filter fun field => field.1 ∉ applicators

/-- The lists among the values of a keyword. -/
def listsOf (keyword : String) (fields : List (String × Json)) : List (List Json) :=
  (fields.filter fun field => field.1 = keyword ∧ isArray field.2).map fun field => elements field.2

/-- The number that bounds a count. -/
def bound? (keyword : String) (fields : List (String × Json)) : Option Nat :=
  fields.findSome? fun field =>
    if field.1 = keyword then
      match field.2 with
      | .int value => some value.toNat
      | _ => none
    else none

/-- A `properties` or `patternProperties` member speaks of the name. -/
def Validator.speaksOf (validator : Validator) (fields : List (String × Json)) (name : String) : Bool :=
  fields.any fun field => (entries field.2).any fun entry =>
    (field.1 = "properties" ∧ entry.1 = name) ∨
      (field.1 = "patternProperties" ∧ validator.matchesPattern entry.1 name)

/-- Schemas for the first items, in order. -/
def inOrder : List (Json → Bool) → List Json → Bool
  | schema :: schemas, item :: items => schema item && inOrder schemas items
  | _, _ => true

/-- A schema for the items that no list has a schema for. -/
def behind (lists : List (List Json)) (schema : Json → Bool) (items : List Json) : Bool :=
  items.zipIdx.all fun item => lists.any (fun list => item.2 < list.length) || schema item.1

/-- What a JSON value means as a schema, as a list of schemas and as a map of schemas. -/
structure Meaning where
  schema : Json → Bool
  schemas : List (Json → Bool)
  named : List (String × (Json → Bool))

/-- A member of a schema object. -/
structure Member where
  key : String
  value : Json
  meaning : Meaning

/-- **What a member asks of an instance**, next to the members of its object. -/
def Member.holds (validator : Validator) (references : String → Json → Bool)
    (fields : List (String × Json)) (context : List Member) (member : Member) (subject : Json) : Bool :=
  let schema := member.meaning.schema
  let schemas := member.meaning.schemas
  let named := member.meaning.named
  match member.key with
  | "$ref" => member.value.asStr?.all fun reference => references reference subject
  | "allOf" => schemas.all fun schema => schema subject
  | "anyOf" => !isArray member.value || schemas.any fun schema => schema subject
  | "oneOf" => !isArray member.value || (schemas.countP fun schema => schema subject) == 1
  | "not" => !schema subject
  | "then" =>
    context.all fun other => other.key != "if" || !other.meaning.schema subject || schema subject
  | "else" =>
    context.all fun other => other.key != "if" || other.meaning.schema subject || schema subject
  | "properties" =>
    (entries subject).all fun entry => named.all fun part => part.1 != entry.1 || part.2 entry.2
  | "patternProperties" =>
    (entries subject).all fun entry =>
      named.all fun part => !validator.matchesPattern part.1 entry.1 || part.2 entry.2
  | "additionalProperties" =>
    (entries subject).all fun entry => validator.speaksOf fields entry.1 || schema entry.2
  | "propertyNames" => (entries subject).all fun entry => schema (.str entry.1)
  | "dependentSchemas" =>
    (entries subject).all fun entry => named.all fun part => part.1 != entry.1 || part.2 subject
  | "prefixItems" => inOrder schemas (elements subject)
  | "items" =>
    if isArray member.value then inOrder schemas (elements subject)
    else behind (listsOf "prefixItems" fields) schema (elements subject)
  | "additionalItems" =>
    (listsOf "items" fields).isEmpty || behind (listsOf "items" fields) schema (elements subject)
  | "contains" =>
    !isArray subject ||
      ((bound? "minContains" fields).getD 1 ≤ (elements subject).countP schema &&
        (bound? "maxContains" fields).all fun most => (elements subject).countP schema ≤ most)
  | "unevaluatedProperties" | "unevaluatedItems" =>
    validator.unevaluated references member.key fields subject
  | _ => true

section Meanings

variable (validator : Validator) (references : String → Json → Bool)

mutual

/-- The meaning of a value. What is neither an object nor a bool asks nothing as a schema. -/
def meaning : Json → Meaning
  | .bool accepted => ⟨fun _ => accepted, [], []⟩
  | .arr items => ⟨fun _ => true, meanings items, []⟩
  | .obj fields =>
    ⟨fun subject => validator.asserts (assertions fields) subject &&
        (members fields).all fun member =>
          member.holds validator references fields (members fields) subject,
      [], (members fields).map fun member => (member.key, member.meaning.schema)⟩
  | .null | .int _ | .float _ | .str _ => ⟨fun _ => true, [], []⟩

def meanings : List Json → List (Json → Bool)
  | [] => []
  | item :: rest => (meaning item).schema :: meanings rest

def members : List (String × Json) → List Member
  | [] => []
  | (key, value) :: rest => ⟨key, value, meaning value⟩ :: members rest

end

/-- **The instances that a schema accepts.** -/
def accepts (schema subject : Json) : Bool :=
  (meaning validator references schema).schema subject

end Meanings

/-- What a reference into the document means to a validator that follows so many; it accepts nothing
behind the last one, or where there is no schema. -/
def Validator.reference (validator : Validator) (document : Json) : Nat → String → Json → Bool
  | 0, _, _ => false
  | depth + 1, reference, subject =>
    (validator.resolve document reference).any fun schema =>
      JsonSchema.accepts validator (validator.reference document depth) schema subject

/-- **The instances that a schema in a document accepts**, with references followed so many times. -/
def Validator.accepts (validator : Validator) (document : Json) (depth : Nat) (schema subject : Json) :
    Bool :=
  JsonSchema.accepts validator (validator.reference document depth) schema subject

/-! ### What each keyword asks -/

/-- A member, read with what the schemas below it accept. -/
def Member.read (accepted : Json → Json → Bool) (field : String × Json) : Member :=
  ⟨field.1, field.2, accepted field.2, (elements field.2).map accepted,
    (entries field.2).map fun entry => (entry.1, accepted entry.2)⟩

/-- What a field of a schema object asks of an instance. -/
def asks (validator : Validator) (references : String → Json → Bool) (accepted : Json → Json → Bool)
    (fields : List (String × Json)) (field : String × Json) (subject : Json) : Bool :=
  (Member.read accepted field).holds validator references fields
    (fields.map (Member.read accepted)) subject

section Acceptance

variable (validator : Validator) (references : String → Json → Bool)

theorem meanings_eq (items : List Json) :
    meanings validator references items = items.map (accepts validator references) := by
  induction items with
  | nil => rw [meanings, List.map_nil]
  | cons item rest ih =>
    rw [meanings, ih, List.map_cons]
    rfl

theorem schemas_meaning (value : Json) :
    (meaning validator references value).schemas =
      (elements value).map (accepts validator references) := by
  cases value with
  | arr items =>
    rw [meaning]
    exact meanings_eq validator references items
  | _ =>
    rw [meaning]
    rfl

theorem map_members (fields : List (String × Json)) :
    ((members validator references fields).map fun member => (member.key, member.meaning.schema)) =
      fields.map fun entry => (entry.1, accepts validator references entry.2) := by
  induction fields with
  | nil => rw [members, List.map_nil, List.map_nil]
  | cons field rest ih =>
    rw [members, List.map_cons, List.map_cons, ih]
    rfl

theorem named_meaning (value : Json) :
    (meaning validator references value).named =
      (entries value).map fun entry => (entry.1, accepts validator references entry.2) := by
  cases value with
  | obj fields =>
    rw [meaning]
    exact map_members validator references fields
  | _ =>
    rw [meaning]
    rfl

theorem members_eq (fields : List (String × Json)) :
    members validator references fields =
      fields.map (Member.read (accepts validator references)) := by
  induction fields with
  | nil => rw [members, List.map_nil]
  | cons field rest ih =>
    have same : meaning validator references field.2 =
        ⟨accepts validator references field.2, (elements field.2).map (accepts validator references),
          (entries field.2).map fun entry => (entry.1, accepts validator references entry.2)⟩ := by
      rw [← schemas_meaning, ← named_meaning]
      rfl
    rw [members, ih, List.map_cons, same]
    rfl

@[simp] theorem accepts_bool (accepted : Bool) (subject : Json) :
    accepts validator references (.bool accepted) subject = accepted := by
  rw [accepts, meaning]

/-- **A schema object asks what each of its members asks.** -/
theorem accepts_obj (fields : List (String × Json)) (subject : Json) :
    accepts validator references (.obj fields) subject = true ↔
      validator.asserts (assertions fields) subject = true ∧
        ∀ field ∈ fields,
          asks validator references (accepts validator references) fields field subject = true := by
  rw [accepts, meaning, members_eq, Bool.and_eq_true, List.all_map, List.all_eq_true]
  rfl

/-- What is neither an object nor a bool accepts everything. -/
theorem accepts_of_plain {schema : Json} (noObject : ∀ fields, schema ≠ .obj fields)
    (noBool : ∀ accepted, schema ≠ .bool accepted) (subject : Json) :
    accepts validator references schema subject = true := by
  cases schema with
  | obj fields => exact absurd rfl (noObject fields)
  | bool accepted => exact absurd rfl (noBool accepted)
  | _ => rw [accepts, meaning]

end Acceptance

section Keywords

theorem or_iff_imp {first second : Bool} :
    (first || second) = true ↔ (first = false → second = true) := by
  cases first <;> simp

variable {validator : Validator} {references : String → Json → Bool}
  {accepted : Json → Json → Bool} {fields : List (String × Json)} {value subject : Json}

theorem asks_ref :
    asks validator references accepted fields ("$ref", value) subject = true ↔
      ∀ reference, value = .str reference → references reference subject = true := by
  change (value.asStr?.all fun reference => references reference subject) = true ↔ _
  cases value <;> simp [Json.asStr?]

theorem asks_allOf :
    asks validator references accepted fields ("allOf", value) subject = true ↔
      ∀ schema ∈ elements value, accepted schema subject = true := by
  change (((elements value).map accepted).all fun schema => schema subject) = true ↔ _
  simp

theorem asks_anyOf :
    asks validator references accepted fields ("anyOf", value) subject = true ↔
      (isArray value = true → ∃ schema ∈ elements value, accepted schema subject = true) := by
  change (!isArray value || ((elements value).map accepted).any fun schema => schema subject) =
    true ↔ _
  simp [or_iff_imp, -Bool.or_eq_true]

theorem asks_oneOf :
    asks validator references accepted fields ("oneOf", value) subject = true ↔
      (isArray value = true →
        ((elements value).countP fun schema => accepted schema subject) = 1) := by
  change (!isArray value ||
    (((elements value).map accepted).countP fun schema => schema subject) == 1) = true ↔ _
  simp [or_iff_imp, -Bool.or_eq_true, List.countP_map, Function.comp_def]

theorem asks_not :
    asks validator references accepted fields ("not", value) subject = true ↔
      accepted value subject = false := by
  change (!accepted value subject) = true ↔ _
  simp

theorem asks_then :
    asks validator references accepted fields ("then", value) subject = true ↔
      ∀ condition, ("if", condition) ∈ fields → accepted condition subject = true →
        accepted value subject = true := by
  change ((fields.map (Member.read accepted)).all fun other =>
    other.key != "if" || !other.meaning.schema subject || accepted value subject) = true ↔ _
  simp only [Member.read, or_iff_imp, List.all_map, List.all_eq_true, Function.comp_apply,
    Bool.or_eq_false_iff, bne_eq_false_iff_eq, Bool.not_eq_false', Prod.forall]
  constructor
  · exact fun all condition there holds => all "if" condition there ⟨rfl, holds⟩
  · rintro all key condition there ⟨rfl, holds⟩
    exact all condition there holds

theorem asks_else :
    asks validator references accepted fields ("else", value) subject = true ↔
      ∀ condition, ("if", condition) ∈ fields → accepted condition subject = false →
        accepted value subject = true := by
  change ((fields.map (Member.read accepted)).all fun other =>
    other.key != "if" || other.meaning.schema subject || accepted value subject) = true ↔ _
  simp only [Member.read, or_iff_imp, List.all_map, List.all_eq_true, Function.comp_apply,
    Bool.or_eq_false_iff, bne_eq_false_iff_eq, Prod.forall]
  constructor
  · exact fun all condition there holds => all "if" condition there ⟨rfl, holds⟩
  · rintro all key condition there ⟨rfl, holds⟩
    exact all condition there holds

theorem asks_properties :
    asks validator references accepted fields ("properties", value) subject = true ↔
      ∀ entry ∈ entries subject, ∀ part ∈ entries value, part.1 = entry.1 →
        accepted part.2 entry.2 = true := by
  change ((entries subject).all fun entry =>
    ((entries value).map fun part => (part.1, accepted part.2)).all fun part =>
      part.1 != entry.1 || part.2 entry.2) = true ↔ _
  simp [or_iff_imp, -Bool.or_eq_true]

theorem asks_patternProperties :
    asks validator references accepted fields ("patternProperties", value) subject = true ↔
      ∀ entry ∈ entries subject, ∀ part ∈ entries value,
        validator.matchesPattern part.1 entry.1 = true → accepted part.2 entry.2 = true := by
  change ((entries subject).all fun entry =>
    ((entries value).map fun part => (part.1, accepted part.2)).all fun part =>
      !validator.matchesPattern part.1 entry.1 || part.2 entry.2) = true ↔ _
  simp [or_iff_imp, -Bool.or_eq_true]

theorem asks_additionalProperties :
    asks validator references accepted fields ("additionalProperties", value) subject = true ↔
      ∀ entry ∈ entries subject, validator.speaksOf fields entry.1 = false →
        accepted value entry.2 = true := by
  change ((entries subject).all fun entry =>
    validator.speaksOf fields entry.1 || accepted value entry.2) = true ↔ _
  simp [or_iff_imp, -Bool.or_eq_true]

theorem asks_propertyNames :
    asks validator references accepted fields ("propertyNames", value) subject = true ↔
      ∀ entry ∈ entries subject, accepted value (.str entry.1) = true := by
  change ((entries subject).all fun entry => accepted value (.str entry.1)) = true ↔ _
  simp

theorem asks_dependentSchemas :
    asks validator references accepted fields ("dependentSchemas", value) subject = true ↔
      ∀ entry ∈ entries subject, ∀ part ∈ entries value, part.1 = entry.1 →
        accepted part.2 subject = true := by
  change ((entries subject).all fun entry =>
    ((entries value).map fun part => (part.1, accepted part.2)).all fun part =>
      part.1 != entry.1 || part.2 subject) = true ↔ _
  simp [or_iff_imp, -Bool.or_eq_true]

theorem asks_prefixItems :
    asks validator references accepted fields ("prefixItems", value) subject = true ↔
      inOrder ((elements value).map accepted) (elements subject) = true := by
  exact Iff.rfl

theorem asks_items :
    asks validator references accepted fields ("items", value) subject = true ↔
      if isArray value then inOrder ((elements value).map accepted) (elements subject) = true
      else behind (listsOf "prefixItems" fields) (accepted value) (elements subject) = true := by
  change (if isArray value then inOrder ((elements value).map accepted) (elements subject)
    else behind (listsOf "prefixItems" fields) (accepted value) (elements subject)) = true ↔ _
  cases isArray value <;> rfl

theorem asks_additionalItems :
    asks validator references accepted fields ("additionalItems", value) subject = true ↔
      (listsOf "items" fields ≠ [] →
        behind (listsOf "items" fields) (accepted value) (elements subject) = true) := by
  change ((listsOf "items" fields).isEmpty ||
    behind (listsOf "items" fields) (accepted value) (elements subject)) = true ↔ _
  simp [or_iff_imp, -Bool.or_eq_true]

theorem asks_contains :
    asks validator references accepted fields ("contains", value) subject = true ↔
      (isArray subject = true →
        (bound? "minContains" fields).getD 1 ≤ (elements subject).countP (accepted value) ∧
          ∀ most, bound? "maxContains" fields = some most →
            (elements subject).countP (accepted value) ≤ most) := by
  change (!isArray subject ||
    ((bound? "minContains" fields).getD 1 ≤ (elements subject).countP (accepted value) &&
      (bound? "maxContains" fields).all fun most =>
        (elements subject).countP (accepted value) ≤ most)) = true ↔ _
  simp [or_iff_imp, -Bool.or_eq_true, Option.all_eq_true]

theorem asks_unevaluated {key : String}
    (unevaluated : key = "unevaluatedProperties" ∨ key = "unevaluatedItems") :
    asks validator references accepted fields (key, value) subject =
      validator.unevaluated references key fields subject := by
  rcases unevaluated with rfl | rfl <;> rfl

/-- What is no applicator asks nothing by itself. -/
theorem asks_of_notMem {key : String} (passive : key ∉ applicators) :
    asks validator references accepted fields (key, value) subject = true := by
  unfold asks Member.holds Member.read
  split <;> first | rfl | simp_all [applicators]

/-- Neither do a condition by itself and the definitions. -/
theorem asks_passive {key : String} (passive : key ∈ ["if", "$defs", "definitions"]) :
    asks validator references accepted fields (key, value) subject = true := by
  simp only [List.mem_cons, List.not_mem_nil, or_false] at passive
  rcases passive with rfl | rfl | rfl <;> rfl

theorem mem_listsOf {keyword : String} {list : List Json} :
    list ∈ listsOf keyword fields ↔ (keyword, .arr list) ∈ fields := by
  simp only [listsOf, List.mem_map, List.mem_filter, decide_eq_true_eq]
  constructor
  · rintro ⟨⟨key, item⟩, ⟨there, rfl, array⟩, rfl⟩
    cases item with
    | arr items => exact there
    | _ => cases array
  · exact fun there => ⟨(keyword, .arr list), ⟨there, rfl, rfl⟩, rfl⟩

theorem inOrder_nil (schemas : List (Json → Bool)) : inOrder schemas [] = true := by
  cases schemas <;> rfl

theorem inOrder_cons {schema : Json → Bool} {schemas : List (Json → Bool)} {item : Json}
    {items : List Json} : inOrder (schema :: schemas) (item :: items) = true ↔
      schema item = true ∧ inOrder schemas items = true := by
  rw [inOrder, Bool.and_eq_true]

theorem speaksOf_iff {name : String} : validator.speaksOf fields name = true ↔
    ∃ key value, (key, value) ∈ fields ∧ ∃ part ∈ entries value,
      (key = "properties" ∧ part.1 = name) ∨
        (key = "patternProperties" ∧ validator.matchesPattern part.1 name = true) := by
  simp [Validator.speaksOf]

theorem speaksOf_eq_false {name : String} : validator.speaksOf fields name = false ↔
    (∀ value, ("properties", value) ∈ fields → ∀ part ∈ entries value, part.1 ≠ name) ∧
      ∀ value, ("patternProperties", value) ∈ fields → ∀ part ∈ entries value,
        validator.matchesPattern part.1 name = false := by
  rw [← Bool.not_eq_true, speaksOf_iff]
  constructor
  · intro silent
    refine ⟨fun value there part inside same => silent ⟨_, value, there, part, inside, .inl ⟨rfl, same⟩⟩,
      fun value there part inside => Bool.eq_false_iff.mpr fun matching => ?_⟩
    exact silent ⟨_, value, there, part, inside, .inr ⟨rfl, matching⟩⟩
  · rintro ⟨noProperty, noPattern⟩ ⟨key, value, there, part, inside, ⟨rfl, same⟩ | ⟨rfl, matching⟩⟩
    · exact noProperty value there part inside same
    · rw [noPattern value there part inside] at matching
      cases matching

theorem behind_iff {lists : List (List Json)} {schema : Json → Bool} {items : List Json} :
    behind lists schema items = true ↔
      ∀ item index, items[index]? = some item → (∀ list ∈ lists, list.length ≤ index) →
        schema item = true := by
  simp [behind, List.mem_zipIdx_iff_getElem?, or_iff_imp, -Bool.or_eq_true]

end Keywords

/-! ### Schemas without references -/

/-- The members whose meaning rests on what references mean. -/
def referring : List String := ["$ref", "unevaluatedProperties", "unevaluatedItems"]

/-- No member anywhere in the value refers. -/
inductive NoReference : Json → Prop
  | plain {value : Json} : (∀ items, value ≠ .arr items) → (∀ fields, value ≠ .obj fields) →
      NoReference value
  | arr {items : List Json} : (∀ item ∈ items, NoReference item) → NoReference (.arr items)
  | obj {fields : List (String × Json)} : (∀ field ∈ fields, field.1 ∉ referring) →
      (∀ field ∈ fields, NoReference field.2) → NoReference (.obj fields)

/-- A member that does not refer asks the same where the schemas accept the same. -/
theorem asks_congr {validator : Validator} {references references' : String → Json → Bool}
    {accepted accepted' : Json → Json → Bool} {fields : List (String × Json)} {field : String × Json}
    (same : ∀ field ∈ fields, Member.read accepted field = Member.read accepted' field)
    (there : field ∈ fields) (alone : field.1 ∉ referring) (subject : Json) :
    asks validator references accepted fields field subject =
      asks validator references' accepted' fields field subject := by
  unfold asks
  rw [same field there, List.map_congr_left same]
  obtain ⟨key, value⟩ := field
  unfold Member.holds Member.read
  dsimp only
  split
  case h_1 => exact absurd (show "$ref" ∈ referring by decide) alone
  case h_17 => exact absurd (show "unevaluatedProperties" ∈ referring by decide) alone
  case h_18 => exact absurd (show "unevaluatedItems" ∈ referring by decide) alone
  all_goals rfl

/-- **A schema without references accepts the same**, whatever they mean. -/
theorem NoReference.accepts_eq {value : Json} (alone : NoReference value) (validator : Validator)
    (references references' : String → Json → Bool) :
    accepts validator references value = accepts validator references' value ∧
      (∀ item ∈ elements value, accepts validator references item = accepts validator references' item) ∧
      ∀ entry ∈ entries value,
        accepts validator references entry.2 = accepts validator references' entry.2 := by
  have plainly {value : Json} (noObject : ∀ fields, value ≠ .obj fields) :
      accepts validator references value = accepts validator references' value := by
    funext subject
    cases value with
    | obj fields => exact absurd rfl (noObject fields)
    | bool accepted => rw [accepts_bool, accepts_bool]
    | _ =>
      rw [accepts_of_plain _ _ (by simp) (by simp), accepts_of_plain _ _ (by simp) (by simp)]
  induction alone with
  | @plain value noArray noObject =>
    refine ⟨plainly noObject, ?_, ?_⟩
    · cases value with
      | arr items => exact absurd rfl (noArray items)
      | _ => exact fun item there => absurd there List.not_mem_nil
    · cases value with
      | obj fields => exact absurd rfl (noObject fields)
      | _ => exact fun item there => absurd there List.not_mem_nil
  | arr _ ih =>
    exact ⟨plainly (by simp), fun item there => (ih item there).1,
      fun entry there => absurd there List.not_mem_nil⟩
  | @obj fields apart _ ih =>
    refine ⟨?_, fun item there => absurd there List.not_mem_nil, fun entry there => (ih entry there).1⟩
    have same : ∀ field ∈ fields, Member.read (accepts validator references) field =
        Member.read (accepts validator references') field := by
      intro field there
      obtain ⟨whole, items, parts⟩ := ih field there
      have named : ∀ entry ∈ entries field.2, (entry.1, accepts validator references entry.2) =
          (entry.1, accepts validator references' entry.2) :=
        fun entry inside => by rw [parts entry inside]
      unfold Member.read
      rw [whole, List.map_congr_left items, List.map_congr_left named]
    funext subject
    rw [Bool.eq_iff_iff, accepts_obj, accepts_obj]
    refine and_congr_right fun _ => forall₂_congr fun field there => ?_
    rw [asks_congr same there (apart field there) subject]

end JsonSchema

end ClaudeProxy
