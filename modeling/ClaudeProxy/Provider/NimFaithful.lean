/-
**What a renamed schema accepts** (`_alias_nim_tool_parameters` and
`_restore_aliased_tool_argument_value`).

* `Unspoken` — the members of a schema object that speak of `type` are its properties and the list of
  the required ones beside them. What `unevaluatedProperties` and `unevaluatedItems` ask is not modelled:
  that it is the same under both names is a hypothesis about the validator.
* `Renames` — such schemas; `Renamed` — a document all of whose followed references lead to such schemas.
* **`accepts_aliased`** — the schema that is sent accepts an instance exactly when the given one accepts
  what is restored of it; `aliased_disagrees` — schemas that speak of `type` elsewhere.
-/

import ClaudeProxy.Provider.NimAcceptance
import ClaudeProxy.Provider.NimAgreement

namespace ClaudeProxy

namespace NimSchema

open JsonSchema

/-! ### The names of the properties below -/

section Collected

variable {made : String} {fields : List (String × Json)} {item : Json}

theorem notMem_collectFields (fresh : made ∉ collectFields fields) {key : String}
    (there : (key, item) ∈ fields) (other : key ≠ "properties") :
    made ∉ collectNimToolPropertyNames item := by
  induction fields with
  | nil => exact absurd there List.not_mem_nil
  | cons field rest ih =>
    rw [collectFields, List.mem_append, not_or] at fresh
    rcases List.mem_cons.mp there with rfl | later
    · rw [if_neg other] at fresh
      exact fresh.1
    · exact ih fresh.2 later

theorem notMem_collectNamed {named : List (String × Json)} (fresh : made ∉ collectNamed named)
    {part : String × Json} (there : part ∈ named) :
    part.1 ≠ made ∧ made ∉ collectNimToolPropertyNames part.2 := by
  induction named with
  | nil => exact absurd there List.not_mem_nil
  | cons first rest ih =>
    rw [collectNamed, List.cons_append, List.mem_cons, List.mem_append, not_or, not_or] at fresh
    rcases List.mem_cons.mp there with rfl | later
    · exact ⟨Ne.symm fresh.1, fresh.2.1⟩
    · exact ih fresh.2.2 later

theorem notMem_collect_properties (fresh : made ∉ collectFields fields) {properties : List (String × Json)}
    (there : ("properties", .obj properties) ∈ fields) {part : String × Json} (inside : part ∈ properties) :
    part.1 ≠ made ∧ made ∉ collectNimToolPropertyNames part.2 := by
  induction fields with
  | nil => exact absurd there List.not_mem_nil
  | cons field rest ih =>
    rw [collectFields, List.mem_append, not_or] at fresh
    rcases List.mem_cons.mp there with rfl | later
    · rw [if_pos rfl, collectProperties] at fresh
      exact notMem_collectNamed fresh.1 inside
    · exact ih fresh.2 later

theorem notMem_collect_elements (fresh : made ∉ collectNimToolPropertyNames item) {schema : Json}
    (inside : schema ∈ elements item) : made ∉ collectNimToolPropertyNames schema := by
  cases item with
  | arr items =>
    rw [collectNimToolPropertyNames] at fresh
    change schema ∈ items at inside
    induction items with
    | nil => exact absurd inside List.not_mem_nil
    | cons first rest ih =>
      rw [collectItems, List.mem_append, not_or] at fresh
      rcases List.mem_cons.mp inside with rfl | later
      · exact fresh.1
      · exact ih fresh.2 later
  | _ => exact absurd inside List.not_mem_nil

theorem notMem_collect_entries (fresh : made ∉ collectNimToolPropertyNames item) {part : String × Json}
    (inside : part ∈ entries item) (other : part.1 ≠ "properties") :
    made ∉ collectNimToolPropertyNames part.2 := by
  cases item with
  | obj named =>
    rw [collectNimToolPropertyNames] at fresh
    exact notMem_collectFields fresh inside other
  | _ => exact absurd inside List.not_mem_nil

end Collected

/-! ### Schemas that speak of `type` as a property only -/

/-- The keywords whose value is a schema. -/
def valueKeys : List String :=
  ["additionalProperties", "additionalItems", "items", "contains", "propertyNames", "not", "if", "then",
    "else"]

/-- The keywords whose value lists schemas. -/
def listKeys : List String := ["allOf", "anyOf", "oneOf", "prefixItems", "items"]

/-- The keywords whose value names schemas. -/
def mapKeys : List String := ["properties", "patternProperties", "dependentSchemas"]

section Documents

variable (validator : Validator) (document renamed : Json) (made : String) (followed : String → Prop)

/-- **Only the properties and the `required` list beside them speak of `type`**, as far as that does not
depend on the schemas in them. -/
structure Unspoken (fields : List (String × Json)) : Prop where
  distinct : (fields.map Prod.fst).Nodup
  references : ∀ reference, ("$ref", .str reference) ∈ fields → followed reference
  required : ∀ names, ("required", names) ∈ fields →
    made ∉ namesOf names ∧ ("type" ∈ namesOf names → declares fields = true)
  dependentRequired : ∀ named, ("dependentRequired", named) ∈ fields → ∀ part ∈ entries named,
    part.1 ≠ "properties" ∧ ¬ Exchanged made part.1 ∧ ∀ name ∈ namesOf part.2, ¬ Exchanged made name
  others : ∀ key value, (key, value) ∈ fields →
    key ∉ applicators ++ annotations ++ ["required", "dependentRequired"] →
      key ≠ "dependencies" ∧ renameNode made value = value ∧ Avoids (Exchanged made) value
  patterns : ∀ named, ("patternProperties", named) ∈ fields → ∀ part ∈ entries named,
    part.1 ≠ "properties" ∧
      validator.matchesPattern part.1 made = validator.matchesPattern part.1 "type"
  dependentSchemas : ∀ named, ("dependentSchemas", named) ∈ fields → ∀ part ∈ entries named,
    part.1 ≠ "properties" ∧ part.1 ≠ "type" ∧ part.1 ≠ made
  propertyNames : ∀ schema, ("propertyNames", schema) ∈ fields → ∀ depth,
    validator.accepts document depth schema (.str made) =
      validator.accepts document depth schema (.str "type")
  unevaluated : ∀ key schema, key = "unevaluatedProperties" ∨ key = "unevaluatedItems" →
    (key, schema) ∈ fields → ∀ depth subject, Untyped subject →
      validator.unevaluated (validator.reference renamed depth) key (renamedFields made fields) subject =
        validator.unevaluated (validator.reference document depth) key fields (restored made subject)

/-- **Nothing else speaks of `type`**, here and in the schemas that are asked. -/
inductive Renames : Json → Prop
  | plain {schema : Json} : (∀ fields, schema ≠ .obj fields) → Renames schema
  | object {fields : List (String × Json)} :
      Unspoken validator document renamed made followed fields →
      (∀ key ∈ valueKeys, ∀ schema, (key, schema) ∈ fields → Renames schema) →
      (∀ key ∈ listKeys, ∀ schemas, (key, schemas) ∈ fields → ∀ schema ∈ elements schemas,
        Renames schema) →
      (∀ key ∈ mapKeys, ∀ named, (key, named) ∈ fields → ∀ part ∈ entries named, Renames part.2) →
      Renames (.obj fields)

/-- The document is such a schema, and a followed reference leads to the renamed form of the schema that
it led to, another such schema of the same document. -/
structure Renamed : Prop where
  root : Renames validator document renamed made followed document
  references : ∀ reference, followed reference →
    (∀ schema, validator.resolve document reference = some schema →
      Renames validator document renamed made followed schema ∧
        made ∉ collectNimToolPropertyNames schema ∧
        validator.resolve renamed reference = some (renameNode made schema)) ∧
      (validator.resolve document reference = none → validator.resolve renamed reference = none)

variable {validator document renamed made followed}

/-- The members that hold no schema ask the same. -/
theorem asserts_renamedFields {asserts : String → Json → Json → Bool} (reads : Reads validator asserts)
    {fields : List (String × Json)}
    (unspoken : Unspoken validator document renamed made followed fields) {subject : Json}
    (untyped : Untyped subject) :
    validator.asserts (assertions (renamedFields made fields)) subject =
      validator.asserts (assertions fields) (restored made subject) := by
  rw [reads.each, reads.each, assertions_renamedFields, List.all_map, Bool.eq_iff_iff, List.all_eq_true,
    List.all_eq_true]
  refine forall₂_congr fun field there => ?_
  obtain ⟨key, value⟩ := field
  obtain ⟨there, noSchema⟩ := List.mem_filter.mp there
  rw [Function.comp_apply]
  by_cases isAnnotation : key ∈ annotations
  · rw [reads.annotation key isAnnotation, reads.annotation key isAnnotation]
  by_cases isRequired : key = "required"
  · obtain rfl := isRequired
    obtain ⟨fresh, beside⟩ := unspoken.required value there
    rw [required_restored reads untyped fresh beside]
  rw [renameMember_of_ne isRequired]
  by_cases isDependent : key = "dependentRequired"
  · obtain rfl := isDependent
    rw [dependentRequired_restored reads untyped (unspoken.dependentRequired value there)]
  · have noSchema : key ∉ applicators := of_decide_eq_true noSchema
    obtain ⟨noDependency, unchanged, avoids⟩ := unspoken.others key value there
      (by simp [noSchema, isAnnotation, isRequired, isDependent])
    rw [unchanged, reads.other made key value subject
      (by simp [isRequired, isDependent, noDependency]) avoids untyped]

/-- A part of a map agrees when its schema does. -/
theorem part_agrees {references references' : String → Json → Bool} {part : String × Json}
    (agree : Agrees (accepts validator references') (accepts validator references) made part.2) :
    PartAgrees (accepts validator references') (accepts validator references) made part := by
  obtain ⟨key, schema⟩ := part
  intro subject untyped
  cases isList : requiredList? key schema with
  | none =>
    rw [renameMember, isList]
    exact agree subject untyped
  | some list =>
    cases schema with
    | arr items =>
      rw [renameMember, isList, accepts_of_plain _ _ (by simp) (by simp),
        accepts_of_plain _ _ (by simp) (by simp)]
    | _ => cases isList

/-- **Another member than `properties`** asks the same, when the references and the schemas in it agree. -/
theorem member_iff {depth : Nat}
    (agree : ∀ reference, followed reference → ∀ subject, Untyped subject →
      validator.reference renamed depth reference subject =
        validator.reference document depth reference (restored made subject))
    {fields : List (String × Json)} (unspoken : Unspoken validator document renamed made followed fields)
    (fresh : ∀ properties, ("properties", .obj properties) ∈ fields → ∀ part ∈ properties, part.1 ≠ made)
    (value : ∀ key ∈ valueKeys, ∀ item, (key, item) ∈ fields →
      Agrees (validator.accepts renamed depth) (validator.accepts document depth) made item)
    (list : ∀ key ∈ listKeys, ∀ item, (key, item) ∈ fields → ∀ schema ∈ elements item,
      Agrees (validator.accepts renamed depth) (validator.accepts document depth) made schema)
    (map : ∀ key ∈ ["patternProperties", "dependentSchemas"], ∀ item, (key, item) ∈ fields →
      ∀ part ∈ entries item, part.1 ≠ "properties" →
        PartAgrees (validator.accepts renamed depth) (validator.accepts document depth) made part)
    {subject : Json} (untyped : Untyped subject) {key : String} {item : Json}
    (there : (key, item) ∈ fields) (other : key ≠ "properties") :
    asks validator (validator.reference renamed depth) (validator.accepts renamed depth)
        (renamedFields made fields) (key, renameMember made (declares fields) key item) subject = true ↔
      asks validator (validator.reference document depth) (validator.accepts document depth) fields
        (key, item) (restored made subject) = true := by
  by_cases applies : key ∉ applicators
  · rw [asks_of_notMem applies, asks_of_notMem applies]
  have noRequired : key ≠ "required" := by
    rintro rfl
    exact applies (by decide)
  rw [not_not] at applies
  rw [renameMember_of_ne noRequired]
  simp only [applicators, List.mem_cons, List.not_mem_nil, or_false] at applies
  rcases applies with rfl | rfl | rfl | rfl | rfl | rfl | rfl | rfl | rfl | rfl | rfl | rfl | rfl | rfl |
    rfl | rfl | rfl | rfl | rfl | rfl | rfl
  -- `$ref`
  · refine ref_iff fun reference same => agree reference ?_ subject untyped
    exact unspoken.references reference (same ▸ there)
  -- the lists
  · exact allOf_iff untyped (list "allOf" (by decide) item there)
  · exact anyOf_iff untyped (list "anyOf" (by decide) item there)
  · exact oneOf_iff untyped (list "oneOf" (by decide) item there)
  -- `not`, and the condition with what it decides on
  · exact not_iff untyped (value "not" (by decide) item there)
  · rw [asks_passive (by decide), asks_passive (by decide)]
  · exact then_iff untyped (value "if" (by decide)) (value "then" (by decide) item there)
  · exact else_iff untyped (value "if" (by decide)) (value "else" (by decide) item there)
  -- the members of an object
  · exact absurd rfl other
  · have patterns := unspoken.patterns item there
    exact patternProperties_iff untyped patterns fun part inside =>
      map "patternProperties" (by decide) item there part inside (patterns part inside).1
  · exact additionalProperties_iff untyped unspoken.distinct fresh unspoken.patterns
      (value "additionalProperties" (by decide) item there)
  · exact propertyNames_iff untyped (value "propertyNames" (by decide) item there)
      (unspoken.propertyNames item there depth)
  · have others := unspoken.dependentSchemas item there
    exact dependentSchemas_iff untyped others fun part inside =>
      map "dependentSchemas" (by decide) item there part inside (others part inside).1
  -- the items of an array
  · exact prefixItems_iff untyped (list "prefixItems" (by decide) item there)
  · exact items_iff untyped (list "items" (by decide) item there) (value "items" (by decide) item there)
  · exact additionalItems_iff untyped (value "additionalItems" (by decide) item there)
  · exact contains_iff untyped (value "contains" (by decide) item there)
  -- what is left over, and the definitions
  · rw [asks_unevaluated (.inl rfl), asks_unevaluated (.inl rfl),
      unspoken.unevaluated _ item (.inl rfl) there depth subject untyped]
  · rw [asks_unevaluated (.inr rfl), asks_unevaluated (.inr rfl),
      unspoken.unevaluated _ item (.inr rfl) there depth subject untyped]
  · rw [asks_passive (by decide), asks_passive (by decide)]
  · rw [asks_passive (by decide), asks_passive (by decide)]

/-- **A schema that speaks of `type` as a property only** is renamed faithfully, when the references
are. -/
theorem agrees_of_renames {asserts : String → Json → Json → Bool} (reads : Reads validator asserts)
    {depth : Nat}
    (agree : ∀ reference, followed reference → ∀ subject, Untyped subject →
      validator.reference renamed depth reference subject =
        validator.reference document depth reference (restored made subject))
    {schema : Json} (renames : Renames validator document renamed made followed schema)
    (fresh : made ∉ collectNimToolPropertyNames schema) :
    Agrees (validator.accepts renamed depth) (validator.accepts document depth) made schema := by
  induction renames with
  | @plain schema noObject =>
    intro subject _
    cases schema with
    | obj fields => exact absurd rfl (noObject fields)
    | bool accepted =>
      rw [renameNode, Validator.accepts, Validator.accepts, accepts_bool, accepts_bool]
    | _ =>
      rw [renameNode, Validator.accepts, Validator.accepts, accepts_of_plain _ _ (by simp) (by simp),
        accepts_of_plain _ _ (by simp) (by simp)]
  | @object fields unspoken _ _ _ values lists maps =>
    intro subject untyped
    rw [collectNimToolPropertyNames] at fresh
    have below : ∀ {keys : List String}, "properties" ∉ keys → ∀ {key item}, key ∈ keys →
        (key, item) ∈ fields → made ∉ collectNimToolPropertyNames item :=
      fun apart _ _ known there => notMem_collectFields fresh there fun same => apart (same ▸ known)
    have value : ∀ key ∈ valueKeys, ∀ item, (key, item) ∈ fields →
        Agrees (validator.accepts renamed depth) (validator.accepts document depth) made item :=
      fun key known item there => values key known item there (below (by decide) known there)
    have list : ∀ key ∈ listKeys, ∀ item, (key, item) ∈ fields → ∀ schema ∈ elements item,
        Agrees (validator.accepts renamed depth) (validator.accepts document depth) made schema :=
      fun key known item there schema inside => lists key known item there schema inside
        (notMem_collect_elements (below (by decide) known there) inside)
    have map : ∀ key ∈ ["patternProperties", "dependentSchemas"], ∀ item, (key, item) ∈ fields →
        ∀ part ∈ entries item, part.1 ≠ "properties" →
          PartAgrees (validator.accepts renamed depth) (validator.accepts document depth) made part :=
      fun key known item there part inside apart => part_agrees
        (maps key (List.mem_cons_of_mem _ known) item there part inside
          (notMem_collect_entries (below (by decide) known there) inside apart))
    have freshParts : ∀ properties, ("properties", .obj properties) ∈ fields → ∀ part ∈ properties,
        part.1 ≠ made :=
      fun properties there part inside => (notMem_collect_properties fresh there inside).1
    have declared : ∀ properties, ("properties", .obj properties) ∈ fields → ∀ part ∈ properties,
        Agrees (validator.accepts renamed depth) (validator.accepts document depth) made part.2 :=
      fun properties there part inside => maps "properties" (by decide) (.obj properties) there part inside
        (notMem_collect_properties fresh there inside).2
    rw [Bool.eq_iff_iff, renameNode_obj]
    refine ((accepts_obj _ _ _ subject).trans ?_).trans (accepts_obj _ _ fields _).symm
    refine and_congr (by rw [asserts_renamedFields reads unspoken untyped]) ?_
    rw [forall_mem_renamedFields unspoken.distinct]
    constructor
    · rintro ⟨ofProperties, ofOthers⟩ ⟨key, item⟩ there
      by_cases isProperties : key = "properties"
      · obtain rfl := isProperties
        cases item with
        | obj properties =>
          exact (properties_iff untyped (freshParts properties there) (declared properties there)).mp
            (ofProperties properties there)
        | _ => exact asks_properties.mpr fun _ _ part inside => absurd inside List.not_mem_nil
      · exact (member_iff agree unspoken freshParts value list map untyped there isProperties).mp
          (ofOthers key item there isProperties)
    · intro all
      exact ⟨fun properties there =>
        (properties_iff untyped (freshParts properties there) (declared properties there)).mpr
          (all _ there),
        fun key item there other =>
          (member_iff agree unspoken freshParts value list map untyped there other).mpr (all _ there)⟩

/-- References agree, however many are followed. -/
theorem reference_of_renamed {asserts : String → Json → Json → Bool} (reads : Reads validator asserts)
    (whole : Renamed validator document renamed made followed) (depth : Nat) :
    ∀ reference, followed reference → ∀ subject, Untyped subject →
      validator.reference renamed depth reference subject =
        validator.reference document depth reference (restored made subject) := by
  induction depth with
  | zero => exact fun reference _ subject _ => rfl
  | succ depth ih =>
    intro reference follows subject untyped
    obtain ⟨leads, nowhere⟩ := whole.references reference follows
    cases target : validator.resolve document reference with
    | none => rw [Validator.reference, Validator.reference, nowhere target, target]; rfl
    | some schema =>
      obtain ⟨renames, fresh, still⟩ := leads schema target
      rw [Validator.reference, Validator.reference, still, target]
      exact agrees_of_renames reads ih renames fresh subject untyped

end Documents

/-- **The aliases of a schema are faithful** where it speaks of `type` as a property only: the schema
that is sent accepts an instance without `type` exactly when the given one accepts what is restored. -/
theorem accepts_aliased (isAlnum : Char → Bool) (parameters : Json) (validator : Validator)
    (asserts : String → Json → Json → Bool) (reads : Reads validator asserts) (followed : String → Prop)
    (whole : ∀ made, (aliasNimToolParameters isAlnum parameters).2.get? made = some "type" →
      Renamed validator parameters (aliasNimToolParameters isAlnum parameters).1 made followed)
    (depth : Nat) (subject : Json)
    (avoids : Avoids (fun name => ∃ made,
      (aliasNimToolParameters isAlnum parameters).2.get? made = some name) subject) :
    validator.accepts (aliasNimToolParameters isAlnum parameters).1 depth
        (aliasNimToolParameters isAlnum parameters).1 subject =
      validator.accepts parameters depth parameters
        (OpenaiCall.restoreAliasedToolArgumentValue (aliasNimToolParameters isAlnum parameters).2
          subject) := by
  rcases aliased_eq_renamed isAlnum parameters with same | same
  · rw [same] at avoids ⊢
    rw [restore_eq_self (fun name _ => by rw [Dict.get?_empty, Option.getD_none]) avoids]
  · have fresh := makeNimToolParameterAlias_notMem isAlnum "type" (collectNimToolPropertyNames parameters)
    rw [same] at whole avoids ⊢
    rw [← typeAlias] at fresh
    generalize typeAlias isAlnum (collectNimToolPropertyNames parameters) = made at *
    have isRenamed := whole made (get?_onlyAlias.mpr ⟨rfl, rfl⟩)
    have originals : (fun name => ∃ other, (onlyAlias made).get? other = some name) = (· = "type") := by
      funext name
      simp only [get?_onlyAlias, exists_eq_left]
    have untyped : Untyped subject := by
      rw [Untyped, ← originals]
      exact avoids
    exact agrees_of_renames reads (reference_of_renamed reads isRenamed depth) isRenamed.root fresh subject
      untyped

/-! ### Five schemas -/

section Compared

variable {made : String} {value : Json}

theorem restored_of_kept (kept : Avoids (Exchanged made) value) : restored made value = value := by
  refine restore_eq_self (fun name exchanged => ?_) kept
  rw [onlyAlias_getD, originalName, if_neg fun isMade => exchanged (.inr isMade)]

/-- What is restored to a value without these names is the value. -/
theorem eq_of_restored (kept : Avoids (Exchanged made) value) :
    ∀ {subject}, Untyped subject → restored made subject = value → subject = value := by
  induction kept with
  | @obj fields distinct absent values ih =>
    intro subject untyped same
    cases subject with
    | obj entered =>
      have image : entered.map (fun entry => (originalName made entry.1, restored made entry.2)) = fields :=
        (entries_restored untyped).symm.trans (congrArg entries same)
      have each : ∀ entry ∈ entered, (originalName made entry.1, restored made entry.2) = entry := by
        intro entry there
        have inside : (originalName made entry.1, restored made entry.2) ∈ fields :=
          image ▸ List.mem_map.mpr ⟨entry, there, rfl⟩
        have noMade : entry.1 ≠ made := fun isMade => absent _ inside (.inl (if_pos isMade))
        exact Prod.ext (if_neg noMade) (ih _ inside (untyped.entry there).2 rfl).symm
      exact congrArg Json.obj (((List.map_congr_left each).trans (List.map_id entered)).symm.trans image)
    | _ => cases (isObject_restored _).symm.trans (congrArg isObject same)
  | @arr items values ih =>
    intro subject untyped same
    cases subject with
    | arr entered =>
      have image : entered.map (restored made) = items :=
        (elements_restored (.arr entered)).symm.trans (congrArg elements same)
      have each : ∀ item ∈ entered, restored made item = item := fun item there =>
        (ih _ (image ▸ List.mem_map.mpr ⟨item, there, rfl⟩) (untyped.item there) rfl).symm
      exact congrArg Json.arr (((List.map_congr_left each).trans (List.map_id entered)).symm.trans image)
    | _ => cases (isArray_restored _).symm.trans (congrArg isArray same)
  | @plain value noArray noObject =>
    intro subject untyped same
    cases subject with
    | obj fields =>
      rw [restored, OpenaiCall.restoreAliasedToolArgumentValue] at same
      exact absurd same.symm (noObject _)
    | arr items =>
      rw [restored, OpenaiCall.restoreAliasedToolArgumentValue] at same
      exact absurd same.symm (noArray _)
    | _ => exact same

end Compared

/-- The members that hold no schema, of a validator without formats and bounds. -/
def assertsPlainly (key : String) (value subject : Json) : Bool :=
  match key with
  | "type" => value.asStr?.any fun type => isOfType type subject
  | "enum" => subject ∈ elements value
  | "required" => requires value subject
  | "dependentRequired" =>
    (entries value).all fun part => !hasName subject part.1 || requires part.2 subject
  | _ => true

/-- A validator for schemas without patterns and references. -/
def plainly : Validator where
  asserts fields subject := fields.all fun field => assertsPlainly field.1 field.2 subject
  matchesPattern _ _ := false
  unevaluated _ _ _ _ := true
  resolve _ _ := none

theorem plainly_reads : Reads plainly assertsPlainly := by
  refine ⟨fun _ _ => rfl, ?_, fun _ _ => rfl, fun _ _ => rfl, ?_⟩
  · intro key known value subject
    simp only [annotations, List.mem_cons, List.not_mem_nil, or_false] at known
    rcases known with rfl | rfl | rfl | rfl | rfl | rfl | rfl | rfl | rfl | rfl | rfl <;> rfl
  · intro made key value subject apart avoids untyped
    unfold assertsPlainly
    split
    · cases subject <;> simp [restored, OpenaiCall.restoreAliasedToolArgumentValue, isOfType]
    · refine decide_eq_decide.mpr ⟨fun there => ?_, fun there => ?_⟩
      · rw [restored_of_kept (avoids.item there)]
        exact there
      · rw [eq_of_restored (avoids.item there) untyped rfl]
        exact there
    all_goals simp_all

/-- A page in a parent of some type. -/
def notionSchema : Json :=
  .obj [("type", .str "object"),
    ("properties", .obj [("parent", .obj [("type", .str "object"),
      ("properties", .obj [("type", .obj [("type", .str "string"), ("enum", .arr [.str "page_id"])]),
        ("id", .obj [("type", .str "string")])]),
      ("required", .arr [.str "type", .str "id"])])]),
    ("required", .arr [.str "parent"])]

/-- A schema with these members only speaks of no name elsewhere. -/
theorem Unspoken.of_simple {validator : Validator} {document renamed : Json} {made : String}
    {followed : String → Prop} {fields : List (String × Json)} (distinct : (fields.map Prod.fst).Nodup)
    (keys : ∀ field ∈ fields, field.1 ∈ ["type", "enum", "properties", "required"])
    (data : ∀ field ∈ fields, field.1 ∈ ["type", "enum"] →
      renameNode made field.2 = field.2 ∧ Avoids (Exchanged made) field.2)
    (required : ∀ names, ("required", names) ∈ fields →
      made ∉ namesOf names ∧ ("type" ∈ namesOf names → declares fields = true)) :
    Unspoken validator document renamed made followed fields := by
  have absent : ∀ {key value}, key ∉ ["type", "enum", "properties", "required"] →
      (key, value) ∉ fields := fun other there => other (keys _ there)
  refine ⟨distinct, fun _ there => absurd there (absent (by decide)), required,
    fun _ there => absurd there (absent (by decide)), ?_,
    fun _ there => absurd there (absent (by decide)),
    fun _ there => absurd there (absent (by decide)),
    fun _ there => absurd there (absent (by decide)), ?_⟩
  · intro key value there apart
    have known : key ∈ ["type", "enum", "properties", "required"] := keys _ there
    have isData : key ∈ ["type", "enum"] := by
      simp only [List.mem_cons, List.not_mem_nil, or_false] at known ⊢
      rcases known with rfl | rfl | rfl | rfl
      · exact .inl rfl
      · exact .inr rfl
      · exact absurd (by decide) apart
      · exact absurd (by decide) apart
    refine ⟨?_, data _ there isData⟩
    rintro rfl
    exact absurd known (by decide)
  · intro key schema unevaluated there
    rcases unevaluated with rfl | rfl <;> exact absurd there (absent (by decide))

theorem notionSchema_renamed {renamed : Json} :
    Renamed plainly notionSchema renamed "_fcc_arg_type" fun _ => False := by
  have text : ∀ value, Avoids (Exchanged "_fcc_arg_type") (.str value) := fun value => .text value
  have texts : ∀ value, Avoids (Exchanged "_fcc_arg_type") (.arr [.str value]) := fun value =>
    .arr fun item there => List.mem_singleton.mp there ▸ text value
  have enumerated : Renames plainly notionSchema renamed "_fcc_arg_type" (fun _ => False)
      (.obj [("type", .str "string"), ("enum", .arr [.str "page_id"])]) := by
    refine .object (.of_simple (by decide) (by simp) ?_ (by simp)) (by simp [valueKeys])
      (by simp [listKeys]) (by simp [mapKeys])
    simp [renameNode, renameItems, text, texts]
  have named : Renames plainly notionSchema renamed "_fcc_arg_type" (fun _ => False)
      (.obj [("type", .str "string")]) := by
    refine .object (.of_simple (by decide) (by simp) ?_ (by simp)) (by simp [valueKeys])
      (by simp [listKeys]) (by simp [mapKeys])
    simp [renameNode, text]
  have parent : Renames plainly notionSchema renamed "_fcc_arg_type" (fun _ => False)
      (.obj [("type", .str "object"),
        ("properties", .obj [("type", .obj [("type", .str "string"), ("enum", .arr [.str "page_id"])]),
          ("id", .obj [("type", .str "string")])]),
        ("required", .arr [.str "type", .str "id"])]) := by
    refine .object (.of_simple (by decide) (by simp) ?_ ?_) (by simp [valueKeys]) (by simp [listKeys]) ?_
    · simp [renameNode, text]
    · simp [namesOf, elements, Json.asStr?, declares, propertiesOf, entries]
    · simp [mapKeys, entries, or_imp, forall_and, enumerated, named]
  refine ⟨.object (.of_simple (by decide) (by simp) ?_ ?_) (by simp [valueKeys]) (by simp [listKeys]) ?_,
    fun _ follows => follows.elim⟩
  · simp [renameNode, text]
  · simp [namesOf, elements, Json.asStr?]
  · simp [mapKeys, entries, parent]

/-- A page whose parent is named by the alias. -/
theorem notionSchema_accepts :
    plainly.accepts (aliasNimToolParameters Char.isAlphanum notionSchema).1 0
        (aliasNimToolParameters Char.isAlphanum notionSchema).1
        (.obj [("parent", .obj [("_fcc_arg_type", .str "page_id"), ("id", .str "1")])]) =
      plainly.accepts notionSchema 0 notionSchema
        (OpenaiCall.restoreAliasedToolArgumentValue (aliasNimToolParameters Char.isAlphanum notionSchema).2
          (.obj [("parent", .obj [("_fcc_arg_type", .str "page_id"), ("id", .str "1")])])) := by
  have aliases : (aliasNimToolParameters Char.isAlphanum notionSchema).2 = onlyAlias "_fcc_arg_type" := by
    decide +kernel
  have other : ∀ {name}, name ≠ "type" →
      ¬ ∃ made, (onlyAlias "_fcc_arg_type").get? made = some name :=
    fun noType ⟨made, known⟩ => noType (get?_onlyAlias.mp known).2
  refine accepts_aliased Char.isAlphanum notionSchema plainly assertsPlainly plainly_reads (fun _ => False)
    ?_ 0 _ ?_
  · intro made known
    rw [aliases] at known
    rw [(get?_onlyAlias.mp known).1]
    exact notionSchema_renamed
  · rw [aliases]
    refine .obj (by decide) ?_ ?_
    · rw [List.forall_mem_singleton]
      exact other (by decide)
    · rw [List.forall_mem_singleton]
      refine .obj (by decide) ?_ ?_
      · simp only [List.forall_mem_cons, List.not_mem_nil, false_imp_iff, implies_true, and_true]
        exact ⟨other (by decide), other (by decide)⟩
      · simp only [List.forall_mem_cons, List.not_mem_nil, false_imp_iff, implies_true, and_true]
        exact ⟨.text "page_id", .text "1"⟩

/-- Schemas that speak of `type` elsewhere, each with an instance. -/
def elsewhere : List (Json × Json) :=
  let typed : Json := .obj [("type", .obj [])]
  [(.obj [("properties", typed), ("anyOf", .arr [.obj [("required", .arr [.str "type"])]])],
      .obj [("_fcc_arg_type", .int 1)]),
    (.obj [("properties", typed), ("dependentRequired", .obj [("type", .arr [.str "city"])])],
      .obj [("_fcc_arg_type", .int 1)]),
    (.obj [("properties", typed), ("dependentSchemas", .obj [("type", .bool false)])],
      .obj [("_fcc_arg_type", .int 1)]),
    (.obj [("properties", typed), ("propertyNames", .obj [("enum", .arr [.str "type"])])],
      .obj [("_fcc_arg_type", .int 1)]),
    (.obj [("properties", .obj [("type", .obj []),
        ("filter", .obj [("enum", .arr [.obj [("type", .int 1)]])])])],
      .obj [("filter", .obj [("_fcc_arg_type", .int 1)])])]

/-- **Where other members speak of `type`**, the two schemas disagree. -/
theorem aliased_disagrees : Reads plainly assertsPlainly ∧ ∀ pair ∈ elsewhere, Untyped pair.2 ∧
    plainly.accepts (aliasNimToolParameters Char.isAlphanum pair.1).1 0
        (aliasNimToolParameters Char.isAlphanum pair.1).1 pair.2 ≠
      plainly.accepts pair.1 0 pair.1 (OpenaiCall.restoreAliasedToolArgumentValue
        (aliasNimToolParameters Char.isAlphanum pair.1).2 pair.2) := by
  have one : ∀ {name value}, name ≠ "type" → Untyped value → Untyped (.obj [(name, value)]) := by
    intro name value other untyped
    refine .obj (List.nodup_singleton name) ?_ ?_ <;>
      exact fun field there => List.mem_singleton.mp there ▸ by assumption
  have number : Untyped (.int 1) := .plain nofun nofun
  have untyped : ∀ pair ∈ elsewhere, Untyped pair.2 := by
    simp only [elsewhere, List.forall_mem_cons, List.not_mem_nil, false_imp_iff, implies_true, and_true]
    exact ⟨one (by decide) number, one (by decide) number, one (by decide) number,
      one (by decide) number, one (by decide) (one (by decide) number)⟩
  have disagree : ∀ pair ∈ elsewhere,
      plainly.accepts (aliasNimToolParameters Char.isAlphanum pair.1).1 0
          (aliasNimToolParameters Char.isAlphanum pair.1).1 pair.2 ≠
        plainly.accepts pair.1 0 pair.1 (OpenaiCall.restoreAliasedToolArgumentValue
          (aliasNimToolParameters Char.isAlphanum pair.1).2 pair.2) := by decide +kernel
  exact ⟨plainly_reads, fun pair there => ⟨untyped pair there, disagree pair there⟩⟩

end NimSchema

end ClaudeProxy
