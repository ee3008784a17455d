/-
**What the keywords of a renamed schema ask.**

* `Agrees` — a renamed schema accepts an instance as the schema accepts what is restored of it.
* `ref_iff` up to `contains_iff` — when the members of the two schemas ask the same.
* `requires`, `Reads` — the members that hold no schema: which of them speak of names.
-/

import ClaudeProxy.Provider.NimRenaming

namespace ClaudeProxy

namespace NimSchema

open JsonSchema

/-! ### Renamed values -/

section Values

variable {made : String} {fields : List (String × Json)}

theorem elements_renameNode (value : Json) :
    elements (renameNode made value) = (elements value).map (renameNode made) := by
  cases value with
  | arr items =>
    rw [renameNode]
    exact renameItems_eq items
  | _ =>
    rw [renameNode]
    rfl

theorem isArray_renameNode (value : Json) : isArray (renameNode made value) = isArray value := by
  cases value <;> rw [renameNode] <;> rfl

theorem renameNode_eq_str {value : Json} {text : String} :
    renameNode made value = .str text ↔ value = .str text := by
  cases value <;> simp [renameNode]

theorem renameMember_of_ne {declared : Bool} {key : String} (other : key ≠ "required") (item : Json) :
    renameMember made declared key item = renameNode made item := by
  unfold renameMember requiredList?
  cases item <;> simp [other]

/-- **A map that has no part `properties`** keeps its names. -/
theorem entries_renameNode {value : Json} (other : ∀ part ∈ entries value, part.1 ≠ "properties") :
    entries (renameNode made value) =
      (entries value).map fun part => (part.1, renameMember made false part.1 part.2) := by
  cases value with
  | obj named =>
    have kept : (named.filter fun part => part.1 ≠ "properties") = named :=
      List.filter_eq_self.mpr fun part there => by simpa using other part there
    have absent : ∀ properties, ("properties", Json.obj properties) ∉ named :=
      fun properties there => other _ there rfl
    have silent : named.findSome? propertiesOf = none := by
      rw [List.findSome?_eq_none_iff]
      exact fun part there => if_neg (other part there)
    rw [renameNode_obj, renamedFields, renameProperties_of_none absent, List.nil_append, renameOthers_eq,
      kept, declares, silent]
    rfl
  | _ =>
    rw [renameNode]
    rfl

/-- The members but `properties`, one by one. -/
theorem forall_mem_renamedFields (distinct : (fields.map Prod.fst).Nodup) {p : String × Json → Prop} :
    (∀ field ∈ renamedFields made fields, p field) ↔
      (∀ properties, ("properties", Json.obj properties) ∈ fields →
        p ("properties", .obj (renameNamed made properties))) ∧
      ∀ key item, (key, item) ∈ fields → key ≠ "properties" →
        p (key, renameMember made (declares fields) key item) := by
  constructor
  · refine fun all => ⟨fun properties there => ?_, fun key item there other => ?_⟩
    · exact all _ ((properties_mem_renamedFields distinct).mpr ⟨properties, there, rfl⟩)
    · exact all _ ((mem_renamedFields other).mpr ⟨item, there, rfl⟩)
  · rintro ⟨ofProperties, ofOthers⟩ ⟨key, renamed⟩ member
    by_cases isProperties : key = "properties"
    · obtain rfl := isProperties
      obtain ⟨properties, there, rfl⟩ := (properties_mem_renamedFields distinct).mp member
      exact ofProperties properties there
    · obtain ⟨item, there, rfl⟩ := (mem_renamedFields isProperties).mp member
      exact ofOthers key item there isProperties

/-- The values of a keyword. -/
theorem forall_value_renamedFields {keyword : String} (other : keyword ≠ "properties")
    (noRequired : keyword ≠ "required") {p : Json → Prop} :
    (∀ renamed, (keyword, renamed) ∈ renamedFields made fields → p renamed) ↔
      ∀ item, (keyword, item) ∈ fields → p (renameNode made item) := by
  constructor
  · intro all item there
    rw [← renameMember_of_ne noRequired item]
    exact all _ ((mem_renamedFields other).mpr ⟨item, there, rfl⟩)
  · intro all renamed member
    obtain ⟨item, there, rfl⟩ := (mem_renamedFields other).mp member
    rw [renameMember_of_ne noRequired]
    exact all item there

theorem listsOf_renamedFields {keyword : String} (other : keyword ≠ "properties")
    (noRequired : keyword ≠ "required") : listsOf keyword (renamedFields made fields) =
      (listsOf keyword fields).map (List.map (renameNode made)) := by
  have first : listsOf keyword (renameProperties made fields) = [] := by
    rw [listsOf, List.map_eq_nil_iff, List.filter_eq_nil_iff]
    intro field there isList
    exact other ((of_decide_eq_true isList).1.symm.trans (key_of_mem_renameProperties there))
  rw [renamedFields, listsOf, List.filter_append, List.map_append, ← listsOf, first, List.nil_append,
    renameOthers_eq]
  generalize declares fields = declared
  clear first
  induction fields with
  | nil => rfl
  | cons field rest ih =>
    rw [listsOf] at ih ⊢
    by_cases same : field.1 = keyword
    · have kept : renameMember made declared field.1 field.2 = renameNode made field.2 :=
        renameMember_of_ne (fun required => noRequired (same.symm.trans required)) field.2
      rw [List.filter_cons_of_pos (by simpa [same] using other), List.map_cons, kept]
      by_cases isList : isArray field.2 = true
      · rw [List.filter_cons_of_pos (by simp [same, isArray_renameNode, isList]), List.map_cons, ih,
          List.filter_cons_of_pos (by simp [same, isList]), elements_renameNode]
        rfl
      · rw [List.filter_cons_of_neg (by simp [isArray_renameNode, isList]), ih,
          List.filter_cons_of_neg (by simp [isList])]
    · by_cases isProperties : field.1 = "properties"
      · rw [List.filter_cons_of_neg (by simp [isProperties]), ih,
          List.filter_cons_of_neg (by simp [same])]
      · rw [List.filter_cons_of_pos (by simp [isProperties]), List.map_cons,
          List.filter_cons_of_neg (by simp [same]), ih, List.filter_cons_of_neg (by simp [same])]

theorem bound?_renamedFields {keyword : String} (other : keyword ≠ "properties")
    (noRequired : keyword ≠ "required") :
    bound? keyword (renamedFields made fields) = bound? keyword fields := by
  have first : bound? keyword (renameProperties made fields) = none := by
    rw [bound?, List.findSome?_eq_none_iff]
    intro field there
    exact if_neg fun same => other (same.symm.trans (key_of_mem_renameProperties there))
  rw [renamedFields, bound?, List.findSome?_append, ← bound?, first, Option.none_or, renameOthers_eq]
  generalize declares fields = declared
  clear first
  induction fields with
  | nil => rfl
  | cons field rest ih =>
    by_cases isProperties : field.1 = "properties"
    · rw [List.filter_cons_of_neg (by simp [isProperties]), ih, bound?, bound?, List.findSome?_cons,
        if_neg fun same => other (same.symm.trans isProperties)]
    · rw [List.filter_cons_of_pos (by simp [isProperties]), List.map_cons, List.findSome?_cons, ih,
        bound?, bound?, List.findSome?_cons]
      by_cases same : field.1 = keyword
      · rw [renameMember_of_ne (fun required => noRequired (same.symm.trans required))]
        cases field.2 <;> simp [renameNode]
      · rw [if_neg same, if_neg same]

/-- The members that hold no schema. -/
theorem assertions_renamedFields : assertions (renamedFields made fields) =
    (assertions fields).map fun field =>
      (field.1, renameMember made (declares fields) field.1 field.2) := by
  have first : (renameProperties made fields).filter (fun field => field.1 ∉ applicators) = [] := by
    rw [List.filter_eq_nil_iff]
    intro field there
    rw [key_of_mem_renameProperties there]
    decide
  have both : ∀ field : String × Json,
      (decide (field.1 ∉ applicators) && decide (field.1 ≠ "properties")) =
        decide (field.1 ∉ applicators) := by
    intro field
    by_cases applies : field.1 ∈ applicators
    · simp [applies]
    · have other : field.1 ≠ "properties" := fun same => applies (by rw [same]; decide)
      simp [applies, other]
  rw [renamedFields, assertions, List.filter_append, first, List.nil_append, renameOthers_eq,
    List.filter_map, List.filter_filter, assertions]
  exact congrArg _ (List.filter_congr fun field _ => both field)

end Values

/-! ### What the members ask -/

section Keywords

variable (after before : Json → Json → Bool) (made : String)

/-- **The renamed schema** accepts an instance as the schema accepts what is restored of it. -/
def Agrees (schema : Json) : Prop :=
  ∀ subject, Untyped subject →
    after (renameNode made schema) subject = before schema (restored made subject)

/-- So does a part of a map. -/
def PartAgrees (part : String × Json) : Prop :=
  ∀ subject, Untyped subject →
    after (renameMember made false part.1 part.2) subject = before part.2 (restored made subject)

variable {after before made} {validator : Validator} {references references' : String → Json → Bool}
  {fields : List (String × Json)} {item subject : Json} (untyped : Untyped subject)

include untyped

omit untyped in
theorem ref_iff (agree : ∀ reference, item = .str reference →
      references' reference subject = references reference (restored made subject)) :
    asks validator references' after (renamedFields made fields) ("$ref", renameNode made item) subject =
        true ↔
      asks validator references before fields ("$ref", item) (restored made subject) = true := by
  rw [asks_ref, asks_ref]
  refine forall_congr' fun reference => ?_
  rw [renameNode_eq_str]
  exact imp_congr_right fun same => by rw [agree reference same]

theorem allOf_iff (agree : ∀ schema ∈ elements item, Agrees after before made schema) :
    asks validator references' after (renamedFields made fields) ("allOf", renameNode made item)
        subject = true ↔
      asks validator references before fields ("allOf", item) (restored made subject) = true := by
  rw [asks_allOf, asks_allOf, elements_renameNode, List.forall_mem_map]
  exact forall₂_congr fun schema inside => by rw [agree schema inside subject untyped]

theorem anyOf_iff (agree : ∀ schema ∈ elements item, Agrees after before made schema) :
    asks validator references' after (renamedFields made fields) ("anyOf", renameNode made item)
        subject = true ↔
      asks validator references before fields ("anyOf", item) (restored made subject) = true := by
  rw [asks_anyOf, asks_anyOf, isArray_renameNode, elements_renameNode]
  refine imp_congr_right fun _ => ?_
  simp only [List.mem_map, exists_exists_and_eq_and]
  exact exists_congr fun schema => and_congr_right fun inside => by rw [agree schema inside subject untyped]

theorem oneOf_iff (agree : ∀ schema ∈ elements item, Agrees after before made schema) :
    asks validator references' after (renamedFields made fields) ("oneOf", renameNode made item)
        subject = true ↔
      asks validator references before fields ("oneOf", item) (restored made subject) = true := by
  rw [asks_oneOf, asks_oneOf, isArray_renameNode, elements_renameNode, List.countP_map]
  have same : ((elements item).countP fun schema => after (renameNode made schema) subject) =
      (elements item).countP fun schema => before schema (restored made subject) :=
    List.countP_congr fun schema inside => by rw [agree schema inside subject untyped]
  exact imp_congr_right fun _ => by rw [← same]; rfl

theorem not_iff (agree : Agrees after before made item) :
    asks validator references' after (renamedFields made fields) ("not", renameNode made item) subject =
        true ↔
      asks validator references before fields ("not", item) (restored made subject) = true := by
  rw [asks_not, asks_not, agree subject untyped]

theorem then_iff (conditions : ∀ condition, ("if", condition) ∈ fields → Agrees after before made condition)
    (agree : Agrees after before made item) :
    asks validator references' after (renamedFields made fields) ("then", renameNode made item) subject =
        true ↔
      asks validator references before fields ("then", item) (restored made subject) = true := by
  rw [asks_then, asks_then, agree subject untyped]
  rw [forall_value_renamedFields (by decide) (by decide)]
  exact forall₂_congr fun condition there => by rw [conditions condition there subject untyped]

theorem else_iff (conditions : ∀ condition, ("if", condition) ∈ fields → Agrees after before made condition)
    (agree : Agrees after before made item) :
    asks validator references' after (renamedFields made fields) ("else", renameNode made item) subject =
        true ↔
      asks validator references before fields ("else", item) (restored made subject) = true := by
  rw [asks_else, asks_else, agree subject untyped]
  rw [forall_value_renamedFields (by decide) (by decide)]
  exact forall₂_congr fun condition there => by rw [conditions condition there subject untyped]

/-! The members of an object. -/

omit untyped in
/-- A name and a name without an alias stand for each other. -/
theorem renamedName_eq_iff {name entry : String} (fresh : name ≠ made) (untyped : entry ≠ "type") :
    renamedName made name = entry ↔ name = originalName made entry := by
  unfold renamedName originalName
  by_cases isType : name = "type"
  · rw [if_pos isType]
    by_cases isMade : entry = made
    · simp [isMade, isType]
    · rw [if_neg isMade, isType]
      exact ⟨fun same => absurd same.symm isMade, fun same => absurd same.symm untyped⟩
  · rw [if_neg isType]
    by_cases isMade : entry = made
    · rw [if_pos isMade, isMade]
      exact ⟨fun same => absurd same fresh, fun same => absurd same isType⟩
    · rw [if_neg isMade]

theorem properties_iff {properties : List (String × Json)} (fresh : ∀ part ∈ properties, part.1 ≠ made)
    (agree : ∀ part ∈ properties, Agrees after before made part.2) :
    asks validator references' after (renamedFields made fields)
        ("properties", .obj (renameNamed made properties)) subject = true ↔
      asks validator references before fields ("properties", .obj properties) (restored made subject) =
        true := by
  rw [asks_properties, asks_properties, entries_restored untyped, List.forall_mem_map, renameNamed_eq]
  refine forall₂_congr fun entry there => ?_
  obtain ⟨noType, untypedEntry⟩ := untyped.entry there
  rw [entries, List.forall_mem_map]
  refine forall₂_congr fun part inside => ?_
  rw [renamedName_eq_iff (fresh part inside) noType, agree part inside entry.2 untypedEntry]

omit untyped in
/-- The parts of a map that has no part `properties`. -/
theorem forall_mem_entries_renameNode (other : ∀ part ∈ entries item, part.1 ≠ "properties")
    {p : String × Json → Prop} : (∀ part ∈ entries (renameNode made item), p part) ↔
      ∀ part ∈ entries item, p (part.1, renameMember made false part.1 part.2) := by
  rw [entries_renameNode other, List.forall_mem_map]

omit untyped in
/-- Patterns that do not tell the alias from the name. -/
theorem matchesPattern_originalName {pattern : String}
    (alike : validator.matchesPattern pattern made = validator.matchesPattern pattern "type")
    (name : String) :
    validator.matchesPattern pattern (originalName made name) = validator.matchesPattern pattern name := by
  unfold originalName
  split_ifs with isMade
  · rw [isMade, alike]
  · rfl

theorem patternProperties_iff
    (patterns : ∀ part ∈ entries item, part.1 ≠ "properties" ∧
      validator.matchesPattern part.1 made = validator.matchesPattern part.1 "type")
    (agree : ∀ part ∈ entries item, PartAgrees after before made part) :
    asks validator references' after (renamedFields made fields)
        ("patternProperties", renameNode made item) subject = true ↔
      asks validator references before fields ("patternProperties", item) (restored made subject) =
        true := by
  rw [asks_patternProperties, asks_patternProperties, entries_restored untyped, List.forall_mem_map]
  refine forall₂_congr fun entry there => ?_
  rw [forall_mem_entries_renameNode fun part inside => (patterns part inside).1]
  refine forall₂_congr fun part inside => ?_
  rw [agree part inside entry.2 (untyped.entry there).2,
    matchesPattern_originalName (patterns part inside).2]

/-- **The names that are spoken of**, and the others. -/
theorem speaksOf_renamedFields (distinct : (fields.map Prod.fst).Nodup)
    (fresh : ∀ properties, ("properties", .obj properties) ∈ fields → ∀ part ∈ properties, part.1 ≠ made)
    (patterns : ∀ named, ("patternProperties", named) ∈ fields → ∀ part ∈ entries named,
      part.1 ≠ "properties" ∧
        validator.matchesPattern part.1 made = validator.matchesPattern part.1 "type")
    {entry : String × Json} (there : entry ∈ entries subject) :
    validator.speaksOf (renamedFields made fields) entry.1 = false ↔
      validator.speaksOf fields (originalName made entry.1) = false := by
  have noType := (untyped.entry there).1
  rw [speaksOf_eq_false, speaksOf_eq_false]
  refine and_congr ⟨fun silent value member part inside => ?_, fun silent value member part inside => ?_⟩
    ?_
  · cases value with
    | obj properties =>
      have renamed := silent _ ((properties_mem_renamedFields distinct).mpr ⟨properties, member, rfl⟩)
        (renamedName made part.1, renameNode made part.2) (by
          rw [renameNamed_eq]
          exact List.mem_map.mpr ⟨part, inside, rfl⟩)
      exact fun same => renamed ((renamedName_eq_iff (fresh _ member part inside) noType).mpr same)
    | _ => cases inside
  · obtain ⟨properties, declaredThere, rfl⟩ := (properties_mem_renamedFields distinct).mp member
    rw [renameNamed_eq] at inside
    obtain ⟨source, sourceThere, rfl⟩ := List.mem_map.mp inside
    exact fun same => silent _ declaredThere source sourceThere
      ((renamedName_eq_iff (fresh _ declaredThere source sourceThere) noType).mp same)
  · rw [forall_value_renamedFields (by decide) (by decide)]
    refine forall₂_congr fun named member => ?_
    rw [forall_mem_entries_renameNode fun part inside => (patterns named member part inside).1]
    refine forall₂_congr fun part inside => ?_
    rw [matchesPattern_originalName (patterns named member part inside).2]

theorem additionalProperties_iff (distinct : (fields.map Prod.fst).Nodup)
    (fresh : ∀ properties, ("properties", .obj properties) ∈ fields → ∀ part ∈ properties, part.1 ≠ made)
    (patterns : ∀ named, ("patternProperties", named) ∈ fields → ∀ part ∈ entries named,
      part.1 ≠ "properties" ∧
        validator.matchesPattern part.1 made = validator.matchesPattern part.1 "type")
    (agree : Agrees after before made item) :
    asks validator references' after (renamedFields made fields)
        ("additionalProperties", renameNode made item) subject = true ↔
      asks validator references before fields ("additionalProperties", item) (restored made subject) =
        true := by
  rw [asks_additionalProperties, asks_additionalProperties, entries_restored untyped,
    List.forall_mem_map]
  refine forall₂_congr fun entry there => ?_
  rw [speaksOf_renamedFields untyped distinct fresh patterns there,
    agree entry.2 (untyped.entry there).2]

theorem propertyNames_iff (agree : Agrees after before made item)
    (alike : before item (.str made) = before item (.str "type")) :
    asks validator references' after (renamedFields made fields)
        ("propertyNames", renameNode made item) subject = true ↔
      asks validator references before fields ("propertyNames", item) (restored made subject) = true := by
  rw [asks_propertyNames, asks_propertyNames, entries_restored untyped, List.forall_mem_map]
  refine forall₂_congr fun entry there => ?_
  rw [agree _ (Avoids.text entry.1), restored_text, originalName]
  split_ifs with isMade
  · rw [isMade, alike]
  · rfl

theorem dependentSchemas_iff
    (others : ∀ part ∈ entries item, part.1 ≠ "properties" ∧ part.1 ≠ "type" ∧ part.1 ≠ made)
    (agree : ∀ part ∈ entries item, PartAgrees after before made part) :
    asks validator references' after (renamedFields made fields)
        ("dependentSchemas", renameNode made item) subject = true ↔
      asks validator references before fields ("dependentSchemas", item) (restored made subject) =
        true := by
  rw [asks_dependentSchemas, asks_dependentSchemas, entries_restored untyped, List.forall_mem_map]
  refine forall₂_congr fun entry there => ?_
  rw [forall_mem_entries_renameNode fun part inside => (others part inside).1]
  refine forall₂_congr fun part inside => ?_
  obtain ⟨-, noType, noMade⟩ := others part inside
  have name := renamedName_eq_iff noMade (untyped.entry there).1
  rw [renamedName, if_neg noType] at name
  rw [name, agree part inside subject untyped]

/-! The items of an array. -/

omit untyped in
theorem inOrder_restored {schemas subjects : List Json}
    (agree : ∀ schema ∈ schemas, Agrees after before made schema)
    (untyped : ∀ subject ∈ subjects, Untyped subject) :
    inOrder ((schemas.map (renameNode made)).map after) subjects =
      inOrder (schemas.map before) (subjects.map (restored made)) := by
  induction schemas generalizing subjects with
  | nil => rfl
  | cons schema rest ih =>
    cases subjects with
    | nil =>
      rw [inOrder_nil, List.map_nil, inOrder_nil]
    | cons subject subjects =>
      obtain ⟨here, below⟩ := List.forall_mem_cons.mp agree
      obtain ⟨first, later⟩ := List.forall_mem_cons.mp untyped
      rw [List.map_cons, List.map_cons, List.map_cons, List.map_cons, inOrder, inOrder,
        here subject first, ih below later]

theorem behind_restored {keyword : String} (other : keyword ≠ "properties")
    (noRequired : keyword ≠ "required") (agree : Agrees after before made item) :
    behind (listsOf keyword (renamedFields made fields)) (after (renameNode made item))
        (elements subject) = true ↔
      behind (listsOf keyword fields) (before item) (elements (restored made subject)) = true := by
  have lengths : ∀ index, (∀ list ∈ listsOf keyword (renamedFields made fields), list.length ≤ index) ↔
      ∀ list ∈ listsOf keyword fields, list.length ≤ index := by
    intro index
    rw [listsOf_renamedFields other noRequired, List.forall_mem_map]
    exact forall₂_congr fun list _ => by rw [List.length_map]
  rw [behind_iff, behind_iff, elements_restored]
  constructor
  · intro all value index there short
    rw [List.getElem?_map] at there
    obtain ⟨source, sourceThere, rfl⟩ := Option.map_eq_some_iff.mp there
    rw [← agree source (untyped.item (List.mem_of_getElem? sourceThere))]
    exact all source index sourceThere ((lengths index).mpr short)
  · intro all source index there short
    rw [agree source (untyped.item (List.mem_of_getElem? there))]
    exact all _ index (by rw [List.getElem?_map, there, Option.map_some]) ((lengths index).mp short)

theorem prefixItems_iff (agree : ∀ schema ∈ elements item, Agrees after before made schema) :
    asks validator references' after (renamedFields made fields)
        ("prefixItems", renameNode made item) subject = true ↔
      asks validator references before fields ("prefixItems", item) (restored made subject) = true := by
  rw [asks_prefixItems, asks_prefixItems, elements_renameNode, elements_restored,
    inOrder_restored agree fun value there => untyped.item there]

theorem items_iff (below : ∀ schema ∈ elements item, Agrees after before made schema)
    (agree : Agrees after before made item) :
    asks validator references' after (renamedFields made fields) ("items", renameNode made item)
        subject = true ↔
      asks validator references before fields ("items", item) (restored made subject) = true := by
  rw [asks_items, asks_items, isArray_renameNode]
  split_ifs
  · rw [elements_renameNode, elements_restored,
      inOrder_restored below fun value there => untyped.item there]
  · exact behind_restored untyped (by decide) (by decide) agree

theorem additionalItems_iff (agree : Agrees after before made item) :
    asks validator references' after (renamedFields made fields)
        ("additionalItems", renameNode made item) subject = true ↔
      asks validator references before fields ("additionalItems", item) (restored made subject) =
        true := by
  have some_list : listsOf "items" (renamedFields made fields) ≠ [] ↔ listsOf "items" fields ≠ [] := by
    rw [listsOf_renamedFields (by decide) (by decide)]
    exact List.map_eq_nil_iff.not
  rw [asks_additionalItems, asks_additionalItems, some_list,
    behind_restored untyped (by decide) (by decide) agree]

theorem contains_iff (agree : Agrees after before made item) :
    asks validator references' after (renamedFields made fields) ("contains", renameNode made item)
        subject = true ↔
      asks validator references before fields ("contains", item) (restored made subject) = true := by
  have count : (elements subject).countP (after (renameNode made item)) =
      (elements (restored made subject)).countP (before item) := by
    rw [elements_restored, List.countP_map]
    exact List.countP_congr fun value there => by
      rw [Function.comp_apply, agree value (untyped.item there)]
  rw [asks_contains, asks_contains, isArray_restored, bound?_renamedFields (by decide) (by decide),
    bound?_renamedFields (by decide) (by decide), count]

end Keywords

/-! ### The members that hold no schema -/

/-- The names of a list. -/
def namesOf (value : Json) : List String := (elements value).filterMap Json.asStr?

def hasName (subject : Json) (name : String) : Bool :=
  (entries subject).any fun entry => entry.1 = name

/-- An object has the names of a list; nothing is asked of another instance. -/
def requires (names subject : Json) : Bool :=
  !isObject subject || (namesOf names).all fun name => hasName subject name

/-- Members that ask nothing of an instance. -/
def annotations : List String :=
  ["$schema", "$id", "$anchor", "$comment", "title", "description", "default", "examples", "deprecated",
    "readOnly", "writeOnly"]

/-- The names that stand for each other. -/
def Exchanged (made name : String) : Prop := name = "type" ∨ name = made

/-- **How a validator reads the members that hold no schema**: each by itself, and those but the lists
of names without regard to names that are not in their values. -/
structure Reads (validator : Validator) (asserts : String → Json → Json → Bool) : Prop where
  each : ∀ fields subject, validator.asserts fields subject =
    fields.all fun field => asserts field.1 field.2 subject
  annotation : ∀ key ∈ annotations, ∀ value subject, asserts key value subject = true
  required : ∀ names subject, asserts "required" names subject = requires names subject
  dependentRequired : ∀ named subject, asserts "dependentRequired" named subject =
    (entries named).all fun part => !hasName subject part.1 || requires part.2 subject
  other : ∀ made key value subject, key ∉ ["required", "dependentRequired", "dependencies"] →
    Avoids (Exchanged made) value → Untyped subject →
      asserts key value subject = asserts key value (restored made subject)

section Assertions

variable {made : String} {fields : List (String × Json)} {subject : Json}

/-- **A name is there** where its alias is. -/
theorem hasName_restored {name : String} (untyped : Untyped subject) (fresh : name ≠ made) :
    hasName (restored made subject) name = hasName subject (renamedName made name) := by
  rw [Bool.eq_iff_iff, hasName, hasName, List.any_eq_true, List.any_eq_true, entries_restored untyped]
  simp only [List.mem_map, exists_exists_and_eq_and, decide_eq_true_eq]
  refine exists_congr fun entry => and_congr_right fun there => ?_
  rw [eq_comm, ← renamedName_eq_iff fresh (untyped.entry there).1, eq_comm]

theorem hasName_restored_of_kept {name : String} (untyped : Untyped subject)
    (kept : ¬ Exchanged made name) :
    hasName (restored made subject) name = hasName subject name := by
  obtain ⟨noType, noMade⟩ := not_or.mp kept
  rw [hasName_restored untyped noMade, renamedName, if_neg noType]

theorem namesOf_renameNode (value : Json) : namesOf (renameNode made value) = namesOf value := by
  rw [namesOf, elements_renameNode, List.filterMap_map, namesOf]
  refine List.filterMap_congr fun item _ => ?_
  cases item <;> rw [Function.comp_apply, renameNode] <;> rfl

/-- A list of names beside properties. -/
theorem namesOf_required (declared : Bool) (value : Json) :
    namesOf (renameMember made declared "required" value) =
      (namesOf value).map fun name => if declared then renamedName made name else name := by
  cases value with
  | arr items =>
    change ((items.map (renameRequiredItem made declared)).filterMap Json.asStr?) =
      (items.filterMap Json.asStr?).map _
    rw [List.filterMap_map, List.map_filterMap]
    refine List.filterMap_congr fun item _ => ?_
    cases item <;> rfl
  | _ => exact namesOf_renameNode _

/-- A list of names anywhere else. -/
theorem namesOf_renameMember (key : String) (value : Json) :
    namesOf (renameMember made false key value) = namesOf value := by
  by_cases isRequired : key = "required"
  · rw [isRequired, namesOf_required]
    exact List.map_id _
  · rw [renameMember_of_ne isRequired, namesOf_renameNode]

/-- Two lists that ask for the same names. -/
theorem requires_restored {names renamed : Json} {rename : String → String}
    (listed : namesOf renamed = (namesOf names).map rename)
    (alike : ∀ name ∈ namesOf names,
      hasName subject (rename name) = hasName (restored made subject) name) :
    requires renamed subject = requires names (restored made subject) := by
  rw [requires, requires, isObject_restored, listed, List.all_map]
  refine congrArg _ (Bool.eq_iff_iff.mpr ?_)
  rw [List.all_eq_true, List.all_eq_true]
  exact forall₂_congr fun name there => by rw [Function.comp_apply, alike name there]

variable {validator : Validator} {asserts : String → Json → Json → Bool} (reads : Reads validator asserts)
  (untyped : Untyped subject)

include reads untyped

/-- **A `required` list**, renamed where `type` is a property beside it. -/
theorem required_restored {declared : Bool} {names : Json} (fresh : made ∉ namesOf names)
    (beside : "type" ∈ namesOf names → declared = true) :
    asserts "required" (renameMember made declared "required" names) subject =
      asserts "required" names (restored made subject) := by
  rw [reads.required, reads.required]
  refine requires_restored (namesOf_required declared names) fun name there => ?_
  have other : name ≠ made := fun same => fresh (same ▸ there)
  rw [hasName_restored untyped other]
  cases declared with
  | true => rfl
  | false =>
    have noType : name ≠ "type" := fun same => Bool.false_ne_true (beside (same ▸ there))
    rw [renamedName, if_neg noType]
    rfl

/-- Lists that depend on a name. -/
theorem dependentRequired_restored {named : Json}
    (kept : ∀ part ∈ entries named, part.1 ≠ "properties" ∧ ¬ Exchanged made part.1 ∧
      ∀ name ∈ namesOf part.2, ¬ Exchanged made name) :
    asserts "dependentRequired" (renameNode made named) subject =
      asserts "dependentRequired" named (restored made subject) := by
  rw [reads.dependentRequired, reads.dependentRequired,
    entries_renameNode fun part there => (kept part there).1, List.all_map, Bool.eq_iff_iff,
    List.all_eq_true, List.all_eq_true]
  refine forall₂_congr fun part there => ?_
  obtain ⟨-, trigger, names⟩ := kept part there
  have listed : namesOf (renameMember made false part.1 part.2) = (namesOf part.2).map id := by
    rw [namesOf_renameMember, List.map_id]
  rw [Function.comp_apply, hasName_restored_of_kept untyped trigger, requires_restored listed
    fun name there => (hasName_restored_of_kept untyped (names name there)).symm]

end Assertions

end NimSchema

end ClaudeProxy
