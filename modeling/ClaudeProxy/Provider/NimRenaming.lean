/-
**The aliases of a schema rename it** (`_alias_nim_schema_property_names`).

* `renameNode` — the schema with one alias for `type`, without the arguments that the recursion changes.
* **`aliased_eq_renamed`** — the alias is made once, whichever property comes first.
* `Avoids` — instances without some names; `entries_restore` — what is restored of them.
-/

import ClaudeProxy.Library.JsonSchema
import ClaudeProxy.Provider.ArgumentAliases
import ClaudeProxy.Provider.NimAliases

namespace ClaudeProxy

namespace NimSchema

open JsonSchema

/-! ### One alias for `type` -/

section Rename

variable (made : String)

/-- The name of a property. -/
def renamedName (name : String) : String := if name = "type" then made else name

/-- An item of a `required` list, beside properties of which `type` is one or not. -/
def renameRequiredItem (declared : Bool) : Json → Json
  | .str name => .str (if declared then renamedName made name else name)
  | item => item

/-- The properties that a member holds. -/
def propertiesOf (field : String × Json) : Option (List (String × Json)) :=
  if field.1 = "properties" then some (entries field.2) else none

/-- `type` is one of the properties. -/
def declares (fields : List (String × Json)) : Bool :=
  ((fields.findSome? propertiesOf).getD []).any fun part => part.1 = "type"

mutual

/-- A schema with the alias in place of `type`. -/
def renameNode : Json → Json
  | .obj fields => .obj (renameProperties fields ++ renameOthers (declares fields) fields)
  | .arr items => .arr (renameItems items)
  | .null => .null
  | .bool value => .bool value
  | .int value => .int value
  | .float literal => .float literal
  | .str text => .str text

def renameItems : List Json → List Json
  | [] => []
  | item :: rest => renameNode item :: renameItems rest

def renameProperties : List (String × Json) → List (String × Json)
  | [] => []
  | (key, item) :: rest =>
    if key = "properties" then renameDeclared item else renameProperties rest

def renameDeclared : Json → List (String × Json)
  | .obj properties => [("properties", .obj (renameNamed properties))]
  | .null | .bool _ | .int _ | .float _ | .str _ | .arr _ => []

def renameNamed : List (String × Json) → List (String × Json)
  | [] => []
  | (name, schema) :: rest => (renamedName made name, renameNode schema) :: renameNamed rest

def renameOthers (declared : Bool) : List (String × Json) → List (String × Json)
  | [] => []
  | (key, item) :: rest =>
    if key = "properties" then renameOthers declared rest
    else
      (key,
        match requiredList? key item with
        | some required => .arr (required.map (renameRequiredItem made declared))
        | none => renameNode item) :: renameOthers declared rest

end

end Rename

section Aliased

variable (isAlnum : Char → Bool) (reserved : List String)

/-- The alias of `type`. -/
def typeAlias : String := makeNimToolParameterAlias isAlnum "type" reserved

/-- The alias is made. -/
def aliasedType : Aliasing :=
  ⟨typeAlias isAlnum reserved :: reserved, (∅ : Dict String String).set (typeAlias isAlnum reserved) "type",
    (∅ : Dict String String).set "type" (typeAlias isAlnum reserved)⟩

/-- The alias is made, or none is. -/
def OneAlias (aliasing : Aliasing) : Prop :=
  aliasing = ⟨reserved, ∅, ∅⟩ ∨ aliasing = aliasedType isAlnum reserved

variable {isAlnum reserved} {aliasing : Aliasing}

theorem aliasOf_type (one : OneAlias isAlnum reserved aliasing) :
    aliasOf isAlnum "type" aliasing =
      (typeAlias isAlnum reserved, aliasedType isAlnum reserved) := by
  rcases one with rfl | rfl
  · rfl
  · unfold aliasOf aliasedType
    rw [Dict.get?_set_self]

theorem needs_iff {name : String} : needsNimToolParameterAlias name = true ↔ name = "type" := by
  simp [needsNimToolParameterAlias, nimUnsafeToolParameterNames]

/-- The aliases among the properties that were gone through. -/
def Local (localAliases : Dict String String) (made : String) (declared : Bool) : Prop :=
  ∀ name, (localAliases.get? name).getD name = if declared then renamedName made name else name

mutual

/-- **The schema with aliases is the renamed one.** -/
theorem alias_node : (value : Json) → {aliasing : Aliasing} → OneAlias isAlnum reserved aliasing →
    (aliasNimSchemaPropertyNames isAlnum aliasing value).1 =
        renameNode (typeAlias isAlnum reserved) value ∧
      OneAlias isAlnum reserved (aliasNimSchemaPropertyNames isAlnum aliasing value).2
  | .obj fields, aliasing, one => by
    obtain ⟨properties, isLocal, between⟩ := alias_properties fields one
    obtain ⟨others, last⟩ := alias_others fields isLocal between
    rw [aliasNimSchemaPropertyNames, renameNode]
    exact ⟨congrArg Json.obj (congrArg₂ (· ++ ·) properties others), last⟩
  | .arr items, aliasing, one => by
    obtain ⟨same, last⟩ := alias_items items one
    rw [aliasNimSchemaPropertyNames, renameNode]
    exact ⟨congrArg Json.arr same, last⟩
  | .null, aliasing, one | .bool _, aliasing, one | .int _, aliasing, one
  | .float _, aliasing, one | .str _, aliasing, one => by
    rw [aliasNimSchemaPropertyNames, renameNode]
    exact ⟨rfl, one⟩

theorem alias_items : (items : List Json) → {aliasing : Aliasing} →
    OneAlias isAlnum reserved aliasing →
    (aliasItems isAlnum aliasing items).1 = renameItems (typeAlias isAlnum reserved) items ∧
      OneAlias isAlnum reserved (aliasItems isAlnum aliasing items).2
  | [], aliasing, one => by
    rw [aliasItems, renameItems]
    exact ⟨rfl, one⟩
  | item :: rest, aliasing, one => by
    obtain ⟨here, between⟩ := alias_node item one
    obtain ⟨later, last⟩ := alias_items rest between
    rw [aliasItems, renameItems]
    exact ⟨congrArg₂ List.cons here later, last⟩

theorem alias_properties : (fields : List (String × Json)) → {aliasing : Aliasing} →
    OneAlias isAlnum reserved aliasing →
    (aliasProperties isAlnum aliasing fields).1 =
        renameProperties (typeAlias isAlnum reserved) fields ∧
      Local (aliasProperties isAlnum aliasing fields).2.1 (typeAlias isAlnum reserved)
        (declares fields) ∧
      OneAlias isAlnum reserved (aliasProperties isAlnum aliasing fields).2.2
  | [], aliasing, one => by
    rw [aliasProperties, renameProperties]
    exact ⟨rfl, fun name => rfl, one⟩
  | (key, item) :: rest, aliasing, one => by
    rw [aliasProperties, renameProperties]
    by_cases isProperties : key = "properties"
    · have declared : declares ((key, item) :: rest) = (entries item).any fun part => part.1 = "type" := by
        rw [declares, List.findSome?_cons, propertiesOf, if_pos isProperties]
        rfl
      rw [if_pos isProperties, if_pos isProperties, declared]
      exact alias_declared item one
    · have declared : declares ((key, item) :: rest) = declares rest := by
        rw [declares, List.findSome?_cons, propertiesOf, if_neg isProperties]
        rfl
      rw [if_neg isProperties, if_neg isProperties, declared]
      exact alias_properties rest one

theorem alias_declared : (value : Json) → {aliasing : Aliasing} → OneAlias isAlnum reserved aliasing →
    (aliasDeclared isAlnum aliasing value).1 = renameDeclared (typeAlias isAlnum reserved) value ∧
      Local (aliasDeclared isAlnum aliasing value).2.1 (typeAlias isAlnum reserved)
        ((entries value).any fun part => part.1 = "type") ∧
      OneAlias isAlnum reserved (aliasDeclared isAlnum aliasing value).2.2
  | .obj properties, aliasing, one => by
    obtain ⟨named, isLocal, last⟩ := alias_named properties one
    rw [aliasDeclared, renameDeclared]
    exact ⟨congrArg (fun named => [("properties", Json.obj named)]) named, isLocal, last⟩
  | .null, aliasing, one | .bool _, aliasing, one | .int _, aliasing, one
  | .float _, aliasing, one | .str _, aliasing, one | .arr _, aliasing, one => by
    rw [aliasDeclared, renameDeclared]
    exact ⟨rfl, fun name => rfl, one⟩

theorem alias_named : (named : List (String × Json)) → {aliasing : Aliasing} →
    OneAlias isAlnum reserved aliasing →
    (aliasNamed isAlnum aliasing named).1 = renameNamed (typeAlias isAlnum reserved) named ∧
      Local (aliasNamed isAlnum aliasing named).2.1 (typeAlias isAlnum reserved)
        (named.any fun part => part.1 = "type") ∧
      OneAlias isAlnum reserved (aliasNamed isAlnum aliasing named).2.2
  | [], aliasing, one => by
    rw [aliasNamed, renameNamed]
    exact ⟨rfl, fun name => rfl, one⟩
  | (name, schema) :: rest, aliasing, one => by
    obtain ⟨here, between⟩ := alias_node schema one
    rw [aliasNamed, renameNamed]
    by_cases isType : name = "type"
    · obtain rfl := isType
      obtain ⟨later, isLocal, last⟩ := alias_named rest (Or.inr rfl)
      dsimp only
      rw [if_pos (needs_iff.mpr rfl), aliasOf_type between]
      dsimp only
      rw [here, later]
      refine ⟨rfl, fun name => ?_, last⟩
      have known := isLocal name
      rw [Dict.get?_set]
      unfold renamedName at known ⊢
      by_cases isType : name = "type"
      · simp [isType]
      · simp only [isType, if_false, ite_self] at known ⊢
        exact known
    · obtain ⟨later, isLocal, last⟩ := alias_named rest between
      dsimp only
      rw [if_neg (fun needs => isType (needs_iff.mp needs))]
      dsimp only
      rw [here, later, renamedName, if_neg isType, List.any_cons]
      refine ⟨rfl, ?_, last⟩
      rw [decide_eq_false isType, Bool.false_or]
      exact isLocal

theorem alias_others : (fields : List (String × Json)) → {declared : Bool} →
    {localAliases : Dict String String} → Local localAliases (typeAlias isAlnum reserved) declared →
    {aliasing : Aliasing} → OneAlias isAlnum reserved aliasing →
    (aliasOthers isAlnum localAliases aliasing fields).1 =
        renameOthers (typeAlias isAlnum reserved) declared fields ∧
      OneAlias isAlnum reserved (aliasOthers isAlnum localAliases aliasing fields).2
  | [], _, _, _, aliasing, one => by
    rw [aliasOthers, renameOthers]
    exact ⟨rfl, one⟩
  | (key, item) :: rest, declared, localAliases, isLocal, aliasing, one => by
    rw [aliasOthers, renameOthers]
    by_cases isProperties : key = "properties"
    · rw [if_pos isProperties, if_pos isProperties]
      exact alias_others rest isLocal one
    · rw [if_neg isProperties, if_neg isProperties]
      cases requiredList? key item with
      | some required =>
        obtain ⟨later, last⟩ := alias_others rest isLocal one
        dsimp only
        rw [later]
        have items : aliasRequiredItem localAliases =
            renameRequiredItem (typeAlias isAlnum reserved) declared := by
          funext item
          cases item with
          | str name => exact congrArg Json.str (isLocal name)
          | _ => rfl
        rw [items]
        exact ⟨rfl, last⟩
      | none =>
        obtain ⟨here, between⟩ := alias_node item one
        obtain ⟨later, last⟩ := alias_others rest isLocal between
        dsimp only
        rw [here, later]
        exact ⟨rfl, last⟩

end

/-- **The schema that is sent** is the given one without aliases, or renamed with an alias that is the
name of none of its properties. -/
theorem aliased_eq_renamed (isAlnum : Char → Bool) (parameters : Json) :
    aliasNimToolParameters isAlnum parameters = (parameters, ∅) ∨
      aliasNimToolParameters isAlnum parameters =
        (renameNode (typeAlias isAlnum (collectNimToolPropertyNames parameters)) parameters,
          (∅ : Dict String String).set
            (typeAlias isAlnum (collectNimToolPropertyNames parameters)) "type") := by
  have start : OneAlias isAlnum (collectNimToolPropertyNames parameters)
      ⟨collectNimToolPropertyNames parameters, ∅, ∅⟩ := Or.inl rfl
  obtain ⟨same, last⟩ := alias_node parameters start
  unfold aliasNimToolParameters
  dsimp only
  rcases last with nothing | aliased
  · left
    rw [nothing]
    exact if_pos rfl
  · right
    rw [aliased, same]
    exact if_neg (List.cons_ne_nil _ _)

end Aliased

/-! ### The members of a renamed schema -/

section Members

variable {made : String} {fields : List (String × Json)}

theorem renameItems_eq (items : List Json) : renameItems made items = items.map (renameNode made) := by
  induction items with
  | nil => rw [renameItems, List.map_nil]
  | cons item rest ih => rw [renameItems, ih, List.map_cons]

theorem renameNamed_eq (named : List (String × Json)) : renameNamed made named =
    named.map fun part => (renamedName made part.1, renameNode made part.2) := by
  induction named with
  | nil => rw [renameNamed, List.map_nil]
  | cons part rest ih => rw [renameNamed, ih, List.map_cons]

/-- What becomes of another member than `properties`. -/
def renameMember (made : String) (declared : Bool) (key : String) (item : Json) : Json :=
  match requiredList? key item with
  | some required => .arr (required.map (renameRequiredItem made declared))
  | none => renameNode made item

theorem renameOthers_eq (declared : Bool) (fields : List (String × Json)) :
    renameOthers made declared fields = (fields.filter fun field => field.1 ≠ "properties").map
      fun field => (field.1, renameMember made declared field.1 field.2) := by
  induction fields with
  | nil => rw [renameOthers, List.filter_nil, List.map_nil]
  | cons field rest ih =>
    obtain ⟨key, item⟩ := field
    rw [renameOthers, ih]
    by_cases isProperties : key = "properties"
    · rw [if_pos isProperties, List.filter_cons_of_neg (by simp [isProperties])]
    · rw [if_neg isProperties, List.filter_cons_of_pos (by simp [isProperties]), List.map_cons]
      rfl

theorem renameProperties_of_mem {properties : List (String × Json)}
    (distinct : (fields.map Prod.fst).Nodup) (there : ("properties", .obj properties) ∈ fields) :
    renameProperties made fields = [("properties", .obj (renameNamed made properties))] ∧
      declares fields = properties.any fun part => part.1 = "type" := by
  induction fields with
  | nil => exact absurd there List.not_mem_nil
  | cons field rest ih =>
    obtain ⟨key, item⟩ := field
    rw [List.map_cons, List.nodup_cons] at distinct
    rcases List.mem_cons.mp there with here | later
    · cases here
      refine ⟨?_, ?_⟩
      · rw [renameProperties, if_pos rfl, renameDeclared]
      · rw [declares, List.findSome?_cons, propertiesOf, if_pos rfl]
        rfl
    · have away : key ≠ "properties" := fun same =>
        distinct.1 (same ▸ List.mem_map.mpr ⟨_, later, rfl⟩)
      obtain ⟨renamed, declared⟩ := ih distinct.2 later
      refine ⟨?_, ?_⟩
      · rw [renameProperties, if_neg away, renamed]
      · rw [← declared, declares, List.findSome?_cons, propertiesOf, if_neg away]
        rfl

theorem renameProperties_of_none (none : ∀ properties, ("properties", .obj properties) ∉ fields) :
    renameProperties made fields = [] := by
  induction fields with
  | nil => rw [renameProperties]
  | cons field rest ih =>
    obtain ⟨key, item⟩ := field
    rw [renameProperties]
    split_ifs with isProperties
    · cases item with
      | obj properties => exact absurd (isProperties ▸ List.mem_cons_self) (none properties)
      | _ => rw [renameDeclared]
    · exact ih fun properties there => none properties (List.mem_cons_of_mem _ there)

theorem key_of_mem_renameProperties {field : String × Json}
    (member : field ∈ renameProperties made fields) : field.1 = "properties" := by
  induction fields with
  | nil =>
    rw [renameProperties] at member
    exact absurd member List.not_mem_nil
  | cons first rest ih =>
    obtain ⟨key, item⟩ := first
    rw [renameProperties] at member
    split_ifs at member with isProperties
    · cases item with
      | obj properties =>
        rw [renameDeclared] at member
        rw [List.mem_singleton.mp member]
      | _ =>
        rw [renameDeclared] at member
        exact absurd member List.not_mem_nil
    · exact ih member

/-- The members of a schema with its aliases. -/
def renamedFields (made : String) (fields : List (String × Json)) : List (String × Json) :=
  renameProperties made fields ++ renameOthers made (declares fields) fields

theorem renameNode_obj : renameNode made (.obj fields) = .obj (renamedFields made fields) := by
  rw [renameNode]
  rfl

/-- The other members one by one. -/
theorem mem_renamedFields {key : String} {renamed : Json} (other : key ≠ "properties") :
    (key, renamed) ∈ renamedFields made fields ↔
      ∃ item, (key, item) ∈ fields ∧ renamed = renameMember made (declares fields) key item := by
  have apart : (key, renamed) ∉ renameProperties made fields := fun member =>
    other (key_of_mem_renameProperties member)
  rw [renamedFields, List.mem_append, or_iff_right apart, renameOthers_eq]
  constructor
  · intro member
    obtain ⟨⟨_, item⟩, there, same⟩ := List.mem_map.mp member
    cases same
    exact ⟨item, (List.mem_filter.mp there).1, rfl⟩
  · rintro ⟨item, there, rfl⟩
    exact List.mem_map.mpr ⟨(key, item), List.mem_filter.mpr ⟨there, by simpa using other⟩, rfl⟩

/-- The `properties`. -/
theorem properties_mem_renamedFields (distinct : (fields.map Prod.fst).Nodup) {renamed : Json} :
    ("properties", renamed) ∈ renamedFields made fields ↔
      ∃ properties, ("properties", .obj properties) ∈ fields ∧
        renamed = .obj (renameNamed made properties) := by
  have apart : ("properties", renamed) ∉ renameOthers made (declares fields) fields := by
    rw [renameOthers_eq]
    intro member
    obtain ⟨field, there, same⟩ := List.mem_map.mp member
    have other := (List.mem_filter.mp there).2
    rw [congrArg Prod.fst same] at other
    simp at other
  rw [renamedFields, List.mem_append, or_iff_left apart]
  constructor
  · intro member
    by_cases some_ : ∃ properties, ("properties", .obj properties) ∈ fields
    · obtain ⟨properties, there⟩ := some_
      rw [(renameProperties_of_mem distinct there).1, List.mem_singleton, Prod.mk.injEq] at member
      exact ⟨properties, there, member.2⟩
    · rw [renameProperties_of_none fun properties there => some_ ⟨properties, there⟩] at member
      exact absurd member List.not_mem_nil
  · rintro ⟨properties, there, rfl⟩
    rw [(renameProperties_of_mem distinct there).1]
    exact List.mem_singleton.mpr rfl

end Members

/-! ### Instances -/

/-- An instance whose objects have distinct names, and none of these. -/
inductive Avoids (names : String → Prop) : Json → Prop
  | obj {fields : List (String × Json)} (distinct : (fields.map Prod.fst).Nodup)
      (absent : ∀ field ∈ fields, ¬ names field.1)
      (values : ∀ field ∈ fields, Avoids names field.2) : Avoids names (.obj fields)
  | arr {items : List Json} (values : ∀ item ∈ items, Avoids names item) : Avoids names (.arr items)
  | plain {value : Json} (noArray : ∀ items, value ≠ .arr items)
      (noObject : ∀ fields, value ≠ .obj fields) : Avoids names value

namespace Avoids

variable {names : String → Prop} {subject : Json}

theorem text (name : String) : Avoids names (.str name) := .plain nofun nofun

theorem entry (avoids : Avoids names subject) {entry : String × Json}
    (there : entry ∈ entries subject) : ¬ names entry.1 ∧ Avoids names entry.2 := by
  cases avoids with
  | obj distinct absent values => exact ⟨absent entry there, values entry there⟩
  | arr values => exact absurd there List.not_mem_nil
  | plain noArray noObject =>
    cases subject with
    | obj fields => exact absurd rfl (noObject fields)
    | _ => exact absurd there List.not_mem_nil

theorem item (avoids : Avoids names subject) {item : Json} (there : item ∈ elements subject) :
    Avoids names item := by
  cases avoids with
  | obj distinct absent values => exact absurd there List.not_mem_nil
  | arr values => exact values item there
  | plain noArray noObject =>
    cases subject with
    | arr items => exact absurd rfl (noArray items)
    | _ => exact absurd there List.not_mem_nil

end Avoids

section Restore

open OpenaiCall

variable {aliases : Dict String String} {made : String} {subject : Json}

/-- The members, restored one by one, while the names stay distinct. -/
theorem restoreFields_eq {restored fields : List (String × Json)}
    (distinct : ((restored ++ fields.map fun field =>
      ((aliases.get? field.1).getD field.1, restoreAliasedToolArgumentValue aliases field.2)).map
        Prod.fst).Nodup) :
    restoreFields aliases restored fields = restored ++ fields.map fun field =>
      ((aliases.get? field.1).getD field.1, restoreAliasedToolArgumentValue aliases field.2) := by
  induction fields generalizing restored with
  | nil => rw [restoreFields, List.map_nil, List.append_nil]
  | cons field rest ih =>
    obtain ⟨key, item⟩ := field
    rw [List.map_cons, List.append_cons] at distinct ⊢
    have fresh : (aliases.get? key).getD key ∉ restored.map Prod.fst := by
      rw [List.map_append, List.map_append] at distinct
      have apart := (List.nodup_append.mp (List.nodup_append.mp distinct).1).2.2
      exact fun known => apart _ known _ (List.mem_singleton.mpr rfl) rfl
    rw [restoreFields, Json.setKey, Assoc.set_of_notMem fresh, ih distinct]

theorem restoreItems_eq (items : List Json) :
    restoreItems aliases items = items.map (restoreAliasedToolArgumentValue aliases) := by
  induction items with
  | nil => rw [restoreItems, List.map_nil]
  | cons item rest ih => rw [restoreItems, ih, List.map_cons]

/-- Where no name is an alias, nothing is restored. -/
theorem restore_eq_self {names : String → Prop}
    (kept : ∀ name, ¬ names name → (aliases.get? name).getD name = name) (avoids : Avoids names subject) :
    restoreAliasedToolArgumentValue aliases subject = subject := by
  induction avoids with
  | @obj fields distinct absent values ih =>
    have same : (fields.map fun field : String × Json =>
        ((aliases.get? field.1).getD field.1,
          restoreAliasedToolArgumentValue aliases field.2)) = fields := by
      refine (List.map_congr_left fun field member => ?_).trans (List.map_id fields)
      rw [kept field.1 (absent field member), ih field member]
      rfl
    rw [restoreAliasedToolArgumentValue, restoreFields_eq (by rw [same]; exact distinct), same]
    rfl
  | @arr items values ih =>
    rw [restoreAliasedToolArgumentValue, restoreItems_eq]
    exact congrArg Json.arr ((List.map_congr_left ih).trans (List.map_id items))
  | @plain value noArray noObject =>
    cases value with
    | obj fields => exact absurd rfl (noObject fields)
    | arr items => exact absurd rfl (noArray items)
    | _ => rfl

/-- One alias, for `type`. -/
def onlyAlias (made : String) : Dict String String := (∅ : Dict String String).set made "type"

/-- What is restored of a value. -/
def restored (made : String) (subject : Json) : Json :=
  restoreAliasedToolArgumentValue (onlyAlias made) subject

/-- The name that a member had. -/
def originalName (made name : String) : String := if name = made then "type" else name

theorem onlyAlias_getD (name : String) :
    ((onlyAlias made).get? name).getD name = originalName made name := by
  rw [onlyAlias, Dict.get?_set, originalName]
  split_ifs with same
  · rfl
  · rw [Dict.get?_empty, Option.getD_none]

theorem get?_onlyAlias {other name : String} :
    (onlyAlias made).get? other = some name ↔ other = made ∧ name = "type" := by
  rw [onlyAlias, Dict.get?_set]
  split_ifs with isMade
  · rw [Option.some.injEq, and_iff_right isMade, eq_comm]
  · rw [Dict.get?_empty]
    simp [isMade]

theorem originalName_injOn {first second : String} (firstOther : first ≠ "type")
    (secondOther : second ≠ "type") (same : originalName made first = originalName made second) :
    first = second := by
  unfold originalName at same
  split_ifs at same with isFirst isSecond isSecond
  · rw [isFirst, isSecond]
  · exact absurd same.symm secondOther
  · exact absurd same firstOther
  · exact same

/-- An instance without a member `type`. -/
abbrev Untyped : Json → Prop := Avoids (· = "type")

/-- **The members of a restored object.** -/
theorem entries_restored (untyped : Untyped subject) : entries (restored made subject) =
    (entries subject).map fun entry => (originalName made entry.1, restored made entry.2) := by
  cases untyped with
  | @obj fields distinct absent values =>
    have mapped : (fields.map fun field : String × Json =>
        (((onlyAlias made).get? field.1).getD field.1,
          restoreAliasedToolArgumentValue (onlyAlias made) field.2)) =
        fields.map fun entry => (originalName made entry.1, restored made entry.2) :=
      List.map_congr_left fun field _ => by rw [onlyAlias_getD, restored]
    have names : ((fields.map fun entry : String × Json =>
        (originalName made entry.1, restored made entry.2)).map Prod.fst).Nodup := by
      rw [List.map_map]
      have inside : ∀ first ∈ fields, ∀ second ∈ fields,
          originalName made first.1 = originalName made second.1 → first.1 = second.1 :=
        fun first isFirst second isSecond =>
          originalName_injOn (absent first isFirst) (absent second isSecond)
      rw [List.nodup_iff_pairwise_ne, List.pairwise_map] at distinct ⊢
      exact distinct.imp_of_mem fun isFirst isSecond apart same => apart (inside _ isFirst _ isSecond same)
    rw [restored, restoreAliasedToolArgumentValue, restoreFields_eq (by rw [mapped]; exact names), mapped]
    rfl
  | arr values =>
    rw [restored, restoreAliasedToolArgumentValue]
    rfl
  | plain noArray noObject =>
    cases subject with
    | obj fields => exact absurd rfl (noObject fields)
    | arr items => exact absurd rfl (noArray items)
    | _ => rfl

theorem elements_restored (subject : Json) :
    elements (restored made subject) = (elements subject).map (restored made) := by
  cases subject with
  | arr items =>
    rw [restored, restoreAliasedToolArgumentValue, restoreItems_eq]
    rfl
  | obj fields =>
    rw [restored, restoreAliasedToolArgumentValue]
    rfl
  | _ => rfl

theorem isArray_restored (subject : Json) : isArray (restored made subject) = isArray subject := by
  cases subject <;> simp [restored, restoreAliasedToolArgumentValue, isArray]

theorem isObject_restored (subject : Json) : isObject (restored made subject) = isObject subject := by
  cases subject <;> simp [restored, restoreAliasedToolArgumentValue, isObject]

theorem restored_text (name : String) : restored made (.str name) = .str name := rfl

end Restore

end NimSchema

end ClaudeProxy
