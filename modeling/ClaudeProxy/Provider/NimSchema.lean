/-
**Boolean subschemas are removed for NIM** (`_sanitize_nim_schema_node`).

* `sanitizeNimSchemaNode` — the schema without its boolean subschemas; the keys of a dict are distinct,
  so that the assignments to the new one append to it.
* `SubschemaOf`, `sanitized_no_bool` — the positions that the key sets name hold no bool any more.
* `sanitize_idem` — sanitizing twice.
-/

import ClaudeProxy.Library.JsonSchema
import Mathlib.Logic.Relation

namespace ClaudeProxy

namespace NimSchema

open JsonSchema

/-- `_SCHEMA_VALUE_KEYS`. -/
def schemaValueKeys : List String :=
  ["additionalProperties", "additionalItems", "unevaluatedProperties", "unevaluatedItems", "items",
    "contains", "propertyNames", "if", "then", "else", "not"]

/-- `_SCHEMA_LIST_KEYS`. -/
def schemaListKeys : List String := ["allOf", "anyOf", "oneOf", "prefixItems"]

/-- `_SCHEMA_MAP_KEYS`. -/
def schemaMapKeys : List String :=
  ["properties", "patternProperties", "$defs", "definitions", "dependentSchemas"]

mutual

/-- `_sanitize_nim_schema_node`, with `none` where the value is not kept. -/
def sanitizeNimSchemaNode : Json → Option Json
  | .bool _ => none
  | .obj fields => some (.obj (sanitizeFields fields))
  | .arr items => some (.arr (sanitizeItems items))
  | .null => some .null
  | .int value => some (.int value)
  | .float literal => some (.float literal)
  | .str text => some (.str text)

/-- The value of a key of schema lists, which is kept as it is where it is no list. -/
def sanitizeListed : Json → Option Json
  | .arr items => if (sanitizeItems items).isEmpty then none else some (.arr (sanitizeItems items))
  | .null => some .null
  | .bool value => some (.bool value)
  | .int value => some (.int value)
  | .float literal => some (.float literal)
  | .str text => some (.str text)
  | .obj fields => some (.obj fields)

/-- The value of a key of schema maps, which is kept as it is where it is no dict. -/
def sanitizeNamed : Json → Option Json
  | .obj named => some (.obj (sanitizeMap named))
  | .null => some .null
  | .bool value => some (.bool value)
  | .int value => some (.int value)
  | .float literal => some (.float literal)
  | .str text => some (.str text)
  | .arr items => some (.arr items)

/-- The loop over the members of a schema. -/
def sanitizeFields : List (String × Json) → List (String × Json)
  | [] => []
  | (key, item) :: rest =>
    match
      if key ∈ schemaValueKeys then sanitizeNimSchemaNode item
      else if key ∈ schemaListKeys then sanitizeListed item
      else if key ∈ schemaMapKeys then sanitizeNamed item
      else some item with
    | some sanitizedItem => (key, sanitizedItem) :: sanitizeFields rest
    | none => sanitizeFields rest

/-- The loop over a list of schemas. -/
def sanitizeItems : List Json → List Json
  | [] => []
  | item :: rest =>
    match sanitizeNimSchemaNode item with
    | some sanitizedItem => sanitizedItem :: sanitizeItems rest
    | none => sanitizeItems rest

/-- The loop over a map of schemas. -/
def sanitizeMap : List (String × Json) → List (String × Json)
  | [] => []
  | (key, item) :: rest =>
    match sanitizeNimSchemaNode item with
    | some sanitizedItem => (key, sanitizedItem) :: sanitizeMap rest
    | none => sanitizeMap rest

end

/-! ### The members one by one -/

/-- What the loop keeps of a member. -/
def sanitizeMember (key : String) (item : Json) : Option Json :=
  if key ∈ schemaValueKeys then sanitizeNimSchemaNode item
  else if key ∈ schemaListKeys then sanitizeListed item
  else if key ∈ schemaMapKeys then sanitizeNamed item
  else some item

theorem sanitizeFields_eq (fields : List (String × Json)) :
    sanitizeFields fields = fields.filterMap fun field =>
      (sanitizeMember field.1 field.2).map (Prod.mk field.1) := by
  induction fields with
  | nil => rw [sanitizeFields, List.filterMap_nil]
  | cons field rest ih =>
    have head : sanitizeFields (field :: rest) =
        match sanitizeMember field.1 field.2 with
        | some sanitizedItem => (field.1, sanitizedItem) :: sanitizeFields rest
        | none => sanitizeFields rest := by
      rw [sanitizeFields]
      rfl
    rw [head, List.filterMap_cons, ih]
    cases sanitizeMember field.1 field.2 <;> rfl

theorem sanitizeItems_eq (items : List Json) :
    sanitizeItems items = items.filterMap sanitizeNimSchemaNode := by
  induction items with
  | nil => rw [sanitizeItems, List.filterMap_nil]
  | cons item rest ih =>
    rw [sanitizeItems, List.filterMap_cons, ih]
    cases sanitizeNimSchemaNode item <;> rfl

theorem sanitizeMap_eq (named : List (String × Json)) :
    sanitizeMap named = named.filterMap fun entry =>
      (sanitizeNimSchemaNode entry.2).map (Prod.mk entry.1) := by
  induction named with
  | nil => rw [sanitizeMap, List.filterMap_nil]
  | cons entry rest ih =>
    rw [sanitizeMap, List.filterMap_cons, ih]
    cases sanitizeNimSchemaNode entry.2 <;> rfl

theorem mem_sanitizeFields {key : String} {sanitized : Json} {fields : List (String × Json)} :
    (key, sanitized) ∈ sanitizeFields fields ↔
      ∃ item, (key, item) ∈ fields ∧ sanitizeMember key item = some sanitized := by
  rw [sanitizeFields_eq, List.mem_filterMap]
  constructor
  · rintro ⟨⟨other, item⟩, there, same⟩
    obtain ⟨value, kept, same⟩ := Option.map_eq_some_iff.mp same
    cases same
    exact ⟨item, there, kept⟩
  · rintro ⟨item, there, kept⟩
    exact ⟨(key, item), there, by rw [kept, Option.map_some]⟩

theorem mem_sanitizeItems {sanitized : Json} {items : List Json} :
    sanitized ∈ sanitizeItems items ↔
      ∃ item ∈ items, sanitizeNimSchemaNode item = some sanitized := by
  rw [sanitizeItems_eq, List.mem_filterMap]

theorem mem_sanitizeMap {key : String} {sanitized : Json} {named : List (String × Json)} :
    (key, sanitized) ∈ sanitizeMap named ↔
      ∃ item, (key, item) ∈ named ∧ sanitizeNimSchemaNode item = some sanitized := by
  rw [sanitizeMap_eq, List.mem_filterMap]
  constructor
  · rintro ⟨⟨other, item⟩, there, same⟩
    obtain ⟨value, kept, same⟩ := Option.map_eq_some_iff.mp same
    cases same
    exact ⟨item, there, kept⟩
  · rintro ⟨item, there, kept⟩
    exact ⟨(key, item), there, by rw [kept, Option.map_some]⟩

section Members

variable {key : String} {item sanitized : Json}

theorem sanitizeMember_value (valueKey : key ∈ schemaValueKeys) :
    sanitizeMember key item = sanitizeNimSchemaNode item := if_pos valueKey

theorem notMem_values_of_list (listKey : key ∈ schemaListKeys) : key ∉ schemaValueKeys := by
  have apart : ∀ key ∈ schemaListKeys, key ∉ schemaValueKeys := by decide
  exact apart key listKey

theorem notMem_values_of_map (mapKey : key ∈ schemaMapKeys) : key ∉ schemaValueKeys := by
  have apart : ∀ key ∈ schemaMapKeys, key ∉ schemaValueKeys := by decide
  exact apart key mapKey

theorem notMem_lists_of_map (mapKey : key ∈ schemaMapKeys) : key ∉ schemaListKeys := by
  have apart : ∀ key ∈ schemaMapKeys, key ∉ schemaListKeys := by decide
  exact apart key mapKey

theorem sanitizeMember_list (listKey : key ∈ schemaListKeys) :
    sanitizeMember key item = sanitizeListed item := by
  rw [sanitizeMember, if_neg (notMem_values_of_list listKey), if_pos listKey]

theorem sanitizeMember_map (mapKey : key ∈ schemaMapKeys) :
    sanitizeMember key item = sanitizeNamed item := by
  rw [sanitizeMember, if_neg (notMem_values_of_map mapKey), if_neg (notMem_lists_of_map mapKey),
    if_pos mapKey]

/-- The members of any other key stay as they are. -/
theorem sanitizeMember_other (noValue : key ∉ schemaValueKeys) (noList : key ∉ schemaListKeys)
    (noMap : key ∉ schemaMapKeys) : sanitizeMember key item = some item := by
  rw [sanitizeMember, if_neg noValue, if_neg noList, if_neg noMap]

/-- A list of schemas is kept while there is one left in it. -/
theorem sanitizeListed_arr {items : List Json} :
    sanitizeListed (.arr items) = some sanitized ↔
      sanitizeItems items ≠ [] ∧ .arr (sanitizeItems items) = sanitized := by
  rw [sanitizeListed]
  split_ifs with nothing
  · simp [List.isEmpty_iff.mp nothing]
  · simp [List.isEmpty_iff.not.mp nothing]

/-- What is kept of the value of a key of lists is an array only where the value was one. -/
theorem sanitizeListed_eq_array (kept : sanitizeListed item = some sanitized)
    (array : isArray sanitized = true) :
    ∃ items, item = .arr items ∧ .arr (sanitizeItems items) = sanitized ∧ sanitizeItems items ≠ [] := by
  cases item with
  | arr items =>
    obtain ⟨left, same⟩ := sanitizeListed_arr.mp kept
    exact ⟨items, rfl, same, left⟩
  | _ =>
    cases kept
    cases array

theorem mem_elements_sanitizeListed (kept : sanitizeListed item = some sanitized) {schema : Json}
    (inside : schema ∈ elements sanitized) :
    ∃ source ∈ elements item, sanitizeNimSchemaNode source = some schema := by
  cases item with
  | arr items =>
    obtain ⟨-, rfl⟩ := sanitizeListed_arr.mp kept
    exact mem_sanitizeItems.mp inside
  | _ =>
    cases kept
    cases inside

theorem mem_entries_sanitizeNamed (kept : sanitizeNamed item = some sanitized) {name : String}
    {schema : Json} (inside : (name, schema) ∈ entries sanitized) :
    ∃ source, (name, source) ∈ entries item ∧ sanitizeNimSchemaNode source = some schema := by
  cases item with
  | obj named =>
    rw [sanitizeNamed, Option.some.injEq] at kept
    subst kept
    exact mem_sanitizeMap.mp inside
  | _ =>
    cases kept
    cases inside

end Members

theorem sanitize_ne_bool {schema : Json} {accepted : Bool} :
    sanitizeNimSchemaNode schema ≠ some (.bool accepted) := by
  intro same
  cases schema <;> simp [sanitizeNimSchemaNode] at same

/-! ### The positions of subschemas -/

/-- **The positions that the key sets name**, at any depth. -/
inductive InSchemaPosition (root : Json) : Json → Prop
  | root : InSchemaPosition root root
  | value {key : String} {fields : List (String × Json)} {sub : Json} :
      InSchemaPosition root (.obj fields) → key ∈ schemaValueKeys → (key, sub) ∈ fields →
        InSchemaPosition root sub
  | listed {key : String} {fields : List (String × Json)} {items : List Json} {sub : Json} :
      InSchemaPosition root (.obj fields) → key ∈ schemaListKeys → (key, .arr items) ∈ fields →
        sub ∈ items → InSchemaPosition root sub
  | named {key name : String} {fields named : List (String × Json)} {sub : Json} :
      InSchemaPosition root (.obj fields) → key ∈ schemaMapKeys → (key, .obj named) ∈ fields →
        (name, sub) ∈ named → InSchemaPosition root sub
  | item {items : List Json} {sub : Json} :
      InSchemaPosition root (.arr items) → sub ∈ items → InSchemaPosition root sub

theorem sanitize_eq_obj {schema : Json} {fields : List (String × Json)}
    (done : sanitizeNimSchemaNode schema = some (.obj fields)) :
    ∃ source, schema = .obj source ∧ fields = sanitizeFields source := by
  cases schema with
  | obj source =>
    rw [sanitizeNimSchemaNode, Option.some.injEq, Json.obj.injEq] at done
    exact ⟨source, rfl, done.symm⟩
  | _ => simp [sanitizeNimSchemaNode] at done

theorem sanitize_eq_arr {schema : Json} {items : List Json}
    (done : sanitizeNimSchemaNode schema = some (.arr items)) :
    ∃ source, schema = .arr source ∧ items = sanitizeItems source := by
  cases schema with
  | arr source =>
    rw [sanitizeNimSchemaNode, Option.some.injEq, Json.arr.injEq] at done
    exact ⟨source, rfl, done.symm⟩
  | _ => simp [sanitizeNimSchemaNode] at done

/-- What stands in a position of a sanitized schema is sanitized itself. -/
theorem sanitized_of_inSchemaPosition {schema root sub : Json}
    (done : sanitizeNimSchemaNode schema = some root) (position : InSchemaPosition root sub) :
    ∃ source, sanitizeNimSchemaNode source = some sub := by
  induction position with
  | root => exact ⟨schema, done⟩
  | value _ valueKey there ih =>
    obtain ⟨object, made⟩ := ih
    obtain ⟨source, -, rfl⟩ := sanitize_eq_obj made
    obtain ⟨item, -, kept⟩ := mem_sanitizeFields.mp there
    exact ⟨item, (sanitizeMember_value valueKey).symm.trans kept⟩
  | listed _ listKey there inside ih =>
    obtain ⟨object, made⟩ := ih
    obtain ⟨source, -, rfl⟩ := sanitize_eq_obj made
    obtain ⟨item, -, kept⟩ := mem_sanitizeFields.mp there
    rw [sanitizeMember_list listKey] at kept
    obtain ⟨origin, -, made⟩ := mem_elements_sanitizeListed kept inside
    exact ⟨origin, made⟩
  | named _ mapKey there inside ih =>
    obtain ⟨object, made⟩ := ih
    obtain ⟨source, -, rfl⟩ := sanitize_eq_obj made
    obtain ⟨item, -, kept⟩ := mem_sanitizeFields.mp there
    rw [sanitizeMember_map mapKey] at kept
    obtain ⟨origin, -, made⟩ := mem_entries_sanitizeNamed kept inside
    exact ⟨origin, made⟩
  | item _ inside ih =>
    obtain ⟨array, made⟩ := ih
    obtain ⟨source, -, rfl⟩ := sanitize_eq_arr made
    obtain ⟨origin, -, made⟩ := mem_sanitizeItems.mp inside
    exact ⟨origin, made⟩

/-- **No boolean is left** in a position that the key sets name. -/
theorem sanitized_no_bool {schema root sub : Json}
    (done : sanitizeNimSchemaNode schema = some root) (position : InSchemaPosition root sub)
    (accepted : Bool) : sub ≠ .bool accepted := by
  rintro rfl
  obtain ⟨source, made⟩ := sanitized_of_inSchemaPosition done position
  exact sanitize_ne_bool made

/-! ### Sanitizing twice -/

theorem filterMap_of_fixed {α : Type} {keep : α → Option α} {list : List α}
    (fixed : ∀ item ∈ list, keep item = some item) : list.filterMap keep = list := by
  calc list.filterMap keep = list.filterMap some := List.filterMap_congr fixed
    _ = list := List.filterMap_some

theorem sanitizeFields_of_fixed {fields : List (String × Json)}
    (fixed : ∀ field ∈ fields, sanitizeMember field.1 field.2 = some field.2) :
    sanitizeFields fields = fields := by
  rw [sanitizeFields_eq]
  exact filterMap_of_fixed fun field there => by rw [fixed field there, Option.map_some]

theorem sanitizeMap_of_fixed {named : List (String × Json)}
    (fixed : ∀ entry ∈ named, sanitizeNimSchemaNode entry.2 = some entry.2) :
    sanitizeMap named = named := by
  rw [sanitizeMap_eq]
  exact filterMap_of_fixed fun entry there => by rw [fixed entry there, Option.map_some]

/-- What is kept of a member is kept again, when that holds of the schemas in it. -/
theorem sanitizeMember_idem {key : String} {item sanitized : Json}
    (here : ∀ again, sanitizeNimSchemaNode item = some again →
      sanitizeNimSchemaNode again = some again)
    (below : ∀ entry ∈ entries item, ∀ again, sanitizeNimSchemaNode entry.2 = some again →
      sanitizeNimSchemaNode again = some again)
    (kept : sanitizeMember key item = some sanitized) :
    sanitizeMember key sanitized = some sanitized := by
  by_cases valueKey : key ∈ schemaValueKeys
  · rw [sanitizeMember_value valueKey] at kept ⊢
    exact here sanitized kept
  by_cases listKey : key ∈ schemaListKeys
  · rw [sanitizeMember_list listKey] at kept ⊢
    cases item with
    | arr items =>
      obtain ⟨left, rfl⟩ := sanitizeListed_arr.mp kept
      have again := here _ (by rw [sanitizeNimSchemaNode])
      rw [sanitizeNimSchemaNode, Option.some.injEq, Json.arr.injEq] at again
      exact sanitizeListed_arr.mpr ⟨by rwa [again], by rw [again]⟩
    | _ =>
      cases kept
      rfl
  by_cases mapKey : key ∈ schemaMapKeys
  · rw [sanitizeMember_map mapKey] at kept ⊢
    cases item with
    | obj named =>
      rw [sanitizeNamed, Option.some.injEq] at kept
      subst kept
      rw [sanitizeNamed, sanitizeMap_of_fixed]
      rintro ⟨name, schema⟩ there
      obtain ⟨origin, inside, made⟩ := mem_sanitizeMap.mp there
      exact below (name, origin) inside schema made
    | _ =>
      cases kept
      rfl
  · rw [sanitizeMember_other valueKey listKey mapKey] at kept
    cases kept
    exact sanitizeMember_other valueKey listKey mapKey

/-- **Sanitizing twice is sanitizing once.** -/
theorem sanitize_idem (schema : Json) :
    ∀ sanitized, sanitizeNimSchemaNode schema = some sanitized →
      sanitizeNimSchemaNode sanitized = some sanitized := by
  induction schema using induct with
  | plain value noArray noObject =>
    intro sanitized done
    cases value with
    | arr items => exact absurd rfl (noArray items)
    | obj fields => exact absurd rfl (noObject fields)
    | bool accepted => cases done
    | _ =>
      cases done
      rfl
  | arr items ih =>
    intro sanitized done
    cases done
    rw [sanitizeNimSchemaNode, sanitizeItems_eq (sanitizeItems items), filterMap_of_fixed]
    intro item there
    obtain ⟨origin, inside, made⟩ := mem_sanitizeItems.mp there
    exact ih origin inside item made
  | obj fields ih =>
    intro sanitized done
    cases done
    rw [sanitizeNimSchemaNode, sanitizeFields_of_fixed]
    rintro ⟨key, item⟩ there
    obtain ⟨origin, inside, kept⟩ := mem_sanitizeFields.mp there
    exact sanitizeMember_idem (ih (key, origin) inside).1 (ih (key, origin) inside).2 kept

end NimSchema

end ClaudeProxy
