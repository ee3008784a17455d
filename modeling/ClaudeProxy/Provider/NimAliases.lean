/-
**Property names that NIM does not take, and their aliases** (`providers/nvidia_nim/request.py`).

* `makeNimToolParameterAlias` — `_make_nim_tool_parameter_alias`: a name that no property has.
* `collectNimToolPropertyNames` — `_collect_nim_tool_property_names`.
* `aliasNimSchemaPropertyNames` — `_alias_nim_schema_property_names`: properties are renamed, and the
  `required` list beside them.
* `aliasNimToolParameters` — `_alias_nim_tool_parameters`: the schema, and the aliases with the names
  they stand for.

The keys of a dict are distinct and an alias is none of them, so that the assignments to a new dict
append to it.
-/

import ClaudeProxy.Json
import ClaudeProxy.Library.FreshName
import ClaudeProxy.Python

namespace ClaudeProxy

namespace NimSchema

/-- `_NIM_TOOL_PARAMETER_ALIAS_PREFIX`. -/
def nimToolParameterAliasPrefix : String := "_fcc_arg_"

/-- `_NIM_UNSAFE_TOOL_PARAMETER_NAMES`. -/
def nimUnsafeToolParameterNames : List String := ["type"]

/-- `_needs_nim_tool_parameter_alias`. -/
def needsNimToolParameterAlias (name : String) : Bool := name ∈ nimUnsafeToolParameterNames

/-! ### One alias -/

section Alias

variable (isAlnum : Char → Bool)

/-- `safe_tail`: the name with its other characters replaced, without the underscores around it. -/
def safeTail (name : String) : String :=
  let replaced := name.toList.map fun char => if isAlnum char || char == '_' then char else '_'
  let stripped := ((replaced.dropWhile (· == '_')).reverse.dropWhile (· == '_')).reverse
  if stripped = [] then "arg" else String.ofList stripped

/-- The aliases that are tried: the candidate, then numbered from 2 on. -/
def numbered (candidate : String) : Nat → String
  | 0 => candidate
  | count + 1 => candidate ++ "_" ++ toString (count + 2)

/-- `_make_nim_tool_parameter_alias`; the loop ends, for the reserved names are finitely many. -/
def makeNimToolParameterAlias (name : String) (reserved : List String) : String :=
  firstFree (numbered (nimToolParameterAliasPrefix ++ safeTail isAlnum name)) reserved
    reserved.length 0

end Alias

theorem numbered_injective (candidate : String) : Function.Injective (numbered candidate) := by
  have numbers : ∀ count, (candidate ++ "_" ++ toString (count + 2)).toList =
      candidate.toList ++ '_' :: (toString (count + 2)).toList := by
    intro count
    rw [String.toList_append, String.toList_append, List.append_assoc]
    rfl
  intro first second same
  cases first with
  | zero =>
    cases second with
    | zero => rfl
    | succ second =>
      have longer := congrArg (fun text => text.toList.length) same
      simp only [numbered, numbers, List.length_append, List.length_cons] at longer
      omega
  | succ first =>
    cases second with
    | zero =>
      have longer := congrArg (fun text => text.toList.length) same
      simp only [numbered, numbers, List.length_append, List.length_cons] at longer
      omega
    | succ second =>
      have texts := congrArg String.toList same
      rw [numbered, numbered, numbers, numbers, List.append_cancel_left_eq, List.cons.injEq] at texts
      have digits := congrArg (Nat.ofDigitChars 10 · 0) texts.2
      simp only [Nat.toString_eq_ofList_toDigits, String.toList_ofList,
        Nat.ofDigitChars_ten_toDigits] at digits
      omega

/-- **An alias is no reserved name.** -/
theorem makeNimToolParameterAlias_notMem (isAlnum : Char → Bool) (name : String)
    (reserved : List String) : makeNimToolParameterAlias isAlnum name reserved ∉ reserved :=
  firstFree_notMem (numbered_injective _) reserved 0

/-! ### The names of properties -/

mutual

/-- `_collect_nim_tool_property_names`. -/
def collectNimToolPropertyNames : Json → List String
  | .obj fields => collectFields fields
  | .arr items => collectItems items
  | .null | .bool _ | .int _ | .float _ | .str _ => []

/-- The members of a dict: its `properties`, and what is in the others. -/
def collectFields : List (String × Json) → List String
  | [] => []
  | (key, item) :: rest =>
    (if key = "properties" then collectProperties item else collectNimToolPropertyNames item) ++
      collectFields rest

def collectItems : List Json → List String
  | [] => []
  | item :: rest => collectNimToolPropertyNames item ++ collectItems rest

/-- The value of `properties`, where it is a dict. -/
def collectProperties : Json → List String
  | .obj properties => collectNamed properties
  | .null | .bool _ | .int _ | .float _ | .str _ | .arr _ => []

/-- The properties by name. -/
def collectNamed : List (String × Json) → List String
  | [] => []
  | (name, schema) :: rest => name :: collectNimToolPropertyNames schema ++ collectNamed rest

end

/-! ### The schema with aliases -/

/-- The arguments that the recursion changes. -/
structure Aliasing where
  reserved : List String
  aliasToOriginal : Dict String String := ∅
  originalToAlias : Dict String String := ∅

/-- The alias of a name, made at its first property. -/
def aliasOf (isAlnum : Char → Bool) (name : String) (aliasing : Aliasing) : String × Aliasing :=
  match aliasing.originalToAlias.get? name with
  | some made => (made, aliasing)
  | none =>
    let made := makeNimToolParameterAlias isAlnum name aliasing.reserved
    (made,
      { reserved := made :: aliasing.reserved
        aliasToOriginal := aliasing.aliasToOriginal.set made name
        originalToAlias := aliasing.originalToAlias.set name made })

/-- An item of a `required` list. -/
def aliasRequiredItem (localAliases : Dict String String) : Json → Json
  | .str name => .str ((localAliases.get? name).getD name)
  | item => item

/-- The list of a `required` member. -/
def requiredList? (key : String) : Json → Option (List Json)
  | .arr required => if key = "required" then some required else none
  | _ => none

section Schema

variable (isAlnum : Char → Bool)

mutual

/-- `_alias_nim_schema_property_names`. -/
def aliasNimSchemaPropertyNames (aliasing : Aliasing) : Json → Json × Aliasing
  | .obj fields =>
    let (properties, localAliases, aliasing) := aliasProperties aliasing fields
    let (others, aliasing) := aliasOthers localAliases aliasing fields
    (.obj (properties ++ others), aliasing)
  | .arr items =>
    let (items, aliasing) := aliasItems aliasing items
    (.arr items, aliasing)
  | .null => (.null, aliasing)
  | .bool value => (.bool value, aliasing)
  | .int value => (.int value, aliasing)
  | .float literal => (.float literal, aliasing)
  | .str text => (.str text, aliasing)

def aliasItems (aliasing : Aliasing) : List Json → List Json × Aliasing
  | [] => ([], aliasing)
  | item :: rest =>
    let (aliasedItem, aliasing) := aliasNimSchemaPropertyNames aliasing item
    let (aliasedRest, aliasing) := aliasItems aliasing rest
    (aliasedItem :: aliasedRest, aliasing)

/-- The `properties` of a dict, with the aliases among them. -/
def aliasProperties (aliasing : Aliasing) :
    List (String × Json) → List (String × Json) × Dict String String × Aliasing
  | [] => ([], ∅, aliasing)
  | (key, item) :: rest =>
    if key = "properties" then aliasDeclared aliasing item else aliasProperties aliasing rest

/-- The value of `properties`, which is dropped where it is no dict. -/
def aliasDeclared (aliasing : Aliasing) : Json → List (String × Json) × Dict String String × Aliasing
  | .obj properties =>
    let (aliasedProperties, localAliases, aliasing) := aliasNamed aliasing properties
    ([("properties", .obj aliasedProperties)], localAliases, aliasing)
  | .null | .bool _ | .int _ | .float _ | .str _ | .arr _ => ([], ∅, aliasing)

/-- The properties by name. -/
def aliasNamed (aliasing : Aliasing) :
    List (String × Json) → List (String × Json) × Dict String String × Aliasing
  | [] => ([], ∅, aliasing)
  | (name, schema) :: rest =>
    let (aliasedSchema, aliasing) := aliasNimSchemaPropertyNames aliasing schema
    if needsNimToolParameterAlias name then
      let (made, aliasing) := aliasOf isAlnum name aliasing
      let (later, localAliases, aliasing) := aliasNamed aliasing rest
      ((made, aliasedSchema) :: later, localAliases.set name made, aliasing)
    else
      let (later, localAliases, aliasing) := aliasNamed aliasing rest
      ((name, aliasedSchema) :: later, localAliases, aliasing)

/-- The other members of a dict. -/
def aliasOthers (localAliases : Dict String String) (aliasing : Aliasing) :
    List (String × Json) → List (String × Json) × Aliasing
  | [] => ([], aliasing)
  | (key, item) :: rest =>
    if key = "properties" then aliasOthers localAliases aliasing rest
    else
      let (aliasedItem, aliasing) := match requiredList? key item with
        | some required => (.arr (required.map (aliasRequiredItem localAliases)), aliasing)
        | none => aliasNimSchemaPropertyNames aliasing item
      let (later, aliasing) := aliasOthers localAliases aliasing rest
      ((key, aliasedItem) :: later, aliasing)

end

/-- `_alias_nim_tool_parameters`. -/
def aliasNimToolParameters (parameters : Json) : Json × Dict String String :=
  let (aliasedParameters, aliasing) :=
    aliasNimSchemaPropertyNames isAlnum ⟨collectNimToolPropertyNames parameters, ∅, ∅⟩ parameters
  if aliasing.aliasToOriginal.entries = [] then (parameters, ∅)
  else (aliasedParameters, aliasing.aliasToOriginal)

end Schema

end NimSchema

end ClaudeProxy
