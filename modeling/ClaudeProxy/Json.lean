/-
**JSON values as `json.loads` returns them.**

An object is its list of members in order; a duplicate member name cannot come out of `json.loads`,
and no operation here depends on their absence. A float is kept as its literal, since no modelled
function computes with one. `getKey` is `dict.get` and `setKey` is item assignment; `asInt?` is the
test `isinstance(value, int)`, which in Python also holds of a bool.
-/

import ClaudeProxy.Library.Dict

namespace ClaudeProxy

/-- A JSON value. -/
inductive Json where
  | null
  | bool (value : Bool)
  | int (value : Int)
  | float (literal : String)
  | str (text : String)
  | arr (items : List Json)
  | obj (fields : List (String × Json))
  deriving Repr

namespace Json

mutual

/-- Equality of JSON values is decidable. -/
def decEq : (first second : Json) → Decidable (first = second)
  | .null, .null => isTrue rfl
  | .bool b, .bool b' => decidable_of_iff (b = b') (by simp)
  | .int n, .int n' => decidable_of_iff (n = n') (by simp)
  | .float l, .float l' => decidable_of_iff (l = l') (by simp)
  | .str s, .str s' => decidable_of_iff (s = s') (by simp)
  | .arr items, .arr items' =>
    @decidable_of_iff _ (items = items') (by simp) (decEqItems items items')
  | .obj fields, .obj fields' =>
    @decidable_of_iff _ (fields = fields') (by simp) (decEqFields fields fields')
  | .null, .bool _ | .null, .int _ | .null, .float _ | .null, .str _ | .null, .arr _
  | .null, .obj _ | .bool _, .null | .bool _, .int _ | .bool _, .float _ | .bool _, .str _
  | .bool _, .arr _ | .bool _, .obj _ | .int _, .null | .int _, .bool _ | .int _, .float _
  | .int _, .str _ | .int _, .arr _ | .int _, .obj _ | .float _, .null | .float _, .bool _
  | .float _, .int _ | .float _, .str _ | .float _, .arr _ | .float _, .obj _ | .str _, .null
  | .str _, .bool _ | .str _, .int _ | .str _, .float _ | .str _, .arr _ | .str _, .obj _
  | .arr _, .null | .arr _, .bool _ | .arr _, .int _ | .arr _, .float _ | .arr _, .str _
  | .arr _, .obj _ | .obj _, .null | .obj _, .bool _ | .obj _, .int _ | .obj _, .float _
  | .obj _, .str _ | .obj _, .arr _ => isFalse (by simp)

/-- Equality of item lists is decidable. -/
def decEqItems : (first second : List Json) → Decidable (first = second)
  | [], [] => isTrue rfl
  | [], _ :: _ | _ :: _, [] => isFalse (by simp)
  | item :: rest, item' :: rest' =>
    @decidable_of_iff _ (item = item' ∧ rest = rest') (by simp)
      (@instDecidableAnd _ _ (decEq item item') (decEqItems rest rest'))

/-- Equality of member lists is decidable. -/
def decEqFields : (first second : List (String × Json)) → Decidable (first = second)
  | [], [] => isTrue rfl
  | [], _ :: _ | _ :: _, [] => isFalse (by simp)
  | (key, value) :: rest, (key', value') :: rest' =>
    @decidable_of_iff _ (key = key' ∧ value = value' ∧ rest = rest') (by simp [and_assoc])
      (@instDecidableAnd _ _ _
        (@instDecidableAnd _ _ (decEq value value') (decEqFields rest rest')))

end

instance : DecidableEq Json := decEq

/-- `isinstance(value, int)`, with the integer: a bool is an int in Python. -/
def asInt? : Json → Option Int
  | .int value => some value
  | .bool value => some (if value then 1 else 0)
  | _ => none

/-- `isinstance(value, str)`, with the string. -/
def asStr? : Json → Option String
  | .str text => some text
  | _ => none

/-- `isinstance(value, dict)`, with the members. -/
def asObj? : Json → Option (List (String × Json))
  | .obj fields => some fields
  | _ => none

/-- `fields.get(key)`, where an absent key reads as `None`. -/
def getKey (fields : List (String × Json)) (key : String) : Json :=
  (Assoc.get? key fields).getD .null

/-- `fields[key] = value`. -/
def setKey (fields : List (String × Json)) (key : String) (value : Json) :
    List (String × Json) :=
  Assoc.set key value fields

@[simp] theorem getKey_setKey_self (fields : List (String × Json)) (key : String)
    (value : Json) : getKey (setKey fields key value) key = value := by
  rw [getKey, setKey, Assoc.get?_set_self, Option.getD_some]

theorem getKey_setKey_ne (fields : List (String × Json)) {key other : String}
    (different : other ≠ key) (value : Json) :
    getKey (setKey fields key value) other = getKey fields other := by
  rw [getKey, setKey, Assoc.get?_set_ne different, getKey]

end Json

end ClaudeProxy
