/-
**Argument names and their aliases** (`_restore_aliased_tool_argument_value`).

* `Unaliased` — no key of an object is an alias, its keys are distinct, and its values keep their names.
* `restoreFields_unaliased` — of such an object nothing is restored; `unaliased_restoreFields` — what is
  restored is one.
* **`restore_restore`** — nothing is restored twice, when no original name is an alias.
-/

import ClaudeProxy.Library.JsonSchema
import ClaudeProxy.Provider.OpenaiChat

namespace ClaudeProxy

open Json (setKey)

namespace OpenaiCall

variable {aliases : Dict String String}

/-- No original name is an alias. -/
def KeepsOriginals (aliases : Dict String String) : Prop :=
  ∀ name original, aliases.get? name = some original → aliases.get? original = none

/-- The members have distinct names, none of which is an alias, and nothing in them is restored. -/
structure Unaliased (aliases : Dict String String) (fields : List (String × Json)) : Prop where
  distinct : (fields.map Prod.fst).Nodup
  names : ∀ field ∈ fields, aliases.get? field.1 = none
  values : ∀ field ∈ fields, restoreAliasedToolArgumentValue aliases field.2 = field.2

theorem Unaliased.nil : Unaliased aliases [] :=
  ⟨List.nodup_nil, fun _ member => absurd member List.not_mem_nil,
    fun _ member => absurd member List.not_mem_nil⟩

theorem Unaliased.setKey {fields : List (String × Json)} (unaliased : Unaliased aliases fields)
    {key : String} {value : Json} (name : aliases.get? key = none)
    (kept : restoreAliasedToolArgumentValue aliases value = value) :
    Unaliased aliases (setKey fields key value) := by
  refine ⟨Assoc.nodup_set unaliased.distinct key value, fun field member => ?_, fun field member => ?_⟩
  · rcases Assoc.mem_set member with rfl | inside
    · exact name
    · exact unaliased.names field inside
  · rcases Assoc.mem_set member with rfl | inside
    · exact kept
    · exact unaliased.values field inside

/-- **Nothing is restored** of an object without aliases. -/
theorem restoreFields_unaliased {restored fields : List (String × Json)}
    (unaliased : Unaliased aliases (restored ++ fields)) :
    restoreFields aliases restored fields = restored ++ fields := by
  induction fields generalizing restored with
  | nil => rw [restoreFields, List.append_nil]
  | cons field rest ih =>
    obtain ⟨key, item⟩ := field
    have inside : (key, item) ∈ restored ++ (key, item) :: rest :=
      List.mem_append_right _ List.mem_cons_self
    have fresh : key ∉ restored.map Prod.fst := by
      intro known
      have distinct := unaliased.distinct
      rw [List.map_append, List.map_cons] at distinct
      exact (List.nodup_append.mp distinct).2.2 key known key List.mem_cons_self rfl
    have whole : Unaliased aliases ((restored ++ [(key, item)]) ++ rest) := by
      rw [List.append_assoc]
      exact unaliased
    rw [restoreFields, unaliased.names _ inside, Option.getD_none, unaliased.values _ inside,
      Json.setKey, Assoc.set_of_notMem fresh, ih whole, List.append_assoc]
    rfl

/-- What is restored of an object has no alias left, when nothing in it is restored twice. -/
theorem unaliased_restoreFields (originals : KeepsOriginals aliases) {fields : List (String × Json)}
    (below : ∀ field ∈ fields, restoreAliasedToolArgumentValue aliases
      (restoreAliasedToolArgumentValue aliases field.2) = restoreAliasedToolArgumentValue aliases field.2)
    {restored : List (String × Json)} (unaliased : Unaliased aliases restored) :
    Unaliased aliases (restoreFields aliases restored fields) := by
  induction fields generalizing restored with
  | nil => exact unaliased
  | cons field rest ih =>
    obtain ⟨key, item⟩ := field
    rw [restoreFields]
    refine ih (fun field inside => below field (List.mem_cons_of_mem _ inside))
      (unaliased.setKey ?_ (below (key, item) List.mem_cons_self))
    cases known : aliases.get? key with
    | none => exact known
    | some original => exact originals key original known

/-- **Nothing is restored twice.** -/
theorem restore_restore (originals : KeepsOriginals aliases) (value : Json) :
    restoreAliasedToolArgumentValue aliases (restoreAliasedToolArgumentValue aliases value) =
      restoreAliasedToolArgumentValue aliases value := by
  induction value using JsonSchema.induct with
  | plain value noArray noObject =>
    cases value with
    | arr items => exact absurd rfl (noArray items)
    | obj fields => exact absurd rfl (noObject fields)
    | _ => rfl
  | arr items ih =>
    rw [restoreAliasedToolArgumentValue, restoreAliasedToolArgumentValue]
    congr 1
    induction items with
    | nil => rfl
    | cons item rest below =>
      rw [restoreItems, restoreItems, ih item List.mem_cons_self,
        below fun other inside => ih other (List.mem_cons_of_mem _ inside)]
  | obj fields ih =>
    have unaliased := unaliased_restoreFields originals (fun field inside => (ih field inside).1) Unaliased.nil
    rw [restoreAliasedToolArgumentValue, restoreAliasedToolArgumentValue]
    exact congrArg Json.obj (restoreFields_unaliased unaliased)

end OpenaiCall

end ClaudeProxy
