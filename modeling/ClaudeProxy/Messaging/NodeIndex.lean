/-
**The map from node ids to trees (`TreeRepository._node_to_tree`).**

* `Directory` — the live trees by their root ids, and the owners of the registered ids.
* `Directory.Exact` — every registered id is the id or the status id of a node of the live tree it
  refers to, and every node of a live tree is registered.
* `directory_step` — what each method does to the directory; whatever only schedules or cancels
  leaves it alone.
* **`nodeIndex_exact_iff`** — a run in which new nodes have new ids keeps the map exact just as long
  as no removal takes away the node behind a registered status id, and no new tree replaces one.

`remove_branch` unregisters the ids of the removed nodes; the status ids registered for them stay.
-/

import ClaudeProxy.Messaging.Manager
import ClaudeProxy.Messaging.Rooted
import Mathlib.Logic.Function.Basic

namespace ClaudeProxy

/-- The live trees by root id, and the tree each registered id refers to. -/
@[ext] structure Directory where
  shapes : String → Option Shape
  owner : String → Option String

/-- The id of a node of the tree, or the id of its status message. -/
def Shape.Names (shape : Shape) (id : String) : Prop :=
  ∃ nodeId link, shape.linkOf nodeId = some link ∧ (id = nodeId ∨ id = link.statusMessageId)

/-- The node is in the branch of another one. -/
def Shape.InBranch (shape : Shape) (branchRootId nodeId : String) : Prop :=
  Below shape.childrenOf branchRootId nodeId

namespace Directory

/-- **The registered ids are exact.** -/
structure Exact (directory : Directory) : Prop where
  refers : ∀ id rootId, directory.owner id = some rootId →
    ∃ shape, directory.shapes rootId = some shape ∧ shape.Names id
  covers : ∀ rootId shape nodeId link, directory.shapes rootId = some shape →
    shape.linkOf nodeId = some link → directory.owner nodeId ≠ none

/-- Another tree under a root id. -/
def replace (directory : Directory) (rootId : String) (shape : Option Shape)
    (owner : String → Option String) : Directory :=
  ⟨Function.update directory.shapes rootId shape, owner⟩

variable {directory : Directory}

theorem shapes_replace_self (rootId : String) (shape : Option Shape)
    (owner : String → Option String) : (directory.replace rootId shape owner).shapes rootId = shape := by
  show Function.update directory.shapes rootId shape rootId = shape
  rw [Function.update_self]

theorem shapes_replace_ne {rootId other : String} (apart : other ≠ rootId) (shape : Option Shape)
    (owner : String → Option String) :
    (directory.replace rootId shape owner).shapes other = directory.shapes other := by
  show Function.update directory.shapes rootId shape other = _
  rw [Function.update_of_ne apart]

/-- **Exactness after one tree has changed**, tree by tree. -/
theorem exact_replace_iff (rootId : String) (shape : Option Shape) (owner : String → Option String) :
    (directory.replace rootId shape owner).Exact ↔
      (∀ id, owner id = some rootId → ∃ now, shape = some now ∧ now.Names id) ∧
      (∀ now nodeId link, shape = some now → now.linkOf nodeId = some link → owner nodeId ≠ none) ∧
      (∀ id other, other ≠ rootId → owner id = some other →
        ∃ here, directory.shapes other = some here ∧ here.Names id) ∧
      ∀ other here nodeId link, other ≠ rootId → directory.shapes other = some here →
        here.linkOf nodeId = some link → owner nodeId ≠ none := by
  constructor
  · intro exactly
    refine ⟨fun id owned => ?_, fun now nodeId link same linked => ?_, fun id other apart owned => ?_,
      fun other here nodeId link apart found linked => ?_⟩
    · obtain ⟨now, found, names⟩ := exactly.refers id rootId owned
      exact ⟨now, (shapes_replace_self rootId shape owner).symm.trans found, names⟩
    · apply exactly.covers rootId now nodeId link _ linked
      exact (shapes_replace_self rootId shape owner).trans same
    · obtain ⟨here, found, names⟩ := exactly.refers id other owned
      exact ⟨here, (shapes_replace_ne apart shape owner).symm.trans found, names⟩
    · apply exactly.covers other here nodeId link _ linked
      exact (shapes_replace_ne apart shape owner).trans found
  · rintro ⟨refersHere, coversHere, refersThere, coversThere⟩
    constructor
    · intro id other owned
      by_cases same : other = rootId
      · rw [same] at owned ⊢
        obtain ⟨now, found, names⟩ := refersHere id owned
        exact ⟨now, (shapes_replace_self rootId shape owner).trans found, names⟩
      · obtain ⟨here, found, names⟩ := refersThere id other same owned
        exact ⟨here, (shapes_replace_ne same shape owner).trans found, names⟩
    · intro other here nodeId link found linked
      by_cases same : other = rootId
      · rw [same] at found
        exact coversHere here nodeId link ((shapes_replace_self rootId shape owner).symm.trans found) linked
      · exact coversThere other here nodeId link same
          ((shapes_replace_ne same shape owner).symm.trans found) linked

/-- A registered id stays registered when another one is. -/
theorem update_ne_none {owner : String → Option String} {id rootId other : String}
    (covered : owner other ≠ none) : Function.update owner id (some rootId) other ≠ none := by
  by_cases own : other = id
  · rw [own, Function.update_self]
    exact Option.some_ne_none rootId
  · rwa [Function.update_of_ne own]

/-- **Exactness after a new tree.** -/
theorem Exact.create_iff (exactly : directory.Exact) (nodeId statusMessageId : String) :
    (directory.replace nodeId (some (MessageTree.create nodeId statusMessageId).shape)
      (Function.update directory.owner nodeId (some nodeId))).Exact ↔
      ∀ id, directory.owner id = some nodeId → id = nodeId ∨ id = statusMessageId := by
  have names (id : String) : (MessageTree.create nodeId statusMessageId).shape.Names id ↔
      id = nodeId ∨ id = statusMessageId := by
    constructor
    · rintro ⟨other, link, linked, same⟩
      rw [MessageTree.linkOf_create] at linked
      split_ifs at linked with isRoot
      obtain rfl := Option.some.inj linked
      exact same.imp_left fun own => own.trans isRoot
    · intro same
      refine ⟨nodeId, ⟨nodeId, statusMessageId, none⟩, ?_, same⟩
      rw [MessageTree.linkOf_create, if_pos rfl]
  rw [exact_replace_iff]
  constructor
  · rintro ⟨refers, -⟩ id owned
    by_cases own : id = nodeId
    · exact Or.inl own
    · obtain ⟨now, same, named⟩ := refers id ((Function.update_of_ne own _ _).trans owned)
      obtain rfl := Option.some.inj same
      exact (names id).mp named
  · intro alone
    refine ⟨fun id owned => ⟨_, rfl, (names id).mpr ?_⟩, fun now other link same linked => ?_,
      fun id other apart owned => ?_, fun other here id link apart live linked => ?_⟩
    · by_cases own : id = nodeId
      · exact Or.inl own
      · rw [Function.update_of_ne own] at owned
        exact alone id owned
    · obtain rfl := Option.some.inj same
      rw [MessageTree.linkOf_create] at linked
      split_ifs at linked with isRoot
      rw [isRoot, Function.update_self]
      exact Option.some_ne_none nodeId
    · have own : id ≠ nodeId := by
        rintro rfl
        rw [Function.update_self, Option.some.injEq] at owned
        exact apart owned.symm
      rw [Function.update_of_ne own] at owned
      exact exactly.refers id other owned
    · exact update_ne_none (exactly.covers other here id link live linked)

/-- **A new node keeps the ids exact.** -/
theorem Exact.add (exactly : directory.Exact) {rootId nodeId statusMessageId parentId : String}
    {shape : Shape} {parent : Nat} (live : directory.shapes rootId = some shape)
    (formed : shape.WellFormed) (known : shape.nodes.get? parentId = some parent)
    (fresh : shape.linkOf nodeId = none) :
    (directory.replace rootId (some (shape.add nodeId statusMessageId parentId parent))
      (Function.update directory.owner nodeId (some rootId))).Exact := by
  have linked : ∀ other, (shape.add nodeId statusMessageId parentId parent).linkOf other = _ :=
    Shape.linkOf_add formed known
  rw [exact_replace_iff]
  refine ⟨fun id owned => ⟨_, rfl, ?_⟩, fun now other link same here => ?_,
    fun id other apart owned => ?_, fun other here id link apart found there => ?_⟩
  · by_cases own : id = nodeId
    · refine ⟨nodeId, ⟨nodeId, statusMessageId, some parentId⟩, ?_, Or.inl own⟩
      rw [linked, if_pos rfl]
    · rw [Function.update_of_ne own] at owned
      obtain ⟨before, liveToo, other, link, here, same⟩ := exactly.refers id rootId owned
      obtain rfl := Option.some.inj (live.symm.trans liveToo)
      refine ⟨other, link, ?_, same⟩
      rw [linked, if_neg, here]
      rintro rfl
      rw [fresh] at here
      cases here
  · obtain rfl := Option.some.inj same
    by_cases own : other = nodeId
    · rw [own, Function.update_self]
      exact Option.some_ne_none rootId
    · rw [linked, if_neg own] at here
      exact update_ne_none (exactly.covers rootId shape other link live here)
  · have own : id ≠ nodeId := by
      rintro rfl
      rw [Function.update_self, Option.some.injEq] at owned
      exact apart owned.symm
    rw [Function.update_of_ne own] at owned
    exact exactly.refers id other owned
  · exact update_ne_none (exactly.covers other here id link found there)

/-- **A registered status id of a present node keeps the ids exact.** -/
theorem Exact.register (exactly : directory.Exact) {id rootId : String} {shape : Shape}
    (live : directory.shapes rootId = some shape) (names : shape.Names id) :
    Exact ⟨directory.shapes, Function.update directory.owner id (some rootId)⟩ := by
  constructor
  · intro other root owned
    have ownedNow : Function.update directory.owner id (some rootId) other = some root := owned
    by_cases own : other = id
    · rw [own, Function.update_self, Option.some.injEq] at ownedNow
      rw [own, ← ownedNow]
      exact ⟨shape, live, names⟩
    · rw [Function.update_of_ne own] at ownedNow
      exact exactly.refers other root ownedNow
  · intro root here nodeId link found linked
    exact update_ne_none (exactly.covers root here nodeId link found linked)

/-- Every id registered for the tree is one of those gone or names a node that stays, and no other
tree has a node whose id is gone. -/
def Clears (directory : Directory) (rootId : String) (shape : Shape) (gone : String → Prop) : Prop :=
  (∀ id, directory.owner id = some rootId → gone id ∨
    ∃ nodeId link, shape.linkOf nodeId = some link ∧ ¬ gone nodeId ∧
      (id = nodeId ∨ id = link.statusMessageId)) ∧
  ∀ other there nodeId link, other ≠ rootId → directory.shapes other = some there →
    there.linkOf nodeId = some link → ¬ gone nodeId

/-- **Exactness after nodes of a tree and the registrations of their ids are gone.** -/
theorem Exact.removal_iff (exactly : directory.Exact) {rootId : String} {shape : Shape}
    (live : directory.shapes rootId = some shape) (gone : String → Prop) [DecidablePred gone]
    {after : Option Shape} (left : ∀ nodeId link,
      (∃ now, after = some now ∧ now.linkOf nodeId = some link) ↔
        shape.linkOf nodeId = some link ∧ ¬ gone nodeId) :
    (directory.replace rootId after (fun id => if gone id then none else directory.owner id)).Exact ↔
      directory.Clears rootId shape gone := by
  rw [exact_replace_iff]
  constructor
  · rintro ⟨refers, -, -, covers⟩
    refine ⟨fun id owned => or_iff_not_imp_left.mpr fun stays => ?_,
      fun other there nodeId link apart found linked removed => ?_⟩
    · obtain ⟨now, same, nodeId, link, linked, named⟩ := refers id ((if_neg stays).trans owned)
      obtain ⟨linkedBefore, stays⟩ := (left nodeId link).mp ⟨now, same, linked⟩
      exact ⟨nodeId, link, linkedBefore, stays, named⟩
    · exact covers other there nodeId link apart found linked (if_pos removed)
  · rintro ⟨clear, apartFrom⟩
    refine ⟨fun id owned => ?_, fun now nodeId link same linked => ?_,
      fun id other apart owned => ?_, fun other here nodeId link apart found linked => ?_⟩
    · split_ifs at owned with stays
      obtain removed | ⟨nodeId, link, linked, stay, named⟩ := clear id owned
      · exact absurd removed stays
      · obtain ⟨now, same, linkedNow⟩ := (left nodeId link).mpr ⟨linked, stay⟩
        exact ⟨now, same, nodeId, link, linkedNow, named⟩
    · obtain ⟨linkedBefore, stays⟩ := (left nodeId link).mp ⟨now, same, linked⟩
      rw [if_neg stays]
      exact exactly.covers rootId shape nodeId link live linkedBefore
    · split_ifs at owned
      exact exactly.refers id other owned
    · rw [if_neg (apartFrom other here nodeId link apart found linked)]
      exact exactly.covers other here nodeId link found linked

end Directory

namespace TreeQueueManager

variable {manager next : TreeQueueManager}

/-- The shape of the tree stored under a root id. -/
def liveShape (manager : TreeQueueManager) (rootId : String) : Option Shape :=
  (manager.rootToTree.get? rootId).bind fun object => manager.trees[object]?.map MessageTree.shape

/-- The live trees and the registered ids. -/
def directory (manager : TreeQueueManager) : Directory where
  shapes := manager.liveShape
  owner := manager.nodeToTree.get?

/-- Every live tree is an object, well formed, and stored under its own root id. -/
def Sound (manager : TreeQueueManager) : Prop :=
  ∀ rootId object, manager.rootToTree.get? rootId = some object →
    ∃ shape, manager.liveShape rootId = some shape ∧ shape.rootId = rootId ∧ shape.WellFormed

theorem liveShape_of_object {rootId : String} {object : Nat}
    (stored : manager.rootToTree.get? rootId = some object) :
    manager.liveShape rootId = manager.trees[object]?.map MessageTree.shape := by
  rw [liveShape, stored, Option.bind_some]

/-- A live tree is an object of the manager. -/
theorem Sound.tree (sound : manager.Sound) {rootId : String} {object : Nat}
    (stored : manager.rootToTree.get? rootId = some object) :
    ∃ tree, manager.trees[object]? = some tree ∧ manager.liveShape rootId = some tree.shape ∧
      tree.rootId = rootId ∧ tree.shape.WellFormed := by
  obtain ⟨shape, live, rooted, formed⟩ := sound rootId object stored
  have found := live
  rw [liveShape_of_object stored, Option.map_eq_some_iff] at found
  obtain ⟨tree, here, rfl⟩ := found
  exact ⟨tree, here, live, rooted, formed⟩

/-- Two live trees are two objects. -/
theorem Sound.object_injective (sound : manager.Sound) {first second : String} {object : Nat}
    (one : manager.rootToTree.get? first = some object)
    (two : manager.rootToTree.get? second = some object) : first = second := by
  obtain ⟨tree, found, -, rfl, -⟩ := sound.tree one
  obtain ⟨other, foundToo, -, rfl, -⟩ := sound.tree two
  rw [found] at foundToo
  rw [Option.some.inj foundToo]

/-! ### Methods that leave the directory alone -/

/-- The two managers have the same live trees, up to their tasks and states, and the same ids. -/
structure SameIndex (manager next : TreeQueueManager) : Prop where
  directory : next.directory = manager.directory
  rootToTree : next.rootToTree = manager.rootToTree

theorem SameIndex.refl (manager : TreeQueueManager) : manager.SameIndex manager := ⟨rfl, rfl⟩

theorem SameIndex.trans {third : TreeQueueManager} (one : manager.SameIndex next)
    (two : next.SameIndex third) : manager.SameIndex third :=
  ⟨two.directory.trans one.directory, two.rootToTree.trans one.rootToTree⟩

theorem SameIndex.sound (same : manager.SameIndex next) (sound : manager.Sound) : next.Sound := by
  intro rootId object stored
  rw [same.rootToTree] at stored
  obtain ⟨shape, live, rest⟩ := sound rootId object stored
  refine ⟨shape, ?_, rest⟩
  exact (congrFun (congrArg Directory.shapes same.directory) rootId).trans live

/-- The live trees after a change of one object. -/
theorem liveShape_set {object : Nat} {tree moved : MessageTree}
    (found : manager.trees[object]? = some tree) (rootId : String) :
    ({ manager with trees := manager.trees.set object moved } : TreeQueueManager).liveShape rootId =
      if manager.rootToTree.get? rootId = some object then some moved.shape
      else manager.liveShape rootId := by
  rw [liveShape, liveShape]
  show (manager.rootToTree.get? rootId).bind (fun place =>
    (manager.trees.set object moved)[place]?.map MessageTree.shape) = _
  cases manager.rootToTree.get? rootId with
  | none => simp
  | some place =>
    have inside := (List.getElem?_eq_some_iff.mp found).1
    by_cases same : place = object
    · simp [same, inside]
    · simp [same, List.getElem?_set_ne (Ne.symm same)]

theorem onTree_sameIndex {object : Nat} {action : TreeAction} (quiet : action.reshapes = false)
    (stepped : manager.onTree object action = some next) : manager.SameIndex next := by
  rw [onTree] at stepped
  cases found : manager.trees[object]? with
  | none =>
    rw [found] at stepped
    cases stepped
  | some tree =>
    rw [found] at stepped
    obtain ⟨moved, treeStepped, rfl⟩ := Option.map_eq_some_iff.mp stepped
    refine ⟨Directory.ext ?_ rfl, rfl⟩
    funext rootId
    show liveShape _ rootId = manager.liveShape rootId
    rw [liveShape_set found, step_shape quiet treeStepped]
    split_ifs with stored
    · rw [liveShape_of_object stored, found, Option.map_some]
    · rfl

theorem onTreeOf_sameIndex {nodeId : String} {action : TreeAction} (quiet : action.reshapes = false)
    (stepped : manager.onTreeOf nodeId action = some next) : manager.SameIndex next := by
  rw [onTreeOf] at stepped
  split at stepped
  · obtain rfl := Option.some.inj stepped
    exact .refl _
  · exact onTree_sameIndex quiet stepped

theorem cancelTree_sameIndex {rootId : String} (stepped : manager.cancelTree rootId = some next) :
    manager.SameIndex next := by
  rw [cancelTree] at stepped
  split at stepped
  · obtain rfl := Option.some.inj stepped
    exact .refl _
  · exact onTree_sameIndex rfl stepped

theorem cancelAll_sameIndex (stepped : manager.cancelAll = some next) : manager.SameIndex next := by
  have folded (rootIds : List String) : ∀ start : TreeQueueManager,
      rootIds.foldlM cancelTree start = some next → start.SameIndex next := by
    induction rootIds with
    | nil =>
      intro start ran
      obtain rfl := Option.some.inj ran
      exact .refl _
    | cons rootId rest ih =>
      intro start ran
      rw [List.foldlM_cons] at ran
      obtain ⟨middle, cancelled, ran⟩ := Option.bind_eq_some_iff.mp ran
      exact (cancelTree_sameIndex cancelled).trans (ih middle ran)
  exact folded _ manager stepped

/-! ### Methods that change the directory -/

/-- The root id of a live tree is not empty. -/
theorem rootId_ne_empty {shape : Shape} (formed : shape.WellFormed) : shape.rootId ≠ "" := by
  obtain ⟨link, linked, -⟩ := formed.root
  obtain ⟨place, known⟩ := Shape.isSome_nodes_of_linkOf linked
  obtain ⟨-, -, -, named⟩ := formed.stored _ place known
  exact named

/-- `get_tree_for_node` finds the live tree that an id refers to. -/
theorem Sound.getTreeForNode (sound : manager.Sound) {nodeId : String} {object : Nat}
    (found : manager.getTreeForNode nodeId = some object) :
    ∃ rootId tree, manager.nodeToTree.get? nodeId = some rootId ∧
      manager.rootToTree.get? rootId = some object ∧ manager.trees[object]? = some tree ∧
      manager.liveShape rootId = some tree.shape ∧ tree.rootId = rootId ∧ tree.shape.WellFormed := by
  rw [TreeQueueManager.getTreeForNode] at found
  split at found
  · cases found
  · rename_i rootId owned
    split_ifs at found
    obtain ⟨tree, here, live, rooted, formed⟩ := sound.tree found
    exact ⟨rootId, tree, owned, found, here, live, rooted, formed⟩

/-- It finds the tree of every node. -/
theorem Sound.getTreeForNode_of_live (sound : manager.Sound) {nodeId rootId : String} {shape : Shape}
    (owned : manager.nodeToTree.get? nodeId = some rootId)
    (live : manager.liveShape rootId = some shape) :
    ∃ object tree, manager.getTreeForNode nodeId = some object ∧
      manager.rootToTree.get? rootId = some object ∧ manager.trees[object]? = some tree ∧
      shape = tree.shape := by
  obtain ⟨object, stored, -⟩ := Option.bind_eq_some_iff.mp live
  obtain ⟨tree, here, liveToo, rooted, formed⟩ := sound.tree stored
  have named : rootId ≠ "" := by
    rw [← rooted]
    exact rootId_ne_empty formed
  refine ⟨object, tree, ?_, stored, here, ?_⟩
  · rw [TreeQueueManager.getTreeForNode, owned]
    show (if rootId = "" then none else manager.rootToTree.get? rootId) = some object
    rw [if_neg named, stored]
  · rw [live] at liveToo
    exact Option.some.inj liveToo

theorem Sound.rootIdOf (sound : manager.Sound) {rootId : String} {object : Nat}
    (stored : manager.rootToTree.get? rootId = some object) : manager.rootIdOf object = rootId := by
  obtain ⟨tree, here, -, rooted, -⟩ := sound.tree stored
  rw [TreeQueueManager.rootIdOf, here, Option.map_some, Option.getD_some, rooted]

/-- **Another shape for one live tree.** -/
theorem Sound.change (sound : manager.Sound) {rootId : String} {object : Nat} {moved : MessageTree}
    (stored : manager.rootToTree.get? rootId = some object) (rooted : moved.rootId = rootId)
    (formed : moved.shape.WellFormed) (nodeToTree : Dict String String) :
    Sound ⟨manager.trees.set object moved, manager.rootToTree, nodeToTree⟩ ∧
      directory ⟨manager.trees.set object moved, manager.rootToTree, nodeToTree⟩ =
        manager.directory.replace rootId (some moved.shape) nodeToTree.get? := by
  obtain ⟨tree, found, -⟩ := sound.tree stored
  have live (other : String) :
      liveShape ⟨manager.trees.set object moved, manager.rootToTree, nodeToTree⟩ other =
        if other = rootId then some moved.shape else manager.liveShape other := by
    refine (liveShape_set found other).trans ?_
    by_cases same : other = rootId
    · rw [same, if_pos stored, if_pos rfl]
    · rw [if_neg same, if_neg fun there => same (sound.object_injective there stored)]
  constructor
  · intro other place there
    by_cases same : other = rootId
    · refine ⟨moved.shape, ?_, ?_, formed⟩
      · rw [live, if_pos same]
      · rw [same]
        exact rooted
    · obtain ⟨shape, liveThere, rest⟩ := sound other place there
      refine ⟨shape, ?_, rest⟩
      rw [live, if_neg same, liveThere]
  · refine Directory.ext ?_ rfl
    funext other
    refine (live other).trans ?_
    by_cases same : other = rootId
    · rw [if_pos same, same, Directory.shapes_replace_self]
    · rw [if_neg same, Directory.shapes_replace_ne same]
      rfl

/-- Setting a key of a dictionary, as a function. -/
theorem update_set (dict : Dict String String) (key value other : String) :
    (dict.set key value).get? other = Function.update dict.get? key (some value) other := by
  rw [Dict.get?_set, Function.update_apply]

/-- **A new tree.** -/
theorem Sound.createTree (sound : manager.Sound) {nodeId : String} (named : nodeId ≠ "")
    (statusMessageId : String) :
    (manager.createTree nodeId statusMessageId).Sound ∧
      (manager.createTree nodeId statusMessageId).directory =
        manager.directory.replace nodeId (some (MessageTree.create nodeId statusMessageId).shape)
          (Function.update manager.nodeToTree.get? nodeId (some nodeId)) := by
  have live (other : String) : (manager.createTree nodeId statusMessageId).liveShape other =
      if other = nodeId then some (MessageTree.create nodeId statusMessageId).shape
      else manager.liveShape other := by
    show ((manager.rootToTree.set nodeId manager.trees.length).get? other).bind (fun object =>
      (manager.trees ++ [MessageTree.create nodeId statusMessageId])[object]?.map MessageTree.shape) = _
    rw [Dict.get?_set]
    by_cases same : other = nodeId
    · rw [if_pos same, if_pos same, Option.bind_some, List.getElem?_concat_length]
      rfl
    · rw [if_neg same, if_neg same, liveShape]
      cases stored : manager.rootToTree.get? other with
      | none => rfl
      | some object =>
        obtain ⟨tree, found, -⟩ := sound.tree stored
        have inside := (List.getElem?_eq_some_iff.mp found).1
        rw [Option.bind_some, Option.bind_some, List.getElem?_append_left inside]
  constructor
  · intro other object stored
    by_cases same : other = nodeId
    · refine ⟨(MessageTree.create nodeId statusMessageId).shape, ?_, same.symm,
        MessageTree.wellFormed_create named⟩
      rw [live, if_pos same]
    · have storedBefore : manager.rootToTree.get? other = some object :=
        (Dict.get?_set_ne manager.rootToTree same _).symm.trans stored
      obtain ⟨shape, liveBefore, rest⟩ := sound other object storedBefore
      refine ⟨shape, ?_, rest⟩
      rw [live, if_neg same, liveBefore]
  · refine Directory.ext ?_ ?_
    · funext other
      refine (live other).trans ?_
      by_cases same : other = nodeId
      · rw [if_pos same, same, Directory.shapes_replace_self]
      · rw [if_neg same, Directory.shapes_replace_ne same]
        rfl
    · funext id
      exact update_set manager.nodeToTree nodeId nodeId id

/-- **A node more**, if its ids are new to the tree; where the call raises, nothing happens. -/
theorem Sound.addToTree (sound : manager.Sound) {parentNodeId nodeId statusMessageId : String}
    (named : nodeId ≠ "")
    (fresh : ∀ rootId shape, manager.nodeToTree.get? parentNodeId = some rootId →
      manager.liveShape rootId = some shape → ∀ other link, shape.linkOf other = some link →
        other ≠ nodeId ∧ link.statusMessageId ≠ statusMessageId) :
    manager.addToTree parentNodeId nodeId statusMessageId = manager ∨
    ∃ rootId shape parent, manager.liveShape rootId = some shape ∧ shape.WellFormed ∧
      shape.nodes.get? parentNodeId = some parent ∧ shape.linkOf nodeId = none ∧
      (manager.addToTree parentNodeId nodeId statusMessageId).Sound ∧
      (manager.addToTree parentNodeId nodeId statusMessageId).directory = manager.directory.replace
        rootId (some (shape.add nodeId statusMessageId parentNodeId parent))
        (Function.update manager.nodeToTree.get? nodeId (some rootId)) := by
  rw [TreeQueueManager.addToTree]
  cases found : manager.getTreeForNode parentNodeId with
  | none => exact Or.inl rfl
  | some object =>
    obtain ⟨rootId, tree, owned, stored, here, live, rooted, formed⟩ := sound.getTreeForNode found
    dsimp only
    rw [onTree, here]
    dsimp only
    cases added : tree.step (.addNode nodeId statusMessageId parentNodeId) with
    | none => exact Or.inl rfl
    | some moved =>
      have newHere := fresh rootId tree.shape owned live
      have absent : tree.shape.linkOf nodeId = none := by
        by_contra present
        obtain ⟨link, linked⟩ := Option.ne_none_iff_exists'.mp present
        exact (newHere nodeId link linked).1 rfl
      have newNode : tree.nodes.get? nodeId = none := by
        by_contra present
        obtain ⟨place, known⟩ := Option.ne_none_iff_exists'.mp present
        obtain ⟨link, linked, -⟩ := formed.stored nodeId place known
        exact (newHere nodeId link linked).1 rfl
      have newStatus : tree.shape.statusToNode.get? statusMessageId = none := by
        by_contra present
        obtain ⟨other, known⟩ := Option.ne_none_iff_exists'.mp present
        obtain ⟨link, linked, same⟩ := (formed.indexed statusMessageId other).mp known
        exact (newHere other link linked).2 same
      obtain ⟨parent, known, shaped⟩ := MessageTree.shape_addNode newNode added
      have rootedToo : moved.rootId = rootId := by
        have kept : moved.shape.rootId = tree.shape.rootId := by rw [shaped, Shape.add]
        exact kept.trans rooted
      have formedToo : moved.shape.WellFormed := by
        rw [shaped]
        exact formed.add known newNode newStatus named
      refine Or.inr ⟨rootId, tree.shape, parent, live, formed, known, absent, ?_⟩
      have changed := sound.change stored rootedToo formedToo
        (manager.nodeToTree.set nodeId rootId)
      rw [shaped] at changed
      show Sound ⟨manager.trees.set object moved, manager.rootToTree,
          manager.nodeToTree.set nodeId (manager.rootIdOf object)⟩ ∧
        directory ⟨manager.trees.set object moved, manager.rootToTree,
          manager.nodeToTree.set nodeId (manager.rootIdOf object)⟩ = _
      rw [sound.rootIdOf stored]
      refine ⟨changed.1, changed.2.trans ?_⟩
      congr 1
      funext id
      exact update_set manager.nodeToTree nodeId rootId id

/-- The map without the unregistered ids. -/
theorem get?_foldl_erase (ids : List String) : ∀ (dict : Dict String String) (other : String),
    (ids.foldl Dict.erase dict).get? other = if other ∈ ids then none else dict.get? other := by
  induction ids with
  | nil => simp
  | cons id rest ih =>
    intro dict other
    rw [List.foldl_cons, ih, Dict.get?_erase]
    by_cases inRest : other ∈ rest
    · simp [inRest]
    · simp [inRest]

/-- The ids that `remove_tree` unregisters are those of the tree's nodes. -/
theorem mem_nodeIds_iff {tree : MessageTree} (formed : tree.shape.WellFormed) (id : String) :
    id ∈ tree.nodes.values.filterMap (fun node => tree.heap[node]?.map MessageNode.nodeId) ↔
      tree.shape.linkOf id ≠ none := by
  have own {nodeId : String} {place : Nat} (known : tree.nodes.get? nodeId = some place) :
      tree.heap[place]?.map MessageNode.nodeId = some nodeId := by
    obtain ⟨link, linked, same, -⟩ := formed.stored nodeId place known
    obtain ⟨node, found, rfl⟩ := Shape.linkOf_eq_some_iff.mp linked
    obtain ⟨other, knownToo, here⟩ := Shape.nodeOf_eq_some_iff.mp found
    have samePlace : other = place := Option.some.inj (knownToo.symm.trans known)
    rw [samePlace, MessageTree.heap_shape, Option.map_eq_some_iff] at here
    obtain ⟨entry, stored, rfl⟩ := here
    rw [stored, Option.map_some, ← same]
    rfl
  rw [List.mem_filterMap]
  constructor
  · rintro ⟨place, inside, same⟩
    obtain ⟨nodeId, known⟩ := tree.nodes.mem_values_iff.mp inside
    rw [own known, Option.some.injEq] at same
    rw [← same]
    obtain ⟨link, linked, -⟩ := formed.stored nodeId place known
    rw [linked]
    exact Option.some_ne_none link
  · intro present
    obtain ⟨link, linked⟩ := Option.ne_none_iff_exists'.mp present
    obtain ⟨place, known⟩ := Shape.isSome_nodes_of_linkOf linked
    exact ⟨place, tree.nodes.mem_values_iff.mpr ⟨id, known⟩, own known⟩

/-- **A whole tree less.** -/
theorem Sound.removeTree (sound : manager.Sound) {rootId : String} {shape : Shape}
    (live : manager.liveShape rootId = some shape) :
    (manager.removeTree rootId).Sound ∧
      (manager.removeTree rootId).directory = manager.directory.replace rootId none
        (fun id => if shape.linkOf id ≠ none then none else manager.nodeToTree.get? id) := by
  obtain ⟨object, stored, -⟩ := Option.bind_eq_some_iff.mp live
  obtain ⟨tree, here, liveToo, -, formed⟩ := sound.tree stored
  obtain rfl := Option.some.inj (live.symm.trans liveToo)
  have removed : manager.removeTree rootId = ⟨manager.trees, manager.rootToTree.erase rootId,
      (tree.nodes.values.filterMap fun node => tree.heap[node]?.map MessageNode.nodeId).foldl
        Dict.erase manager.nodeToTree⟩ := by
    rw [TreeQueueManager.removeTree, stored]
    dsimp only
    rw [here]
    rfl
  have lives (other : String) : (manager.removeTree rootId).liveShape other =
      if other = rootId then none else manager.liveShape other := by
    rw [removed, liveShape, Dict.get?_erase]
    by_cases same : other = rootId
    · rw [if_pos same, if_pos same, Option.bind_none]
    · rw [if_neg same, if_neg same]
      rfl
  constructor
  · intro other place there
    have apart : other ≠ rootId := by
      rintro rfl
      rw [removed, Dict.get?_erase, if_pos rfl] at there
      cases there
    rw [removed, Dict.get?_erase, if_neg apart] at there
    obtain ⟨shape, liveThere, rest⟩ := sound other place there
    refine ⟨shape, ?_, rest⟩
    rw [lives, if_neg apart, liveThere]
  · refine Directory.ext ?_ ?_
    · funext other
      refine (lives other).trans ?_
      by_cases same : other = rootId
      · rw [if_pos same, same, Directory.shapes_replace_self]
      · rw [if_neg same, Directory.shapes_replace_ne same]
        rfl
    · funext id
      show (manager.removeTree rootId).nodeToTree.get? id = _
      rw [removed, get?_foldl_erase]
      exact if_congr (mem_nodeIds_iff formed id) rfl rfl

/-- **What `remove_branch` does**: nothing to an id that is no node; the whole tree of a root; else the
nodes of a branch, and their registrations. -/
theorem Sound.removeBranch (sound : manager.Sound) {fuel : Nat} {branchRootId : String}
    (stepped : manager.removeBranch fuel branchRootId = some next) :
    (manager.SameIndex next ∧ ∀ rootId shape, manager.nodeToTree.get? branchRootId = some rootId →
      manager.liveShape rootId = some shape → shape.linkOf branchRootId = none) ∨
    (∃ shape, manager.nodeToTree.get? branchRootId = some branchRootId ∧
      manager.liveShape branchRootId = some shape ∧ shape.rootId = branchRootId ∧ shape.WellFormed ∧
      next.Sound ∧ next.directory = manager.directory.replace branchRootId none
        (fun id => if shape.linkOf id ≠ none then none else manager.nodeToTree.get? id)) ∨
    ∃ rootId shape after ids parentId parent, manager.nodeToTree.get? branchRootId = some rootId ∧
      manager.liveShape rootId = some shape ∧ shape.WellFormed ∧
      shape.linkOf branchRootId ≠ none ∧ shape.nodes.get? parentId = some parent ∧
      (∀ id, id ∈ ids ↔ shape.InBranch branchRootId id) ∧
      Shape.Removed shape after ids branchRootId parent ∧
      next.Sound ∧ next.directory = manager.directory.replace rootId (some after)
        (fun id => if id ∈ ids then none else manager.nodeToTree.get? id) := by
  rw [TreeQueueManager.removeBranch] at stepped
  cases found : manager.getTreeForNode branchRootId with
  | none =>
    rw [found] at stepped
    obtain rfl := Option.some.inj stepped
    refine Or.inl ⟨.refl _, fun rootId shape owned live => ?_⟩
    obtain ⟨object, tree, here, -⟩ := sound.getTreeForNode_of_live owned live
    rw [found] at here
    cases here
  | some object =>
    rw [found] at stepped
    dsimp only at stepped
    obtain ⟨rootId, tree, owned, stored, here, live, rooted, formed⟩ := sound.getTreeForNode found
    rw [sound.rootIdOf stored] at stepped
    split_ifs at stepped with isRoot
    · subst isRoot
      obtain ⟨cancelled, ran, rfl⟩ := Option.map_eq_some_iff.mp stepped
      have same := cancelTree_sameIndex ran
      have liveThere : cancelled.liveShape branchRootId = some tree.shape :=
        (congrFun (congrArg Directory.shapes same.directory) branchRootId).trans live
      have removed := (same.sound sound).removeTree liveThere
      have owners : cancelled.nodeToTree.get? = manager.nodeToTree.get? :=
        congrArg Directory.owner same.directory
      rw [same.directory, owners] at removed
      exact Or.inr (Or.inl ⟨tree.shape, owned, live, rooted, formed, removed⟩)
    · rw [here] at stepped
      dsimp only at stepped
      have notRoot : branchRootId ≠ tree.rootId := rooted ▸ isRoot
      cases known : tree.nodes.get? branchRootId with
      | none =>
        have nothing : tree.removeBranch fuel branchRootId = some (tree, [], true) := by
          rw [MessageTree.removeBranch, known, if_pos (by rfl)]
        rw [nothing] at stepped
        obtain rfl := Option.some.inj stepped
        refine Or.inl ⟨⟨Directory.ext ?_ rfl, rfl⟩, fun other shape ownedToo liveToo => ?_⟩
        · funext other
          refine (liveShape_set here other).trans ?_
          split_ifs with there
          · rw [← live, sound.object_injective there stored]
            rfl
          · rfl
        · obtain rfl := Option.some.inj (owned.symm.trans ownedToo)
          obtain rfl := Option.some.inj (live.symm.trans liveToo)
          by_contra present
          obtain ⟨link, linked⟩ := Option.ne_none_iff_exists'.mp present
          obtain ⟨place, there⟩ := Shape.isSome_nodes_of_linkOf linked
          exact Option.some_ne_none place (there.symm.trans known)
      | some place =>
        obtain ⟨ids, visits, distinct, branch⟩ := MessageTree.exists_branch formed branchRootId
        obtain ⟨moved, parentId, parent, knownParent, isChild, gone, returns⟩ :=
          MessageTree.removeBranch_of_wellFormed formed known notRoot distinct branch
        cases removed : tree.removeBranch fuel branchRootId with
        | none =>
          rw [removed] at stepped
          cases stepped
        | some result =>
          have descends := MessageTree.getDescendants_of_removeBranch known visits removed
          rw [returns fuel descends] at stepped
          obtain rfl := Option.some.inj stepped
          have changed := sound.change stored (gone.rootId.trans rooted)
            (gone.wellFormed formed knownParent isChild branch)
            (ids.foldl Dict.erase manager.nodeToTree)
          have linked : tree.shape.linkOf branchRootId ≠ none := by
            obtain ⟨link, here, -⟩ := formed.stored branchRootId place known
            rw [here]
            exact Option.some_ne_none link
          refine Or.inr (Or.inr ⟨rootId, tree.shape, moved.shape, ids, parentId, parent, owned, live,
            formed, linked, knownParent, branch, gone, changed.1, changed.2.trans ?_⟩)
          congr 1
          funext id
          exact get?_foldl_erase ids manager.nodeToTree id

/-! ### Runs -/

/-- The registered ids are exact. -/
def IndexExact (manager : TreeQueueManager) : Prop := manager.directory.Exact

/-- New nodes have ids that are new to their tree, and an id is registered for the live tree that has a
node with this status id. -/
def FreshIds (manager : TreeQueueManager) : ManagerAction → Prop
  | .createTree nodeId _ => nodeId ≠ ""
  | .addToTree parentNodeId nodeId statusMessageId =>
    nodeId ≠ "" ∧ ∀ rootId shape, manager.nodeToTree.get? parentNodeId = some rootId →
      manager.liveShape rootId = some shape → ∀ other link, shape.linkOf other = some link →
        other ≠ nodeId ∧ link.statusMessageId ≠ statusMessageId
  | .registerNode id rootId => ∃ shape nodeId link, manager.liveShape rootId = some shape ∧
      shape.linkOf nodeId = some link ∧ link.statusMessageId = id
  | _ => True

/-- A new tree takes no root id to which other ids refer, and a removal takes away no node whose
status id stays registered, nor one whose id another tree uses too. -/
def LeavesNothing (manager : TreeQueueManager) : ManagerAction → Prop
  | .createTree nodeId statusMessageId => ∀ id, manager.nodeToTree.get? id = some nodeId →
      id = nodeId ∨ id = statusMessageId
  | .removeBranch _ branchRootId => ∀ rootId shape, manager.nodeToTree.get? branchRootId = some rootId →
      manager.liveShape rootId = some shape → shape.linkOf branchRootId ≠ none →
        manager.directory.Clears rootId shape (shape.InBranch branchRootId)
  | _ => True

theorem leavesNothing_removeBranch {fuel : Nat} {branchRootId rootId : String} {shape : Shape}
    (owned : manager.nodeToTree.get? branchRootId = some rootId)
    (live : manager.liveShape rootId = some shape) (linked : shape.linkOf branchRootId ≠ none) :
    manager.LeavesNothing (.removeBranch fuel branchRootId) ↔
      manager.directory.Clears rootId shape (shape.InBranch branchRootId) := by
  constructor
  · intro leaves
    exact leaves rootId shape owned live linked
  · intro clears other there ownedToo liveToo _
    obtain rfl := Option.some.inj (owned.symm.trans ownedToo)
    obtain rfl := Option.some.inj (live.symm.trans liveToo)
    exact clears

/-- The branch of the root is the whole tree. -/
theorem inBranch_root {shape : Shape} (formed : shape.WellFormed) :
    shape.InBranch shape.rootId = fun id => shape.linkOf id ≠ none := by
  funext id
  apply propext
  constructor
  · intro below
    obtain ⟨rootLink, rootLinked, -⟩ := formed.root
    obtain ⟨link, linked⟩ := formed.linked_of_below rootLinked below
    rw [linked]
    exact Option.some_ne_none link
  · intro present
    obtain ⟨link, linked⟩ := Option.ne_none_iff_exists'.mp present
    exact formed.below_root linked

/-- What leaves the directory alone keeps the ids as they are. -/
theorem SameIndex.keeps (same : manager.SameIndex next) (sound : manager.Sound) :
    next.Sound ∧ (manager.IndexExact → (next.IndexExact ↔ True)) := by
  refine ⟨same.sound sound, fun exactly => iff_of_true ?_ trivial⟩
  rw [IndexExact, same.directory]
  exact exactly

theorem Sound.register (sound : manager.Sound) (id rootId : String) :
    (manager.registerNode id rootId).Sound ∧ (manager.registerNode id rootId).directory =
      ⟨manager.directory.shapes, Function.update manager.directory.owner id (some rootId)⟩ := by
  refine ⟨sound, Directory.ext rfl ?_⟩
  funext other
  exact update_set manager.nodeToTree id rootId other

/-- **A removal keeps the ids exact exactly when it leaves nothing behind.** -/
theorem indexExact_removeBranch_iff (sound : manager.Sound) {fuel : Nat} {branchRootId : String}
    (stepped : manager.removeBranch fuel branchRootId = some next) :
    next.Sound ∧ (manager.IndexExact →
      (next.IndexExact ↔ manager.LeavesNothing (.removeBranch fuel branchRootId))) := by
  rcases sound.removeBranch stepped with ⟨same, noNode⟩ |
    ⟨shape, owned, live, rooted, formed, soundNext, changed⟩ |
    ⟨rootId, shape, after, ids, parentId, parent, owned, live, formed, linked, known, branch, removed,
      soundNext, changed⟩
  · obtain ⟨soundNext, keeps⟩ := same.keeps sound
    refine ⟨soundNext, fun exactly => (keeps exactly).trans (iff_of_true trivial ?_)⟩
    intro rootId shape owned live linked
    exact absurd (noNode rootId shape owned live) linked
  · refine ⟨soundNext, fun exactly => ?_⟩
    have linked : shape.linkOf branchRootId ≠ none := by
      obtain ⟨link, linked, -⟩ := formed.root
      rw [← rooted, linked]
      exact Option.some_ne_none link
    rw [leavesNothing_removeBranch owned live linked, IndexExact, changed]
    have whole := inBranch_root formed
    rw [rooted] at whole
    rw [whole]
    refine exactly.removal_iff live _ fun nodeId link => iff_of_false ?_ ?_
    · rintro ⟨now, nothing, -⟩
      cases nothing
    · rintro ⟨linked, absent⟩
      exact absent (linked ▸ Option.some_ne_none link)
  · refine ⟨soundNext, fun exactly => ?_⟩
    rw [leavesNothing_removeBranch owned live linked, IndexExact, changed]
    have same : shape.InBranch branchRootId = (· ∈ ids) := by
      funext id
      exact propext (branch id).symm
    rw [same]
    refine exactly.removal_iff live _ fun nodeId link => ?_
    simp only [Option.some.injEq, exists_eq_left', removed.linkOf formed known]
    split_ifs with gone
    · exact iff_of_false not_false fun both => both.2 gone
    · exact (and_iff_left gone).symm

/-- **One action on exact ids**: the trees stay well formed, and the ids stay exact exactly when the
action leaves nothing behind. -/
theorem indexExact_step_iff (sound : manager.Sound) {action : ManagerAction}
    (fresh : manager.FreshIds action) (stepped : manager.step action = some next) :
    next.Sound ∧ (manager.IndexExact → (next.IndexExact ↔ manager.LeavesNothing action)) := by
  cases action with
  | createTree nodeId statusMessageId =>
    obtain rfl := Option.some.inj stepped
    obtain ⟨soundNext, changed⟩ := sound.createTree fresh statusMessageId
    refine ⟨soundNext, fun exactly => ?_⟩
    rw [IndexExact, changed]
    exact exactly.create_iff nodeId statusMessageId
  | addToTree parentNodeId nodeId statusMessageId =>
    obtain rfl := Option.some.inj stepped
    obtain ⟨named, new⟩ := fresh
    rcases sound.addToTree named new with same | ⟨rootId, shape, parent, live, formed, known, absent,
      soundNext, changed⟩
    · rw [same]
      exact ⟨sound, fun exactly => iff_of_true exactly trivial⟩
    · refine ⟨soundNext, fun exactly => iff_of_true ?_ trivial⟩
      rw [IndexExact, changed]
      exact exactly.add live formed known absent
  | registerNode id rootId =>
    obtain rfl := Option.some.inj stepped
    obtain ⟨shape, nodeId, link, live, linked, same⟩ := fresh
    obtain ⟨soundNext, changed⟩ := sound.register id rootId
    refine ⟨soundNext, fun exactly => iff_of_true ?_ trivial⟩
    rw [IndexExact, changed]
    exact exactly.register live ⟨nodeId, link, linked, Or.inr same.symm⟩
  | removeBranch fuel branchRootId => exact indexExact_removeBranch_iff sound stepped
  | enqueue nodeId => exact (onTreeOf_sameIndex rfl stepped).keeps sound
  | cancelTree rootId => exact (cancelTree_sameIndex stepped).keeps sound
  | cancelNode nodeId => exact (onTreeOf_sameIndex rfl stepped).keeps sound
  | cancelBranch fuel branchRootId => exact (onTreeOf_sameIndex rfl stepped).keeps sound
  | cancelAll => exact (cancelAll_sameIndex stepped).keeps sound
  | updateState object nodeId state => exact (onTree_sameIndex rfl stepped).keeps sound
  | runTask object number outcome => exact (onTree_sameIndex rfl stepped).keeps sound

theorem sound_empty : empty.Sound ∧ empty.IndexExact := by
  refine ⟨fun rootId object stored => ?_, fun id rootId owned => ?_, fun rootId shape _ _ live => ?_⟩
  · cases stored
  · cases owned
  · cases live

/-- **The node index, exactly.** In every run of the manager whose new nodes have ids that are new to
their trees and whose registered ids are status ids of present nodes, the registered ids are exact
after every action if and only if every action leaves nothing behind. -/
theorem nodeIndex_exact_iff (actions : List ManagerAction) {last : TreeQueueManager}
    (ran : managerMachine.run empty actions = some last)
    (fresh : managerMachine.Obeys empty actions FreshIds) :
    managerMachine.Throughout empty actions IndexExact ↔
      managerMachine.Obeys empty actions LeavesNothing := by
  have exactly := @Machine.throughout_iff_obeys_of _ _ managerMachine Sound IndexExact FreshIds
    LeavesNothing empty sound_empty
    (fun _ _ _ sound fresh stepped => (indexExact_step_iff sound fresh stepped).1)
    (fun _ _ _ sound exactly fresh stepped => (indexExact_step_iff sound fresh stepped).2 exactly)
  exact (exactly actions ran fresh).2

/-- Two conversations, of which the second, whose status message was not registered, is removed. -/
def clearedSecond : List ManagerAction :=
  [.createTree "1" "s1", .registerNode "s1" "1", .createTree "2" "s2", .removeBranch 3 "2"]

theorem clearedSecond_exact :
    ∃ last, managerMachine.run empty clearedSecond = some last ∧
      managerMachine.Throughout empty clearedSecond IndexExact := by
  have one : "1" ≠ "" := by decide
  have two : "2" ≠ "" := by decide
  refine ⟨_, rfl, (nodeIndex_exact_iff clearedSecond rfl ?_).mpr ?_⟩
  · refine Machine.obeys_cons rfl one (Machine.obeys_cons rfl ?_
      (Machine.obeys_cons rfl two (Machine.obeys_cons rfl trivial Machine.obeys_nil)))
    exact ⟨_, "1", _, rfl, rfl, rfl⟩
  · refine Machine.obeys_cons rfl ?_ (Machine.obeys_cons rfl trivial (Machine.obeys_cons rfl ?_
      (Machine.obeys_cons rfl ?_ Machine.obeys_nil)))
    · intro id owned
      cases owned
    · intro id owned
      have inside : (id, "2") ∈ [("1", "1"), ("s1", "1")] := (Dict.mem_entries_iff _).mpr owned
      simp at inside
    · intro rootId shape owned live _
      obtain rfl : "2" = rootId := Option.some.inj owned
      obtain rfl : (MessageTree.create "2" "s2").shape = shape := Option.some.inj live
      refine ⟨fun id owned => ?_, fun other there nodeId link apart found linked below => ?_⟩
      · have inside : (id, "2") ∈ [("1", "1"), ("s1", "1"), ("2", "2")] :=
          (Dict.mem_entries_iff _).mpr owned
        have same : id = "2" := by simpa using inside
        exact Or.inl (same ▸ Relation.ReflTransGen.refl)
      · obtain ⟨object, stored, -⟩ := Option.bind_eq_some_iff.mp found
        have inside : (other, object) ∈ [("1", 0), ("2", 1)] := (Dict.mem_entries_iff _).mpr stored
        have same : other = "1" := by
          simp only [List.mem_cons, Prod.mk.injEq, List.not_mem_nil, or_false] at inside
          exact (inside.resolve_right fun second => apart second.1).1
        subst same
        obtain rfl : (MessageTree.create "1" "s1").shape = there := Option.some.inj found
        rw [MessageTree.linkOf_create] at linked
        split_ifs at linked with isRoot
        subst isRoot
        rcases Relation.ReflTransGen.cases_head below with same | ⟨child, isChild, -⟩
        · exact absurd same (by decide)
        · have member : child ∈ (MessageTree.create "2" "s2").shape.childrenOf "2" := isChild
          rw [MessageTree.childrenOf_create] at member
          cases member

/-- A conversation with a registered status message, removed. -/
def clearedConversation : List ManagerAction :=
  [.createTree "1" "s1", .registerNode "s1" "1", .removeBranch 3 "1"]

/-- **The status id still refers to the tree that is gone.** -/
theorem clearedConversation_leaves_status :
    ∃ last, managerMachine.run empty clearedConversation = some last ∧
      managerMachine.Obeys empty clearedConversation FreshIds ∧
      last.nodeToTree.get? "s1" = some "1" ∧ last.rootToTree.get? "1" = none ∧
      ¬ managerMachine.Throughout empty clearedConversation IndexExact := by
  have one : "1" ≠ "" := by decide
  refine ⟨_, rfl, ?_, rfl, rfl, fun always => ?_⟩
  · refine Machine.obeys_cons rfl one (Machine.obeys_cons rfl ?_
      (Machine.obeys_cons rfl trivial Machine.obeys_nil))
    exact ⟨_, "1", _, rfl, rfl, rfl⟩
  · have exactly := always clearedConversation List.prefix_rfl _ rfl
    obtain ⟨shape, live, -⟩ := exactly.refers "s1" "1" rfl
    cases live

end TreeQueueManager

end ClaudeProxy
