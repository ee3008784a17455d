/-
**A message tree is a rooted tree.**

* `Shape.nodeOf`, `Shape.childrenOf` — the node under an id, and its `children_ids`.
* `Shape.WellFormed` — parents, children and the status index agree, and a child is younger than its
  parent: the invariant.
* `MessageTree.IsRooted`, `MessageTree.Descends`, `MessageTree.Removes` — what is asked of the tree, of
  `get_descendants` and of `remove_branch`.
* **`rooted_of_reachable`** — all of it in every run that adds fresh nodes and does not remove the root.
-/

import ClaudeProxy.Library.Forest
import ClaudeProxy.Library.Transition
import ClaudeProxy.Messaging.Shape

namespace ClaudeProxy

/-! ### Nodes and children -/

/-- The ids that a node carries. -/
structure NodeLink where
  nodeId : String
  statusMessageId : String
  parentId : Option String
  deriving DecidableEq

def NodeShape.link (node : NodeShape) : NodeLink := ⟨node.nodeId, node.statusMessageId, node.parentId⟩

/-- A new node. -/
def NodeShape.leaf (nodeId statusMessageId parentId : String) : NodeShape :=
  ⟨nodeId, statusMessageId, some parentId, []⟩

/-- A node with one more child. -/
def NodeShape.withChild (childId : String) (node : NodeShape) : NodeShape :=
  { node with childrenIds := node.childrenIds ++ [childId] }

/-- A node with one child less. -/
def NodeShape.withoutChild (childId : String) (node : NodeShape) : NodeShape :=
  { node with childrenIds := node.childrenIds.filter (· ≠ childId) }

namespace Shape

/-- The node under an id. -/
def nodeOf (shape : Shape) (nodeId : String) : Option NodeShape :=
  (shape.nodes.get? nodeId).bind (shape.heap[·]?)

/-- The `children_ids` of the node under an id. -/
def childrenOf (shape : Shape) (nodeId : String) : List String :=
  ((shape.nodeOf nodeId).map NodeShape.childrenIds).getD []

/-- When the node under an id was created. -/
def ageOf (shape : Shape) (nodeId : String) : Nat := (shape.nodes.get? nodeId).getD 0

/-- The ids of the node under an id: its own, its status message's and its parent's. -/
def linkOf (shape : Shape) (nodeId : String) : Option NodeLink :=
  (shape.nodeOf nodeId).map NodeShape.link

/-- The status index has the status ids of the nodes, and no other. -/
def Indexed (shape : Shape) : Prop :=
  ∀ statusId nodeId, shape.statusToNode.get? statusId = some nodeId ↔
    ∃ link, shape.linkOf nodeId = some link ∧ link.statusMessageId = statusId

/-- **The invariant.** -/
structure WellFormed (shape : Shape) : Prop where
  stored : ∀ nodeId place, shape.nodes.get? nodeId = some place →
    ∃ link, shape.linkOf nodeId = some link ∧ link.nodeId = nodeId ∧ nodeId ≠ ""
  root : ∃ link, shape.linkOf shape.rootId = some link ∧ link.parentId = none
  parent : ∀ nodeId link, shape.linkOf nodeId = some link → nodeId ≠ shape.rootId →
    ∃ parentId, link.parentId = some parentId ∧ nodeId ∈ shape.childrenOf parentId
  distinct : ∀ nodeId, (shape.childrenOf nodeId).Nodup
  child : ∀ nodeId, ∀ childId ∈ shape.childrenOf nodeId,
    ∃ link, shape.linkOf childId = some link ∧ link.parentId = some nodeId
  younger : ∀ nodeId, ∀ childId ∈ shape.childrenOf nodeId, shape.ageOf nodeId < shape.ageOf childId
  indexed : shape.Indexed

variable {shape : Shape}

theorem nodeOf_eq_some_iff {nodeId : String} {node : NodeShape} :
    shape.nodeOf nodeId = some node ↔
      ∃ place, shape.nodes.get? nodeId = some place ∧ shape.heap[place]? = some node :=
  Option.bind_eq_some_iff

theorem linkOf_eq_some_iff {nodeId : String} {link : NodeLink} :
    shape.linkOf nodeId = some link ↔ ∃ node, shape.nodeOf nodeId = some node ∧ node.link = link :=
  Option.map_eq_some_iff

/-- Who has children is a node. -/
theorem isSome_linkOf_of_mem_childrenOf {nodeId childId : String}
    (member : childId ∈ shape.childrenOf nodeId) : ∃ link, shape.linkOf nodeId = some link := by
  rw [childrenOf] at member
  cases found : shape.nodeOf nodeId with
  | none =>
    rw [found] at member
    exact (List.not_mem_nil member).elim
  | some node => exact ⟨node.link, linkOf_eq_some_iff.mpr ⟨node, found, rfl⟩⟩

theorem isSome_nodes_of_linkOf {nodeId : String} {link : NodeLink}
    (found : shape.linkOf nodeId = some link) : ∃ place, shape.nodes.get? nodeId = some place := by
  obtain ⟨node, stored, -⟩ := linkOf_eq_some_iff.mp found
  obtain ⟨place, known, -⟩ := nodeOf_eq_some_iff.mp stored
  exact ⟨place, known⟩

namespace WellFormed

/-- Two ids do not share a place. -/
theorem place_injective (formed : shape.WellFormed) {first second : String} {place : Nat}
    (isFirst : shape.nodes.get? first = some place)
    (isSecond : shape.nodes.get? second = some place) : first = second := by
  obtain ⟨link, linked, rfl, -⟩ := formed.stored first place isFirst
  obtain ⟨other, linkedOther, rfl, -⟩ := formed.stored second place isSecond
  have same : shape.linkOf link.nodeId = shape.linkOf other.nodeId := by
    rw [linkOf, linkOf, nodeOf, nodeOf, isFirst, isSecond]
  rw [linked, linkedOther] at same
  rw [Option.some.inj same]

/-- The place of a node is in the heap. -/
theorem place_lt (formed : shape.WellFormed) {nodeId : String} {place : Nat}
    (known : shape.nodes.get? nodeId = some place) : place < shape.heap.length := by
  obtain ⟨link, linked, -, -⟩ := formed.stored nodeId place known
  obtain ⟨node, stored, -⟩ := linkOf_eq_some_iff.mp linked
  rw [nodeOf, known] at stored
  exact (List.getElem?_eq_some_iff.mp stored).1

/-- **The children form a forest**, ranked by age. -/
theorem forest (formed : shape.WellFormed) :
    IsForest shape.childrenOf shape.ageOf shape.heap.length where
  distinct := formed.distinct
  unique child first second isFirst isSecond := by
    obtain ⟨link, linked, parentFirst⟩ := formed.child first child isFirst
    obtain ⟨other, linkedOther, parentSecond⟩ := formed.child second child isSecond
    rw [linked] at linkedOther
    obtain rfl := Option.some.inj linkedOther
    rw [parentFirst] at parentSecond
    exact Option.some.inj parentSecond
  deeper := formed.younger
  bounded nodeId child isChild := by
    obtain ⟨link, linked, -⟩ := formed.child nodeId child isChild
    obtain ⟨place, known⟩ := isSome_nodes_of_linkOf linked
    rw [ageOf, known]
    exact Nat.le_of_lt (formed.place_lt known)

/-- **Every node lies below the root.** -/
theorem below_root (formed : shape.WellFormed) {nodeId : String} {link : NodeLink}
    (linked : shape.linkOf nodeId = some link) : Below shape.childrenOf shape.rootId nodeId := by
  -- The parent is older.
  induction age : shape.ageOf nodeId using Nat.strongRecOn generalizing nodeId link with
  | ind age_ ih =>
    by_cases isRoot : nodeId = shape.rootId
    · rw [isRoot]
      exact Relation.ReflTransGen.refl
    · obtain ⟨parentId, -, isChild⟩ := formed.parent nodeId link linked isRoot
      obtain ⟨parent, linkedParent⟩ := isSome_linkOf_of_mem_childrenOf isChild
      have older := formed.younger parentId nodeId isChild
      exact (ih (shape.ageOf parentId) (age ▸ older) linkedParent rfl).tail isChild

/-- What lies below a node is a node. -/
theorem linked_of_below (formed : shape.WellFormed) {top nodeId : String} {link : NodeLink}
    (linked : shape.linkOf top = some link) (below : Below shape.childrenOf top nodeId) :
    ∃ link, shape.linkOf nodeId = some link := by
  rcases Relation.ReflTransGen.cases_tail below with rfl | ⟨parentId, -, isChild⟩
  · exact ⟨link, linked⟩
  · obtain ⟨link, linked, -⟩ := formed.child parentId nodeId isChild
    exact ⟨link, linked⟩

end WellFormed

/-! ### A node more -/

/-- `add_node`, of a parent that is there. -/
def add (shape : Shape) (nodeId statusMessageId parentId : String) (parent : Nat) : Shape :=
  { shape with
    nodes := shape.nodes.set nodeId shape.heap.length
    statusToNode := shape.statusToNode.set statusMessageId nodeId
    heap := (shape.heap ++ [NodeShape.leaf nodeId statusMessageId parentId]).modify parent
      (NodeShape.withChild nodeId) }

section Add

variable {nodeId statusMessageId parentId : String} {parent : Nat}

/-- **The nodes afterwards**: the new one, and its parent with one more child. -/
theorem nodeOf_add (formed : shape.WellFormed) (known : shape.nodes.get? parentId = some parent)
    (other : String) :
    (shape.add nodeId statusMessageId parentId parent).nodeOf other =
      if other = nodeId then some (NodeShape.leaf nodeId statusMessageId parentId)
      else if other = parentId then (shape.nodeOf other).map (NodeShape.withChild nodeId)
      else shape.nodeOf other := by
  have inside := formed.place_lt known
  show ((shape.nodes.set nodeId shape.heap.length).get? other).bind (fun place =>
    ((shape.heap ++ [NodeShape.leaf nodeId statusMessageId parentId]).modify parent
      (NodeShape.withChild nodeId))[place]?) = _
  rw [Dict.get?_set]
  split_ifs with isNew isParent
  · rw [Option.bind_some, List.getElem?_modify_ne _ _ (Nat.ne_of_lt inside),
      List.getElem?_concat_length]
  · rw [isParent, known, Option.bind_some, List.getElem?_modify_eq,
      List.getElem?_append_left inside, nodeOf, known]
    rfl
  · unfold nodeOf
    cases place : shape.nodes.get? other with
    | none => rfl
    | some at_ =>
      have apart : parent ≠ at_ := fun same =>
        isParent (formed.place_injective place (same ▸ known))
      rw [Option.bind_some, Option.bind_some, List.getElem?_modify_ne _ _ apart,
        List.getElem?_append_left (formed.place_lt place)]

theorem linkOf_add (formed : shape.WellFormed) (known : shape.nodes.get? parentId = some parent)
    (other : String) :
    (shape.add nodeId statusMessageId parentId parent).linkOf other =
      if other = nodeId then some ⟨nodeId, statusMessageId, some parentId⟩
      else shape.linkOf other := by
  rw [linkOf, nodeOf_add formed known]
  split_ifs
  · rfl
  · rw [Option.map_map]
    rfl
  · rfl

theorem childrenOf_add (formed : shape.WellFormed) (known : shape.nodes.get? parentId = some parent)
    (other : String) :
    (shape.add nodeId statusMessageId parentId parent).childrenOf other =
      if other = nodeId then [] else
      if other = parentId then shape.childrenOf other ++ [nodeId] else shape.childrenOf other := by
  rw [childrenOf, nodeOf_add formed known]
  split_ifs with isNew isParent
  · rfl
  · obtain ⟨link, linked, -, -⟩ := formed.stored parentId parent known
    obtain ⟨node, found, -⟩ := linkOf_eq_some_iff.mp linked
    rw [childrenOf, isParent, found]
    rfl
  · rfl

theorem ageOf_add (other : String) :
    (shape.add nodeId statusMessageId parentId parent).ageOf other =
      if other = nodeId then shape.heap.length else shape.ageOf other := by
  show ((shape.nodes.set nodeId shape.heap.length).get? other).getD 0 = _
  rw [Dict.get?_set]
  split_ifs
  · rfl
  · rfl

/-- **A fresh node keeps the tree well formed.** -/
theorem WellFormed.add (formed : shape.WellFormed) (known : shape.nodes.get? parentId = some parent)
    (fresh : shape.nodes.get? nodeId = none) (freshStatus : shape.statusToNode.get? statusMessageId = none)
    (named : nodeId ≠ "") : (shape.add nodeId statusMessageId parentId parent).WellFormed := by
  have absent : shape.linkOf nodeId = none := by
    rw [linkOf, nodeOf, fresh]
    rfl
  have notNew {other : String} {link : NodeLink} (linked : shape.linkOf other = some link) :
      other ≠ nodeId := by
    rintro rfl
    rw [absent] at linked
    cases linked
  have grown : ∀ other, (shape.add nodeId statusMessageId parentId parent).childrenOf other = _ :=
    childrenOf_add formed known
  have linked : ∀ other, (shape.add nodeId statusMessageId parentId parent).linkOf other = _ :=
    linkOf_add formed known
  obtain ⟨parentLink, parentLinked, -, -⟩ := formed.stored parentId parent known
  have oldLink {other : String} {link : NodeLink} (old : shape.linkOf other = some link) :
      (shape.add nodeId statusMessageId parentId parent).linkOf other = some link := by
    rw [linked, if_neg (notNew old)]
    exact old
  have oldChild {other child : String} (isChild : child ∈ shape.childrenOf other) :
      child ∈ (shape.add nodeId statusMessageId parentId parent).childrenOf other := by
    obtain ⟨link, old⟩ := isSome_linkOf_of_mem_childrenOf isChild
    rw [grown, if_neg (notNew old)]
    split_ifs
    · exact List.mem_append_left _ isChild
    · exact isChild
  have newChild : nodeId ∈ (shape.add nodeId statusMessageId parentId parent).childrenOf parentId := by
    rw [grown, if_neg (notNew parentLinked), if_pos rfl]
    exact List.mem_append_right _ List.mem_cons_self
  have isChild_cases {other child : String}
      (isChild : child ∈ (shape.add nodeId statusMessageId parentId parent).childrenOf other) :
      child ∈ shape.childrenOf other ∨ other = parentId ∧ child = nodeId := by
    rw [grown] at isChild
    split_ifs at isChild with isNew isParent
    · exact (List.not_mem_nil isChild).elim
    · rcases List.mem_append.mp isChild with old | new
      · exact Or.inl old
      · exact Or.inr ⟨isParent, List.mem_singleton.mp new⟩
    · exact Or.inl isChild
  refine ⟨?_, ?_, ?_, ?_, ?_, ?_, ?_⟩
  · intro other place found
    rw [linked]
    by_cases isNew : other = nodeId
    · rw [if_pos isNew, isNew]
      exact ⟨_, rfl, rfl, named⟩
    · rw [if_neg isNew]
      apply formed.stored other place
      rwa [show (shape.add nodeId statusMessageId parentId parent).nodes =
        shape.nodes.set nodeId shape.heap.length from rfl, Dict.get?_set_ne _ isNew] at found
  · obtain ⟨link, rootLinked, top⟩ := formed.root
    exact ⟨link, oldLink rootLinked, top⟩
  · intro other link found notRoot
    rw [linked] at found
    split_ifs at found with isNew
    · obtain rfl := Option.some.inj found
      rw [isNew]
      exact ⟨parentId, rfl, newChild⟩
    · obtain ⟨id, isParent, isChild⟩ := formed.parent other link found notRoot
      exact ⟨id, isParent, oldChild isChild⟩
  · intro other
    rw [grown]
    split_ifs
    · exact List.nodup_nil
    · refine List.nodup_append.mpr ⟨formed.distinct other, List.nodup_singleton _, ?_⟩
      rintro child isChild _ last rfl
      obtain ⟨link, childLinked, -⟩ := formed.child other child isChild
      exact notNew childLinked (List.mem_singleton.mp last)
    · exact formed.distinct other
  · intro other child isChild
    rcases isChild_cases isChild with old | ⟨rfl, rfl⟩
    · obtain ⟨link, childLinked, isParent⟩ := formed.child other child old
      exact ⟨link, oldLink childLinked, isParent⟩
    · rw [linked, if_pos rfl]
      exact ⟨_, rfl, rfl⟩
  · intro other child isChild
    rw [ageOf_add, ageOf_add]
    rcases isChild_cases isChild with old | ⟨rfl, rfl⟩
    · obtain ⟨link, childLinked, -⟩ := formed.child other child old
      obtain ⟨otherLink, otherLinked⟩ := isSome_linkOf_of_mem_childrenOf old
      rw [if_neg (notNew otherLinked), if_neg (notNew childLinked)]
      exact formed.younger other child old
    · rw [if_neg (notNew parentLinked), if_pos rfl, ageOf, known]
      exact formed.place_lt known
  · intro statusId other
    rw [show (shape.add nodeId statusMessageId parentId parent).statusToNode =
      shape.statusToNode.set statusMessageId nodeId from rfl, Dict.get?_set, linked]
    split_ifs with isNewStatus isNew isNew
    · rw [isNew, isNewStatus]
      exact iff_of_true rfl ⟨_, rfl, rfl⟩
    · refine iff_of_false (fun same => isNew (Option.some.inj same).symm) ?_
      intro old
      rw [← formed.indexed, isNewStatus, freshStatus] at old
      cases old
    · refine iff_of_false (fun old => ?_) ?_
      · obtain ⟨link, oldLinked, -⟩ := (formed.indexed statusId other).mp old
        exact notNew oldLinked isNew
      · rintro ⟨link, here, same⟩
        obtain rfl := Option.some.inj here
        exact isNewStatus same.symm
    · exact formed.indexed statusId other

end Add

/-! ### A branch less -/

/-- The ids of a branch are removed, and its root leaves its parent's children. -/
structure Removed (shape next : Shape) (ids : List String) (nodeId : String) (parent : Nat) : Prop where
  rootId : next.rootId = shape.rootId
  nodes : ∀ other, next.nodes.get? other = if other ∈ ids then none else shape.nodes.get? other
  statusToNode : ∀ statusId,
    next.statusToNode.get? statusId = (shape.statusToNode.get? statusId).filter (· ∉ ids)
  heap : next.heap = shape.heap.modify parent (NodeShape.withoutChild nodeId)

namespace Removed

variable {next : Shape} {ids : List String} {nodeId parentId : String} {parent : Nat}

/-- **The nodes afterwards.** -/
theorem nodeOf (formed : shape.WellFormed) (known : shape.nodes.get? parentId = some parent)
    (removed : Removed shape next ids nodeId parent) (other : String) :
    next.nodeOf other = if other ∈ ids then none
      else if other = parentId then (shape.nodeOf other).map (NodeShape.withoutChild nodeId)
      else shape.nodeOf other := by
  rw [Shape.nodeOf, removed.nodes, removed.heap]
  split_ifs with gone isParent
  · rfl
  · rw [isParent, Shape.nodeOf, known, Option.bind_some, Option.bind_some, List.getElem?_modify_eq]
    rfl
  · unfold Shape.nodeOf
    cases place : shape.nodes.get? other with
    | none => rfl
    | some at_ =>
      have apart : parent ≠ at_ := fun same =>
        isParent (formed.place_injective place (same ▸ known))
      rw [Option.bind_some, Option.bind_some, List.getElem?_modify_ne _ _ apart]

theorem linkOf (formed : shape.WellFormed) (known : shape.nodes.get? parentId = some parent)
    (removed : Removed shape next ids nodeId parent) (other : String) :
    next.linkOf other = if other ∈ ids then none else shape.linkOf other := by
  rw [Shape.linkOf, removed.nodeOf formed known]
  split_ifs
  · rfl
  · rw [Option.map_map]
    rfl
  · rfl

/-- The root of the branch is a child of its parent only. -/
theorem childrenOf (formed : shape.WellFormed) (known : shape.nodes.get? parentId = some parent)
    (isChild : nodeId ∈ shape.childrenOf parentId) (removed : Removed shape next ids nodeId parent)
    (other : String) : next.childrenOf other =
      if other ∈ ids then [] else (shape.childrenOf other).filter (· ≠ nodeId) := by
  rw [Shape.childrenOf, removed.nodeOf formed known]
  split_ifs with gone isParent
  · rfl
  · rw [Shape.childrenOf]
    cases shape.nodeOf other with
    | none => rfl
    | some node => rfl
  · refine (List.filter_eq_self.mpr fun child member => ?_).symm
    rw [decide_eq_true_iff]
    rintro rfl
    exact isParent (formed.forest.unique child other parentId member isChild)

theorem ageOf (removed : Removed shape next ids nodeId parent) {other : String} (stays : other ∉ ids) :
    next.ageOf other = shape.ageOf other := by
  rw [Shape.ageOf, removed.nodes, if_neg stays]
  rfl

/-- **A branch less keeps the tree well formed.** -/
theorem wellFormed (formed : shape.WellFormed) (known : shape.nodes.get? parentId = some parent)
    (isChild : nodeId ∈ shape.childrenOf parentId)
    (branch : ∀ other, other ∈ ids ↔ Below shape.childrenOf nodeId other)
    (removed : Removed shape next ids nodeId parent) : next.WellFormed := by
  have linked := removed.linkOf formed known
  have shrunk := removed.childrenOf formed known isChild
  have rootStays : shape.rootId ∉ ids := by
    intro gone
    obtain ⟨link, rootLinked, top⟩ := formed.root
    have noParent {other : String} (member : shape.rootId ∈ shape.childrenOf other) : False := by
      obtain ⟨same, sameLinked, isParent⟩ := formed.child other _ member
      rw [rootLinked] at sameLinked
      rw [← Option.some.inj sameLinked, top] at isParent
      cases isParent
    rcases Relation.ReflTransGen.cases_tail ((branch _).mp gone) with same | ⟨other, -, member⟩
    · exact noParent (same ▸ isChild)
    · exact noParent member
  have childStays {other child : String} (stays : other ∉ ids) (member : child ∈ shape.childrenOf other)
      (different : child ≠ nodeId) : child ∉ ids := by
    intro gone
    rcases Relation.ReflTransGen.cases_tail ((branch _).mp gone) with same | ⟨above, below, isChild⟩
    · exact different same
    · obtain rfl := formed.forest.unique child above other isChild member
      exact stays ((branch _).mpr below)
  have parentStays {other child : String} (stays : child ∉ ids) (member : child ∈ shape.childrenOf other) :
      other ∉ ids :=
    fun gone => stays ((branch _).mpr (((branch _).mp gone).tail member))
  have notBranch {other : String} (stays : other ∉ ids) : other ≠ nodeId := by
    rintro rfl
    exact stays ((branch _).mpr Relation.ReflTransGen.refl)
  have isChild_iff {other child : String} : child ∈ next.childrenOf other ↔
      other ∉ ids ∧ child ∉ ids ∧ child ∈ shape.childrenOf other := by
    rw [shrunk]
    split_ifs with gone
    · exact iff_of_false List.not_mem_nil fun stays => stays.1 gone
    · rw [List.mem_filter, decide_eq_true_iff]
      constructor
      · rintro ⟨member, different⟩
        exact ⟨gone, childStays gone member different, member⟩
      · rintro ⟨-, stays, member⟩
        exact ⟨member, notBranch stays⟩
  refine ⟨?_, ?_, ?_, ?_, ?_, ?_, ?_⟩
  · intro other place found
    rw [removed.nodes] at found
    rw [linked]
    split_ifs at found ⊢
    exact formed.stored other place found
  · rw [removed.rootId, linked, if_neg rootStays]
    exact formed.root
  · intro other link found notRoot
    rw [linked] at found
    split_ifs at found with stays
    rw [removed.rootId] at notRoot
    obtain ⟨id, isParent, member⟩ := formed.parent other link found notRoot
    exact ⟨id, isParent, isChild_iff.mpr ⟨parentStays stays member, stays, member⟩⟩
  · intro other
    rw [shrunk]
    split_ifs
    · exact List.nodup_nil
    · exact (formed.distinct other).filter _
  · intro other child member
    obtain ⟨-, stays, member⟩ := isChild_iff.mp member
    rw [linked, if_neg stays]
    exact formed.child other child member
  · intro other child member
    obtain ⟨otherStays, stays, member⟩ := isChild_iff.mp member
    rw [removed.ageOf otherStays, removed.ageOf stays]
    exact formed.younger other child member
  · intro statusId other
    rw [removed.statusToNode, linked, Option.filter_eq_some_iff, formed.indexed, decide_eq_true_iff]
    split_ifs with gone
    · refine iff_of_false (fun both => both.2 gone) ?_
      rintro ⟨link, none_, -⟩
      cases none_
    · exact and_iff_left gone

end Removed

end Shape

namespace MessageTree

variable {tree next : MessageTree}

/-! ### The methods on the shape -/

theorem heap_shape (place : Nat) :
    tree.shape.heap[place]? = tree.heap[place]?.map MessageNode.shape :=
  List.getElem?_map

/-- `add_node` of a fresh node. -/
theorem shape_addNode {nodeId statusMessageId parentId : String}
    (fresh : tree.nodes.get? nodeId = none)
    (added : tree.addNode nodeId statusMessageId parentId = some next) :
    ∃ parent, tree.shape.nodes.get? parentId = some parent ∧
      next.shape = tree.shape.add nodeId statusMessageId parentId parent := by
  rw [addNode] at added
  split_ifs at added with absent
  obtain rfl := Option.some.inj added
  obtain ⟨parent, known⟩ : ∃ parent, tree.nodes.get? parentId = some parent :=
    Option.ne_none_iff_exists'.mp fun none_ => absent (by rw [none_]; rfl)
  have different : parentId ≠ nodeId := by
    rintro rfl
    rw [fresh] at known
    cases known
  have length : tree.shape.heap.length = tree.heap.length := List.length_map _
  refine ⟨parent, known, Shape.ext rfl ?_ ?_ rfl⟩
  · show (List.modify _ _ _).map MessageNode.shape = List.modify _ _ _
    rw [Dict.get?_set_ne _ different, known, Option.getD_some]
    refine (map_modify (NodeShape.withChild nodeId) fun entry => ?_).trans ?_
    · rfl
    · rw [List.map_append]
      rfl
  · show tree.nodes.set nodeId tree.heap.length = tree.nodes.set nodeId tree.shape.heap.length
    rw [length]

/-- One round of `get_descendants`. -/
theorem descendantsLoop_cons (fuel : Nat) (nodeId : String) (stack result : List String) :
    tree.descendantsLoop (fuel + 1) (nodeId :: stack) result =
      tree.descendantsLoop fuel ((tree.shape.childrenOf nodeId).reverse ++ stack)
        (result ++ [nodeId]) := by
  have nodes : tree.shape.nodes = tree.nodes := rfl
  rw [descendantsLoop, Shape.childrenOf, Shape.nodeOf, nodes]
  cases tree.nodes.get? nodeId with
  | none => rfl
  | some node =>
    rw [Option.bind_some, heap_shape, Option.map_map]
    rfl

/-- **The loop of `get_descendants`** returns what the stack visits. -/
theorem descendantsLoop_of_visits {stack visited : List String}
    (visits : Visits tree.shape.childrenOf stack visited) :
    ∀ fuel, visited.length ≤ fuel → ∀ result,
      tree.descendantsLoop fuel stack result = some (result ++ visited) := by
  induction visits with
  | nil =>
    intro fuel _ result
    rw [descendantsLoop, List.append_nil]
  | @cons node stack visited _ ih =>
    intro fuel enough result
    cases fuel with
    | zero => cases enough
    | succ fuel =>
      rw [descendantsLoop_cons, ih fuel (Nat.le_of_succ_le_succ enough), List.append_assoc]
      rfl

/-- `get_parent` of a node that is not the root. -/
theorem getParent_eq (formed : tree.shape.WellFormed) {nodeId parentId : String} {link : NodeLink}
    (linked : tree.shape.linkOf nodeId = some link) (isParent : link.parentId = some parentId)
    {parent : Nat} (known : tree.nodes.get? parentId = some parent) :
    tree.getParent nodeId = some parent := by
  obtain ⟨-, -, -, named⟩ := formed.stored parentId parent known
  obtain ⟨node, found, rfl⟩ := Shape.linkOf_eq_some_iff.mp linked
  obtain ⟨place, placed, stored⟩ := Shape.nodeOf_eq_some_iff.mp found
  rw [heap_shape, Option.map_eq_some_iff] at stored
  obtain ⟨entry, here, rfl⟩ := stored
  have entryParent : entry.parentId = some parentId := isParent
  have placedHere : tree.nodes.get? nodeId = some place := placed
  rw [getParent, placedHere]
  show (tree.heap[place]?.bind fun entry => _) = _
  rw [here, Option.bind_some, entryParent]
  show (if parentId = "" then none else tree.nodes.get? parentId) = some parent
  rw [if_neg named, known]

/-- It returns nothing else. -/
theorem descendantsLoop_eq {stack visited : List String}
    (visits : Visits tree.shape.childrenOf stack visited) :
    ∀ {fuel result returned}, tree.descendantsLoop fuel stack result = some returned →
      returned = result ++ visited := by
  induction visits with
  | nil =>
    intro fuel result returned returns
    rw [descendantsLoop] at returns
    rw [List.append_nil]
    exact (Option.some.inj returns).symm
  | @cons node stack visited _ ih =>
    intro fuel result returned returns
    cases fuel with
    | zero => cases returns
    | succ fuel =>
      rw [descendantsLoop_cons] at returns
      rw [ih returns, List.append_assoc]
      rfl

/-! ### Removal -/

/-- The ids are gone from both maps. -/
structure Pruned (shape next : Shape) (ids : List String) : Prop where
  rootId : next.rootId = shape.rootId
  nodes : ∀ other, next.nodes.get? other = if other ∈ ids then none else shape.nodes.get? other
  statusToNode : ∀ statusId,
    next.statusToNode.get? statusId = (shape.statusToNode.get? statusId).filter (· ∉ ids)
  heap : next.heap = shape.heap

/-- One node of the branch is deleted. -/
theorem Pruned.single {shape next : Shape} {nodeId : String} {link : NodeLink} (indexed : shape.Indexed)
    (linked : shape.linkOf nodeId = some link)
    (same : next = { shape with
      nodes := shape.nodes.erase nodeId
      statusToNode := shape.statusToNode.erase link.statusMessageId }) :
    Pruned shape next [nodeId] ∧ next.Indexed ∧
      ∀ other, other ≠ nodeId → next.linkOf other = shape.linkOf other := by
  have nodes (other : String) : next.nodes.get? other =
      if other = nodeId then none else shape.nodes.get? other := by
    rw [same, Dict.get?_erase]
  have links (other : String) (different : other ≠ nodeId) : next.linkOf other = shape.linkOf other := by
    rw [Shape.linkOf, Shape.linkOf, Shape.nodeOf, nodes, if_neg different, same]
    rfl
  have absent : next.linkOf nodeId = none := by
    rw [Shape.linkOf, Shape.nodeOf, nodes, if_pos rfl]
    rfl
  have here := (indexed link.statusMessageId nodeId).mpr ⟨link, linked, rfl⟩
  have status (statusId : String) : next.statusToNode.get? statusId =
      if statusId = link.statusMessageId then none else shape.statusToNode.get? statusId := by
    rw [same, Dict.get?_erase]
  refine ⟨⟨by rw [same], fun other => ?_, fun statusId => ?_, by rw [same]⟩, ?_, links⟩
  · rw [nodes]
    simp only [List.mem_singleton]
  · rw [status]
    split_ifs with isOwn
    · rw [isOwn, here, Option.filter_some, if_neg (by simp)]
    · cases owner : shape.statusToNode.get? statusId with
      | none => rfl
      | some other =>
        have different : other ≠ nodeId := by
          rintro rfl
          obtain ⟨own, ownLinked, rfl⟩ := (indexed statusId other).mp owner
          rw [linked] at ownLinked
          exact isOwn (by rw [Option.some.inj ownLinked])
        rw [Option.filter_some, if_pos (by simpa using different)]
  · intro statusId other
    rw [status]
    by_cases isOwn : statusId = link.statusMessageId
    · rw [if_pos isOwn]
      refine iff_of_false (fun none_ => by cases none_) ?_
      rintro ⟨own, ownLinked, rfl⟩
      by_cases different : other = nodeId
      · rw [different, absent] at ownLinked
        cases ownLinked
      · rw [links other different] at ownLinked
        have owner := (indexed own.statusMessageId other).mpr ⟨own, ownLinked, rfl⟩
        rw [isOwn, here] at owner
        exact different (Option.some.inj owner).symm
    · rw [if_neg isOwn, indexed]
      by_cases different : other = nodeId
      · rw [different, absent, linked]
        refine iff_of_false ?_ ?_
        · rintro ⟨own, ownLinked, rfl⟩
          exact isOwn (by rw [Option.some.inj ownLinked])
        · rintro ⟨own, none_, -⟩
          cases none_
      · rw [links other different]

theorem Pruned.trans {first second third : Shape} {nodeId : String} {rest : List String}
    (one : Pruned first second [nodeId]) (two : Pruned second third rest) :
    Pruned first third (nodeId :: rest) where
  rootId := two.rootId.trans one.rootId
  nodes other := by
    rw [two.nodes, one.nodes]
    simp only [List.mem_cons, List.not_mem_nil, or_false]
    by_cases isHead : other = nodeId
    · simp [isHead]
    · simp [isHead]
  statusToNode statusId := by
    rw [two.statusToNode, one.statusToNode, Option.filter_filter]
    congr 1
    funext other
    simp [not_or]
  heap := two.heap.trans one.heap

/-- **The deletions of `remove_branch`** all succeed. -/
theorem removeNodes_pruned (ids : List String) : ∀ {tree : MessageTree}, tree.shape.Indexed → ids.Nodup →
    (∀ nodeId ∈ ids, ∃ link, tree.shape.linkOf nodeId = some link) →
    (tree.removeNodes ids).2 = (ids, true) ∧ Pruned tree.shape (tree.removeNodes ids).1.shape ids := by
  induction ids with
  | nil =>
    intro tree _ _ _
    refine ⟨rfl, rfl, fun other => rfl, fun statusId => ?_, rfl⟩
    cases owner : tree.shape.statusToNode.get? statusId with
    | none => exact owner
    | some other =>
      rw [Option.filter_some, if_pos (by simp)]
      exact owner
  | cons nodeId rest ih =>
    intro tree indexed distinct present
    obtain ⟨notLater, restDistinct⟩ := List.nodup_cons.mp distinct
    obtain ⟨⟨link, linked⟩, restPresent⟩ := List.forall_mem_cons.mp present
    obtain ⟨node, found, rfl⟩ := Shape.linkOf_eq_some_iff.mp linked
    obtain ⟨place, placed, stored⟩ := Shape.nodeOf_eq_some_iff.mp found
    rw [heap_shape, Option.map_eq_some_iff] at stored
    obtain ⟨entry, here, rfl⟩ := stored
    have placedHere : tree.nodes.get? nodeId = some place := placed
    have owner : tree.statusToNode.get? entry.statusMessageId = some nodeId :=
      (indexed entry.statusMessageId nodeId).mpr ⟨_, linked, rfl⟩
    let dropped : MessageTree := { tree with
      nodes := tree.nodes.erase nodeId
      statusToNode := tree.statusToNode.erase entry.statusMessageId }
    obtain ⟨single, indexedNext, links⟩ :=
      @Pruned.single _ dropped.shape _ _ indexed linked (Shape.ext rfl rfl rfl rfl)
    obtain ⟨all, later⟩ := ih indexedNext restDistinct fun other member => by
      rw [links other fun same => notLater (same ▸ member)]
      exact restPresent other member
    have unfolded : tree.removeNodes (nodeId :: rest) =
        ((dropped.removeNodes rest).1, nodeId :: (dropped.removeNodes rest).2.1,
          (dropped.removeNodes rest).2.2) := by
      rw [removeNodes, placedHere]
      dsimp only
      rw [here, Option.map_some, Option.getD_some, owner, if_neg (by simp)]
    rw [unfolded, all]
    exact ⟨rfl, single.trans later⟩

/-! ### What is asked -/

/-- **The nodes form a rooted tree.** -/
structure IsRooted (tree : MessageTree) : Prop where
  stored : ∀ nodeId place, tree.nodes.get? nodeId = some place →
    ∃ link, tree.shape.linkOf nodeId = some link ∧ link.nodeId = nodeId
  root : ∃ link, tree.shape.linkOf tree.rootId = some link ∧ link.parentId = none
  parent : ∀ nodeId link, tree.shape.linkOf nodeId = some link → nodeId ≠ tree.rootId →
    ∃ parentId, link.parentId = some parentId ∧ (tree.nodes.get? parentId).isSome = true ∧
      (tree.shape.childrenOf parentId).count nodeId = 1 ∧
      ∀ other, nodeId ∈ tree.shape.childrenOf other → other = parentId
  child : ∀ nodeId, ∀ childId ∈ tree.shape.childrenOf nodeId,
    ∃ link, tree.shape.linkOf childId = some link ∧ link.parentId = some nodeId
  connected : ∀ nodeId link, tree.shape.linkOf nodeId = some link →
    Below tree.shape.childrenOf tree.rootId nodeId
  acyclic : ∀ nodeId, ∀ childId ∈ tree.shape.childrenOf nodeId,
    ¬ Below tree.shape.childrenOf childId nodeId
  indexed : ∀ statusId nodeId, tree.statusToNode.get? statusId = some nodeId ↔
    ∃ link, tree.shape.linkOf nodeId = some link ∧ link.statusMessageId = statusId

/-- **`get_descendants`** of a node returns, and lists each node of the subtree once. -/
def Descends (tree : MessageTree) (nodeId : String) : Prop :=
  ∃ enough ids, (∀ fuel, enough ≤ fuel → tree.getDescendants fuel nodeId = some ids) ∧ ids.Nodup ∧
    ∀ other, other ∈ ids ↔ Below tree.shape.childrenOf nodeId other

/-- **`remove_branch`** of a node returns, and removes exactly the subtree: its nodes and their status
ids are gone, the other nodes keep their places and ids, and their children apart from that node. -/
def Removes (tree : MessageTree) (nodeId : String) : Prop :=
  ∃ enough next ids, (∀ fuel, enough ≤ fuel → tree.removeBranch fuel nodeId = some (next, ids, true)) ∧
    ids.Nodup ∧ (∀ other, other ∈ ids ↔ Below tree.shape.childrenOf nodeId other) ∧
    (∀ other, next.nodes.get? other = if other ∈ ids then none else tree.nodes.get? other) ∧
    (∀ statusId, next.statusToNode.get? statusId =
      (tree.statusToNode.get? statusId).filter (· ∉ ids)) ∧
    ∀ other, other ∉ ids → next.shape.linkOf other = tree.shape.linkOf other ∧
      next.shape.childrenOf other = (tree.shape.childrenOf other).filter (· ≠ nodeId)

theorem isRooted_of_wellFormed (formed : tree.shape.WellFormed) : tree.IsRooted where
  stored nodeId place known := by
    obtain ⟨link, linked, own, -⟩ := formed.stored nodeId place known
    exact ⟨link, linked, own⟩
  root := formed.root
  parent nodeId link linked notRoot := by
    obtain ⟨parentId, isParent, isChild⟩ := formed.parent nodeId link linked notRoot
    obtain ⟨parentLink, parentLinked⟩ := Shape.isSome_linkOf_of_mem_childrenOf isChild
    obtain ⟨place, known⟩ := Shape.isSome_nodes_of_linkOf parentLinked
    refine ⟨parentId, isParent, Option.isSome_iff_exists.mpr ⟨place, known⟩, ?_, ?_⟩
    · exact List.count_eq_one_of_mem (formed.distinct parentId) isChild
    · intro other isOther
      exact formed.forest.unique nodeId other parentId isOther isChild
  child := formed.child
  connected _ _ := formed.below_root
  acyclic _ _ := formed.forest.not_below
  indexed := formed.indexed

/-- The subtree of a node. -/
theorem exists_branch (formed : tree.shape.WellFormed) (nodeId : String) :
    ∃ ids, Visits tree.shape.childrenOf [nodeId] ids ∧ ids.Nodup ∧
      ∀ other, other ∈ ids ↔ Below tree.shape.childrenOf nodeId other := by
  obtain ⟨ids, visits⟩ := formed.forest.visits nodeId
  refine ⟨ids, visits, formed.forest.nodup visits (List.pairwise_singleton _ _), fun other => ?_⟩
  rw [visits.mem_iff]
  simp only [List.mem_singleton, exists_eq_left]

theorem getDescendants_of_visits {nodeId : String} {place : Nat}
    (known : tree.nodes.get? nodeId = some place) {ids : List String}
    (visits : Visits tree.shape.childrenOf [nodeId] ids) (fuel : Nat) (enough : ids.length ≤ fuel) :
    tree.getDescendants fuel nodeId = some ids := by
  rw [getDescendants, known, if_neg (by simp), descendantsLoop_of_visits visits fuel enough,
    List.nil_append]

theorem descends_of_wellFormed (formed : tree.shape.WellFormed) {nodeId : String} {place : Nat}
    (known : tree.nodes.get? nodeId = some place) : tree.Descends nodeId := by
  obtain ⟨ids, visits, distinct, branch⟩ := exists_branch formed nodeId
  exact ⟨ids.length, ids, getDescendants_of_visits known visits, distinct, branch⟩

/-- **What `remove_branch` does** to a node that is not the root, once it has the descendants. -/
theorem removeBranch_of_wellFormed (formed : tree.shape.WellFormed) {nodeId : String} {place : Nat}
    (known : tree.nodes.get? nodeId = some place) (notRoot : nodeId ≠ tree.rootId) {ids : List String}
    (distinct : ids.Nodup) (branch : ∀ other, other ∈ ids ↔ Below tree.shape.childrenOf nodeId other) :
    ∃ next parentId parent, tree.shape.nodes.get? parentId = some parent ∧
      nodeId ∈ tree.shape.childrenOf parentId ∧
      Shape.Removed tree.shape (MessageTree.shape next) ids nodeId parent ∧
      ∀ fuel, tree.getDescendants fuel nodeId = some ids →
        tree.removeBranch fuel nodeId = some (next, ids, true) := by
  obtain ⟨link, linked, -, -⟩ := formed.stored nodeId place known
  obtain ⟨parentId, isParent, isChild⟩ := formed.parent nodeId link linked notRoot
  obtain ⟨parentLink, parentLinked⟩ := Shape.isSome_linkOf_of_mem_childrenOf isChild
  obtain ⟨parent, knownParent⟩ := Shape.isSome_nodes_of_linkOf parentLinked
  obtain ⟨all, pruned⟩ := removeNodes_pruned ids formed.indexed distinct fun other member =>
    formed.linked_of_below linked ((branch other).mp member)
  let next : MessageTree := { (tree.removeNodes ids).1 with
    heap := (tree.removeNodes ids).1.heap.modify parent fun entry =>
      { entry with childrenIds := entry.childrenIds.filter (· ≠ nodeId) } }
  refine ⟨next, parentId, parent, knownParent, isChild, ?_, fun fuel found => ?_⟩
  · refine ⟨pruned.rootId, pruned.nodes, pruned.statusToNode, ?_⟩
    rw [← pruned.heap]
    show ((tree.removeNodes ids).1.heap.modify parent _).map MessageNode.shape =
      ((tree.removeNodes ids).1.heap.map MessageNode.shape).modify parent _
    refine map_modify (NodeShape.withoutChild nodeId) fun entry => ?_
    rfl
  · have both : tree.removeNodes ids = ((tree.removeNodes ids).1, ids, true) := by rw [← all]
    rw [removeBranch, known, if_neg (by simp), found, getParent_eq formed linked isParent knownParent,
      Option.bind_eq_bind, Option.bind_some, both]

theorem removes_of_wellFormed (formed : tree.shape.WellFormed) {nodeId : String} {place : Nat}
    (known : tree.nodes.get? nodeId = some place) (notRoot : nodeId ≠ tree.rootId) :
    tree.Removes nodeId := by
  obtain ⟨ids, visits, distinct, branch⟩ := exists_branch formed nodeId
  obtain ⟨next, parentId, parent, knownParent, isChild, removed, returns⟩ :=
    removeBranch_of_wellFormed formed known notRoot distinct branch
  refine ⟨ids.length, next, ids, fun fuel enough => ?_, distinct, branch, removed.nodes,
    removed.statusToNode, fun other stays => ⟨?_, ?_⟩⟩
  · exact returns fuel (getDescendants_of_visits known visits fuel enough)
  · rw [removed.linkOf formed knownParent, if_neg stays]
  · rw [removed.childrenOf formed knownParent isChild, if_neg stays]

/-- If `remove_branch` returns, its call of `get_descendants` has returned the subtree. -/
theorem getDescendants_of_removeBranch {nodeId : String} {place : Nat}
    (known : tree.nodes.get? nodeId = some place) {ids : List String}
    (visits : Visits tree.shape.childrenOf [nodeId] ids) {fuel : Nat}
    {result : MessageTree × List String × Bool} (removed : tree.removeBranch fuel nodeId = some result) :
    tree.getDescendants fuel nodeId = some ids := by
  cases found : tree.getDescendants fuel nodeId with
  | none =>
    rw [removeBranch, known, if_neg (by simp), found] at removed
    cases removed
  | some returned =>
    rw [getDescendants, known, if_neg (by simp)] at found
    rw [descendantsLoop_eq visits found, List.nil_append]

/-- **A branch less keeps the tree well formed**, whatever the fuel. -/
theorem wellFormed_removeBranch (formed : tree.shape.WellFormed) {fuel : Nat} {nodeId : String}
    (notRoot : nodeId ≠ tree.rootId) {result : MessageTree × List String × Bool}
    (removed : tree.removeBranch fuel nodeId = some result) : result.1.shape.WellFormed := by
  cases known : tree.nodes.get? nodeId with
  | none =>
    rw [removeBranch, known, if_pos (by rfl)] at removed
    obtain rfl := Option.some.inj removed
    exact formed
  | some place =>
    obtain ⟨ids, visits, distinct, branch⟩ := exists_branch formed nodeId
    obtain ⟨next, parentId, parent, knownParent, isChild, gone, returns⟩ :=
      removeBranch_of_wellFormed formed known notRoot distinct branch
    rw [returns fuel (getDescendants_of_removeBranch known visits removed)] at removed
    obtain rfl := Option.some.inj removed
    exact gone.wellFormed formed knownParent isChild branch

/-! ### Runs -/

/-- **The guard**: a new node has a fresh id and a fresh status id, and the root is not removed. -/
def Grows (tree : MessageTree) (action : TreeAction) : Prop :=
  match action with
  | .addNode nodeId statusMessageId _ => nodeId ≠ "" ∧ tree.nodes.get? nodeId = none ∧
      tree.statusToNode.get? statusMessageId = none
  | .removeBranch _ nodeId => nodeId ≠ tree.rootId
  | _ => True

/-- A new tree has its root only. -/
theorem linkOf_create (nodeId statusMessageId other : String) :
    (create nodeId statusMessageId).shape.linkOf other =
      if other = nodeId then some ⟨nodeId, statusMessageId, none⟩ else none := by
  rw [Shape.linkOf, Shape.nodeOf]
  show Option.map _ ((((∅ : Dict String Nat).set nodeId 0).get? other).bind _) = _
  rw [Dict.get?_set]
  split_ifs
  · rfl
  · rfl

theorem childrenOf_create (nodeId statusMessageId other : String) :
    (create nodeId statusMessageId).shape.childrenOf other = [] := by
  rw [Shape.childrenOf, Shape.nodeOf]
  show (Option.map _ ((((∅ : Dict String Nat).set nodeId 0).get? other).bind _)).getD [] = _
  rw [Dict.get?_set]
  split_ifs
  · rfl
  · rfl

theorem wellFormed_create {nodeId statusMessageId : String} (named : nodeId ≠ "") :
    (create nodeId statusMessageId).shape.WellFormed := by
  have linked := linkOf_create nodeId statusMessageId
  have childless := childrenOf_create nodeId statusMessageId
  have rootId : (create nodeId statusMessageId).shape.rootId = nodeId := rfl
  refine ⟨?_, ?_, ?_, ?_, ?_, ?_, ?_⟩
  · intro other place known
    have isRoot : other = nodeId := by
      by_contra different
      rw [show (create nodeId statusMessageId).shape.nodes = (∅ : Dict String Nat).set nodeId 0 from rfl,
        Dict.get?_set_ne _ different] at known
      cases known
    rw [linked, if_pos isRoot, isRoot]
    exact ⟨_, rfl, rfl, named⟩
  · rw [linked, rootId, if_pos rfl]
    exact ⟨_, rfl, rfl⟩
  · intro other link found notRoot
    rw [linked, if_neg (rootId ▸ notRoot)] at found
    cases found
  · intro other
    rw [childless]
    exact List.nodup_nil
  · intro other child isChild
    rw [childless] at isChild
    exact (List.not_mem_nil isChild).elim
  · intro other child isChild
    rw [childless] at isChild
    exact (List.not_mem_nil isChild).elim
  · intro statusId other
    rw [linked, show (create nodeId statusMessageId).shape.statusToNode =
      (∅ : Dict String String).set statusMessageId nodeId from rfl, Dict.get?_set]
    split_ifs with isStatus isRoot isRoot
    · rw [isRoot, isStatus]
      exact iff_of_true rfl ⟨_, rfl, rfl⟩
    · refine iff_of_false (fun same => isRoot (Option.some.inj same).symm) ?_
      rintro ⟨link, none_, -⟩
      cases none_
    · refine iff_of_false (fun none_ => by cases none_) ?_
      rintro ⟨link, here, same⟩
      obtain rfl := Option.some.inj here
      exact isStatus same.symm
    · refine iff_of_false (fun none_ => by cases none_) ?_
      rintro ⟨link, none_, -⟩
      cases none_

theorem wellFormed_step {action : TreeAction} (formed : tree.shape.WellFormed)
    (grows : tree.Grows action) (stepped : tree.step action = some next) : next.shape.WellFormed := by
  cases reshapes : action.reshapes with
  | false =>
    rw [step_shape reshapes stepped]
    exact formed
  | true =>
    cases action with
    | addNode nodeId statusMessageId parentId =>
      obtain ⟨named, fresh, freshStatus⟩ := grows
      obtain ⟨parent, known, same⟩ := shape_addNode fresh stepped
      rw [same]
      exact formed.add known fresh freshStatus named
    | removeBranch fuel nodeId =>
      obtain ⟨result, removed, rfl⟩ := Option.map_eq_some_iff.mp stepped
      exact wellFormed_removeBranch formed grows removed
    | _ => cases reshapes

end MessageTree

/-- A tree from its root message on, whose id is not empty. -/
def growthMachine : Machine MessageTree TreeAction where
  init tree := ∃ nodeId statusMessageId, nodeId ≠ "" ∧ tree = MessageTree.create nodeId statusMessageId
  step := MessageTree.step

/-- **A message tree is a rooted tree.** In every run that adds fresh nodes and does not remove the
root, whatever else is done to the tree, its nodes form a rooted tree; `get_descendants` of a node
returns its subtree, each node once, and `remove_branch` of a node that is not the root removes exactly
its subtree. -/
theorem rooted_of_reachable {tree : MessageTree}
    (reached : growthMachine.Reachable MessageTree.Grows tree) :
    tree.IsRooted ∧ ∀ nodeId, (tree.nodes.get? nodeId).isSome = true →
      tree.Descends nodeId ∧ (nodeId ≠ tree.rootId → tree.Removes nodeId) := by
  have formed : tree.shape.WellFormed := by
    refine @Machine.Reachable.invariant _ _ _ _ (fun tree => tree.shape.WellFormed) ?_ ?_ _ reached
    · rintro _ ⟨nodeId, statusMessageId, named, rfl⟩
      exact MessageTree.wellFormed_create named
    · intro tree action next formed grows stepped
      exact MessageTree.wellFormed_step formed grows stepped
  refine ⟨MessageTree.isRooted_of_wellFormed formed, fun nodeId present => ?_⟩
  obtain ⟨place, known⟩ := Option.isSome_iff_exists.mp present
  exact ⟨MessageTree.descends_of_wellFormed formed known,
    MessageTree.removes_of_wellFormed formed known⟩

/-- A tree of four messages, and the removal of one of its branches. -/
def removedBranch : List TreeAction :=
  [.addNode "2" "s2" "1", .addNode "3" "s3" "1", .addNode "4" "s4" "2", .removeBranch 4 "2"]

theorem removedBranch_rooted : ∃ tree, growthMachine.run (.create "1" "s1") removedBranch = some tree ∧
    tree.nodes.keys = ["1", "3"] ∧ tree.IsRooted := by
  have shape : (growthMachine.run (.create "1" "s1") removedBranch).map (·.nodes.keys) =
      some ["1", "3"] := by
    decide +kernel
  obtain ⟨tree, ran, keys⟩ := Option.map_eq_some_iff.mp shape
  have obeys : growthMachine.Obeys (.create "1" "s1") removedBranch MessageTree.Grows := by
    refine Machine.obeys_cons rfl ?_ (Machine.obeys_cons rfl ?_ (Machine.obeys_cons rfl ?_
      (Machine.obeys_cons rfl ?_ Machine.obeys_nil)))
    · exact ⟨by decide, by decide, by decide⟩
    · exact ⟨by decide, by decide, by decide⟩
    · exact ⟨by decide, by decide, by decide⟩
    · show "2" ≠ "1"
      decide
  have start : growthMachine.init (.create "1" "s1") := ⟨"1", "s1", by decide, rfl⟩
  have reached := Machine.reachable_of_obeys start removedBranch obeys ran
  exact ⟨tree, ran, keys, (rooted_of_reachable reached).1⟩

end ClaudeProxy
