/-
**The shape of a message tree.**

* `Shape` — the part of a tree that says which nodes it has and how they hang together: the two maps,
  and the nodes without their states.
* **`step_shape`** — only `add_node` and `remove_branch` change it.
-/

import ClaudeProxy.Messaging.TreeQueue

namespace ClaudeProxy

/-- A node without its state. -/
structure NodeShape where
  nodeId : String
  statusMessageId : String
  parentId : Option String
  childrenIds : List String
  deriving DecidableEq

/-- A node without its state. -/
def MessageNode.shape (node : MessageNode) : NodeShape :=
  ⟨node.nodeId, node.statusMessageId, node.parentId, node.childrenIds⟩

/-- The nodes of a tree and how they hang together. -/
@[ext] structure Shape where
  rootId : String
  heap : List NodeShape
  nodes : Dict String Nat
  statusToNode : Dict String String

/-- The nodes of a tree and how they hang together. -/
def MessageTree.shape (tree : MessageTree) : Shape :=
  ⟨tree.rootId, tree.heap.map MessageNode.shape, tree.nodes, tree.statusToNode⟩

namespace MessageTree

/-! ### The methods that leave the shape alone -/

@[simp] theorem shape_setState (tree : MessageTree) (node : Nat) (state : MessageState) :
    (tree.setState node state).shape = tree.shape := by
  refine Shape.ext rfl ?_ rfl rfl
  show (tree.heap.modify node _).map MessageNode.shape = tree.heap.map MessageNode.shape
  refine (map_modify id fun entry => ?_).trans (List.modify_id _ _)
  rfl

@[simp] theorem shape_updateState (tree : MessageTree) (nodeId : String) (state : MessageState) :
    (tree.updateState nodeId state).shape = tree.shape := by
  rw [updateState]
  split
  · rfl
  · exact shape_setState _ _ _

@[simp] theorem shape_markUnlessFinal (tree : MessageTree) (node : Nat) :
    (tree.markUnlessFinal node).shape = tree.shape := by
  rw [markUnlessFinal]
  split
  · rfl
  · split_ifs
    · rfl
    · exact shape_setState _ _ _

theorem shape_foldl {α : Type} (step : MessageTree → α → MessageTree)
    (quiet : ∀ tree value, (step tree value).shape = tree.shape) (list : List α)
    (tree : MessageTree) : (list.foldl step tree).shape = tree.shape := by
  induction list generalizing tree with
  | nil => rfl
  | cons value rest ih => rw [List.foldl_cons, ih, quiet]

@[simp] theorem shape_cancelCurrentTask (tree : MessageTree) :
    tree.cancelCurrentTask.shape = tree.shape := by
  rw [cancelCurrentTask]
  split
  · rfl
  · rfl

@[simp] theorem shape_start (tree : MessageTree) (nodeId : String) :
    (tree.start nodeId).shape = tree.shape := by
  rw [start]
  split
  · rfl
  · rfl

@[simp] theorem shape_processNext (tree : MessageTree) : tree.processNext.shape = tree.shape := by
  rw [processNext]
  split
  · rfl
  · split_ifs
    · rfl
    · exact shape_start _ _

@[simp] theorem shape_drainQueue (tree : MessageTree) : tree.drainQueue.shape = tree.shape :=
  shape_foldl _ (fun tree nodeId => shape_updateState tree nodeId .error) tree.queue.deque tree

theorem shape_cancelTree (tree : MessageTree) : tree.cancelTree.shape = tree.shape := by
  have reset (other : MessageTree) : other.resetProcessingState.shape = other.shape := rfl
  rw [cancelTree, reset, shape_foldl _ shape_markUnlessFinal, shape_drainQueue]
  split
  · split_ifs
    · exact shape_cancelCurrentTask tree
    · split
      · exact shape_cancelCurrentTask tree
      · rw [shape_markUnlessFinal, shape_cancelCurrentTask]
  · exact shape_cancelCurrentTask tree

theorem shape_cancelNode (tree : MessageTree) (nodeId : String) :
    (tree.cancelNode nodeId).shape = tree.shape := by
  rw [cancelNode]
  split
  · rfl
  · split_ifs
    · rfl
    · rw [shape_setState]
      exact shape_cancelCurrentTask tree
    · rw [shape_setState]
      rfl

theorem shape_cancelInBranch (tree : MessageTree) (nodeId : String) :
    (tree.cancelInBranch nodeId).shape = tree.shape := by
  rw [cancelInBranch]
  split
  · rfl
  · split_ifs
    · rfl
    · rw [shape_setState, shape_cancelCurrentTask]
    · rw [shape_setState]
      rfl

theorem shape_stepTask {tree next : MessageTree} {number : Nat} {outcome : Outcome}
    (stepped : tree.stepTask number outcome = some next) : next.shape = tree.shape := by
  have moved (task : Task) (phase : Phase) : (tree.moveTask number task phase).shape = tree.shape := rfl
  rw [stepTask] at stepped
  split at stepped
  · cases stepped
  · split at stepped
    · cases stepped
    · split_ifs at stepped
      all_goals
        obtain rfl := Option.some.inj stepped
        rfl
    · split at stepped
      all_goals
        obtain rfl := Option.some.inj stepped
        rfl
    · split_ifs at stepped
      · obtain rfl := Option.some.inj stepped
        rfl
      · obtain rfl := Option.some.inj stepped
        rw [shape_updateState, moved]
    · split_ifs at stepped
      all_goals
        obtain rfl := Option.some.inj stepped
        rfl
    · split_ifs at stepped
      · obtain rfl := Option.some.inj stepped
        rfl
      · obtain rfl := Option.some.inj stepped
        rw [shape_processNext, moved]
    · split_ifs at stepped
      · obtain rfl := Option.some.inj stepped
        rfl
      · obtain rfl := Option.some.inj stepped
        rw [shape_processNext, moved]
    · obtain rfl := Option.some.inj stepped
      rfl

end MessageTree

/-- The actions that add or remove nodes. -/
def TreeAction.reshapes : TreeAction → Bool
  | .addNode _ _ _ | .removeBranch _ _ => true
  | _ => false

/-- **Only `add_node` and `remove_branch` change the shape.** -/
theorem step_shape {tree next : MessageTree} {action : TreeAction} (quiet : action.reshapes = false)
    (stepped : tree.step action = some next) : next.shape = tree.shape := by
  cases action with
  | addNode nodeId statusMessageId parentId => cases quiet
  | updateState nodeId state =>
    obtain rfl := Option.some.inj stepped
    exact MessageTree.shape_updateState tree nodeId state
  | enqueue nodeId =>
    obtain rfl := Option.some.inj stepped
    rw [MessageTree.enqueueAndStart]
    split_ifs
    · rfl
    · exact MessageTree.shape_start tree nodeId
  | cancelTree =>
    obtain rfl := Option.some.inj stepped
    exact MessageTree.shape_cancelTree tree
  | cancelNode nodeId =>
    obtain rfl := Option.some.inj stepped
    exact MessageTree.shape_cancelNode tree nodeId
  | cancelBranch fuel nodeId =>
    obtain ⟨branchIds, -, same⟩ := Option.bind_eq_some_iff.mp stepped
    obtain rfl := Option.some.inj same
    exact MessageTree.shape_foldl _ MessageTree.shape_cancelInBranch _ tree
  | removeBranch fuel nodeId => cases quiet
  | runTask number outcome => exact MessageTree.shape_stepTask stepped

end ClaudeProxy
