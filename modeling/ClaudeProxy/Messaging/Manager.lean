/-
**The manager of the message trees (`TreeQueueManager`, `TreeRepository`).**

* `TreeQueueManager` — every tree ever created, as an object, and the repository's two maps. A tree
  that was removed or replaced stays an object: its tasks go on.
* `ManagerAction`, `managerMachine` — the manager's methods, the state updates of processors, and
  the scheduler. Processors and `mark_node_error` reach a tree through `update_state`.
* `Lifted` — a guard of trees, for the actions a method performs on trees.
* **`trees_reachable`** — the trees of a guarded run of the manager made guarded runs of their own.
-/

import ClaudeProxy.Messaging.Control

namespace ClaudeProxy

/-- `TreeQueueManager`, with the maps of its `TreeRepository`. -/
structure TreeQueueManager where
  trees : List MessageTree
  rootToTree : Dict String Nat
  nodeToTree : Dict String String

/-- What can happen to a manager. -/
inductive ManagerAction where
  | createTree (nodeId statusMessageId : String)
  | addToTree (parentNodeId nodeId statusMessageId : String)
  | registerNode (nodeId rootId : String)
  | enqueue (nodeId : String)
  | cancelTree (rootId : String)
  | cancelNode (nodeId : String)
  | cancelBranch (fuel : Nat) (branchRootId : String)
  | cancelAll
  | removeBranch (fuel : Nat) (branchRootId : String)
  | updateState (object : Nat) (nodeId : String) (state : MessageState)
  | runTask (object number : Nat) (outcome : Outcome)
  deriving DecidableEq, Repr

namespace TreeQueueManager

/-- A manager without trees. -/
def empty : TreeQueueManager := ⟨[], ∅, ∅⟩

/-- An action on one of the trees. -/
def onTree (manager : TreeQueueManager) (object : Nat) (action : TreeAction) :
    Option TreeQueueManager :=
  match manager.trees[object]? with
  | none => none
  | some tree =>
    (tree.step action).map fun next => { manager with trees := manager.trees.set object next }

/-- `get_tree_for_node`, as an object. -/
def getTreeForNode (manager : TreeQueueManager) (nodeId : String) : Option Nat :=
  match manager.nodeToTree.get? nodeId with
  | none => none
  | some rootId => if rootId = "" then none else manager.rootToTree.get? rootId

/-- `create_tree`. -/
def createTree (manager : TreeQueueManager) (nodeId statusMessageId : String) :
    TreeQueueManager :=
  { trees := manager.trees ++ [MessageTree.create nodeId statusMessageId]
    rootToTree := manager.rootToTree.set nodeId manager.trees.length
    nodeToTree := manager.nodeToTree.set nodeId nodeId }

/-- The root id of a tree object. -/
def rootIdOf (manager : TreeQueueManager) (object : Nat) : String :=
  (manager.trees[object]?.map MessageTree.rootId).getD ""

/-- `add_to_tree`; where a `ValueError` is raised, nothing changes. -/
def addToTree (manager : TreeQueueManager) (parentNodeId nodeId statusMessageId : String) :
    TreeQueueManager :=
  match manager.getTreeForNode parentNodeId with
  | none => manager
  | some object =>
    match manager.onTree object (.addNode nodeId statusMessageId parentNodeId) with
    | none => manager
    | some next =>
      { next with nodeToTree := next.nodeToTree.set nodeId (manager.rootIdOf object) }

/-- `register_node`. -/
def registerNode (manager : TreeQueueManager) (nodeId rootId : String) : TreeQueueManager :=
  { manager with nodeToTree := manager.nodeToTree.set nodeId rootId }

/-- A method that looks its tree up by a node, and does nothing where there is none. -/
def onTreeOf (manager : TreeQueueManager) (nodeId : String) (action : TreeAction) :
    Option TreeQueueManager :=
  match manager.getTreeForNode nodeId with
  | none => some manager
  | some object => manager.onTree object action

/-- `cancel_tree`. -/
def cancelTree (manager : TreeQueueManager) (rootId : String) : Option TreeQueueManager :=
  match manager.rootToTree.get? rootId with
  | none => some manager
  | some object => manager.onTree object .cancelTree

/-- `cancel_all`. -/
def cancelAll (manager : TreeQueueManager) : Option TreeQueueManager :=
  manager.rootToTree.keys.foldlM cancelTree manager

/-- `unregister_nodes`. -/
def unregisterNodes (manager : TreeQueueManager) (nodeIds : List String) : TreeQueueManager :=
  { manager with nodeToTree := nodeIds.foldl Dict.erase manager.nodeToTree }

/-- `remove_tree`. -/
def removeTree (manager : TreeQueueManager) (rootId : String) : TreeQueueManager :=
  match manager.rootToTree.get? rootId with
  | none => manager
  | some object =>
    let removed := { manager with rootToTree := manager.rootToTree.erase rootId }
    match manager.trees[object]? with
    | none => removed
    | some tree =>
      removed.unregisterNodes
        (tree.nodes.values.filterMap fun node => tree.heap[node]?.map MessageNode.nodeId)

/-- `remove_branch`. -/
def removeBranch (manager : TreeQueueManager) (fuel : Nat) (branchRootId : String) :
    Option TreeQueueManager :=
  match manager.getTreeForNode branchRootId with
  | none => some manager
  | some object =>
    if branchRootId = manager.rootIdOf object then
      (manager.cancelTree branchRootId).map fun next => next.removeTree branchRootId
    else
      match manager.trees[object]? with
      | none => none
      | some tree =>
        match tree.removeBranch fuel branchRootId with
        | none => none
        | some (next, removed, finished) =>
          let changed := { manager with trees := manager.trees.set object next }
          some (if finished then changed.unregisterNodes removed else changed)

/-- One action on the manager. -/
def step (manager : TreeQueueManager) : ManagerAction → Option TreeQueueManager
  | .createTree nodeId statusMessageId => some (manager.createTree nodeId statusMessageId)
  | .addToTree parentNodeId nodeId statusMessageId =>
    some (manager.addToTree parentNodeId nodeId statusMessageId)
  | .registerNode nodeId rootId => some (manager.registerNode nodeId rootId)
  | .enqueue nodeId => manager.onTreeOf nodeId (.enqueue nodeId)
  | .cancelTree rootId => manager.cancelTree rootId
  | .cancelNode nodeId => manager.onTreeOf nodeId (.cancelNode nodeId)
  | .cancelBranch fuel branchRootId => manager.onTreeOf branchRootId (.cancelBranch fuel branchRootId)
  | .cancelAll => manager.cancelAll
  | .removeBranch fuel branchRootId => manager.removeBranch fuel branchRootId
  | .updateState object nodeId state => manager.onTree object (.updateState nodeId state)
  | .runTask object number outcome => manager.onTree object (.runTask number outcome)

end TreeQueueManager

/-- A manager from its creation on. -/
def managerMachine : Machine TreeQueueManager ManagerAction where
  init manager := manager = TreeQueueManager.empty
  step := TreeQueueManager.step

/-! ### Trees of a manager -/

/-- A guard of trees, for the actions a method performs on a tree it looks up. `cancel_tree`, alone
or in `cancel_all` and `remove_branch`, and the other actions are left to the tree. -/
def Lifted (guard : MessageTree → TreeAction → Prop) (manager : TreeQueueManager)
    (action : ManagerAction) : Prop :=
  match action with
  | .enqueue nodeId => ∀ object tree, manager.getTreeForNode nodeId = some object →
      manager.trees[object]? = some tree → guard tree (.enqueue nodeId)
  | .cancelNode nodeId => ∀ object tree, manager.getTreeForNode nodeId = some object →
      manager.trees[object]? = some tree → guard tree (.cancelNode nodeId)
  | .cancelBranch fuel branchRootId => ∀ object tree,
      manager.getTreeForNode branchRootId = some object →
      manager.trees[object]? = some tree → guard tree (.cancelBranch fuel branchRootId)
  | .runTask object number outcome => ∀ tree, manager.trees[object]? = some tree →
      guard tree (.runTask number outcome)
  | _ => True

/-- The guard lets the actions pass that a method performs on any tree. -/
structure LetsPass (guard : MessageTree → TreeAction → Prop) : Prop where
  cancelTree : ∀ tree, guard tree .cancelTree
  addNode : ∀ tree nodeId statusMessageId parentId,
    guard tree (.addNode nodeId statusMessageId parentId)
  updateState : ∀ tree nodeId state, guard tree (.updateState nodeId state)
  removeBranch : ∀ tree fuel nodeId, guard tree (.removeBranch fuel nodeId)

section Trees

variable {guard : MessageTree → TreeAction → Prop}

/-- Every later tree was moved there by guarded steps, from an earlier or a new one. -/
def MovedBy (guard : MessageTree → TreeAction → Prop) (before after : List MessageTree) : Prop :=
  ∀ tree ∈ after, ∃ earlier, (treeMachine.init earlier ∨ earlier ∈ before) ∧
    treeMachine.Steps guard earlier tree

theorem MovedBy.refl (trees : List MessageTree) : MovedBy guard trees trees :=
  fun tree member => ⟨tree, Or.inr member, .refl⟩

/-- Moves follow each other. -/
theorem MovedBy.trans {first second third : List MessageTree} (one : MovedBy guard first second)
    (two : MovedBy guard second third) : MovedBy guard first third := by
  intro tree member
  obtain ⟨middle, fresh | inSecond, steps⟩ := two tree member
  · exact ⟨middle, Or.inl fresh, steps⟩
  · obtain ⟨earlier, from_, more⟩ := one middle inSecond
    exact ⟨earlier, from_, more.trans steps⟩

theorem MovedBy.set {trees : List MessageTree} {object : Nat} {tree next : MessageTree}
    (found : trees[object]? = some tree) {action : TreeAction} (allowed : guard tree action)
    (stepped : tree.step action = some next) : MovedBy guard trees (trees.set object next) := by
  intro other member
  rcases List.mem_or_eq_of_mem_set member with old | rfl
  · exact ⟨other, Or.inr old, .refl⟩
  · exact ⟨tree, Or.inr (List.mem_of_getElem? found), .single allowed stepped⟩

namespace TreeQueueManager

theorem onTree_moved {manager next : TreeQueueManager} {object : Nat} {action : TreeAction}
    (allowed : ∀ tree, manager.trees[object]? = some tree → guard tree action)
    (stepped : manager.onTree object action = some next) :
    MovedBy guard manager.trees next.trees := by
  rw [onTree] at stepped
  cases found : manager.trees[object]? with
  | none =>
    rw [found] at stepped
    exact nomatch stepped
  | some tree =>
    rw [found] at stepped
    obtain ⟨moved, treeStepped, rfl⟩ := Option.map_eq_some_iff.mp stepped
    exact MovedBy.set found (allowed tree found) treeStepped

theorem onTreeOf_moved {manager next : TreeQueueManager} {nodeId : String} {action : TreeAction}
    (allowed : ∀ object tree, manager.getTreeForNode nodeId = some object →
      manager.trees[object]? = some tree → guard tree action)
    (stepped : manager.onTreeOf nodeId action = some next) :
    MovedBy guard manager.trees next.trees := by
  rw [onTreeOf] at stepped
  cases found : manager.getTreeForNode nodeId with
  | none =>
    rw [found] at stepped
    obtain rfl := Option.some.inj stepped
    exact .refl _
  | some object =>
    rw [found] at stepped
    exact onTree_moved (fun tree => allowed object tree found) stepped

theorem cancelTree_moved (passes : LetsPass guard) {manager next : TreeQueueManager}
    {rootId : String} (stepped : manager.cancelTree rootId = some next) :
    MovedBy guard manager.trees next.trees := by
  rw [cancelTree] at stepped
  split at stepped
  · obtain rfl := Option.some.inj stepped
    exact .refl _
  · exact onTree_moved (fun tree _ => passes.cancelTree tree) stepped

/-- `cancel_all` cancels one tree after the other. -/
theorem cancelAll_moved (passes : LetsPass guard) {manager next : TreeQueueManager}
    (stepped : manager.cancelAll = some next) : MovedBy guard manager.trees next.trees := by
  have folded (rootIds : List String) (start : TreeQueueManager)
      (ran : rootIds.foldlM cancelTree start = some next) :
      MovedBy guard start.trees next.trees := by
    induction rootIds generalizing start with
    | nil =>
      obtain rfl := Option.some.inj ran
      exact .refl _
    | cons rootId rest ih =>
      rw [List.foldlM_cons] at ran
      obtain ⟨middle, cancelled, ran⟩ := Option.bind_eq_some_iff.mp ran
      exact (cancelTree_moved passes cancelled).trans (ih middle ran)
  exact folded _ manager stepped

theorem addToTree_moved (passes : LetsPass guard) (manager : TreeQueueManager)
    (parentNodeId nodeId statusMessageId : String) :
    MovedBy guard manager.trees (manager.addToTree parentNodeId nodeId statusMessageId).trees := by
  rw [addToTree]
  split
  · exact .refl _
  · rename_i object _
    cases added : manager.onTree object (.addNode nodeId statusMessageId parentNodeId) with
    | none => exact .refl _
    | some next =>
      have moved : MovedBy guard manager.trees next.trees :=
        onTree_moved (fun tree _ => passes.addNode tree _ _ _) added
      exact moved

@[simp] theorem trees_removeTree (manager : TreeQueueManager) (rootId : String) :
    (manager.removeTree rootId).trees = manager.trees := by
  rw [removeTree]
  split
  · rfl
  · dsimp only
    split
    · rfl
    · rfl

theorem removeBranch_moved (passes : LetsPass guard) {manager next : TreeQueueManager} {fuel : Nat}
    {branchRootId : String} (stepped : manager.removeBranch fuel branchRootId = some next) :
    MovedBy guard manager.trees next.trees := by
  rw [removeBranch] at stepped
  split at stepped
  · obtain rfl := Option.some.inj stepped
    exact .refl _
  · rename_i object _
    split_ifs at stepped
    · obtain ⟨cancelled, ran, rfl⟩ := Option.map_eq_some_iff.mp stepped
      rw [trees_removeTree]
      exact cancelTree_moved passes ran
    · cases found : manager.trees[object]? with
      | none =>
        rw [found] at stepped
        exact nomatch stepped
      | some tree =>
        rw [found] at stepped
        dsimp only at stepped
        cases removed : tree.removeBranch fuel branchRootId with
        | none =>
          rw [removed] at stepped
          exact nomatch stepped
        | some result =>
          obtain ⟨changed, nodeIds, finished⟩ := result
          rw [removed] at stepped
          have treeStepped : tree.step (.removeBranch fuel branchRootId) = some changed := by
            rw [MessageTree.step, removed]
            rfl
          have moved := MovedBy.set found (passes.removeBranch tree fuel branchRootId) treeStepped
          cases finished with
          | true =>
            obtain rfl := Option.some.inj stepped
            exact moved
          | false =>
            obtain rfl := Option.some.inj stepped
            exact moved

/-- One action of the manager moves its trees by guarded steps. -/
theorem step_moved (passes : LetsPass guard) {manager next : TreeQueueManager}
    {action : ManagerAction} (allowed : Lifted guard manager action)
    (stepped : manager.step action = some next) : MovedBy guard manager.trees next.trees := by
  cases action with
  | createTree nodeId statusMessageId =>
    obtain rfl := Option.some.inj stepped
    intro tree member
    rcases List.mem_append.mp member with old | new
    · exact ⟨tree, Or.inr old, .refl⟩
    · exact ⟨tree, Or.inl ⟨nodeId, statusMessageId, List.mem_singleton.mp new⟩, .refl⟩
  | addToTree parentNodeId nodeId statusMessageId =>
    obtain rfl := Option.some.inj stepped
    exact addToTree_moved passes manager _ _ _
  | registerNode nodeId rootId =>
    obtain rfl := Option.some.inj stepped
    exact .refl _
  | enqueue nodeId => exact onTreeOf_moved allowed stepped
  | cancelTree rootId => exact cancelTree_moved passes stepped
  | cancelNode nodeId => exact onTreeOf_moved allowed stepped
  | cancelBranch fuel branchRootId => exact onTreeOf_moved allowed stepped
  | cancelAll => exact cancelAll_moved passes stepped
  | removeBranch fuel branchRootId => exact removeBranch_moved passes stepped
  | updateState object nodeId state =>
    exact onTree_moved (fun tree _ => passes.updateState tree nodeId state) stepped
  | runTask object number outcome => exact onTree_moved allowed stepped

end TreeQueueManager

/-- **The trees of a guarded run of the manager made guarded runs of their own.** -/
theorem trees_reachable (passes : LetsPass guard) {manager : TreeQueueManager}
    (reached : managerMachine.Reachable (Lifted guard) manager) :
    ∀ tree ∈ manager.trees, treeMachine.Reachable guard tree := by
  refine Machine.reachable_parts TreeQueueManager.trees ?_ ?_ reached
  · intro start isEmpty tree member
    obtain rfl : start = TreeQueueManager.empty := isEmpty
    exact absurd member List.not_mem_nil
  · intro state action next allowed stepped
    exact TreeQueueManager.step_moved passes allowed stepped

end Trees

end ClaudeProxy
