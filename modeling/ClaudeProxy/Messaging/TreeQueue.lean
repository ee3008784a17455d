/-
**A message tree and the tasks that process its nodes (`messaging/trees`).**

* `MessageNode`, `SnapshotQueue`, `MessageTree` — `trees/data.py`; a node is an object in the tree's
  `heap`, so that a task keeps its node when the tree drops it.
* `Task` — a run of `process_node`. Its `phase` says where the coroutine is suspended: before its
  first step, in its processor, reporting an error, or waiting for the lock on its way out.
  `cancelled` records `Task.cancel()`, and `interrupted` that the `CancelledError` is still to be
  delivered at the next step. A processor takes the error itself and may go on for any number of
  steps.
* `MessageTree.processNext`, `enqueueAndStart`, `stepTask` — `TreeQueueProcessor`.
* `cancelTree`, `cancelNode`, `cancelBranch`, `removeBranch` — what the manager's methods do under
  the tree's lock. No await in them can suspend, so each is one step.
* `treeMachine` — all of it as one machine.
-/

import ClaudeProxy.Library.Dict
import ClaudeProxy.Library.Transition
import Mathlib.Data.List.Dedup

namespace ClaudeProxy

/-! ### Nodes and the queue -/

/-- `MessageState`. -/
inductive MessageState where
  | pending
  | inProgress
  | completed
  | error
  deriving DecidableEq, Repr

/-- `MessageNode`. -/
structure MessageNode where
  nodeId : String
  statusMessageId : String
  state : MessageState
  parentId : Option String
  childrenIds : List String
  deriving DecidableEq, Repr

/-- A state that `cancel_node` and `cancel_branch` leave alone. -/
def MessageState.isFinal : MessageState → Bool
  | .completed | .error => true
  | _ => false

/-- `_SnapshotQueue`: a deque and the set that indexes it. -/
structure SnapshotQueue where
  deque : List String
  index : List String
  deriving DecidableEq, Repr

namespace SnapshotQueue

def empty : SnapshotQueue := ⟨[], []⟩

/-- `put_nowait`. -/
def putNowait (queue : SnapshotQueue) (item : String) : SnapshotQueue :=
  ⟨queue.deque ++ [item], item :: queue.index⟩

/-- `get_nowait`; an empty queue raises `QueueEmpty`. -/
def getNowait (queue : SnapshotQueue) : Option (String × SnapshotQueue) :=
  match queue.deque with
  | [] => none
  | item :: rest => some (item, ⟨rest, queue.index.filter (· ≠ item)⟩)

/-- `remove_if_present`. -/
def removeIfPresent (queue : SnapshotQueue) (item : String) : SnapshotQueue :=
  if item ∈ queue.index then
    ⟨queue.deque.filter (· ≠ item), queue.index.filter (· ≠ item)⟩
  else queue

/-- The queue after everything was taken out of it. -/
def drained (queue : SnapshotQueue) : SnapshotQueue :=
  ⟨[], queue.index.filter (· ∉ queue.deque)⟩

end SnapshotQueue

/-! ### Tasks -/

/-- Where a run of `process_node` is suspended. -/
inductive Phase where
  | created
  | skipping
  | running
  | reporting
  | clearing
  | dequeuing
  | notifying
  | done
  deriving DecidableEq, Repr

/-- A run of `process_node` for the node at `node`, whose id is `nodeId`. -/
structure Task where
  node : Nat
  nodeId : String
  phase : Phase
  cancelled : Bool
  interrupted : Bool
  deriving DecidableEq, Repr

/-- The task is in the `try` of `process_node`: its processor runs, or its error is reported. -/
def Phase.inProcessor : Phase → Bool
  | .running | .reporting => true
  | _ => false

/-- `task.cancel()`. A processor takes the `CancelledError` itself; anywhere else it is delivered at
the task's next step. -/
def Task.cancel (task : Task) : Task :=
  match task.phase with
  | .done => task
  | .running => { task with cancelled := true }
  | _ => { task with cancelled := true, interrupted := true }

/-- What a processor does when it is resumed. -/
inductive Outcome where
  | continues
  | returns
  | raises
  deriving DecidableEq, Repr

/-! ### The tree -/

/-- `MessageTree`, with the tasks created for it. -/
structure MessageTree where
  rootId : String
  heap : List MessageNode
  nodes : Dict String Nat
  statusToNode : Dict String String
  queue : SnapshotQueue
  isProcessing : Bool
  currentNodeId : Option String
  currentTask : Option Nat
  tasks : List Task

namespace MessageTree

/-- `MessageTree(root_node)`. -/
def create (nodeId statusMessageId : String) : MessageTree :=
  { rootId := nodeId
    heap := [⟨nodeId, statusMessageId, .pending, none, []⟩]
    nodes := (∅ : Dict String Nat).set nodeId 0
    statusToNode := (∅ : Dict String String).set statusMessageId nodeId
    queue := SnapshotQueue.empty
    isProcessing := false
    currentNodeId := none
    currentTask := none
    tasks := [] }

/-- `node.state`. -/
def stateOf (tree : MessageTree) (node : Nat) : Option MessageState :=
  tree.heap[node]?.map MessageNode.state

/-- `node.state = state`. -/
def setState (tree : MessageTree) (node : Nat) (state : MessageState) : MessageTree :=
  { tree with heap := tree.heap.modify node fun entry => { entry with state := state } }

/-- `update_state`. -/
def updateState (tree : MessageTree) (nodeId : String) (state : MessageState) : MessageTree :=
  match tree.nodes.get? nodeId with
  | none => tree
  | some node => tree.setState node state

/-- `add_node`; a parent that is not in the tree raises `ValueError`. -/
def addNode (tree : MessageTree) (nodeId statusMessageId parentId : String) :
    Option MessageTree :=
  if (tree.nodes.get? parentId).isNone then none
  else
    let nodes := tree.nodes.set nodeId tree.heap.length
    let heap := tree.heap ++ [⟨nodeId, statusMessageId, .pending, some parentId, []⟩]
    let parent := (nodes.get? parentId).getD 0
    some { tree with
      nodes := nodes
      statusToNode := tree.statusToNode.set statusMessageId nodeId
      heap := heap.modify parent fun entry =>
        { entry with childrenIds := entry.childrenIds ++ [nodeId] } }

/-- `set_processing_state`. -/
def setProcessingState (tree : MessageTree) (nodeId : Option String) (isProcessing : Bool) :
    MessageTree :=
  { tree with
    isProcessing := isProcessing
    currentNodeId := if isProcessing then nodeId else none }

/-- `clear_current_node`. -/
def clearCurrentNode (tree : MessageTree) : MessageTree := { tree with currentNodeId := none }

/-- `reset_processing_state`. -/
def resetProcessingState (tree : MessageTree) : MessageTree :=
  { tree with isProcessing := false, currentNodeId := none }

/-- `set_current_task(create_task(process_node(tree, node, processor)))`. -/
def startTask (tree : MessageTree) (nodeId : String) (node : Nat) : MessageTree :=
  { tree with
    tasks := tree.tasks ++ [⟨node, nodeId, .created, false, false⟩]
    currentTask := some tree.tasks.length }

/-- A node starts: the flags are set, and a task is created where the tree has the node. -/
def start (tree : MessageTree) (nodeId : String) : MessageTree :=
  let tree := tree.setProcessingState (some nodeId) true
  match tree.nodes.get? nodeId with
  | none => tree
  | some node => tree.startTask nodeId node

/-- The critical section of `_process_next`. -/
def processNext (tree : MessageTree) : MessageTree :=
  match tree.queue.getNowait with
  | none => tree.setProcessingState none false
  | some (nextNodeId, queue) =>
    let tree := { tree with queue := queue }
    if nextNodeId = "" then tree.setProcessingState none false else tree.start nextNodeId

/-- `enqueue_and_start`. -/
def enqueueAndStart (tree : MessageTree) (nodeId : String) : MessageTree :=
  if tree.isProcessing then { tree with queue := tree.queue.putNowait nodeId }
  else tree.start nodeId

/-! ### Cancellation and removal -/

/-- The current task, where it has not finished. -/
def currentLive (tree : MessageTree) : Option (Nat × Task) :=
  match tree.currentTask with
  | none => none
  | some number =>
    match tree.tasks[number]? with
    | none => none
    | some task => if task.phase = .done then none else some (number, task)

/-- `cancel_current_task`, whose result is whether `currentLive` has a task. -/
def cancelCurrentTask (tree : MessageTree) : MessageTree :=
  match tree.currentLive with
  | none => tree
  | some (number, task) => { tree with tasks := tree.tasks.set number task.cancel }

/-- Sets the state of a node that is not final to ERROR. -/
def markUnlessFinal (tree : MessageTree) (node : Nat) : MessageTree :=
  match tree.stateOf node with
  | none => tree
  | some state => if state.isFinal then tree else tree.setState node .error

/-- `drain_queue_and_mark_cancelled`. -/
def drainQueue (tree : MessageTree) : MessageTree :=
  let marked := tree.queue.deque.foldl
    (fun (tree : MessageTree) nodeId => tree.updateState nodeId .error) tree
  { marked with queue := tree.queue.drained }

/-- `cancel_tree`, on a tree that was found. -/
def cancelTree (tree : MessageTree) : MessageTree :=
  let cancelled := tree.cancelCurrentTask
  let marked :=
    match tree.currentLive, cancelled.currentNodeId with
    | some _, some currentId =>
      if currentId = "" then cancelled
      else
        match cancelled.nodes.get? currentId with
        | none => cancelled
        | some node => cancelled.markUnlessFinal node
    | _, _ => cancelled
  let drained := marked.drainQueue
  (drained.nodes.values.foldl markUnlessFinal drained).resetProcessingState

/-- `cancel_node`, on a tree that was found. -/
def cancelNode (tree : MessageTree) (nodeId : String) : MessageTree :=
  match tree.nodes.get? nodeId with
  | none => tree
  | some node =>
    if ((tree.stateOf node).map MessageState.isFinal).getD true then tree
    else
      let tree := if tree.currentNodeId = some nodeId then tree.cancelCurrentTask else tree
      let tree := { tree with queue := tree.queue.removeIfPresent nodeId }
      tree.setState node .error

/-- `get_descendants`: the loop, for at most `fuel` rounds; the top of the stack comes first. -/
def descendantsLoop (tree : MessageTree) : Nat → List String → List String → Option (List String)
  | _, [], result => some result
  | 0, _ :: _, _ => none
  | fuel + 1, nodeId :: stack, result =>
    let children :=
      match tree.nodes.get? nodeId with
      | none => []
      | some node => (tree.heap[node]?.map MessageNode.childrenIds).getD []
    descendantsLoop tree fuel (children.reverse ++ stack) (result ++ [nodeId])

/-- `get_descendants`, which does not return within `fuel` rounds where this is `none`. -/
def getDescendants (tree : MessageTree) (fuel : Nat) (nodeId : String) : Option (List String) :=
  if (tree.nodes.get? nodeId).isNone then some [] else tree.descendantsLoop fuel [nodeId] []

/-- One node of `cancel_branch`: the current one is cancelled, another one leaves the queue. -/
def cancelInBranch (tree : MessageTree) (nodeId : String) : MessageTree :=
  match tree.nodes.get? nodeId with
  | none => tree
  | some node =>
    if ((tree.stateOf node).map MessageState.isFinal).getD true then tree
    else if tree.currentNodeId = some nodeId then tree.cancelCurrentTask.setState node .error
    else
      let tree := { tree with queue := tree.queue.removeIfPresent nodeId }
      tree.setState node .error

/-- `cancel_branch`, on a tree that was found. -/
def cancelBranch (tree : MessageTree) (fuel : Nat) (nodeId : String) : Option MessageTree := do
  let branchIds ← tree.getDescendants fuel nodeId
  some (branchIds.dedup.foldl cancelInBranch tree)

/-- The deletions of `remove_branch`: the nodes that were removed, and whether all were. A status
id that is gone already raises `KeyError`. -/
def removeNodes (tree : MessageTree) : List String → MessageTree × List String × Bool
  | [] => (tree, [], true)
  | nodeId :: rest =>
    match tree.nodes.get? nodeId with
    | none => removeNodes tree rest
    | some node =>
      let statusId := (tree.heap[node]?.map MessageNode.statusMessageId).getD ""
      let dropped := { tree with nodes := tree.nodes.erase nodeId }
      if (dropped.statusToNode.get? statusId).isNone then (dropped, [nodeId], false)
      else
        let (tree, removed, finished) :=
          removeNodes { dropped with statusToNode := dropped.statusToNode.erase statusId } rest
        (tree, nodeId :: removed, finished)

/-- `get_parent`, as an object. -/
def getParent (tree : MessageTree) (nodeId : String) : Option Nat := do
  let node ← tree.nodes.get? nodeId
  let parentId ← (← tree.heap[node]?).parentId
  if parentId = "" then none else tree.nodes.get? parentId

/-- `remove_branch` of the tree. -/
def removeBranch (tree : MessageTree) (fuel : Nat) (nodeId : String) :
    Option (MessageTree × List String × Bool) :=
  if (tree.nodes.get? nodeId).isNone then some (tree, [], true)
  else do
    let parent := tree.getParent nodeId
    let branchIds ← tree.getDescendants fuel nodeId
    let (removedTree, removed, finished) := tree.removeNodes branchIds
    match parent, finished with
    | some parent, true =>
      some ({ removedTree with
        heap := removedTree.heap.modify parent fun entry =>
          { entry with childrenIds := entry.childrenIds.filter (· ≠ nodeId) } }, removed, true)
    | _, _ => some (removedTree, removed, finished)

/-! ### The scheduler -/

/-- Moves a task to another phase, whatever was to be delivered being delivered. -/
def moveTask (tree : MessageTree) (number : Nat) (task : Task) (phase : Phase) : MessageTree :=
  { tree with tasks := tree.tasks.set number { task with phase := phase, interrupted := false } }

/-- The task's next step. A `CancelledError` ends a task that has not begun, or that waits for the
lock in its `finally` or before it; in the processor's `except` it leads to the `finally`. -/
def stepTask (tree : MessageTree) (number : Nat) (outcome : Outcome) : Option MessageTree :=
  match tree.tasks[number]? with
  | none => none
  | some task =>
    match task.phase with
    | .done => none
    | .created =>
      if task.interrupted then some (tree.moveTask number task .done)
      else if tree.stateOf task.node = some .error then some (tree.moveTask number task .skipping)
      else some (tree.moveTask number task .running)
    | .running =>
      match outcome with
      | .continues => some tree
      | .returns => some (tree.moveTask number task .clearing)
      | .raises => some (tree.moveTask number task .reporting)
    | .reporting =>
      if task.interrupted then some (tree.moveTask number task .clearing)
      else some ((tree.moveTask number task .clearing).updateState task.nodeId .error)
    | .clearing =>
      if task.interrupted then some (tree.moveTask number task .done)
      else some (tree.moveTask number task .dequeuing).clearCurrentNode
    | .skipping | .dequeuing =>
      if task.interrupted then some (tree.moveTask number task .done)
      else some (tree.moveTask number task .notifying).processNext
    | .notifying => some (tree.moveTask number task .done)

end MessageTree

/-- What can happen to a tree. -/
inductive TreeAction where
  | addNode (nodeId statusMessageId parentId : String)
  | updateState (nodeId : String) (state : MessageState)
  | enqueue (nodeId : String)
  | cancelTree
  | cancelNode (nodeId : String)
  | cancelBranch (fuel : Nat) (nodeId : String)
  | removeBranch (fuel : Nat) (nodeId : String)
  | runTask (number : Nat) (outcome : Outcome)
  deriving DecidableEq, Repr

/-- One action on a tree. -/
def MessageTree.step (tree : MessageTree) : TreeAction → Option MessageTree
  | .addNode nodeId statusMessageId parentId => tree.addNode nodeId statusMessageId parentId
  | .updateState nodeId state => some (tree.updateState nodeId state)
  | .enqueue nodeId => some (tree.enqueueAndStart nodeId)
  | .cancelTree => some tree.cancelTree
  | .cancelNode nodeId => some (tree.cancelNode nodeId)
  | .cancelBranch fuel nodeId => tree.cancelBranch fuel nodeId
  | .removeBranch fuel nodeId => (tree.removeBranch fuel nodeId).map Prod.fst
  | .runTask number outcome => tree.stepTask number outcome

/-- A tree from its creation on. -/
def treeMachine : Machine MessageTree TreeAction where
  init tree := ∃ nodeId statusMessageId, tree = MessageTree.create nodeId statusMessageId
  step := MessageTree.step

end ClaudeProxy
