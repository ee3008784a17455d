/-
**What an action does to the tasks and flags of a tree.**

* `Control` — the part of a tree that says who is processing: the tasks and the three flags.
* `MessageTree.cancelsCurrent` — when `cancel_node` or `cancel_branch` reaches the current task.
* `Effect`, **`step_effect`** — everything an action can do to the control part, once and for all: the
  invariants of the tree are proved from it, never from the methods.
-/

import ClaudeProxy.Messaging.TreeQueue

namespace ClaudeProxy

/-! ### Tasks and flags -/

/-- The tasks and flags of a tree. -/
@[ext] structure Control where
  tasks : List Task
  isProcessing : Bool
  currentNodeId : Option String
  currentTask : Option Nat

/-- The tasks and flags of a tree. -/
def MessageTree.control (tree : MessageTree) : Control :=
  ⟨tree.tasks, tree.isProcessing, tree.currentNodeId, tree.currentTask⟩

namespace Control

/-- No node is processed. -/
def free (control : Control) : Control :=
  { control with isProcessing := false, currentNodeId := none }

/-- The current node is forgotten. -/
def clear (control : Control) : Control := { control with currentNodeId := none }

/-- A node is processed, by a new task where the tree has it. -/
def start (control : Control) (nodeId : String) (node : Option Nat) : Control :=
  match node with
  | none => { control with isProcessing := true, currentNodeId := some nodeId }
  | some node =>
    { tasks := control.tasks ++ [⟨node, nodeId, .created, false, false⟩]
      isProcessing := true
      currentNodeId := some nodeId
      currentTask := some control.tasks.length }

/-- A task moves to another phase. -/
def move (control : Control) (number : Nat) (task : Task) (phase : Phase) : Control :=
  { control with
    tasks := control.tasks.set number { task with phase := phase, interrupted := false } }

/-- The current task is cancelled. -/
def cancelCurrent (control : Control) : Control :=
  match control.currentTask with
  | none => control
  | some number =>
    { control with tasks := control.tasks.modify number Task.cancel }

end Control

/-! ### The methods on the control part -/

namespace MessageTree

@[simp] theorem control_setState (tree : MessageTree) (node : Nat) (state : MessageState) :
    (tree.setState node state).control = tree.control := rfl

@[simp] theorem control_updateState (tree : MessageTree) (nodeId : String)
    (state : MessageState) : (tree.updateState nodeId state).control = tree.control := by
  rw [updateState]
  split
  · rfl
  · rfl

@[simp] theorem control_markUnlessFinal (tree : MessageTree) (node : Nat) :
    (tree.markUnlessFinal node).control = tree.control := by
  rw [markUnlessFinal]
  split
  · rfl
  · split_ifs
    · rfl
    · rfl

theorem control_foldl {α : Type} (step : MessageTree → α → MessageTree)
    (quiet : ∀ tree value, (step tree value).control = tree.control) (list : List α)
    (tree : MessageTree) : (list.foldl step tree).control = tree.control := by
  induction list generalizing tree with
  | nil => rfl
  | cons value rest ih => rw [List.foldl_cons, ih, quiet]

@[simp] theorem control_drainQueue (tree : MessageTree) :
    tree.drainQueue.control = tree.control := by
  have marked := control_foldl (fun (tree : MessageTree) nodeId => tree.updateState nodeId .error)
    (fun tree nodeId => control_updateState tree nodeId .error) tree.queue.deque tree
  exact marked

theorem modify_cancel_of_done {tasks : List Task} {number : Nat} {task : Task}
    (found : tasks[number]? = some task) (done : task.phase = .done) :
    tasks.modify number Task.cancel = tasks := by
  have unchanged : task.cancel = task := by rw [Task.cancel, done]
  refine List.ext_getElem? fun index => ?_
  rw [List.getElem?_modify]
  by_cases here : number = index
  · subst here
    rw [found]
    simp [unchanged]
  · simp [here]

/-- Cancelling the current task changes nothing but that task. -/
theorem control_cancelCurrentTask (tree : MessageTree) :
    tree.cancelCurrentTask.control = tree.control.cancelCurrent := by
  have cancels : tree.control.cancelCurrent =
      match tree.currentTask with
      | none => tree.control
      | some number => { tree.control with tasks := tree.tasks.modify number Task.cancel } := rfl
  rw [cancels, cancelCurrentTask, currentLive]
  cases current : tree.currentTask with
  | none => rfl
  | some number =>
    dsimp only
    cases found : tree.tasks[number]? with
    | none =>
      have outside : tree.tasks.modify number Task.cancel = tree.tasks :=
        List.modify_eq_self (by simpa using found)
      rw [outside]
      rfl
    | some task =>
      dsimp only
      by_cases done : task.phase = .done
      · rw [if_pos done, modify_cancel_of_done found done]
        rfl
      · rw [if_neg done]
        obtain ⟨inside, rfl⟩ := List.getElem?_eq_some_iff.mp found
        rw [List.modify_eq_set_getElem?, List.getElem?_eq_getElem inside]
        simp [control, current]

/-- `cancel_tree` cancels the current task and frees the tree. -/
theorem control_cancelTree (tree : MessageTree) :
    tree.cancelTree.control = tree.control.cancelCurrent.free := by
  have freed (other : MessageTree) :
      other.resetProcessingState.control = other.control.free := rfl
  rw [cancelTree, freed, control_foldl _ control_markUnlessFinal, control_drainQueue,
    ← control_cancelCurrentTask]
  split
  · split_ifs
    · rfl
    · split
      · rfl
      · rw [control_markUnlessFinal]
  · rfl

/-- `start` on the control part. -/
theorem control_start (tree : MessageTree) (nodeId : String) :
    (tree.start nodeId).control = tree.control.start nodeId (tree.nodes.get? nodeId) := by
  rw [start]
  have same : (tree.setProcessingState (some nodeId) true).nodes = tree.nodes := rfl
  rw [same]
  cases tree.nodes.get? nodeId with
  | none => rfl
  | some node => rfl

/-- `_process_next` frees the tree, or starts the node at the head of the queue. -/
theorem control_processNext (tree : MessageTree) :
    tree.processNext.control = tree.control.free ∨
      ∃ nodeId, tree.queue.deque.head? = some nodeId ∧ nodeId ≠ "" ∧
        tree.processNext.control = tree.control.start nodeId (tree.nodes.get? nodeId) := by
  rw [processNext, SnapshotQueue.getNowait]
  cases tree.queue.deque with
  | nil => exact Or.inl rfl
  | cons nodeId rest =>
    dsimp only
    by_cases blank : nodeId = ""
    · rw [if_pos blank]
      exact Or.inl rfl
    · rw [if_neg blank]
      refine Or.inr ⟨nodeId, rfl, blank, ?_⟩
      rw [control_start]
      rfl

/-! ### Reaching the current task -/

/-- The tree has the node, and its state is not final. -/
def cancellable (tree : MessageTree) (nodeId : String) : Bool :=
  match tree.nodes.get? nodeId with
  | none => false
  | some node => !((tree.stateOf node).map MessageState.isFinal).getD true

/-- Whether `cancel_node` or `cancel_branch` reaches the current task. -/
def cancelsCurrent (tree : MessageTree) : TreeAction → Bool
  | .cancelNode nodeId => tree.currentNodeId = some nodeId && tree.cancellable nodeId
  | .cancelBranch fuel nodeId =>
    match tree.getDescendants fuel nodeId with
    | none => false
    | some branchIds =>
      branchIds.any fun id => tree.currentNodeId = some id && tree.cancellable id
  | _ => false

/-- `cancel_node` on the control part. -/
theorem control_cancelNode (tree : MessageTree) (nodeId : String) :
    (tree.cancelNode nodeId).control =
      if tree.currentNodeId = some nodeId ∧ tree.cancellable nodeId = true then
        tree.control.cancelCurrent
      else tree.control := by
  rw [cancelNode, cancellable]
  cases tree.nodes.get? nodeId with
  | none => simp
  | some node =>
    dsimp only
    by_cases final : ((tree.stateOf node).map MessageState.isFinal).getD true = true
    · simp [final]
    · simp only [final, Bool.false_eq_true, if_false, Bool.not_false, and_true]
      by_cases current : tree.currentNodeId = some nodeId
      · simp only [current, if_true]
        exact control_cancelCurrentTask tree
      · simp only [current, if_false]
        rfl

/-- What one node of a branch leaves alone: the nodes, the current node and final states. -/
theorem cancelInBranch_keeps (tree : MessageTree) (nodeId other : String) :
    (tree.cancelInBranch nodeId).currentNodeId = tree.currentNodeId ∧
      ((tree.cancelInBranch nodeId).cancellable other = true → tree.cancellable other = true) := by
  have kept (start : MessageTree) (node : Nat) (sameNodes : start.nodes = tree.nodes)
      (sameHeap : start.heap = tree.heap) :
      (start.setState node .error).cancellable other = true → tree.cancellable other = true := by
    have nodes : (start.setState node .error).nodes = tree.nodes := sameNodes
    rw [cancellable, cancellable, nodes]
    cases tree.nodes.get? other with
    | none => exact id
    | some target =>
      dsimp only
      intro open_
      by_cases same : node = target
      · subst same
        rw [stateOf, setState, sameHeap, List.getElem?_modify] at open_
        cases found : tree.heap[node]? with
        | none =>
          rw [found] at open_
          exact absurd open_ (by simp)
        | some entry =>
          rw [found] at open_
          exact absurd open_ (by simp [MessageState.isFinal])
      · rw [stateOf, setState, sameHeap, List.getElem?_modify] at open_
        simpa [same, stateOf] using open_
  have cancelledNodes : tree.cancelCurrentTask.nodes = tree.nodes := by
    rw [cancelCurrentTask]
    split <;> rfl
  have cancelledHeap : tree.cancelCurrentTask.heap = tree.heap := by
    rw [cancelCurrentTask]
    split <;> rfl
  have cancelledCurrent : tree.cancelCurrentTask.currentNodeId = tree.currentNodeId := by
    rw [cancelCurrentTask]
    split <;> rfl
  rw [cancelInBranch]
  split
  · exact ⟨rfl, id⟩
  · split_ifs
    · exact ⟨rfl, id⟩
    · exact ⟨cancelledCurrent, kept _ _ cancelledNodes cancelledHeap⟩
    · exact ⟨rfl, kept _ _ rfl rfl⟩

theorem control_cancelInBranch (tree : MessageTree) (nodeId : String) :
    (tree.cancelInBranch nodeId).control =
      if tree.currentNodeId = some nodeId ∧ tree.cancellable nodeId = true then
        tree.control.cancelCurrent
      else tree.control := by
  rw [← control_cancelNode, cancelInBranch, cancelNode]
  cases tree.nodes.get? nodeId with
  | none => rfl
  | some node =>
    -- only the queue differs
    dsimp only
    split_ifs <;> rfl

theorem cancel_cancel (task : Task) : task.cancel.cancel = task.cancel := by
  obtain ⟨node, nodeId, phase, cancelled, interrupted⟩ := task
  cases phase <;> rfl

theorem cancelCurrent_cancelCurrent (control : Control) :
    control.cancelCurrent.cancelCurrent = control.cancelCurrent := by
  obtain ⟨tasks, isProcessing, currentNodeId, currentTask⟩ := control
  cases currentTask with
  | none => rfl
  | some number =>
    have twice : Task.cancel ∘ Task.cancel = Task.cancel := funext cancel_cancel
    simp [Control.cancelCurrent, List.modify_modify_eq, twice]

/-- The nodes of a branch, one after the other: the current task is cancelled if the branch reaches
it, and nothing else happens to the tasks and flags. -/
theorem control_foldl_cancelInBranch (ids : List String) (tree : MessageTree) :
    (ids.foldl cancelInBranch tree).control = tree.control ∨
      (ids.foldl cancelInBranch tree).control = tree.control.cancelCurrent ∧
        ∃ id ∈ ids, tree.currentNodeId = some id ∧ tree.cancellable id = true := by
  induction ids generalizing tree with
  | nil => exact Or.inl rfl
  | cons head rest ih =>
    rw [List.foldl_cons]
    obtain ⟨sameCurrent, -⟩ := cancelInBranch_keeps tree head head
    have here := control_cancelInBranch tree head
    rcases ih (tree.cancelInBranch head) with quiet | ⟨cancels, id, member, current, open_⟩
    · rw [quiet, here]
      split_ifs with reached
      · exact Or.inr ⟨rfl, head, List.mem_cons_self, reached.1, reached.2⟩
      · exact Or.inl rfl
    · rw [cancels, here]
      refine Or.inr ⟨?_, id, List.mem_cons_of_mem _ member, sameCurrent.symm.trans current,
        (cancelInBranch_keeps tree head id).2 open_⟩
      split_ifs
      · exact cancelCurrent_cancelCurrent _
      · rfl

/-- `cancel_branch` on the control part. -/
theorem control_cancelBranch {tree next : MessageTree} {fuel : Nat} {nodeId : String}
    (cancelled : tree.cancelBranch fuel nodeId = some next) :
    next.control = tree.control ∨
      next.control = tree.control.cancelCurrent ∧
        tree.cancelsCurrent (.cancelBranch fuel nodeId) = true := by
  rw [cancelBranch] at cancelled
  cases found : tree.getDescendants fuel nodeId with
  | none =>
    rw [found] at cancelled
    exact nomatch cancelled
  | some branchIds =>
    rw [found] at cancelled
    obtain rfl := Option.some.inj cancelled
    rcases control_foldl_cancelInBranch branchIds.dedup tree with quiet | ⟨cancels, id, member, both⟩
    · exact Or.inl quiet
    · refine Or.inr ⟨cancels, ?_⟩
      rw [cancelsCurrent, found]
      refine List.any_eq_true.mpr ⟨id, List.mem_dedup.mp member, ?_⟩
      simp [both]

theorem control_removeNodes (ids : List String) (tree : MessageTree) :
    (tree.removeNodes ids).1.control = tree.control := by
  induction ids generalizing tree with
  | nil => rfl
  | cons id rest ih =>
    rw [removeNodes]
    split
    · exact ih tree
    · dsimp only
      split_ifs
      · rfl
      · exact ih _

/-- `remove_branch` leaves the tasks and flags alone. -/
theorem control_removeBranch {tree : MessageTree} {fuel : Nat} {nodeId : String}
    {result : MessageTree × List String × Bool}
    (removed : tree.removeBranch fuel nodeId = some result) :
    result.1.control = tree.control := by
  rw [removeBranch] at removed
  split_ifs at removed
  · obtain rfl := Option.some.inj removed
    rfl
  · cases found : tree.getDescendants fuel nodeId with
    | none =>
      rw [found] at removed
      exact nomatch removed
    | some branchIds =>
      rw [found] at removed
      have kept := control_removeNodes branchIds tree
      dsimp only [Option.bind_eq_bind, Option.bind_some] at removed
      split at removed
      · obtain rfl := Option.some.inj removed
        exact kept
      · obtain rfl := Option.some.inj removed
        exact kept

end MessageTree

/-! ### Everything an action can do -/

/-- A step of a task that leaves the flags alone. -/
inductive Moves (task : Task) : Phase → Prop
  | abandoned : task.phase = .created → task.interrupted = true → Moves task .done
  | skips : task.phase = .created → task.interrupted = false → Moves task .skipping
  | begins : task.phase = .created → task.interrupted = false → Moves task .running
  | returns : task.phase = .running → Moves task .clearing
  | raises : task.phase = .running → Moves task .reporting
  | reports : task.phase = .reporting → Moves task .clearing
  | interrupted : task.phase = .clearing ∨ task.phase = .skipping ∨ task.phase = .dequeuing →
    task.interrupted = true → Moves task .done
  | finishes : task.phase = .notifying → Moves task .done

/-- The effects of an action on the tasks and flags of a tree. -/
inductive Effect (tree : MessageTree) : TreeAction → Control → Prop
  | quiet {action : TreeAction} : Effect tree action tree.control
  | started {nodeId : String} : tree.isProcessing = false →
    Effect tree (.enqueue nodeId) (tree.control.start nodeId (tree.nodes.get? nodeId))
  | stopped : Effect tree .cancelTree tree.control.cancelCurrent.free
  | cancelled {action : TreeAction} : tree.cancelsCurrent action = true →
    Effect tree action tree.control.cancelCurrent
  | moved {number : Nat} {outcome : Outcome} {task : Task} {phase : Phase} :
    tree.tasks[number]? = some task → Moves task phase →
    Effect tree (.runTask number outcome) (tree.control.move number task phase)
  | cleared {number : Nat} {outcome : Outcome} {task : Task} :
    tree.tasks[number]? = some task → task.phase = .clearing → task.interrupted = false →
    Effect tree (.runTask number outcome) (tree.control.move number task .dequeuing).clear
  | freed {number : Nat} {outcome : Outcome} {task : Task} :
    tree.tasks[number]? = some task → task.phase = .skipping ∨ task.phase = .dequeuing →
    task.interrupted = false →
    Effect tree (.runTask number outcome) (tree.control.move number task .notifying).free
  | dequeued {number : Nat} {outcome : Outcome} {task : Task} {nodeId : String} :
    tree.tasks[number]? = some task → task.phase = .skipping ∨ task.phase = .dequeuing →
    task.interrupted = false → tree.queue.deque.head? = some nodeId → nodeId ≠ "" →
    Effect tree (.runTask number outcome)
      ((tree.control.move number task .notifying).start nodeId (tree.nodes.get? nodeId))

/-- The step of a task. -/
theorem stepTask_effect {tree next : MessageTree} {number : Nat} {outcome : Outcome}
    (stepped : tree.stepTask number outcome = some next) :
    Effect tree (.runTask number outcome) next.control := by
  rw [MessageTree.stepTask] at stepped
  cases found : tree.tasks[number]? with
  | none =>
    rw [found] at stepped
    exact nomatch stepped
  | some task =>
    rw [found] at stepped
    dsimp only at stepped
    have dequeues (waits : task.phase = .skipping ∨ task.phase = .dequeuing)
        (ran : (if task.interrupted then some (tree.moveTask number task .done)
          else some (tree.moveTask number task .notifying).processNext) = some next) :
        Effect tree (.runTask number outcome) next.control := by
      split_ifs at ran with stops
      · obtain rfl := Option.some.inj ran
        exact .moved found (.interrupted (Or.inr waits) stops)
      · obtain rfl := Option.some.inj ran
        have notStopped : task.interrupted = false := by simpa using stops
        rcases MessageTree.control_processNext (tree.moveTask number task .notifying) with
          freed | ⟨nodeId, head, named, started⟩
        · rw [freed]
          exact .freed found waits notStopped
        · rw [started]
          exact .dequeued found waits notStopped head named
    cases phase : task.phase with
    | done =>
      rw [phase] at stepped
      exact nomatch stepped
    | created =>
      rw [phase] at stepped
      dsimp only at stepped
      split_ifs at stepped with stops failed
      · obtain rfl := Option.some.inj stepped
        exact .moved found (.abandoned phase stops)
      · obtain rfl := Option.some.inj stepped
        exact .moved found (.skips phase (by simpa using stops))
      · obtain rfl := Option.some.inj stepped
        exact .moved found (.begins phase (by simpa using stops))
    | running =>
      rw [phase] at stepped
      cases outcome with
      | continues =>
        obtain rfl := Option.some.inj stepped
        exact .quiet
      | returns =>
        obtain rfl := Option.some.inj stepped
        exact .moved found (.returns phase)
      | raises =>
        obtain rfl := Option.some.inj stepped
        exact .moved found (.raises phase)
    | reporting =>
      rw [phase] at stepped
      dsimp only at stepped
      split_ifs at stepped
      · obtain rfl := Option.some.inj stepped
        exact .moved found (.reports phase)
      · obtain rfl := Option.some.inj stepped
        rw [MessageTree.control_updateState]
        exact .moved found (.reports phase)
    | clearing =>
      rw [phase] at stepped
      dsimp only at stepped
      split_ifs at stepped with stops
      · obtain rfl := Option.some.inj stepped
        exact .moved found (.interrupted (Or.inl phase) stops)
      · obtain rfl := Option.some.inj stepped
        exact .cleared found phase (by simpa using stops)
    | skipping =>
      rw [phase] at stepped
      exact dequeues (Or.inl phase) stepped
    | dequeuing =>
      rw [phase] at stepped
      exact dequeues (Or.inr phase) stepped
    | notifying =>
      rw [phase] at stepped
      obtain rfl := Option.some.inj stepped
      exact .moved found (.finishes phase)

/-- **Everything an action can do to the tasks and flags of a tree.** -/
theorem step_effect {tree next : MessageTree} {action : TreeAction}
    (stepped : tree.step action = some next) : Effect tree action next.control := by
  cases action with
  | addNode nodeId statusMessageId parentId =>
    have added : tree.addNode nodeId statusMessageId parentId = some next := stepped
    rw [MessageTree.addNode] at added
    split_ifs at added
    obtain rfl := Option.some.inj added
    exact .quiet
  | updateState nodeId state =>
    obtain rfl := Option.some.inj stepped
    rw [MessageTree.control_updateState]
    exact .quiet
  | enqueue nodeId =>
    obtain rfl := Option.some.inj stepped
    rw [MessageTree.enqueueAndStart]
    split_ifs with busy
    · exact .quiet
    · rw [MessageTree.control_start]
      exact .started (by simpa using busy)
  | cancelTree =>
    obtain rfl := Option.some.inj stepped
    rw [MessageTree.control_cancelTree]
    exact .stopped
  | cancelNode nodeId =>
    obtain rfl := Option.some.inj stepped
    rw [MessageTree.control_cancelNode]
    split_ifs with reached
    · exact .cancelled (by simp [MessageTree.cancelsCurrent, reached])
    · exact .quiet
  | cancelBranch fuel nodeId =>
    rcases MessageTree.control_cancelBranch stepped with quiet | ⟨cancels, reached⟩
    · rw [quiet]
      exact .quiet
    · rw [cancels]
      exact .cancelled reached
  | removeBranch fuel nodeId =>
    obtain ⟨result, removed, rfl⟩ := Option.map_eq_some_iff.mp stepped
    rw [MessageTree.control_removeBranch removed]
    exact .quiet
  | runTask number outcome => exact stepTask_effect stepped

end ClaudeProxy
