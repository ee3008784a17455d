/-
**No tree is left stuck busy.**

* `Served` — a busy tree has a task that will still run `_process_next`: the invariant.
* `Unbroken` — the guard: a node that is started is in the tree, and a task that
  `cancel_node` or `cancel_branch` cancels is one whose `finally` is still to come.
* **`busy_tree_is_served`** — the invariant for the trees of every guarded run of a manager.
* `Task.isActive` means what it says: `active_task_processes_next`.
-/

import ClaudeProxy.Messaging.Exclusion

namespace ClaudeProxy

/-! ### The invariant -/

/-- If the tree is busy, a task will run `_process_next`. -/
structure Served (control : Control) : Prop where
  served : control.isProcessing = true →
    ∃ (number : Nat) (task : Task), control.tasks[number]? = some task ∧ task.isActive = true

/-- The task would not survive a `cancel()`: it has not begun, or waits for the lock on its way
out. -/
def Task.isExposed (task : Task) : Bool :=
  match task.phase with
  | .created | .skipping | .clearing | .dequeuing => true
  | _ => false

/-- A node that starts is in the tree; a task that is cancelled there survives it. -/
def Unbroken (tree : MessageTree) (action : TreeAction) : Prop :=
  match action with
  | .enqueue nodeId => tree.isProcessing = false → (tree.nodes.get? nodeId).isSome = true
  | .cancelNode nodeId =>
    tree.cancelsCurrent (.cancelNode nodeId) = true →
      ∀ number task, tree.currentLive = some (number, task) → task.isExposed = false
  | .cancelBranch fuel nodeId =>
    tree.cancelsCurrent (.cancelBranch fuel nodeId) = true →
      ∀ number task, tree.currentLive = some (number, task) → task.isExposed = false
  | .runTask number _ => ∀ task nodeId, tree.tasks[number]? = some task →
      task.phase = .skipping ∨ task.phase = .dequeuing → task.interrupted = false →
      tree.queue.deque.head? = some nodeId → nodeId ≠ "" →
      (tree.nodes.get? nodeId).isSome = true
  | _ => True

theorem Task.isActive_cancel {task : Task} (active : task.isActive = true)
    (safe : task.isExposed = false) : task.cancel.isActive = true := by
  obtain ⟨node, nodeId, phase, cancelled, interrupted⟩ := task
  cases phase <;> simp_all [Task.isActive, Task.isExposed, Task.cancel]

/-- A node of the tree that starts is served by its new task. -/
theorem Served.start (control : Control) (nodeId : String) {node : Option Nat}
    (known : node.isSome = true) : Served (control.start nodeId node) := by
  obtain ⟨node, rfl⟩ := Option.isSome_iff_exists.mp known
  refine ⟨fun _ => ⟨control.tasks.length, ⟨node, nodeId, .created, false, false⟩, ?_, rfl⟩⟩
  rw [Control.start, List.getElem?_append_right (Nat.le_refl _), Nat.sub_self]
  rfl

/-- An active task stays active when it moves on. -/
theorem Moves.staysActive {task : Task} {phase : Phase} (moves : Moves task phase)
    (active : task.isActive = true) :
    Task.isActive { task with phase := phase, interrupted := false } = true := by
  cases moves with
  | abandoned created stopped => exact absurd active (by simp [Task.isActive, created, stopped])
  | skips | begins | returns | raises | reports => rfl
  | interrupted waits stopped =>
    rcases waits with phase | phase | phase <;>
      exact absurd active (by simp [Task.isActive, phase, stopped])
  | finishes notifying => exact absurd active (by simp [Task.isActive, notifying])

/-- A task of a moved list of tasks: the moved one, or another one as it was. -/
theorem getElem?_move_self {control : Control} {number : Nat} {task : Task} {phase : Phase}
    (found : control.tasks[number]? = some task) :
    (control.move number task phase).tasks[number]? =
      some { task with phase := phase, interrupted := false } := by
  obtain ⟨inside, -⟩ := List.getElem?_eq_some_iff.mp found
  rw [Control.move, List.getElem?_set_self inside]

theorem getElem?_move_ne {control : Control} {number other : Nat} {task : Task} {phase : Phase}
    (apart : number ≠ other) :
    (control.move number task phase).tasks[other]? = control.tasks[other]? := by
  rw [Control.move, List.getElem?_set_ne apart]

/-- A task moves and stays active: the tree is served as before. -/
theorem Served.moved {control : Control} (holds : Served control) {number : Nat} {task : Task}
    {phase : Phase} (found : control.tasks[number]? = some task)
    (stays : task.isActive = true →
      Task.isActive { task with phase := phase, interrupted := false } = true) :
    Served (control.move number task phase) where
  served busy := by
    obtain ⟨other, active, otherFound, isActive⟩ := holds.served busy
    by_cases same : number = other
    · subst same
      obtain rfl := Option.some.inj (found.symm.trans otherFound)
      exact ⟨number, _, getElem?_move_self found, stays isActive⟩
    · exact ⟨other, active, (getElem?_move_ne same).trans otherFound, isActive⟩

/-- A cancelled task that is not exposed still serves the tree. -/
theorem Served.cancelCurrent {tree : MessageTree} (holds : Served tree.control)
    (safe : ∀ number task, tree.currentLive = some (number, task) → task.isExposed = false) :
    Served tree.control.cancelCurrent where
  served busy := by
    have wasBusy : tree.control.isProcessing = true := by
      rw [Control.cancelCurrent] at busy
      split at busy
      · exact busy
      · exact busy
    obtain ⟨number, task, found, active⟩ := holds.served wasBusy
    by_cases current : tree.currentTask = some number
    · have live : tree.currentLive = some (number, task) := by
        have foundTask : tree.tasks[number]? = some task := found
        have notDone : task.phase ≠ .done := by
          intro done
          rw [Task.isActive, done] at active
          cases active
        rw [MessageTree.currentLive, current]
        dsimp only
        rw [foundTask]
        exact if_neg notDone
      refine ⟨number, task.cancel, ?_, Task.isActive_cancel active (safe number task live)⟩
      have cancels : tree.control.cancelCurrent.tasks = tree.tasks.modify number Task.cancel := by
        rw [Control.cancelCurrent]
        have here : tree.control.currentTask = some number := current
        rw [here]
        rfl
      have foundTask : tree.tasks[number]? = some task := found
      rw [cancels, List.getElem?_modify, foundTask]
      simp
    · refine ⟨number, task, ?_, active⟩
      rw [Control.cancelCurrent]
      split
      · exact found
      · rename_i other here
        have apart : other ≠ number := fun same => current (by rw [← same]; exact here)
        rw [List.getElem?_modify, found]
        simp [apart]

/-! ### Guarded runs -/

/-- **One step keeps the invariant.** -/
theorem Served.step {tree next : MessageTree} {action : TreeAction} (holds : Served tree.control)
    (allowed : Unbroken tree action) (stepped : tree.step action = some next) :
    Served next.control := by
  have effect := step_effect stepped
  generalize next.control = result at effect ⊢
  cases effect with
  | quiet => exact holds
  | started free => exact .start _ _ (allowed free)
  | stopped => exact ⟨fun busy => nomatch busy⟩
  | cancelled reached =>
    refine holds.cancelCurrent fun number task live => ?_
    cases action with
    | cancelNode nodeId => exact allowed reached number task live
    | cancelBranch fuel nodeId => exact allowed reached number task live
    | _ => exact nomatch reached
  | moved found moves => exact holds.moved found moves.staysActive
  | cleared found clearing notStopped =>
    exact ⟨(holds.moved found fun _ => rfl).served⟩
  | freed => exact ⟨fun busy => nomatch busy⟩
  | dequeued found waits notStopped head named =>
    exact .start _ _ (allowed _ _ found waits notStopped head named)

theorem letsPass_unbroken : LetsPass Unbroken where
  cancelTree _ := trivial
  addNode _ _ _ _ := trivial
  updateState _ _ _ := trivial
  removeBranch _ _ _ := trivial

/-- A busy tree has a task that will run `_process_next`. -/
def IsServed (tree : MessageTree) : Prop :=
  tree.isProcessing = true →
    ∃ (number : Nat) (task : Task), tree.tasks[number]? = some task ∧ task.isActive = true

/-- **No tree is left stuck busy.** In every run of the manager in which a node that is started is
in its tree, and `cancel_node` and `cancel_branch` cancel no task before its first step or while it
waits for the lock, every busy tree has a task that will run `_process_next`. -/
theorem busy_tree_is_served {manager : TreeQueueManager}
    (reached : managerMachine.Reachable (Lifted Unbroken) manager) :
    ∀ tree ∈ manager.trees, IsServed tree := by
  intro tree member
  have holds : Served tree.control := by
    refine @Machine.Reachable.invariant _ _ treeMachine Unbroken
      (fun tree => Served tree.control) ?_ ?_ tree
      (trees_reachable letsPass_unbroken reached tree member)
    · rintro _ ⟨nodeId, statusMessageId, rfl⟩
      exact ⟨fun busy => nomatch busy⟩
    · intro state action next holds allowed stepped
      exact holds.step allowed stepped
  exact holds.served

/-- The first message's task serves the tree, and then the second one's. -/
theorem firstMessage_served :
    ∃ manager, managerMachine.run TreeQueueManager.empty messageWaits = some manager ∧
      (manager.trees.map fun tree => tree.isProcessing) = [true] ∧
      ∀ tree ∈ manager.trees, IsServed tree := by
  have obeys : managerMachine.Obeys TreeQueueManager.empty messageWaits (Lifted Unbroken) := by
    refine Machine.obeys_cons rfl trivial (Machine.obeys_cons rfl ?_ (Machine.obeys_cons rfl ?_
      (Machine.obeys_cons rfl trivial (Machine.obeys_cons rfl ?_ (Machine.obeys_cons rfl ?_
      (Machine.obeys_cons rfl ?_ (Machine.obeys_cons rfl ?_ (Machine.obeys_cons rfl ?_
      Machine.obeys_nil))))))))
    · intro object tree found here _
      obtain rfl : (0 : Nat) = object := Option.some.inj found
      obtain rfl := Option.some.inj here
      rfl
    rotate_left
    · -- The second message finds the tree busy.
      intro object tree found here free
      obtain rfl : (0 : Nat) = object := Option.some.inj found
      obtain rfl := Option.some.inj here
      exact absurd free (by decide)
    rotate_left 2
    · -- The first task takes the second message from the queue.
      intro tree here task nodeId inTasks _ _ head _
      obtain rfl := Option.some.inj here
      obtain rfl : "2" = nodeId := Option.some.inj head
      rfl
    all_goals
      intro tree here task nodeId inTasks waits
      obtain rfl := Option.some.inj here
      obtain rfl := Option.some.inj inTasks
      exact absurd waits (by decide)
  exact ⟨_, rfl, by decide, busy_tree_is_served (Machine.reachable_of_obeys rfl messageWaits obeys rfl)⟩

/-- A queued message is removed with its branch before the one ahead of it is done. -/
def removeQueuedBranch : List ManagerAction :=
  [.createTree "1" "s1", .enqueue "1", .runTask 0 0 .continues, .addToTree "1" "2" "s2",
    .enqueue "2", .removeBranch 5 "2", .runTask 0 0 .returns, .runTask 0 0 .continues,
    .runTask 0 0 .continues, .runTask 0 0 .continues]

/-- **Then the tree is busy with no task left.** -/
theorem removeQueuedBranch_is_stuck :
    ¬ ∀ manager, managerMachine.Reachable Machine.unguarded manager →
      ∀ tree ∈ manager.trees, IsServed tree := by
  intro claimed
  have shapes : (managerMachine.run TreeQueueManager.empty removeQueuedBranch).map
      (fun manager => manager.trees.map fun tree =>
        (tree.isProcessing, tree.tasks.map Task.isActive)) =
        some [(true, [false])] := by decide +kernel
  obtain ⟨manager, ran, shape⟩ := Option.map_eq_some_iff.mp shapes
  have reached := Machine.reachable_of_run_unguarded removeQueuedBranch rfl ran
  cases trees : manager.trees with
  | nil =>
    rw [trees] at shape
    exact nomatch shape
  | cons tree rest =>
    rw [trees, List.map_cons] at shape
    have here := (List.cons.inj shape).1
    have busy : tree.isProcessing = true := congrArg Prod.fst here
    have tasks : tree.tasks.map Task.isActive = [false] := congrArg Prod.snd here
    obtain ⟨number, task, found, active⟩ :=
      claimed manager reached tree (by rw [trees]; exact List.mem_cons_self) busy
    have inactive : task.isActive ∈ tree.tasks.map Task.isActive :=
      List.mem_map_of_mem (List.mem_of_getElem? found)
    rw [tasks, active] at inactive
    exact absurd inactive (by decide)

/-! ### Active tasks run `_process_next` -/

/-- Where a task moves to. -/
theorem getElem?_moveTask {tree : MessageTree} {number : Nat} {task : Task}
    (found : tree.tasks[number]? = some task) (phase : Phase) :
    (tree.moveTask number task phase).tasks[number]? =
      some { task with phase := phase, interrupted := false } :=
  @getElem?_move_self tree.control number task phase found

/-- `_process_next` adds a task at most, behind the others. -/
theorem getElem?_processNext (tree : MessageTree) {number : Nat} {task : Task}
    (found : tree.tasks[number]? = some task) :
    tree.processNext.tasks[number]? = some task := by
  have kept (nodeId : String) (node : Option Nat) :
      (tree.control.start nodeId node).tasks[number]? = some task := by
    cases node with
    | none => exact found
    | some node =>
      obtain ⟨inside, -⟩ := List.getElem?_eq_some_iff.mp found
      exact (List.getElem?_append_left inside).trans found
  have same : tree.processNext.tasks = tree.processNext.control.tasks := rfl
  rcases MessageTree.control_processNext tree with freed | ⟨nodeId, -, -, started⟩
  · rw [same, freed]
    exact found
  · rw [same, started]
    exact kept _ _

/-- The task is past the critical section of `_process_next`. -/
def Processed (tree : MessageTree) (number : Nat) : Prop :=
  ∃ task, tree.tasks[number]? = some task ∧ task.phase = .notifying

/-- It gets there. -/
def Processes (tree : MessageTree) (number : Nat) : Prop :=
  ∃ last, treeMachine.Steps Machine.unguarded tree last ∧ Processed last number

/-- Its own step brings it nearer. -/
theorem Processes.step {tree next : MessageTree} {number : Nat} {outcome : Outcome}
    (stepped : tree.stepTask number outcome = some next) (later : Processes next number) :
    Processes tree number := by
  obtain ⟨last, steps, processed⟩ := later
  have first : treeMachine.Steps Machine.unguarded tree next :=
    Machine.Steps.refl.by_ (.runTask number outcome) trivial stepped
  exact ⟨last, first.trans steps, processed⟩

section Phases

variable {tree : MessageTree} {number : Nat} {task : Task}
  (found : tree.tasks[number]? = some task)
include found

theorem processes_of_waiting (waits : task.phase = .skipping ∨ task.phase = .dequeuing)
    (notStopped : task.interrupted = false) : Processes tree number := by
  have stepped : tree.stepTask number .continues =
      some (tree.moveTask number task .notifying).processNext := by
    rw [MessageTree.stepTask, found]
    dsimp only
    rcases waits with phase | phase <;> rw [phase, notStopped] <;> rfl
  have there := getElem?_processNext _ (getElem?_moveTask found .notifying)
  exact .step stepped ⟨_, .refl, _, there, rfl⟩

theorem processes_of_clearing (clearing : task.phase = .clearing)
    (notStopped : task.interrupted = false) : Processes tree number := by
  have stepped : tree.stepTask number .continues =
      some (tree.moveTask number task .dequeuing).clearCurrentNode := by
    rw [MessageTree.stepTask, found]
    dsimp only
    rw [clearing, notStopped]
    rfl
  have moved : (tree.moveTask number task .dequeuing).clearCurrentNode.tasks[number]? = _ :=
    getElem?_moveTask found .dequeuing
  exact .step stepped (processes_of_waiting moved (Or.inr rfl) rfl)

theorem processes_of_running (running : task.phase = .running) : Processes tree number := by
  have stepped : tree.stepTask number .returns = some (tree.moveTask number task .clearing) := by
    rw [MessageTree.stepTask, found]
    dsimp only
    rw [running]
  exact .step stepped (processes_of_clearing (getElem?_moveTask found _) rfl rfl)

/-- **An active task that is left alone runs `_process_next`.** -/
theorem active_task_processes_next (active : task.isActive = true) :
    ∃ last, treeMachine.Steps Machine.unguarded tree last ∧ Processed last number := by
  show Processes tree number
  cases phase : task.phase with
  | running => exact processes_of_running found phase
  | clearing =>
    exact processes_of_clearing found phase (by simpa [Task.isActive, phase] using active)
  | skipping =>
    exact processes_of_waiting found (Or.inl phase) (by simpa [Task.isActive, phase] using active)
  | dequeuing =>
    exact processes_of_waiting found (Or.inr phase) (by simpa [Task.isActive, phase] using active)
  | created =>
    have notStopped : task.interrupted = false := by simpa [Task.isActive, phase] using active
    by_cases failed : tree.stateOf task.node = some .error
    · have stepped : tree.stepTask number .continues =
          some (tree.moveTask number task .skipping) := by
        rw [MessageTree.stepTask, found]
        dsimp only
        rw [phase, notStopped, failed]
        rfl
      exact .step stepped (processes_of_waiting (getElem?_moveTask found _) (Or.inl rfl) rfl)
    · have stepped : tree.stepTask number .continues =
          some (tree.moveTask number task .running) := by
        rw [MessageTree.stepTask, found]
        dsimp only
        rw [phase, notStopped, if_neg failed]
        rfl
      exact .step stepped (processes_of_running (getElem?_moveTask found _) rfl)
  | reporting =>
    by_cases stops : task.interrupted = true
    · have stepped : tree.stepTask number .continues =
          some (tree.moveTask number task .clearing) := by
        rw [MessageTree.stepTask, found]
        dsimp only
        rw [phase, stops]
        rfl
      exact .step stepped (processes_of_clearing (getElem?_moveTask found _) rfl rfl)
    · have stepped : tree.stepTask number .continues =
          some ((tree.moveTask number task .clearing).updateState task.nodeId .error) := by
        rw [MessageTree.stepTask, found]
        dsimp only
        rw [phase]
        exact if_neg stops
      have sameTasks : ((tree.moveTask number task .clearing).updateState task.nodeId
          .error).tasks = (tree.moveTask number task .clearing).tasks :=
        congrArg Control.tasks (MessageTree.control_updateState _ _ _)
      have moved : ((tree.moveTask number task .clearing).updateState task.nodeId
          .error).tasks[number]? = _ :=
        (congrArg (·[number]?) sameTasks).trans (getElem?_moveTask found .clearing)
      exact .step stepped (processes_of_clearing moved rfl rfl)
  | notifying | done => exact absurd active (by simp [Task.isActive, phase])

end Phases

end ClaudeProxy
