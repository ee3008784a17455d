/-
**One node processor at a time.**

* `Task.isActive` — the task will still run `_process_next`: it has not begun, runs its processor or
  is on its way out, and no `CancelledError` will stop it before.
* `Exclusive` — the invariant: one active task at most, and a task that has not reached its `finally`
  and was not cancelled is the current one.
* `FreeOfActive` — the guard: `enqueue` starts a node at once only when no task is active.
* `exclusive_of_reachable` — the invariant along every guarded run of a tree.
* **`one_processor_at_a_time`** — what it says of the trees of a manager.
-/

import ClaudeProxy.Messaging.Manager

namespace ClaudeProxy

/-! ### Active tasks -/

/-- The task will run `_process_next`, unless it is cancelled on its way. -/
def Task.isActive (task : Task) : Bool :=
  match task.phase with
  | .running | .reporting => true
  | .created | .skipping | .clearing | .dequeuing => !task.interrupted
  | .notifying | .done => false

/-- The task has not reached its `finally`, and will begin if it has not. -/
def Task.isBefore (task : Task) : Bool :=
  match task.phase with
  | .running | .reporting => true
  | .created => !task.interrupted
  | _ => false

theorem Task.isActive_of_isBefore {task : Task} (before : task.isBefore = true) :
    task.isActive = true := by
  obtain ⟨node, nodeId, phase, cancelled, interrupted⟩ := task
  cases phase <;> simp_all [Task.isBefore, Task.isActive]

theorem Task.isBefore_of_inProcessor {task : Task} (inside : task.phase.inProcessor = true) :
    task.isBefore = true := by
  obtain ⟨node, nodeId, phase, cancelled, interrupted⟩ := task
  cases phase <;> simp_all [Task.isBefore, Phase.inProcessor]

theorem Task.isActive_of_cancel {task : Task} (active : task.cancel.isActive = true) :
    task.isActive = true := by
  obtain ⟨node, nodeId, phase, cancelled, interrupted⟩ := task
  cases phase <;> simp_all [Task.cancel, Task.isActive]

theorem Task.cancelled_of_cancel {task : Task} (before : task.cancel.isBefore = true) :
    task.cancel.cancelled = true := by
  obtain ⟨node, nodeId, phase, cancelled, interrupted⟩ := task
  cases phase <;> simp_all [Task.cancel, Task.isBefore]

/-- A step that leaves the flags alone makes no task active. -/
theorem Moves.active {task : Task} {phase : Phase} (moves : Moves task phase)
    (active : Task.isActive { task with phase := phase, interrupted := false } = true) :
    task.isActive = true := by
  cases moves with
  | abandoned | interrupted | finishes => exact absurd active (by simp [Task.isActive])
  | skips created notStopped | begins created notStopped => simp [Task.isActive, created, notStopped]
  | returns running | raises running => simp [Task.isActive, running]
  | reports reporting => simp [Task.isActive, reporting]

/-- Nor does it bring a task back before its `finally`. -/
theorem Moves.before {task : Task} {phase : Phase} (moves : Moves task phase)
    (before : Task.isBefore { task with phase := phase, interrupted := false } = true) :
    task.isBefore = true := by
  cases moves with
  | abandoned | skips | returns | reports | interrupted | finishes =>
    exact absurd before (by simp [Task.isBefore])
  | begins created notStopped => simp [Task.isBefore, created, notStopped]
  | raises running => simp [Task.isBefore, running]

/-! ### The invariant -/

/-- One task at most is active, and one that has not reached its `finally` and was not cancelled is
the current task, its node the current node. -/
structure Exclusive (control : Control) : Prop where
  single : ∀ (first second : Nat) (task other : Task), control.tasks[first]? = some task →
    control.tasks[second]? = some other → task.isActive = true → other.isActive = true →
    first = second
  current : ∀ (number : Nat) (task : Task), control.tasks[number]? = some task →
    task.isBefore = true → task.cancelled = false →
    control.isProcessing = true ∧ control.currentNodeId = some task.nodeId ∧
      control.currentTask = some number

/-- No task is active. -/
def NoneActive (control : Control) : Prop :=
  ∀ (number : Nat) (task : Task), control.tasks[number]? = some task → task.isActive = false

theorem Exclusive.of_noneActive {control : Control} (none : NoneActive control) :
    Exclusive control where
  single first _ task _ found _ active _ := by
    rw [none first task found] at active
    exact nomatch active
  current number task found before _ := by
    have active := Task.isActive_of_isBefore before
    rw [none number task found] at active
    exact nomatch active

/-- A node that starts while no task is active. -/
theorem Exclusive.start {control : Control} (none : NoneActive control) (nodeId : String)
    (node : Option Nat) : Exclusive (control.start nodeId node) := by
  cases node with
  | none => exact .of_noneActive none
  | some node =>
    have tasks (number : Nat) (task : Task)
        (found : (control.start nodeId (some node)).tasks[number]? = some task) :
        control.tasks[number]? = some task ∨
          number = control.tasks.length ∧ task = ⟨node, nodeId, .created, false, false⟩ := by
      rw [Control.start, List.getElem?_append] at found
      split_ifs at found with inside
      · exact Or.inl found
      · obtain ⟨bound, rfl⟩ := List.getElem?_eq_some_iff.mp found
        rw [List.length_singleton] at bound
        exact Or.inr ⟨by omega, by simp⟩
    refine ⟨?_, ?_⟩
    · intro first second task other inFirst inSecond active otherActive
      rcases tasks first task inFirst with old | ⟨here, -⟩
      · rw [none first task old] at active
        exact nomatch active
      · rcases tasks second other inSecond with old | ⟨there, -⟩
        · rw [none second other old] at otherActive
          exact nomatch otherActive
        · rw [here, there]
    · intro number task found before uncancelled
      rcases tasks number task found with old | ⟨here, rfl⟩
      · have active := Task.isActive_of_isBefore before
        rw [none number task old] at active
        exact nomatch active
      · exact ⟨rfl, rfl, by rw [here]; rfl⟩

/-- The tasks after the current one was cancelled. -/
theorem getElem?_cancelCurrent {control : Control} {number : Nat} {task : Task}
    (found : control.cancelCurrent.tasks[number]? = some task) :
    ∃ old, control.tasks[number]? = some old ∧
      (task = old ∧ control.currentTask ≠ some number ∨
        task = old.cancel ∧ control.currentTask = some number) := by
  rw [Control.cancelCurrent] at found
  split at found
  · rename_i nothing
    have apart : control.currentTask ≠ some number := by
      rw [nothing]
      exact (Option.some_ne_none number).symm
    exact ⟨task, found, Or.inl ⟨rfl, apart⟩⟩
  · rename_i current here
    rw [List.getElem?_modify] at found
    obtain ⟨old, oldFound, changed⟩ := Option.map_eq_some_iff.mp found
    refine ⟨old, oldFound, ?_⟩
    by_cases same : current = number
    · rw [if_pos same] at changed
      exact Or.inr ⟨changed.symm, by rw [here, same]⟩
    · rw [if_neg same] at changed
      refine Or.inl ⟨changed.symm, ?_⟩
      rw [here]
      exact fun equal => same (Option.some.inj equal)

/-- Cancelling the current task, with or without freeing the tree. -/
theorem Exclusive.cancelCurrent {control : Control} (holds : Exclusive control) (result : Control)
    (sameTasks : result.tasks = control.cancelCurrent.tasks) : Exclusive result where
  single first second task other inFirst inSecond active otherActive := by
    rw [sameTasks] at inFirst inSecond
    have wasActive {number : Nat} {task : Task}
        (found : control.cancelCurrent.tasks[number]? = some task) (active : task.isActive = true) :
        ∃ old, control.tasks[number]? = some old ∧ old.isActive = true := by
      obtain ⟨old, oldFound, ⟨rfl, -⟩ | ⟨rfl, -⟩⟩ := getElem?_cancelCurrent found
      · exact ⟨task, oldFound, active⟩
      · exact ⟨old, oldFound, Task.isActive_of_cancel active⟩
    obtain ⟨old, oldFound, oldActive⟩ := wasActive inFirst active
    obtain ⟨oldOther, otherFound, otherOldActive⟩ := wasActive inSecond otherActive
    exact holds.single first second old oldOther oldFound otherFound oldActive otherOldActive
  current number task found before uncancelled := by
    rw [sameTasks] at found
    obtain ⟨old, oldFound, ⟨rfl, apart⟩ | ⟨rfl, -⟩⟩ := getElem?_cancelCurrent found
    · exact absurd (holds.current number task oldFound before uncancelled).2.2 apart
    · rw [Task.cancelled_of_cancel before] at uncancelled
      exact nomatch uncancelled

/-- The tasks after one of them moved. -/
theorem getElem?_move {control : Control} {number other : Nat} {task moved : Task} {phase : Phase}
    (found : (control.move number task phase).tasks[other]? = some moved) :
    number = other ∧ moved = { task with phase := phase, interrupted := false } ∨
      number ≠ other ∧ control.tasks[other]? = some moved := by
  rw [Control.move, List.getElem?_set] at found
  split_ifs at found with same inside
  · exact Or.inl ⟨same, (Option.some.inj found).symm⟩
  · exact Or.inr ⟨same, found⟩

/-- A step of a task that leaves the flags alone. -/
theorem Exclusive.moved {control : Control} (holds : Exclusive control) {number : Nat} {task : Task}
    {phase : Phase} (found : control.tasks[number]? = some task) (moves : Moves task phase) :
    Exclusive (control.move number task phase) := by
  have old {other : Nat} {moved : Task}
      (here : (control.move number task phase).tasks[other]? = some moved) :
      ∃ before, control.tasks[other]? = some before ∧
        (moved.isActive = true → before.isActive = true) ∧
        (moved.isBefore = true → before.isBefore = true) ∧
        moved.cancelled = before.cancelled ∧ moved.nodeId = before.nodeId := by
    rcases getElem?_move here with ⟨rfl, rfl⟩ | ⟨-, unchanged⟩
    · exact ⟨task, found, moves.active, moves.before, rfl, rfl⟩
    · exact ⟨moved, unchanged, id, id, rfl, rfl⟩
  refine ⟨?_, ?_⟩
  · intro first second one other inFirst inSecond active otherActive
    obtain ⟨oldOne, oneFound, oneActive, -⟩ := old inFirst
    obtain ⟨oldOther, otherFound, otherWasActive, -⟩ := old inSecond
    exact holds.single first second oldOne oldOther oneFound otherFound (oneActive active)
      (otherWasActive otherActive)
  · intro other moved here before uncancelled
    obtain ⟨oldTask, oldFound, -, wasBefore, sameCancelled, sameNode⟩ := old here
    rw [sameNode]
    exact holds.current other oldTask oldFound (wasBefore before)
      (by rw [← sameCancelled]; exact uncancelled)

/-- Once the one active task ran `_process_next`, none is. -/
theorem Exclusive.noneActive {control : Control} (holds : Exclusive control) {number : Nat}
    {task : Task} (found : control.tasks[number]? = some task) (active : task.isActive = true) :
    NoneActive (control.move number task .notifying) := by
  intro other moved here
  rcases getElem?_move here with ⟨-, rfl⟩ | ⟨apart, unchanged⟩
  · rfl
  · by_contra otherActive
    exact apart (holds.single number other task moved found unchanged active
      (by simpa using otherActive))

/-! ### Guarded runs -/

/-- A node is started at once by `enqueue` only when no task of the tree is active. -/
def FreeOfActive (tree : MessageTree) (action : TreeAction) : Prop :=
  match action with
  | .enqueue _ => tree.isProcessing = false → NoneActive tree.control
  | _ => True

/-- **One step keeps the invariant.** -/
theorem Exclusive.step {tree next : MessageTree} {action : TreeAction}
    (holds : Exclusive tree.control) (allowed : FreeOfActive tree action)
    (stepped : tree.step action = some next) : Exclusive next.control := by
  have dequeues {number : Nat} {task : Task} (found : tree.tasks[number]? = some task)
      (waits : task.phase = .skipping ∨ task.phase = .dequeuing)
      (notStopped : task.interrupted = false) :
      NoneActive (tree.control.move number task .notifying) := by
    refine holds.noneActive found ?_
    rcases waits with phase | phase <;> simp [Task.isActive, phase, notStopped]
  have effect := step_effect stepped
  generalize next.control = result at effect ⊢
  cases effect with
  | quiet => exact holds
  | started free => exact .start (allowed free) _ _
  | stopped => exact holds.cancelCurrent _ rfl
  | cancelled => exact holds.cancelCurrent _ rfl
  | moved found moves => exact holds.moved found moves
  | @cleared number outcome task found clearing notStopped =>
    have active : task.isActive = true := by simp [Task.isActive, clearing, notStopped]
    refine ⟨?_, ?_⟩
    · intro first second one other inFirst inSecond oneActive otherActive
      have old {place : Nat} {moved : Task}
          (here : (tree.control.move number task .dequeuing).tasks[place]? = some moved)
          (movedActive : moved.isActive = true) : number = place := by
        rcases getElem?_move here with ⟨same, -⟩ | ⟨-, unchanged⟩
        · exact same
        · exact holds.single number place task moved found unchanged active movedActive
      exact (old inFirst oneActive).symm.trans (old inSecond otherActive)
    · intro place moved here before uncancelled
      rcases getElem?_move here with ⟨-, rfl⟩ | ⟨apart, unchanged⟩
      · exact absurd before (by simp [Task.isBefore])
      · exact absurd (holds.single number place task moved found unchanged active
          (Task.isActive_of_isBefore before)) apart
  | freed found waits notStopped =>
    have none := dequeues found waits notStopped
    exact .of_noneActive fun place moved here => none place moved here
  | dequeued found waits notStopped head named =>
    exact .start (dequeues found waits notStopped) _ _

/-- **The invariant holds along every guarded run of a tree.** -/
theorem exclusive_of_reachable {tree : MessageTree}
    (reached : treeMachine.Reachable FreeOfActive tree) : Exclusive tree.control := by
  refine @Machine.Reachable.invariant _ _ treeMachine FreeOfActive
    (fun tree => Exclusive tree.control) ?_ ?_ tree reached
  · rintro _ ⟨nodeId, statusMessageId, rfl⟩
    exact .of_noneActive fun number task found => nomatch found
  · intro state action next holds allowed stepped
    exact holds.step allowed stepped

/-! ### The trees of a manager -/

/-- One node processor at most runs, and one that was not cancelled is what the flags say. -/
structure OneProcessor (tree : MessageTree) : Prop where
  single : ∀ (first second : Nat) (task other : Task), tree.tasks[first]? = some task →
    tree.tasks[second]? = some other → task.phase.inProcessor = true →
    other.phase.inProcessor = true → first = second
  current : ∀ (number : Nat) (task : Task), tree.tasks[number]? = some task →
    task.phase.inProcessor = true → task.cancelled = false →
    tree.isProcessing = true ∧ tree.currentNodeId = some task.nodeId

theorem Exclusive.oneProcessor {tree : MessageTree} (holds : Exclusive tree.control) :
    OneProcessor tree where
  single first second task other inFirst inSecond inside otherInside :=
    holds.single first second task other inFirst inSecond
      (Task.isActive_of_isBefore (Task.isBefore_of_inProcessor inside))
      (Task.isActive_of_isBefore (Task.isBefore_of_inProcessor otherInside))
  current number task found inside uncancelled :=
    have flags := holds.current number task found (Task.isBefore_of_inProcessor inside) uncancelled
    ⟨flags.1, flags.2.1⟩

theorem letsPass_freeOfActive : LetsPass FreeOfActive where
  cancelTree _ := trivial
  addNode _ _ _ _ := trivial
  updateState _ _ _ := trivial
  removeBranch _ _ _ := trivial

/-- **One processor at a time.** In every run of the manager in which `enqueue` starts a node at
once only when no task of its tree will still run `_process_next`, every tree has one node
processor at most, and one that was not cancelled is the current one of a busy tree. -/
theorem one_processor_at_a_time {manager : TreeQueueManager}
    (reached : managerMachine.Reachable (Lifted FreeOfActive) manager) :
    ∀ tree ∈ manager.trees, OneProcessor tree := fun tree member =>
  (exclusive_of_reachable (trees_reachable letsPass_freeOfActive reached tree member)).oneProcessor

/-- A message waits behind the first one, and begins when that is done. -/
def messageWaits : List ManagerAction :=
  [.createTree "1" "s1", .enqueue "1", .runTask 0 0 .continues, .addToTree "1" "2" "s2", .enqueue "2",
    .runTask 0 0 .returns, .runTask 0 0 .continues, .runTask 0 0 .continues, .runTask 0 1 .continues]

/-- The second message's processor begins when the first one's is done. -/
theorem firstMessage_alone :
    ∃ manager, managerMachine.run TreeQueueManager.empty messageWaits = some manager ∧
      (manager.trees.map fun tree => tree.tasks.map Task.phase) = [[.notifying, .running]] ∧
      ∀ tree ∈ manager.trees, OneProcessor tree := by
  have first : Lifted FreeOfActive (TreeQueueManager.empty.createTree "1" "s1") (.enqueue "1") := by
    intro object tree found here _ number task inTasks
    obtain rfl : (0 : Nat) = object := Option.some.inj found
    obtain rfl := Option.some.inj here
    exact nomatch inTasks
  have obeys : managerMachine.Obeys TreeQueueManager.empty messageWaits (Lifted FreeOfActive) := by
    refine Machine.obeys_cons rfl trivial (Machine.obeys_cons rfl first (Machine.obeys_cons rfl ?_
      (Machine.obeys_cons rfl trivial (Machine.obeys_cons rfl ?_ (Machine.obeys_cons rfl ?_
      (Machine.obeys_cons rfl ?_ (Machine.obeys_cons rfl ?_ (Machine.obeys_cons rfl ?_
      Machine.obeys_nil))))))))
    · exact fun tree _ => trivial
    · -- The second message finds the tree busy.
      intro object tree found here free
      obtain rfl : (0 : Nat) = object := Option.some.inj found
      obtain rfl := Option.some.inj here
      exact absurd free (by decide)
    all_goals exact fun tree _ => trivial
  exact ⟨_, rfl, by decide, one_processor_at_a_time (Machine.reachable_of_obeys rfl messageWaits obeys rfl)⟩

/-- A message is enqueued while the processor of a cancelled one still cleans up. -/
def enqueueWhileUnwinding : List ManagerAction :=
  [.createTree "1" "s1", .enqueue "1", .runTask 0 0 .continues, .cancelTree "1",
    .addToTree "1" "2" "s2", .enqueue "2", .runTask 0 1 .continues]

/-- **Then both processors run.** -/
theorem enqueueWhileUnwinding_runs_two :
    ¬ ∀ manager, managerMachine.Reachable Machine.unguarded manager →
      ∀ tree ∈ manager.trees, OneProcessor tree := by
  intro claimed
  have phases : (managerMachine.run TreeQueueManager.empty enqueueWhileUnwinding).map
      (fun manager => manager.trees.map fun tree => tree.tasks.map Task.phase) =
        some [[.running, .running]] := by decide +kernel
  obtain ⟨manager, ran, shape⟩ := Option.map_eq_some_iff.mp phases
  have reached := Machine.reachable_of_run_unguarded enqueueWhileUnwinding rfl ran
  cases trees : manager.trees with
  | nil =>
    rw [trees] at shape
    exact nomatch shape
  | cons tree rest =>
    rw [trees, List.map_cons] at shape
    have tasks : tree.tasks.map Task.phase = [.running, .running] := (List.cons.inj shape).1
    have single := (claimed manager reached tree (by rw [trees]; exact List.mem_cons_self)).single
    have at_ (number : Nat) (phase : Phase)
        (here : ([.running, .running] : List Phase)[number]? = some phase) :
        ∃ task, tree.tasks[number]? = some task ∧ task.phase = phase := by
      rw [← tasks, List.getElem?_map] at here
      exact Option.map_eq_some_iff.mp here
    obtain ⟨first, firstFound, firstRuns⟩ := at_ 0 .running rfl
    obtain ⟨second, secondFound, secondRuns⟩ := at_ 1 .running rfl
    exact absurd (single 0 1 first second firstFound secondFound (by rw [firstRuns]; rfl)
      (by rw [secondRuns]; rfl)) (by decide)

end ClaudeProxy
