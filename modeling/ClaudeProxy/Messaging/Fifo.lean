/-
**A tree starts its nodes in the order in which they were enqueued.**

* `Line` — who was started, who waits, and whether the tree is busy.
* `LineEffect`, **`step_line`** — everything an action can do to the line of a tree.
* `QueueRun`, `queueMachine` — a tree with a record of the nodes that were enqueued and of those that
  were cancelled afterwards.
* `EnqueuesOnce` — the guard: no node is removed, and a node of the tree is enqueued at most once.
* **`fifo_of_reachable`** — first in, first out, none twice and none lost.
-/

import ClaudeProxy.Messaging.Control
import ClaudeProxy.Messaging.Shape

namespace ClaudeProxy

/-! ### The line of a tree -/

/-- The nodes that were started, the nodes that wait, and whether the tree is busy. -/
@[ext] structure Line where
  started : List String
  waiting : List String
  busy : Bool
  deriving DecidableEq

/-- The first that waits is started, or nobody waits and the tree becomes free. -/
def Line.next (line : Line) : Line :=
  match line.waiting with
  | [] => { line with busy := false }
  | nodeId :: rest => ⟨line.started ++ [nodeId], rest, true⟩

theorem Line.next_of_nil {line : Line} (nobody : line.waiting = []) :
    line.next = { line with busy := false } := by
  rw [Line.next, nobody]

theorem Line.next_of_cons {line : Line} {nodeId : String} {rest : List String}
    (first : line.waiting = nodeId :: rest) :
    line.next = ⟨line.started ++ [nodeId], rest, true⟩ := by
  rw [Line.next, first]

namespace MessageTree

/-- A node is started when its task is created. -/
def line (tree : MessageTree) : Line :=
  ⟨tree.tasks.map Task.nodeId, tree.queue.deque, tree.isProcessing⟩

/-- The nodes that `cancel_node` or `cancel_branch` cancels. -/
def cancels (tree : MessageTree) : TreeAction → List String
  | .cancelNode nodeId => if tree.cancellable nodeId then [nodeId] else []
  | .cancelBranch fuel nodeId =>
    ((tree.getDescendants fuel nodeId).getD []).filter (tree.cancellable ·)
  | _ => []

/-! ### The methods on the line -/

@[simp] theorem line_setState (tree : MessageTree) (node : Nat) (state : MessageState) :
    (tree.setState node state).line = tree.line := rfl

@[simp] theorem line_updateState (tree : MessageTree) (nodeId : String) (state : MessageState) :
    (tree.updateState nodeId state).line = tree.line := by
  rw [updateState]
  split
  · rfl
  · rfl

theorem Task.nodeId_cancel (task : Task) : task.cancel.nodeId = task.nodeId := by
  unfold Task.cancel
  split <;> rfl

@[simp] theorem line_cancelCurrentTask (tree : MessageTree) :
    tree.cancelCurrentTask.line = tree.line := by
  rw [cancelCurrentTask]
  split
  · rfl
  · rename_i number task live
    rw [currentLive] at live
    split at live
    · cases live
    · split at live
      · cases live
      · rename_i found
        split_ifs at live
        obtain ⟨rfl, rfl⟩ := Prod.mk.inj (Option.some.inj live)
        have same := map_set_of_same found (Task.nodeId_cancel _)
        exact Line.ext same rfl rfl

/-- A task moves on. -/
theorem line_moveTask {tree : MessageTree} {number : Nat} {task : Task}
    (found : tree.tasks[number]? = some task) (phase : Phase) :
    (tree.moveTask number task phase).line = tree.line :=
  Line.ext (map_set_of_same found rfl) rfl rfl

/-- A node of the tree is started. -/
theorem line_start {tree : MessageTree} {nodeId : String}
    (known : (tree.nodes.get? nodeId).isSome = true) :
    (tree.start nodeId).line = ⟨tree.line.started ++ [nodeId], tree.line.waiting, true⟩ := by
  obtain ⟨node, found⟩ := Option.isSome_iff_exists.mp known
  have same : (tree.setProcessingState (some nodeId) true).nodes = tree.nodes := rfl
  rw [start, same, found]
  refine Line.ext ?_ rfl rfl
  show (tree.tasks ++ [_]).map Task.nodeId = tree.tasks.map Task.nodeId ++ [nodeId]
  rw [List.map_append]
  rfl

/-- A node leaves the queue. -/
theorem removeIfPresent_deque (queue : SnapshotQueue) (item : String) :
    (queue.removeIfPresent item).deque = queue.deque ∨
      (queue.removeIfPresent item).deque = queue.deque.filter (· ≠ item) := by
  rw [SnapshotQueue.removeIfPresent]
  split_ifs
  · exact Or.inr rfl
  · exact Or.inl rfl

/-- Nodes leave the queue, all of them cancelled. -/
structure Withdraws (before after : Line) (cancelled : List String) : Prop where
  started : after.started = before.started
  waiting : after.waiting.Sublist before.waiting
  left : ∀ nodeId ∈ before.waiting, nodeId ∈ after.waiting ∨ nodeId ∈ cancelled
  busy : after.busy = before.busy

theorem Withdraws.refl (line : Line) (cancelled : List String) : Withdraws line line cancelled :=
  ⟨rfl, List.Sublist.refl _, fun _ => Or.inl, rfl⟩

theorem Withdraws.trans {first second third : Line} {cancelled : List String}
    (one : Withdraws first second cancelled) (two : Withdraws second third cancelled) :
    Withdraws first third cancelled where
  started := two.started.trans one.started
  waiting := two.waiting.trans one.waiting
  left nodeId member := by
    rcases one.left nodeId member with stays | cancelled
    · exact two.left nodeId stays
    · exact Or.inr cancelled
  busy := two.busy.trans one.busy

/-- `remove_if_present` of a node that is cancelled. -/
theorem withdraws_removeIfPresent (tree : MessageTree) (nodeId : String) (node : Nat)
    {cancelled : List String} (member : nodeId ∈ cancelled) :
    Withdraws tree.line
      (({ tree with queue := tree.queue.removeIfPresent nodeId } : MessageTree).setState node
        .error).line cancelled := by
  refine ⟨rfl, ?_, fun other waits => ?_, rfl⟩
  · show (tree.queue.removeIfPresent nodeId).deque.Sublist tree.queue.deque
    rcases removeIfPresent_deque tree.queue nodeId with same | filtered
    · rw [same]
    · rw [filtered]
      exact List.filter_sublist
  · show other ∈ (tree.queue.removeIfPresent nodeId).deque ∨ _
    rcases removeIfPresent_deque tree.queue nodeId with same | filtered
    · rw [same]
      exact Or.inl waits
    · rw [filtered, List.mem_filter]
      by_cases here : other = nodeId
      · exact Or.inr (here ▸ member)
      · exact Or.inl ⟨waits, by simpa using here⟩

theorem withdraws_cancelNode (tree : MessageTree) (nodeId : String) :
    Withdraws tree.line (tree.cancelNode nodeId).line (tree.cancels (.cancelNode nodeId)) := by
  rw [cancelNode]
  split
  · exact .refl _ _
  · rename_i node found
    by_cases final : ((tree.stateOf node).map MessageState.isFinal).getD true = true
    · rw [if_pos final]
      exact .refl _ _
    · have open_ : tree.cancellable nodeId = true := by
        rw [cancellable, found]
        simpa using final
      have member : nodeId ∈ tree.cancels (.cancelNode nodeId) := by
        rw [cancels, if_pos open_]
        exact List.mem_cons_self
      rw [if_neg final]
      dsimp only
      split_ifs
      · rw [← line_cancelCurrentTask tree]
        exact withdraws_removeIfPresent _ nodeId node member
      · exact withdraws_removeIfPresent tree nodeId node member

theorem withdraws_cancelInBranch (tree : MessageTree) (nodeId : String) {cancelled : List String}
    (member : tree.cancellable nodeId = true → nodeId ∈ cancelled) :
    Withdraws tree.line (tree.cancelInBranch nodeId).line cancelled := by
  rw [cancellable] at member
  rw [cancelInBranch]
  split
  · exact .refl _ _
  · rename_i node found
    rw [found] at member
    split_ifs with final
    · exact .refl _ _
    · rw [line_setState, line_cancelCurrentTask]
      exact .refl _ _
    · rw [Bool.not_eq_true] at final
      exact withdraws_removeIfPresent tree nodeId node (member (by simp only [final, Bool.not_false]))

/-- The nodes of a branch, one after the other. -/
theorem withdraws_foldl_cancelInBranch (ids : List String) {cancelled : List String} :
    ∀ {tree : MessageTree}, (∀ id ∈ ids, tree.cancellable id = true → id ∈ cancelled) →
      Withdraws tree.line (ids.foldl cancelInBranch tree).line cancelled := by
  induction ids with
  | nil => exact fun _ => .refl _ _
  | cons id rest ih =>
    intro tree member
    obtain ⟨here, later⟩ := List.forall_mem_cons.mp member
    refine (withdraws_cancelInBranch tree id here).trans (ih fun other inside open_ => ?_)
    exact later other inside ((cancelInBranch_keeps tree id other).2 open_)

theorem withdraws_cancelBranch {tree next : MessageTree} {fuel : Nat} {nodeId : String}
    (cancelled : tree.cancelBranch fuel nodeId = some next) :
    Withdraws tree.line next.line (tree.cancels (.cancelBranch fuel nodeId)) := by
  obtain ⟨branchIds, found, same⟩ := Option.bind_eq_some_iff.mp cancelled
  obtain rfl := Option.some.inj same
  refine withdraws_foldl_cancelInBranch _ fun id member open_ => ?_
  rw [cancels, found]
  exact List.mem_filter.mpr ⟨List.mem_dedup.mp member, open_⟩

end MessageTree

/-! ### Everything an action can do -/

/-- Every node that waits is in the tree. -/
def MessageTree.Known (tree : MessageTree) : Prop :=
  ∀ nodeId ∈ tree.queue.deque, nodeId ≠ "" ∧ (tree.nodes.get? nodeId).isSome = true

/-- The node that an action enqueues. -/
def TreeAction.enqueues : TreeAction → List String
  | .enqueue nodeId => [nodeId]
  | _ => []

/-- What an action does to the line of a tree. -/
inductive LineEffect (tree : MessageTree) : TreeAction → Line → Prop
  | queued {nodeId : String} : tree.line.busy = true →
    LineEffect tree (.enqueue nodeId) ⟨tree.line.started, tree.line.waiting ++ [nodeId], true⟩
  | started {nodeId : String} : tree.line.busy = false →
    LineEffect tree (.enqueue nodeId) ⟨tree.line.started ++ [nodeId], tree.line.waiting, true⟩
  | withdrawn {action : TreeAction} {line : Line} : action.enqueues = [] →
    MessageTree.Withdraws tree.line line (tree.cancels action) → LineEffect tree action line
  | processed {action : TreeAction} : action.enqueues = [] → LineEffect tree action tree.line.next

/-- The line stays as it is. -/
theorem LineEffect.quiet {tree : MessageTree} {action : TreeAction} (none_ : action.enqueues = []) :
    LineEffect tree action tree.line :=
  .withdrawn none_ (.refl _ _)

/-- `_process_next`. -/
theorem MessageTree.line_processNext {tree : MessageTree} (known : tree.Known) :
    tree.processNext.line = tree.line.next := by
  rw [processNext, SnapshotQueue.getNowait, Line.next]
  have same : tree.line.waiting = tree.queue.deque := rfl
  rw [same]
  cases waiting : tree.queue.deque with
  | nil => exact Line.ext rfl waiting rfl
  | cons nodeId rest =>
    obtain ⟨named, inTree⟩ := known nodeId (waiting ▸ List.mem_cons_self)
    dsimp only
    rw [if_neg named]
    exact @line_start { tree with queue := ⟨rest, _⟩ } nodeId inTree

/-- A task moves on and processes the next node. -/
theorem processNext_line {tree : MessageTree} {number : Nat} {outcome : Outcome} {task : Task}
    (known : tree.Known) (found : tree.tasks[number]? = some task) (phase : Phase) :
    LineEffect tree (.runTask number outcome) (tree.moveTask number task phase).processNext.line := by
  have moved : (tree.moveTask number task phase).Known := known
  rw [MessageTree.line_processNext moved, MessageTree.line_moveTask found]
  exact .processed rfl

theorem stepTask_line {tree next : MessageTree} {number : Nat} {outcome : Outcome}
    (known : tree.Known) (stepped : tree.stepTask number outcome = some next) :
    LineEffect tree (.runTask number outcome) next.line := by
  rw [MessageTree.stepTask] at stepped
  split at stepped
  · cases stepped
  · rename_i task found
    have moves (phase : Phase) :
        LineEffect tree (.runTask number outcome) (tree.moveTask number task phase).line := by
      rw [MessageTree.line_moveTask found]
      exact .quiet rfl
    split at stepped
    · cases stepped
    · split_ifs at stepped
      all_goals
        obtain rfl := Option.some.inj stepped
        exact moves _
    · split at stepped
      · obtain rfl := Option.some.inj stepped
        exact .quiet rfl
      · obtain rfl := Option.some.inj stepped
        exact moves _
      · obtain rfl := Option.some.inj stepped
        exact moves _
    · split_ifs at stepped
      · obtain rfl := Option.some.inj stepped
        exact moves _
      · obtain rfl := Option.some.inj stepped
        rw [MessageTree.line_updateState]
        exact moves _
    · split_ifs at stepped
      all_goals
        obtain rfl := Option.some.inj stepped
        exact moves _
    · split_ifs at stepped
      · obtain rfl := Option.some.inj stepped
        exact moves _
      · obtain rfl := Option.some.inj stepped
        exact processNext_line known found _
    · split_ifs at stepped
      · obtain rfl := Option.some.inj stepped
        exact moves _
      · obtain rfl := Option.some.inj stepped
        exact processNext_line known found _
    · obtain rfl := Option.some.inj stepped
      exact moves _

/-! ### Runs -/

/-- A tree, the nodes enqueued so far in their order, and those that were cancelled afterwards. -/
structure QueueRun where
  tree : MessageTree
  enqueued : List String
  cancelled : List String

/-- One action on the tree, recorded. -/
def QueueRun.step (run : QueueRun) (action : TreeAction) : Option QueueRun :=
  (run.tree.step action).map fun tree =>
    { tree
      enqueued := run.enqueued ++ action.enqueues
      cancelled := run.cancelled ++ (run.tree.cancels action).filter (· ∈ run.enqueued) }

/-- A tree that nothing was enqueued in, new or restored. -/
def queueMachine : Machine QueueRun TreeAction where
  init run := run.tree.tasks = [] ∧ run.tree.queue = SnapshotQueue.empty ∧
    run.tree.isProcessing = false ∧ run.enqueued = [] ∧ run.cancelled = []
  step := QueueRun.step

/-- **The guard**: no node is removed, and what is enqueued is a node of the tree, which has an id,
for the first time. -/
def EnqueuesOnce (run : QueueRun) (action : TreeAction) : Prop :=
  match action with
  | .cancelTree | .removeBranch _ _ => False
  | .enqueue nodeId => nodeId ∉ run.enqueued ∧ nodeId ≠ "" ∧
      (run.tree.nodes.get? nodeId).isSome = true
  | _ => True

/-- **First in, first out**: the started nodes are in the order in which they were enqueued, none is
started twice, and in a free tree every node that was not cancelled was started. -/
structure QueueRun.Fifo (run : QueueRun) : Prop where
  order : run.tree.line.started.Sublist run.enqueued
  once : run.tree.line.started.Nodup
  served : run.tree.isProcessing = false →
    ∀ nodeId ∈ run.enqueued, nodeId ∉ run.cancelled → nodeId ∈ run.tree.line.started

/-- **The invariant**: the started nodes and then the waiting ones are in the order of the calls, nobody
waits for a free tree, and no node is lost. -/
structure QueueRun.InLine (run : QueueRun) : Prop where
  distinct : run.enqueued.Nodup
  order : (run.tree.line.started ++ run.tree.line.waiting).Sublist run.enqueued
  idle : run.tree.line.busy = false → run.tree.line.waiting = []
  kept : ∀ nodeId ∈ run.enqueued, nodeId ∈ run.tree.line.started ∨
    nodeId ∈ run.tree.line.waiting ∨ nodeId ∈ run.cancelled
  known : ∀ nodeId ∈ run.enqueued, nodeId ≠ "" ∧ (run.tree.nodes.get? nodeId).isSome = true

theorem QueueRun.InLine.fifo {run : QueueRun} (inLine : run.InLine) : run.Fifo where
  order := (List.sublist_append_left _ _).trans inLine.order
  once := inLine.distinct.sublist ((List.sublist_append_left _ _).trans inLine.order)
  served free nodeId member notCancelled := by
    rcases inLine.kept nodeId member with started | waits | cancelled
    · exact started
    · rw [inLine.idle free] at waits
      exact (List.not_mem_nil waits).elim
    · exact absurd cancelled notCancelled

theorem QueueRun.InLine.waitingKnown {run : QueueRun} (inLine : run.InLine) : run.tree.Known :=
  fun nodeId member => inLine.known nodeId
    (inLine.order.subset (List.mem_append_right _ member))

/-- **Everything an action can do to the line of a tree.** -/
theorem step_line {run : QueueRun} {next : MessageTree} {action : TreeAction} (known : run.tree.Known)
    (allowed : EnqueuesOnce run action) (stepped : run.tree.step action = some next) :
    LineEffect run.tree action next.line := by
  cases action with
  | addNode nodeId statusMessageId parentId =>
    have added : run.tree.addNode nodeId statusMessageId parentId = some next := stepped
    rw [MessageTree.addNode] at added
    split_ifs at added
    obtain rfl := Option.some.inj added
    exact .quiet rfl
  | updateState nodeId state =>
    obtain rfl := Option.some.inj stepped
    rw [MessageTree.line_updateState]
    exact .quiet rfl
  | enqueue nodeId =>
    obtain rfl := Option.some.inj stepped
    rw [MessageTree.enqueueAndStart]
    split_ifs with busy
    · have queued : ({ run.tree with queue := run.tree.queue.putNowait nodeId } : MessageTree).line =
          ⟨run.tree.line.started, run.tree.line.waiting ++ [nodeId], true⟩ := Line.ext rfl rfl busy
      rw [queued]
      exact .queued busy
    · rw [MessageTree.line_start allowed.2.2]
      exact .started (Bool.eq_false_iff.mpr busy)
  | cancelTree => exact allowed.elim
  | cancelNode nodeId =>
    obtain rfl := Option.some.inj stepped
    exact .withdrawn rfl (MessageTree.withdraws_cancelNode run.tree nodeId)
  | cancelBranch fuel nodeId => exact .withdrawn rfl (MessageTree.withdraws_cancelBranch stepped)
  | removeBranch fuel nodeId => exact allowed.elim
  | runTask number outcome => exact stepTask_line known stepped

/-- Nodes stay. -/
theorem isSome_nodes_step {run : QueueRun} {next : MessageTree} {action : TreeAction} {nodeId : String}
    (allowed : EnqueuesOnce run action) (stepped : run.tree.step action = some next)
    (present : (run.tree.nodes.get? nodeId).isSome = true) :
    (next.nodes.get? nodeId).isSome = true := by
  by_cases quiet : action.reshapes = false
  · have nodes : next.nodes = run.tree.nodes := congrArg Shape.nodes (step_shape quiet stepped)
    rw [nodes]
    exact present
  · cases action with
    | addNode added statusMessageId parentId =>
      have added_ : run.tree.addNode added statusMessageId parentId = some next := stepped
      rw [MessageTree.addNode] at added_
      split_ifs at added_
      obtain rfl := Option.some.inj added_
      show ((run.tree.nodes.set added _).get? nodeId).isSome = true
      rw [Dict.get?_set]
      split_ifs
      · rfl
      · exact present
    | removeBranch fuel removed => exact allowed.elim
    | _ => exact absurd rfl quiet

namespace QueueRun.InLine

variable {run : QueueRun} {tree : MessageTree} {cancelled : List String}

/-- An action that enqueues nothing: the line may lose cancelled nodes. -/
theorem withdraws (inLine : run.InLine)
    (stays : ∀ nodeId, (run.tree.nodes.get? nodeId).isSome = true →
      (tree.nodes.get? nodeId).isSome = true)
    (withdraws : MessageTree.Withdraws run.tree.line tree.line cancelled) :
    QueueRun.InLine ⟨tree, run.enqueued,
      run.cancelled ++ cancelled.filter (· ∈ run.enqueued)⟩ where
  distinct := inLine.distinct
  order := by
    show (tree.line.started ++ tree.line.waiting).Sublist run.enqueued
    rw [withdraws.started]
    exact ((List.Sublist.refl _).append withdraws.waiting).trans inLine.order
  idle free := by
    have nothing := inLine.idle (withdraws.busy ▸ free)
    exact List.eq_nil_of_subset_nil (nothing ▸ withdraws.waiting.subset)
  kept nodeId member := by
    show nodeId ∈ tree.line.started ∨ nodeId ∈ tree.line.waiting ∨
      nodeId ∈ run.cancelled ++ cancelled.filter (· ∈ run.enqueued)
    rw [withdraws.started, List.mem_append, List.mem_filter, decide_eq_true_iff]
    rcases inLine.kept nodeId member with started | waits | before
    · exact Or.inl started
    · rcases withdraws.left nodeId waits with waits | now
      · exact Or.inr (Or.inl waits)
      · exact Or.inr (Or.inr (Or.inr ⟨now, member⟩))
    · exact Or.inr (Or.inr (Or.inl before))
  known nodeId member := ⟨(inLine.known nodeId member).1, stays nodeId (inLine.known nodeId member).2⟩

/-- The next node is processed. -/
theorem processed (inLine : run.InLine)
    (stays : ∀ nodeId, (run.tree.nodes.get? nodeId).isSome = true →
      (tree.nodes.get? nodeId).isSome = true) (line : tree.line = run.tree.line.next) :
    QueueRun.InLine ⟨tree, run.enqueued, run.cancelled ++ cancelled⟩ := by
  have known : ∀ nodeId ∈ run.enqueued, nodeId ≠ "" ∧ (tree.nodes.get? nodeId).isSome = true :=
    fun nodeId member => ⟨(inLine.known nodeId member).1, stays nodeId (inLine.known nodeId member).2⟩
  cases waiting : run.tree.line.waiting with
  | nil =>
    rw [Line.next_of_nil waiting] at line
    refine ⟨inLine.distinct, ?_, fun _ => ?_, fun nodeId member => ?_, known⟩
    · show (tree.line.started ++ tree.line.waiting).Sublist run.enqueued
      rw [line]
      exact inLine.order
    · show tree.line.waiting = []
      rw [line]
      exact waiting
    · show nodeId ∈ tree.line.started ∨ nodeId ∈ tree.line.waiting ∨ nodeId ∈ run.cancelled ++ cancelled
      rw [line]
      rcases inLine.kept nodeId member with started | waits | before
      · exact Or.inl started
      · exact Or.inr (Or.inl waits)
      · exact Or.inr (Or.inr (List.mem_append_left _ before))
  | cons head rest =>
    rw [Line.next_of_cons waiting] at line
    refine ⟨inLine.distinct, ?_, fun free => ?_, fun nodeId member => ?_, known⟩
    · show (tree.line.started ++ tree.line.waiting).Sublist run.enqueued
      rw [line]
      have order := inLine.order
      rw [waiting] at order
      rw [List.append_assoc]
      exact order
    · have busy : tree.line.busy = true := by rw [line]
      rw [busy] at free
      cases free
    · show nodeId ∈ tree.line.started ∨ nodeId ∈ tree.line.waiting ∨ nodeId ∈ run.cancelled ++ cancelled
      rw [line]
      rcases inLine.kept nodeId member with started | waits | before
      · exact Or.inl (List.mem_append_left _ started)
      · rw [waiting] at waits
        rcases List.mem_cons.mp waits with rfl | waits
        · exact Or.inl (List.mem_append_right _ List.mem_cons_self)
        · exact Or.inr (Or.inl waits)
      · exact Or.inr (Or.inr (List.mem_append_left _ before))

/-- A node is enqueued, and starts or waits at the end. -/
theorem enqueued (inLine : run.InLine) {nodeId : String} (fresh : nodeId ∉ run.enqueued)
    (named : nodeId ≠ "") (present : (run.tree.nodes.get? nodeId).isSome = true)
    (stays : ∀ nodeId, (run.tree.nodes.get? nodeId).isSome = true →
      (tree.nodes.get? nodeId).isSome = true)
    (busy : tree.line.busy = true)
    (line : tree.line.started ++ tree.line.waiting =
      run.tree.line.started ++ run.tree.line.waiting ++ [nodeId]) :
    QueueRun.InLine ⟨tree, run.enqueued ++ [nodeId], run.cancelled ++ cancelled⟩ where
  distinct := by
    refine List.nodup_append.mpr ⟨inLine.distinct, List.nodup_singleton _, ?_⟩
    rintro other member _ last rfl
    exact fresh (List.mem_singleton.mp last ▸ member)
  order := by
    show (tree.line.started ++ tree.line.waiting).Sublist (run.enqueued ++ [nodeId])
    rw [line]
    exact inLine.order.append (List.Sublist.refl _)
  idle free := by
    rw [busy] at free
    cases free
  kept other member := by
    have inNext : other ∈ tree.line.started ++ tree.line.waiting ∨ other ∈ run.cancelled := by
      rw [line]
      rcases List.mem_append.mp member with before | last
      · rcases inLine.kept other before with started | waits | cancelled
        · exact Or.inl (List.mem_append_left _ (List.mem_append_left _ started))
        · exact Or.inl (List.mem_append_left _ (List.mem_append_right _ waits))
        · exact Or.inr cancelled
      · exact Or.inl (List.mem_append_right _ last)
    rcases inNext with inLine | cancelled
    · rcases List.mem_append.mp inLine with started | waits
      · exact Or.inl started
      · exact Or.inr (Or.inl waits)
    · exact Or.inr (Or.inr (List.mem_append_left _ cancelled))
  known := by
    refine List.forall_mem_append.mpr ⟨fun other member => ?_, fun other last => ?_⟩
    · exact ⟨(inLine.known other member).1, stays other (inLine.known other member).2⟩
    · rw [List.mem_singleton.mp last]
      exact ⟨named, stays nodeId present⟩

theorem step {next : QueueRun} {action : TreeAction} (inLine : run.InLine)
    (allowed : EnqueuesOnce run action) (stepped : run.step action = some next) : next.InLine := by
  obtain ⟨tree, moved, rfl⟩ := Option.map_eq_some_iff.mp stepped
  have effect := step_line inLine.waitingKnown allowed moved
  have stays := fun nodeId => @isSome_nodes_step _ _ _ nodeId allowed moved
  generalize same : tree.line = line at effect
  cases effect with
  | queued busy =>
    obtain ⟨fresh, named, present⟩ := allowed
    refine inLine.enqueued fresh named present stays (by rw [same]) ?_
    rw [same, List.append_assoc]
  | started free =>
    obtain ⟨fresh, named, present⟩ := allowed
    refine inLine.enqueued fresh named present stays (by rw [same]) ?_
    rw [same, inLine.idle free, List.append_nil, List.append_nil]
  | withdrawn none_ withdraws =>
    rw [none_, List.append_nil]
    exact inLine.withdraws stays (same ▸ withdraws)
  | processed none_ =>
    rw [none_, List.append_nil]
    exact inLine.processed stays same

end QueueRun.InLine

/-- **First in, first out.** In every such run of a tree, nodes are started in the order in which
they were enqueued, each at most once, and whenever the tree is free every node that was enqueued and
not cancelled has been started. -/
theorem fifo_of_reachable {run : QueueRun} (reached : queueMachine.Reachable EnqueuesOnce run) :
    run.Fifo := by
  have inLine : run.InLine := by
    refine Machine.Reachable.invariant ?_ ?_ reached
    · rintro run ⟨tasks, queue, free, enqueued, cancelled⟩
      have started : run.tree.line.started = [] := by
        rw [MessageTree.line, tasks]
        rfl
      have waiting : run.tree.line.waiting = [] := by
        rw [MessageTree.line, queue]
        rfl
      refine ⟨?_, ?_, fun _ => waiting, ?_, ?_⟩
      · rw [enqueued]
        exact List.nodup_nil
      · rw [started, waiting]
        exact List.nil_sublist _
      · rw [enqueued]
        exact fun nodeId member => (List.not_mem_nil member).elim
      · rw [enqueued]
        exact fun nodeId member => (List.not_mem_nil member).elim
    · intro run action next inLine allowed stepped
      exact inLine.step allowed stepped
  exact inLine.fifo

/-- Three messages; the second is cancelled while it waits, and the first is answered. -/
def cancelledSecond : List TreeAction :=
  [.addNode "2" "s2" "1", .addNode "3" "s3" "2", .enqueue "1", .enqueue "2", .enqueue "3",
    .cancelNode "2", .runTask 0 .continues, .runTask 0 .returns, .runTask 0 .continues,
    .runTask 0 .continues]

theorem cancelledSecond_in_order : ∃ run, queueMachine.run ⟨.create "1" "s1", [], []⟩ cancelledSecond =
    some run ∧ run.tree.line.started = ["1", "3"] ∧ run.cancelled = ["2"] ∧ run.Fifo := by
  have shape : (queueMachine.run ⟨.create "1" "s1", [], []⟩ cancelledSecond).map
      (fun run => (run.tree.line.started, run.cancelled)) = some (["1", "3"], ["2"]) := by
    decide +kernel
  obtain ⟨run, ran, same⟩ := Option.map_eq_some_iff.mp shape
  obtain ⟨started, cancelled⟩ := Prod.mk.inj same
  have obeys : queueMachine.Obeys ⟨.create "1" "s1", [], []⟩ cancelledSecond EnqueuesOnce := by
    refine Machine.obeys_cons rfl trivial (Machine.obeys_cons rfl trivial (Machine.obeys_cons rfl ?_
      (Machine.obeys_cons rfl ?_ (Machine.obeys_cons rfl ?_ (Machine.obeys_cons rfl trivial
      (Machine.obeys_cons rfl trivial (Machine.obeys_cons rfl trivial (Machine.obeys_cons rfl trivial
      (Machine.obeys_cons rfl trivial Machine.obeys_nil)))))))))
    · exact ⟨List.not_mem_nil, by decide, rfl⟩
    · exact ⟨by decide, by decide, rfl⟩
    · exact ⟨by decide, by decide, rfl⟩
  have start : queueMachine.init ⟨.create "1" "s1", [], []⟩ := ⟨rfl, rfl, rfl, rfl, rfl⟩
  have reached := Machine.reachable_of_obeys start cancelledSecond obeys ran
  exact ⟨run, ran, started, cancelled, fifo_of_reachable reached⟩

end ClaudeProxy
