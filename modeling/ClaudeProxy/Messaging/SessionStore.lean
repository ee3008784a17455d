/-
**The session store and its debounced saves** (`messaging/session.py`).

* `Contents` — what a snapshot holds: trees, node mappings and message logs. `SessionStore` — the
  memory, the dirty flag, the timers and the writers; a writer has taken its snapshot and has not yet
  written its file.
* `sessionMachine` — the calls, each whole under the lock, the timer threads and the writers' file
  writes, in any order; a write may fail.
* `Kept` — the invariant: whatever is not in the file is with a timer or with a writer.
* `Orderly` — writers write in the order of their snapshots, and a failure finds another save.
* **`latest_state_is_saved`** — in orderly runs the file holds the memory, or a save is pending.
-/

import ClaudeProxy.Json
import ClaudeProxy.Library.Transition

namespace ClaudeProxy

/-! ### What is stored -/

/-- A serialized tree, a dict. -/
abbrev TreeData := List (String × Json)

/-- The node ids of `tree_data.get("nodes", {})`. -/
def treeNodes (treeData : TreeData) : List String :=
  match Assoc.get? "nodes" treeData with
  | some (.obj nodes) => nodes.map Prod.fst
  | _ => []

/-- A record of the message log. -/
structure MessageRecord where
  messageId : String
  ts : String
  direction : String
  kind : String
  deriving DecidableEq, Repr

/-- What `_snapshot` copies. -/
structure Contents where
  trees : Dict String TreeData := {}
  nodeToTree : Dict String String := {}
  messageLog : Dict String (List MessageRecord) := {}

/-! ### The model -/

/-- A `threading.Timer`: running, behind its delay and on its way to the lock, or through. -/
inductive TimerPhase where
  | armed
  | fired
  | over
  deriving DecidableEq

/-- `cancel` stops a timer that has not fired. -/
def TimerPhase.cancel : TimerPhase → TimerPhase
  | .armed => .over
  | .fired => .fired
  | .over => .over

/-- Where a writer is: before its `os.replace`, behind a failed write, or through. -/
inductive WriterPhase where
  | writing
  | failed
  | over
  deriving DecidableEq

/-- A writer with its snapshot; `version` says which memory it was taken of. -/
structure Writer where
  snapshot : Contents
  version : Nat
  phase : WriterPhase := .writing

/-- The store and its file. `version` counts the changes of the memory, `fileVersion` is the version
that was written last. -/
structure SessionStore where
  memory : Contents := {}
  messageLogIds : Dict String (List String) := {}
  messageLogCap : Option Int := none
  dirty : Bool := false
  saveTimer : Option Nat := none
  timers : List TimerPhase := []
  writers : List Writer := []
  file : Contents := {}
  version : Nat := 0
  fileVersion : Nat := 0

inductive StoreAction where
  | recordMessageId (platform chatId : String) (messageId : Option String)
    (direction kind ts : String)
  | saveTree (rootId : String) (treeData : TreeData)
  | registerNode (nodeId rootId : String)
  | removeNodeMappings (nodeIds : List String)
  | removeTree (rootId : String)
  | syncFromTreeData (trees : Dict String TreeData) (nodeToTree : Dict String String)
  | clearAll
  | flushPendingSave
  | fire (timer : Nat)
  | saveFromTimer (timer : Nat)
  | write (writer : Nat)
  | fail (writer : Nat)
  | markDirty (writer : Nat)

namespace SessionStore

/-- A store right after `_load`: its file holds what was loaded. -/
def load (contents : Contents) (messageLogCap : Option Int) : SessionStore where
  memory := contents
  messageLogIds := contents.messageLog.entries.foldl
    (fun ids entry => ids.set entry.1 (entry.2.map (·.messageId))) {}
  messageLogCap := messageLogCap
  file := contents

/-- The memory changes. -/
def change (store : SessionStore) (contents : Contents) : SessionStore :=
  { store with memory := contents, version := store.version + 1 }

/-- The timers behind `self._save_timer.cancel()`. -/
def cancelled (store : SessionStore) : List TimerPhase :=
  match store.saveTimer with
  | some timer => store.timers.modify timer TimerPhase.cancel
  | none => store.timers

def scheduleSave (store : SessionStore) : SessionStore :=
  { store with
    dirty := true
    timers := store.cancelled ++ [.armed]
    saveTimer := some store.cancelled.length }

/-- `_snapshot`, handed to a writer. -/
def takeSnapshot (store : SessionStore) : SessionStore :=
  { store with
    dirty := false
    writers := store.writers ++ [{ snapshot := store.memory, version := store.version }] }

def flushSave (store : SessionStore) : SessionStore :=
  { store with timers := store.cancelled, saveTimer := none }.takeSnapshot

def recordMessageId (store : SessionStore) (platform chatId : String) (messageId : Option String)
    (direction kind ts : String) : SessionStore :=
  match messageId with
  | none => store
  | some mid =>
    let chatKey := platform ++ ":" ++ chatId
    let seen := (store.messageLogIds.get? chatKey).getD []
    if mid ∈ seen then store
    else
      let items := (store.memory.messageLog.get? chatKey).getD [] ++ [⟨mid, ts, direction, kind⟩]
      let (kept, ids) :=
        match store.messageLogCap with
        | some cap =>
          if 0 < cap ∧ cap < items.length then
            let last := items.drop (items.length - cap.toNat)
            (last, last.map (·.messageId))
          else (items, seen ++ [mid])
        | none => (items, seen ++ [mid])
      { store.change { store.memory with
          messageLog := store.memory.messageLog.set chatKey kept } with
        messageLogIds := store.messageLogIds.set chatKey ids }.scheduleSave

def saveTree (store : SessionStore) (rootId : String) (treeData : TreeData) : SessionStore :=
  (store.change { store.memory with
    trees := store.memory.trees.set rootId treeData
    nodeToTree := (treeNodes treeData).foldl (fun mapping node => mapping.set node rootId)
      store.memory.nodeToTree }).scheduleSave

def registerNode (store : SessionStore) (nodeId rootId : String) : SessionStore :=
  (store.change { store.memory with
    nodeToTree := store.memory.nodeToTree.set nodeId rootId }).scheduleSave

def removeNodeMappings (store : SessionStore) (nodeIds : List String) : SessionStore :=
  (store.change { store.memory with
    nodeToTree := nodeIds.foldl Dict.erase store.memory.nodeToTree }).scheduleSave

/-- A tree whose data is an empty dict is popped like any other, but no save is scheduled for it. -/
def removeTree (store : SessionStore) (rootId : String) : SessionStore :=
  match store.memory.trees.get? rootId with
  | none => store
  | some [] => store.change { store.memory with trees := store.memory.trees.erase rootId }
  | some treeData =>
    (store.change { store.memory with
      trees := store.memory.trees.erase rootId
      nodeToTree := (treeNodes treeData).foldl Dict.erase store.memory.nodeToTree }).scheduleSave

def syncFromTreeData (store : SessionStore) (trees : Dict String TreeData)
    (nodeToTree : Dict String String) : SessionStore :=
  (store.change { store.memory with trees := trees, nodeToTree := nodeToTree }).scheduleSave

def clearAll (store : SessionStore) : SessionStore :=
  { store.change {} with messageLogIds := {} }.flushSave

/-- A timer thread under the lock. -/
def saveFromTimer (store : SessionStore) (timer : Nat) : Option SessionStore :=
  match store.timers[timer]? with
  | some .fired =>
    let awake := { store with timers := store.timers.set timer .over, saveTimer := none }
    some (if store.dirty then awake.takeSnapshot else awake)
  | _ => none

/-- A writer's next step, from one phase to another. -/
def moveWriter (store : SessionStore) (number : Nat) (before after : WriterPhase) :
    Option (SessionStore × Writer) :=
  match store.writers[number]? with
  | some writer =>
    if writer.phase = before then
      some ({ store with writers := store.writers.set number { writer with phase := after } }, writer)
    else none
  | none => none

def step (store : SessionStore) (action : StoreAction) : Option SessionStore :=
  match action with
  | .recordMessageId platform chatId messageId direction kind ts =>
    some (store.recordMessageId platform chatId messageId direction kind ts)
  | .saveTree rootId treeData => some (store.saveTree rootId treeData)
  | .registerNode nodeId rootId => some (store.registerNode nodeId rootId)
  | .removeNodeMappings nodeIds => some (store.removeNodeMappings nodeIds)
  | .removeTree rootId => some (store.removeTree rootId)
  | .syncFromTreeData trees nodeToTree => some (store.syncFromTreeData trees nodeToTree)
  | .clearAll => some store.clearAll
  | .flushPendingSave => some store.flushSave
  | .fire timer =>
    if store.timers[timer]? = some .armed then
      some { store with timers := store.timers.set timer .fired }
    else none
  | .saveFromTimer timer => store.saveFromTimer timer
  | .write number => (store.moveWriter number .writing .over).map fun (next, writer) =>
      { next with file := writer.snapshot, fileVersion := writer.version }
  | .fail number => (store.moveWriter number .writing .failed).map Prod.fst
  | .markDirty number => (store.moveWriter number .failed .over).map fun (next, _) =>
      { next with dirty := true }

end SessionStore

def sessionMachine : Machine SessionStore StoreAction where
  init store := ∃ contents cap, store = SessionStore.load contents cap
  step := SessionStore.step

/-! ### What is asked -/

namespace SessionStore

/-- A timer has been started, has not been cancelled, and has still to run `_save_from_timer`. -/
def Scheduled (store : SessionStore) : Prop := ∃ phase ∈ store.timers, phase ≠ .over

end SessionStore

/-- **The latest state is saved, or will be**: the file holds the memory, or a timer is scheduled, or
a writer with a snapshot of the memory has still to write, and behind it no writer with an older one
writes in the rest of the run. -/
def Saved (store : SessionStore) (rest : List StoreAction) : Prop :=
  store.file = store.memory ∨ store.Scheduled ∨
  ∃ number writer, store.writers[number]? = some writer ∧ writer.phase = .writing ∧
    writer.snapshot = store.memory ∧
    ∀ middle other later, rest = middle ++ .write other :: later → .write number ∈ middle →
      ∀ older, store.writers[other]? = some older → ¬ older.version < writer.version

/-- A writer has still to write a snapshot of the current memory. -/
def SessionStore.Current (store : SessionStore) (number : Nat) : Prop :=
  ∃ writer, store.writers[number]? = some writer ∧ writer.phase = .writing ∧
    writer.version = store.version

/-- No writer writes over a newer snapshot; the write of a current snapshot fails only while another
save is under way; no timer finds the store clean between a failed write and its mark; no tree is
removed whose data is empty. -/
def Orderly (store : SessionStore) (action : StoreAction) : Prop :=
  match action with
  | .write number => ∀ writer, store.writers[number]? = some writer →
      store.fileVersion ≤ writer.version
  | .fail number => ∀ writer, store.writers[number]? = some writer →
      writer.version = store.version →
      store.fileVersion = store.version ∨ store.Scheduled ∨
        ∃ other, other ≠ number ∧ store.Current other
  | .saveFromTimer _ => store.dirty = true ∨ ∀ writer ∈ store.writers, writer.phase ≠ .failed
  | .removeTree rootId => store.memory.trees.get? rootId ≠ some []
  | _ => True

/-! ### The invariant -/

/-- Whatever is not in the file is with a timer or with a writer, and a store that is not marked dirty
has no need of a timer. -/
structure Kept (store : SessionStore) : Prop where
  synced : store.fileVersion = store.version → store.file = store.memory
  bound : store.fileVersion ≤ store.version
  writers : ∀ (number : Nat) (writer : Writer), store.writers[number]? = some writer →
    writer.version ≤ store.version ∧
    (writer.version = store.version → writer.snapshot = store.memory)
  saved : store.fileVersion = store.version ∨ store.Scheduled ∨ ∃ number, store.Current number
  clean : store.dirty = false → store.fileVersion = store.version ∨
    (∃ number, store.Current number) ∨ ∃ writer ∈ store.writers, writer.phase = .failed

/-- The memory changes and a save is scheduled. -/
theorem Kept.scheduleSave {store : SessionStore} (kept : Kept store) (contents : Contents)
    (ids : Dict String (List String)) :
    Kept ({ store.change contents with messageLogIds := ids } : SessionStore).scheduleSave := by
  refine ⟨?_, ?_, ?_, .inr (.inl ?_), nofun⟩
  · intro same
    have same : store.fileVersion = store.version + 1 := same
    have bound := kept.bound
    omega
  · show store.fileVersion ≤ store.version + 1
    exact Nat.le_succ_of_le kept.bound
  · intro number writer found
    have old := (kept.writers number writer found).1
    refine ⟨Nat.le_succ_of_le old, ?_⟩
    intro same
    have same : writer.version = store.version + 1 := same
    omega
  · exact ⟨.armed, List.mem_append_right _ (List.mem_singleton_self _), nofun⟩

/-- A snapshot is taken. -/
theorem Kept.takeSnapshot {store : SessionStore}
    (synced : store.fileVersion = store.version → store.file = store.memory)
    (bound : store.fileVersion ≤ store.version)
    (writers : ∀ (number : Nat) (writer : Writer), store.writers[number]? = some writer →
      writer.version ≤ store.version ∧
      (writer.version = store.version → writer.snapshot = store.memory)) :
    Kept store.takeSnapshot := by
  have current : ∃ number, store.takeSnapshot.Current number :=
    ⟨store.writers.length, _, List.getElem?_concat_length, rfl, rfl⟩
  refine ⟨synced, bound, ?_, .inr (.inr current), fun _ => .inr (.inl current)⟩
  intro number writer found
  have found : (store.writers ++ [_])[number]? = some writer := found
  rw [List.getElem?_append] at found
  split_ifs at found with inside
  · exact writers number writer found
  · obtain rfl := List.mem_singleton.mp (List.mem_of_getElem? found)
    exact ⟨Nat.le_refl _, fun _ => rfl⟩

/-! ### The calls -/

/-- What a call of a client does to the store: nothing, or a change with a save scheduled. -/
theorem SessionStore.recordMessageId_cases (store : SessionStore) (platform chatId : String)
    (messageId : Option String) (direction kind ts : String) :
    store.recordMessageId platform chatId messageId direction kind ts = store ∨
    ∃ contents ids, store.recordMessageId platform chatId messageId direction kind ts =
      ({ store.change contents with messageLogIds := ids } : SessionStore).scheduleSave := by
  unfold SessionStore.recordMessageId
  cases messageId with
  | none => exact .inl rfl
  | some mid =>
    dsimp only
    split_ifs
    · exact .inl rfl
    · exact .inr ⟨_, _, rfl⟩

theorem SessionStore.removeTree_cases (store : SessionStore) {rootId : String}
    (filled : store.memory.trees.get? rootId ≠ some []) :
    store.removeTree rootId = store ∨
    ∃ contents, store.removeTree rootId = (store.change contents).scheduleSave := by
  unfold SessionStore.removeTree
  split
  · exact .inl rfl
  · rename_i empty
    exact absurd empty filled
  · exact .inr ⟨_, rfl⟩

theorem Kept.flushSave {store : SessionStore} (kept : Kept store) : Kept store.flushSave :=
  Kept.takeSnapshot kept.synced kept.bound kept.writers

theorem Kept.clearAll {store : SessionStore} (kept : Kept store) : Kept store.clearAll := by
  refine Kept.takeSnapshot ?_ (Nat.le_succ_of_le kept.bound) ?_
  · intro same
    have same : store.fileVersion = store.version + 1 := same
    have bound := kept.bound
    omega
  · intro number writer found
    have old := (kept.writers number writer found).1
    refine ⟨Nat.le_succ_of_le old, ?_⟩
    intro same
    have same : writer.version = store.version + 1 := same
    omega

/-! ### The timers and the writers -/

/-- A timer that fires is still to run. -/
theorem Kept.fire {store : SessionStore} (kept : Kept store) (timer : Nat) :
    Kept { store with timers := store.timers.set timer .fired } := by
  refine ⟨kept.synced, kept.bound, kept.writers, ?_, kept.clean⟩
  rcases kept.saved with synced | ⟨phase, member, running⟩ | current
  · exact .inl synced
  · refine .inr (.inl ?_)
    obtain ⟨place, there⟩ := List.mem_iff_getElem?.mp member
    by_cases same : place = timer
    · subst same
      refine ⟨.fired, List.mem_iff_getElem?.mpr ⟨place, ?_⟩, nofun⟩
      show (store.timers.set place .fired)[place]? = some .fired
      rw [List.getElem?_set_self', there]
      rfl
    · refine ⟨phase, List.mem_iff_getElem?.mpr ⟨place, ?_⟩, running⟩
      exact (List.getElem?_set_ne fun equal => same equal.symm).trans there
  · exact .inr (.inr current)

/-- A timer takes the snapshot, or finds nothing to save. -/
theorem Kept.saveFromTimer {store next : SessionStore} (kept : Kept store) {timer : Nat}
    (orderly : Orderly store (.saveFromTimer timer))
    (stepped : store.saveFromTimer timer = some next) : Kept next := by
  unfold SessionStore.saveFromTimer at stepped
  split at stepped
  · obtain rfl := Option.some.inj stepped
    cases dirty : store.dirty with
    | true => exact Kept.takeSnapshot kept.synced kept.bound kept.writers
    | false =>
      have settled : store.fileVersion = store.version ∨ ∃ number, store.Current number := by
        rcases kept.clean dirty with synced | current | ⟨writer, member, failed⟩
        · exact .inl synced
        · exact .inr current
        · rcases orderly with marked | nobody
          · rw [dirty] at marked
            exact nomatch marked
          · exact absurd failed (nobody writer member)
      rw [if_neg Bool.false_ne_true]
      refine ⟨kept.synced, kept.bound, kept.writers, ?_, ?_⟩
      · rcases settled with synced | current
        · exact .inl synced
        · exact .inr (.inr current)
      · intro _
        rcases settled with synced | current
        · exact .inl synced
        · exact .inr (.inl current)
  · exact nomatch stepped

/-- A writer moves from one phase to another. -/
theorem SessionStore.moveWriter_cases {store next : SessionStore} {number : Nat}
    {before after : WriterPhase} {writer : Writer}
    (moved : store.moveWriter number before after = some (next, writer)) :
    store.writers[number]? = some writer ∧ writer.phase = before ∧
      next = { store with writers := store.writers.set number { writer with phase := after } } := by
  unfold SessionStore.moveWriter at moved
  split at moved
  · split_ifs at moved with phase
    obtain ⟨rfl, rfl⟩ := Prod.mk.inj (Option.some.inj moved)
    exact ⟨‹_›, phase, rfl⟩
  · exact nomatch moved

/-- The writers behind such a move. -/
theorem getElem?_moved {writers : List Writer} {number place : Nat} {writer found : Writer}
    {after : WriterPhase} (here : writers[number]? = some writer)
    (there : (writers.set number { writer with phase := after })[place]? = some found) :
    ∃ old, writers[place]? = some old ∧ found.version = old.version ∧
      found.snapshot = old.snapshot ∧ (place ≠ number → found = old) := by
  by_cases same : place = number
  · subst same
    rw [List.getElem?_set_self', here] at there
    obtain rfl := Option.some.inj there
    exact ⟨writer, here, rfl, rfl, fun apart => absurd rfl apart⟩
  · rw [List.getElem?_set_ne fun equal => same equal.symm] at there
    exact ⟨found, there, rfl, rfl, fun _ => rfl⟩

/-- Another writer that is current stays so. -/
theorem SessionStore.Current.moved {store : SessionStore} {number other : Nat}
    (current : store.Current other) (apart : other ≠ number) (writer : Writer) :
    ∃ found, (store.writers.set number writer)[other]? = some found ∧ found.phase = .writing ∧
      found.version = store.version := by
  obtain ⟨found, there, writing, newest⟩ := current
  exact ⟨found, (List.getElem?_set_ne fun equal => apart equal.symm).trans there, writing, newest⟩

/-- The writers keep their versions and snapshots. -/
theorem Kept.writers_moved {store : SessionStore} (kept : Kept store) {number : Nat}
    {writer : Writer} {after : WriterPhase} (here : store.writers[number]? = some writer)
    (place : Nat) (found : Writer)
    (there : (store.writers.set number { writer with phase := after })[place]? = some found) :
    found.version ≤ store.version ∧
      (found.version = store.version → found.snapshot = store.memory) := by
  obtain ⟨old, known, version, snapshot, -⟩ := getElem?_moved here there
  obtain ⟨bound, newest⟩ := kept.writers place old known
  refine ⟨version ▸ bound, ?_⟩
  intro same
  rw [snapshot]
  exact newest (version.symm.trans same)

/-- A write in order. -/
theorem Kept.write {store next : SessionStore} (kept : Kept store) {number : Nat}
    (orderly : Orderly store (.write number))
    (stepped : store.step (.write number) = some next) : Kept next := by
  obtain ⟨⟨middle, writer⟩, moved, rfl⟩ := Option.map_eq_some_iff.mp stepped
  obtain ⟨here, writing, rfl⟩ := SessionStore.moveWriter_cases moved
  obtain ⟨bound, newest⟩ := kept.writers number writer here
  have order := orderly writer here
  -- an older write leaves the newer saves where they are
  have others : writer.version ≠ store.version → ∀ other, store.Current other → ∃ found,
      (store.writers.set number { writer with phase := .over })[other]? = some found ∧
      found.phase = .writing ∧ found.version = store.version := by
    intro outdated other current
    refine current.moved ?_ _
    rintro rfl
    obtain ⟨found, there, -, version⟩ := current
    rw [here] at there
    obtain rfl := Option.some.inj there
    exact outdated version
  have behind : writer.version ≠ store.version → store.fileVersion ≠ store.version := by
    intro outdated synced
    exact outdated (Nat.le_antisymm bound (synced ▸ order))
  refine ⟨newest, bound, kept.writers_moved here, ?_, ?_⟩
  · by_cases outdated : writer.version = store.version
    · exact .inl outdated
    · rcases kept.saved with synced | scheduled | ⟨other, current⟩
      · exact absurd synced (behind outdated)
      · exact .inr (.inl scheduled)
      · exact .inr (.inr ⟨other, others outdated other current⟩)
  · intro clean
    by_cases outdated : writer.version = store.version
    · exact .inl outdated
    · rcases kept.clean clean with synced | ⟨other, current⟩ | ⟨failed, member, phase⟩
      · exact absurd synced (behind outdated)
      · exact .inr (.inl ⟨other, others outdated other current⟩)
      · refine .inr (.inr ⟨failed, ?_, phase⟩)
        obtain ⟨place, there⟩ := List.mem_iff_getElem?.mp member
        refine List.mem_iff_getElem?.mpr ⟨place, ?_⟩
        refine (List.getElem?_set_ne ?_).trans there
        rintro rfl
        rw [here] at there
        obtain rfl := Option.some.inj there
        rw [writing] at phase
        exact nomatch phase

/-- A failure that finds another save. -/
theorem Kept.fail {store next : SessionStore} (kept : Kept store) {number : Nat}
    (orderly : Orderly store (.fail number))
    (stepped : store.step (.fail number) = some next) : Kept next := by
  obtain ⟨⟨middle, writer⟩, moved, rfl⟩ := Option.map_eq_some_iff.mp stepped
  obtain ⟨here, -, rfl⟩ := SessionStore.moveWriter_cases moved
  have found : (store.writers.set number { writer with phase := .failed })[number]? =
      some { writer with phase := .failed } := by
    rw [List.getElem?_set_self', here]
    rfl
  refine ⟨kept.synced, kept.bound, kept.writers_moved here, ?_, ?_⟩
  · by_cases newest : writer.version = store.version
    · rcases orderly writer here newest with synced | scheduled | ⟨other, apart, current⟩
      · exact .inl synced
      · exact .inr (.inl scheduled)
      · exact .inr (.inr ⟨other, current.moved apart _⟩)
    · rcases kept.saved with synced | scheduled | ⟨other, current⟩
      · exact .inl synced
      · exact .inr (.inl scheduled)
      · refine .inr (.inr ⟨other, current.moved ?_ _⟩)
        rintro rfl
        obtain ⟨same, there, -, version⟩ := current
        rw [here] at there
        obtain rfl := Option.some.inj there
        exact newest version
  · intro _
    exact .inr (.inr ⟨_, List.mem_of_getElem? found, rfl⟩)

/-- A failed writer marks the store dirty. -/
theorem Kept.markDirty {store next : SessionStore} (kept : Kept store) {number : Nat}
    (stepped : store.step (.markDirty number) = some next) : Kept next := by
  obtain ⟨⟨middle, writer⟩, moved, rfl⟩ := Option.map_eq_some_iff.mp stepped
  obtain ⟨here, failed, rfl⟩ := SessionStore.moveWriter_cases moved
  refine ⟨kept.synced, kept.bound, kept.writers_moved here, ?_, nofun⟩
  rcases kept.saved with synced | scheduled | ⟨other, current⟩
  · exact .inl synced
  · exact .inr (.inl scheduled)
  · refine .inr (.inr ⟨other, current.moved ?_ _⟩)
    rintro rfl
    obtain ⟨same, there, writing, -⟩ := current
    rw [here] at there
    obtain rfl := Option.some.inj there
    rw [failed] at writing
    exact nomatch writing

/-- **Every orderly step keeps the invariant.** -/
theorem kept_of_step {store next : SessionStore} {action : StoreAction} (kept : Kept store)
    (orderly : Orderly store action) (stepped : store.step action = some next) : Kept next := by
  cases action with
  | recordMessageId platform chatId messageId direction kind ts =>
    obtain rfl := Option.some.inj stepped
    rcases store.recordMessageId_cases platform chatId messageId direction kind ts with
      same | ⟨contents, ids, changed⟩
    · rw [same]
      exact kept
    · rw [changed]
      exact kept.scheduleSave contents ids
  | saveTree rootId treeData =>
    obtain rfl := Option.some.inj stepped
    exact kept.scheduleSave _ store.messageLogIds
  | registerNode nodeId rootId =>
    obtain rfl := Option.some.inj stepped
    exact kept.scheduleSave _ store.messageLogIds
  | removeNodeMappings nodeIds =>
    obtain rfl := Option.some.inj stepped
    exact kept.scheduleSave _ store.messageLogIds
  | removeTree rootId =>
    obtain rfl := Option.some.inj stepped
    rcases store.removeTree_cases orderly with same | ⟨contents, changed⟩
    · rw [same]
      exact kept
    · rw [changed]
      exact kept.scheduleSave contents store.messageLogIds
  | syncFromTreeData trees nodeToTree =>
    obtain rfl := Option.some.inj stepped
    exact kept.scheduleSave _ store.messageLogIds
  | clearAll =>
    obtain rfl := Option.some.inj stepped
    exact kept.clearAll
  | flushPendingSave =>
    obtain rfl := Option.some.inj stepped
    exact kept.flushSave
  | fire timer =>
    unfold SessionStore.step at stepped
    dsimp only at stepped
    split_ifs at stepped
    obtain rfl := Option.some.inj stepped
    exact kept.fire timer
  | saveFromTimer timer => exact kept.saveFromTimer orderly stepped
  | write number => exact kept.write orderly stepped
  | fail number => exact kept.fail orderly stepped
  | markDirty number => exact kept.markDirty stepped

theorem kept_of_reachable {store : SessionStore}
    (reached : sessionMachine.Reachable Orderly store) : Kept store := by
  apply reached.invariant
  · rintro store ⟨contents, cap, rfl⟩
    refine ⟨fun _ => rfl, Nat.le_refl 0, ?_, .inl rfl, fun _ => .inl rfl⟩
    intro number writer found
    have found : ([] : List Writer)[number]? = some writer := found
    rw [List.getElem?_nil] at found
    exact nomatch found
  · intro store action next kept orderly stepped
    exact kept_of_step kept orderly stepped

/-! ### The order of the writes -/

/-- Behind a run, the writers are still there, and the file has not gone back. -/
def Advances (store later : SessionStore) : Prop :=
  store.fileVersion ≤ later.fileVersion ∧
    ∀ (number : Nat) (writer : Writer), store.writers[number]? = some writer →
      ∃ same, later.writers[number]? = some same ∧ same.version = writer.version

theorem Advances.refl (store : SessionStore) : Advances store store :=
  ⟨Nat.le_refl _, fun _ writer found => ⟨writer, found, rfl⟩⟩

theorem Advances.trans {first second third : SessionStore} (one : Advances first second)
    (two : Advances second third) : Advances first third := by
  refine ⟨Nat.le_trans one.1 two.1, ?_⟩
  intro number writer found
  obtain ⟨middle, there, version⟩ := one.2 number writer found
  obtain ⟨last, behind, same⟩ := two.2 number middle there
  exact ⟨last, behind, same.trans version⟩

/-- A snapshot adds a writer behind the others. -/
theorem Advances.takeSnapshot {first store : SessionStore} (advances : Advances first store) :
    Advances first store.takeSnapshot := by
  refine advances.trans ⟨Nat.le_refl _, ?_⟩
  intro number writer found
  refine ⟨writer, ?_, rfl⟩
  have inside := (List.getElem?_eq_some_iff.mp found).1
  exact (List.getElem?_append_left inside).trans found

/-- A writer moves. -/
theorem Advances.moved {store : SessionStore} {number : Nat} {writer : Writer}
    {after : WriterPhase} {later : SessionStore} (here : store.writers[number]? = some writer)
    (file : store.fileVersion ≤ later.fileVersion)
    (writers : later.writers = store.writers.set number { writer with phase := after }) :
    Advances store later := by
  refine ⟨file, ?_⟩
  intro place found there
  rw [writers]
  by_cases same : place = number
  · subst same
    rw [here] at there
    obtain rfl := Option.some.inj there
    rw [List.getElem?_set_self', here]
    exact ⟨_, rfl, rfl⟩
  · exact ⟨found, (List.getElem?_set_ne fun equal => same equal.symm).trans there, rfl⟩

/-- A step that touches neither the writers nor the file. -/
theorem Advances.still {store later : SessionStore} (writers : later.writers = store.writers)
    (file : later.fileVersion = store.fileVersion) : Advances store later := by
  refine ⟨Nat.le_of_eq file.symm, ?_⟩
  intro number writer found
  rw [writers]
  exact ⟨writer, found, rfl⟩

theorem advances_of_step {store next : SessionStore} {action : StoreAction}
    (orderly : Orderly store action) (stepped : store.step action = some next) :
    Advances store next := by
  cases action with
  | recordMessageId platform chatId messageId direction kind ts =>
    obtain rfl := Option.some.inj stepped
    rcases store.recordMessageId_cases platform chatId messageId direction kind ts with
      same | ⟨contents, ids, changed⟩
    · rw [same]
      exact .refl store
    · rw [changed]
      exact .still rfl rfl
  | removeTree rootId =>
    obtain rfl := Option.some.inj stepped
    rcases store.removeTree_cases orderly with same | ⟨contents, changed⟩
    · rw [same]
      exact .refl store
    · rw [changed]
      exact .still rfl rfl
  | saveTree | registerNode | removeNodeMappings | syncFromTreeData =>
    obtain rfl := Option.some.inj stepped
    exact .still rfl rfl
  | clearAll =>
    obtain rfl := Option.some.inj stepped
    exact Advances.takeSnapshot (.still rfl rfl)
  | flushPendingSave =>
    obtain rfl := Option.some.inj stepped
    exact Advances.takeSnapshot (.still rfl rfl)
  | fire timer =>
    unfold SessionStore.step at stepped
    dsimp only at stepped
    split_ifs at stepped
    obtain rfl := Option.some.inj stepped
    exact .still rfl rfl
  | saveFromTimer timer =>
    have ran : store.saveFromTimer timer = some next := stepped
    unfold SessionStore.saveFromTimer at ran
    split at ran
    · obtain rfl := Option.some.inj ran
      split_ifs
      · exact Advances.takeSnapshot (.still rfl rfl)
      · exact .still rfl rfl
    · exact nomatch ran
  | write number =>
    obtain ⟨⟨middle, writer⟩, moved, rfl⟩ := Option.map_eq_some_iff.mp stepped
    obtain ⟨here, -, rfl⟩ := SessionStore.moveWriter_cases moved
    exact .moved here (orderly writer here) rfl
  | fail number =>
    obtain ⟨⟨middle, writer⟩, moved, rfl⟩ := Option.map_eq_some_iff.mp stepped
    obtain ⟨here, -, rfl⟩ := SessionStore.moveWriter_cases moved
    exact .moved here (Nat.le_refl _) rfl
  | markDirty number =>
    obtain ⟨⟨middle, writer⟩, moved, rfl⟩ := Option.map_eq_some_iff.mp stepped
    obtain ⟨here, -, rfl⟩ := SessionStore.moveWriter_cases moved
    exact .moved here (Nat.le_refl _) rfl

theorem advances_of_run {store later : SessionStore} {actions : List StoreAction}
    (orderly : sessionMachine.Obeys store actions Orderly)
    (ran : sessionMachine.run store actions = some later) : Advances store later :=
  (Machine.steps_of_obeys actions orderly ran).preserves
    (fun _ _ _ advances allowed stepped => advances.trans (advances_of_step allowed stepped))
    (.refl store)

/-- A write puts its writer's version into the file. -/
theorem SessionStore.fileVersion_of_write {store next : SessionStore} {number : Nat}
    {writer : Writer} (found : store.writers[number]? = some writer)
    (stepped : store.step (.write number) = some next) : next.fileVersion = writer.version := by
  obtain ⟨⟨middle, same⟩, moved, rfl⟩ := Option.map_eq_some_iff.mp stepped
  obtain ⟨here, -, rfl⟩ := SessionStore.moveWriter_cases moved
  rw [found] at here
  obtain rfl := Option.some.inj here
  rfl

/-- In an orderly run, no older snapshot is written behind a newer one. -/
theorem no_older_write {store last : SessionStore} {front back later : List StoreAction}
    {number other : Nat} {writer older : Writer}
    (orderly : sessionMachine.Obeys store
      (front ++ .write number :: (back ++ .write other :: later)) Orderly)
    (ran : sessionMachine.run store
      (front ++ .write number :: (back ++ .write other :: later)) = some last)
    (here : store.writers[number]? = some writer) (there : store.writers[other]? = some older) :
    writer.version ≤ older.version := by
  rw [Machine.run_append, Option.bind_eq_some_iff] at ran
  obtain ⟨first, ranFront, ran⟩ := ran
  have advances := advances_of_run (orderly.initial (List.prefix_append _ _)) ranFront
  obtain ⟨one, foundOne, versionOne⟩ := advances.2 number writer here
  have orderlyFirst := orderly.later ranFront
  rw [Machine.run, List.foldlM_cons] at ran
  obtain ⟨second, written, ran⟩ := Option.bind_eq_some_iff.mp ran
  have file := SessionStore.fileVersion_of_write foundOne written
  have ranWrite : sessionMachine.run first [.write number] = some second := by
    rw [Machine.run, List.foldlM_cons]
    exact Option.bind_eq_some_iff.mpr ⟨second, written, rfl⟩
  have orderlySecond : sessionMachine.Obeys second (back ++ .write other :: later) Orderly := by
    refine Machine.Obeys.later ?_ ranWrite
    exact orderlyFirst
  have ran : sessionMachine.run second (back ++ .write other :: later) = some last := ran
  rw [Machine.run_append, Option.bind_eq_some_iff] at ran
  obtain ⟨third, ranBack, -⟩ := ran
  have further := advances_of_run (orderlySecond.initial (List.prefix_append _ _)) ranBack
  have writeOnce := advances_of_run
    (orderlyFirst.initial (List.prefix_append [StoreAction.write number] _)) ranWrite
  obtain ⟨two, foundTwo, versionTwo⟩ :=
    ((advances.trans writeOnce).trans further).2 other older there
  have allowed := orderlySecond back (.write other)
    ⟨later, by rw [List.append_assoc]; rfl⟩ third ranBack two foundTwo
  have order := further.1
  omega

/-- **The latest state is saved, or will be**, at every point of an orderly run. -/
theorem latest_state_is_saved {first store last : SessionStore} {before after : List StoreAction}
    (start : sessionMachine.init first)
    (orderly : sessionMachine.Obeys first (before ++ after) Orderly)
    (ran : sessionMachine.run first before = some store)
    (rest : sessionMachine.run store after = some last) : Saved store after := by
  have kept := kept_of_reachable
    (Machine.reachable_of_obeys start before (orderly.initial (List.prefix_append _ _)) ran)
  rcases kept.saved with synced | scheduled | ⟨number, writer, found, writing, newest⟩
  · exact .inl (kept.synced synced)
  · exact .inr (.inl scheduled)
  · refine .inr (.inr ⟨number, writer, found, writing,
      (kept.writers number writer found).2 newest, ?_⟩)
    rintro middle other later rfl inside older there outdated
    obtain ⟨front, back, rfl⟩ := List.append_of_mem inside
    rw [List.append_assoc, List.cons_append] at rest orderly
    have order := no_older_write (orderly.later ran) rest found there
    omega

/-- A node is registered, its save is taken by the timer's thread and written. -/
theorem registeredNode_is_saved :
    ∃ store, sessionMachine.run (.load {} none) [.registerNode "n" "r", .fire 0,
      .saveFromTimer 0] = some store ∧ Saved store [.write 0] := by
  have ran : ∃ store last, sessionMachine.run (.load {} none) [.registerNode "n" "r", .fire 0,
      .saveFromTimer 0] = some store ∧ sessionMachine.run store [.write 0] = some last :=
    ⟨_, _, rfl, rfl⟩
  obtain ⟨store, last, ran, rest⟩ := ran
  refine ⟨store, ran, latest_state_is_saved ⟨{}, none, rfl⟩ ?_ ran rest⟩
  exact Machine.obeys_cons rfl trivial (Machine.obeys_cons rfl trivial
    (Machine.obeys_cons rfl (.inl rfl) (Machine.obeys_cons rfl (fun _ _ => Nat.zero_le _)
    Machine.obeys_nil)))

/-- **A late write**: the timer's thread has taken its snapshot, `clear_all` writes the empty store, and
then the old snapshot is written over it; nothing is left to save. -/
theorem lateWrite_undoes_clear :
    ∃ store, sessionMachine.run (.load {} none) [.registerNode "n" "r", .fire 0,
      .saveFromTimer 0, .clearAll, .write 1, .write 0] = some store ∧ ¬ Saved store [] := by
  refine ⟨_, rfl, ?_⟩
  rintro (synced | ⟨phase, member, running⟩ | ⟨number, writer, found, writing, -⟩)
  · have mapping := congrArg (fun contents : Contents => contents.nodeToTree.get? "n") synced
    exact absurd mapping (by decide)
  · have member : phase ∈ [TimerPhase.over] := member
    exact running (List.mem_singleton.mp member)
  · match number with
    | 0 =>
      obtain rfl := Option.some.inj found
      exact nomatch writing
    | 1 =>
      obtain rfl := Option.some.inj found
      exact nomatch writing
    | number + 2 => exact nomatch found

end ClaudeProxy
