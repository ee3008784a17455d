/-
**What is stored of the message trees (`to_dict` and `from_dict` of `messaging/trees`).**

* `Persistence.MessageNode`, `Persistence.MessageTree`, `Persistence.TreeRepository` — the classes with
  all their data, as values: a tree's two maps and its queue, a repository's trees and its index.
* `toDict`, `fromDict` — the encoders and decoders.
* `Coherent` — what the constructor and `add_node` establish while ids are not used twice.
* **`fromDict_toDict`** — a coherent repository comes back as it was, apart from what is not written:
  the contexts, three fields of each incoming message, and the queues.

`IsoFormat` stands for `datetime`; `now` is what `datetime.now(UTC)` returns for each node read.
-/

import ClaudeProxy.Json
import ClaudeProxy.Messaging.TreeQueue
import ClaudeProxy.Python

namespace ClaudeProxy

/-- `datetime.isoformat` and `datetime.fromisoformat`. -/
structure IsoFormat (datetime : Type) where
  isoformat : datetime → String
  fromisoformat : String → Except PyError datetime

/-- A time is written as a text that is not empty, and is read back from it. -/
structure IsoFormat.RoundTrips {datetime : Type} (iso : IsoFormat datetime) : Prop where
  returns : ∀ time, iso.fromisoformat (iso.isoformat time) = .ok time
  nonempty : ∀ time, iso.isoformat time ≠ ""

namespace Persistence

variable {datetime object : Type}

/-! ### The data -/

/-- `IncomingMessage`; `object` is the type of the platforms' raw events and of contexts. -/
structure IncomingMessage (datetime object : Type) where
  text : String
  chatId : String
  userId : String
  messageId : String
  platform : String
  replyToMessageId : Option String
  messageThreadId : Option String
  username : Option String
  statusMessageId : Option String
  timestamp : datetime
  rawEvent : Option object
  deriving DecidableEq

/-- `MessageNode`. -/
structure MessageNode (datetime object : Type) where
  nodeId : String
  incoming : IncomingMessage datetime object
  statusMessageId : String
  state : MessageState
  parentId : Option String
  sessionId : Option String
  childrenIds : List String
  createdAt : datetime
  completedAt : Option datetime
  errorMessage : Option String
  context : Option object
  deriving DecidableEq

/-- `MessageTree`, without its lock and its task. -/
structure MessageTree (datetime object : Type) where
  rootId : String
  nodes : Dict String (MessageNode datetime object)
  statusToNode : Dict String String
  queue : SnapshotQueue
  isProcessing : Bool
  currentNodeId : Option String
  deriving DecidableEq

/-- `TreeRepository`. -/
structure TreeRepository (datetime object : Type) where
  trees : Dict String (MessageTree datetime object)
  nodeToTree : Dict String String
  deriving DecidableEq

/-! ### Encoders -/

/-- `MessageState.value`. -/
def stateValue : MessageState → String
  | .pending => "pending"
  | .inProgress => "in_progress"
  | .completed => "completed"
  | .error => "error"

/-- A text or `None`. -/
def optional : Option String → Json
  | none => .null
  | some text => .str text

/-- `MessageNode.to_dict`. -/
def MessageNode.toDict (iso : IsoFormat datetime) (node : MessageNode datetime object) : Json :=
  .obj [
    ("node_id", .str node.nodeId),
    ("incoming", .obj [
      ("text", .str node.incoming.text),
      ("chat_id", .str node.incoming.chatId),
      ("user_id", .str node.incoming.userId),
      ("message_id", .str node.incoming.messageId),
      ("platform", .str node.incoming.platform),
      ("reply_to_message_id", optional node.incoming.replyToMessageId),
      ("message_thread_id", optional node.incoming.messageThreadId),
      ("username", optional node.incoming.username)]),
    ("status_message_id", .str node.statusMessageId),
    ("state", .str (stateValue node.state)),
    ("parent_id", optional node.parentId),
    ("session_id", optional node.sessionId),
    ("children_ids", .arr (node.childrenIds.map .str)),
    ("created_at", .str (iso.isoformat node.createdAt)),
    ("completed_at", optional (node.completedAt.map iso.isoformat)),
    ("error_message", optional node.errorMessage)]

/-- `MessageTree.to_dict`. -/
def MessageTree.toDict (iso : IsoFormat datetime) (tree : MessageTree datetime object) : Json :=
  .obj [
    ("root_id", .str tree.rootId),
    ("nodes", .obj (tree.nodes.entries.map fun entry => (entry.1, entry.2.toDict iso)))]

/-- `TreeRepository.to_dict`. -/
def TreeRepository.toDict (iso : IsoFormat datetime) (repository : TreeRepository datetime object) :
    Json :=
  .obj [
    ("trees", .obj (repository.trees.entries.map fun entry => (entry.1, entry.2.toDict iso))),
    ("node_to_tree", .obj (repository.nodeToTree.entries.map fun entry => (entry.1, .str entry.2)))]

/-! ### Decoders

A value of another type than its field has is an error of the model: the source would store it. -/

/-- `data[key]`. -/
def item (data : List (String × Json)) (key : String) : Except PyError Json :=
  match Assoc.get? key data with
  | some value => .ok value
  | none => .error (.other "KeyError" ("'" ++ key ++ "'"))

/-- A value as a dict. -/
def fieldsOf : Json → Except PyError (List (String × Json))
  | .obj fields => .ok fields
  | _ => .error (.typeError "not a dict")

/-- A value as a text. -/
def textOf : Json → Except PyError String
  | .str text => .ok text
  | _ => .error (.typeError "not a str")

/-- A value as a text or `None`. -/
def optionalOf : Json → Except PyError (Option String)
  | .null => .ok none
  | .str text => .ok (some text)
  | _ => .error (.typeError "not a str or None")

/-- A value as a list of texts. -/
def textsOf : Json → Except PyError (List String)
  | .arr items => items.mapM textOf
  | _ => .error (.typeError "not a list")

/-- `MessageState(value)`. -/
def stateOf : String → Except PyError MessageState
  | "pending" => .ok .pending
  | "in_progress" => .ok .inProgress
  | "completed" => .ok .completed
  | "error" => .ok .error
  | value => .error (.valueError ("'" ++ value ++ "' is not a valid MessageState"))

/-- The time of completion: only a text that is not empty is read. -/
def completionOf (iso : IsoFormat datetime) (value : Json) : Except PyError (Option datetime) := do
  match ← optionalOf value with
  | none => pure none
  | some text => if text = "" then pure none else some <$> iso.fromisoformat text

/-- `MessageNode.from_dict`. -/
def MessageNode.fromDict (iso : IsoFormat datetime) (now : datetime) (data : Json) :
    Except PyError (MessageNode datetime object) := do
  let data ← fieldsOf data
  let incomingData ← fieldsOf (← item data "incoming")
  let incoming : IncomingMessage datetime object := {
    text := ← textOf (← item incomingData "text")
    chatId := ← textOf (← item incomingData "chat_id")
    userId := ← textOf (← item incomingData "user_id")
    messageId := ← textOf (← item incomingData "message_id")
    platform := ← textOf (← item incomingData "platform")
    replyToMessageId := ← optionalOf (Json.getKey incomingData "reply_to_message_id")
    messageThreadId := ← optionalOf (Json.getKey incomingData "message_thread_id")
    username := ← optionalOf (Json.getKey incomingData "username")
    statusMessageId := none
    timestamp := now
    rawEvent := none }
  pure {
    nodeId := ← textOf (← item data "node_id")
    incoming := incoming
    statusMessageId := ← textOf (← item data "status_message_id")
    state := ← stateOf (← textOf (← item data "state"))
    parentId := ← optionalOf (Json.getKey data "parent_id")
    sessionId := ← optionalOf (Json.getKey data "session_id")
    childrenIds := ← textsOf ((Assoc.get? "children_ids" data).getD (.arr []))
    createdAt := ← iso.fromisoformat (← textOf (← item data "created_at"))
    completedAt := ← completionOf iso (Json.getKey data "completed_at")
    errorMessage := ← optionalOf (Json.getKey data "error_message")
    context := none }

namespace MessageTree

/-- `MessageTree(root_node)`. -/
def new (rootNode : MessageNode datetime object) : MessageTree datetime object where
  rootId := rootNode.nodeId
  nodes := (∅ : Dict String (MessageNode datetime object)).set rootNode.nodeId rootNode
  statusToNode := (∅ : Dict String String).set rootNode.statusMessageId rootNode.nodeId
  queue := SnapshotQueue.empty
  isProcessing := false
  currentNodeId := none

/-- `_add_node_from_dict`. -/
def addNodeFromDict (tree : MessageTree datetime object) (node : MessageNode datetime object) :
    MessageTree datetime object :=
  { tree with
    nodes := tree.nodes.set node.nodeId node
    statusToNode := tree.statusToNode.set node.statusMessageId node.nodeId }

/-- One round of the loop of `from_dict`. -/
def readNode (iso : IsoFormat datetime) (now : String → datetime) (rootId : String)
    (tree : MessageTree datetime object) (entry : String × Json) :
    Except PyError (MessageTree datetime object) :=
  if entry.1 ≠ rootId then do
    let node ← MessageNode.fromDict iso (now entry.1) entry.2
    pure (tree.addNodeFromDict node)
  else pure tree

/-- `MessageTree.from_dict`. -/
def fromDict (iso : IsoFormat datetime) (now : String → datetime) (data : Json) :
    Except PyError (MessageTree datetime object) := do
  let data ← fieldsOf data
  let rootId ← textOf (← item data "root_id")
  let nodesData ← fieldsOf (← item data "nodes")
  let rootNode ← MessageNode.fromDict iso (now rootId) (← item nodesData rootId)
  nodesData.foldlM (readNode iso now rootId) (new rootNode)

end MessageTree

/-- A dict read entry by entry. -/
def readDict {value : Type} (read : String → Json → Except PyError value)
    (data : List (String × Json)) : Except PyError (Dict String value) :=
  data.foldlM (fun dict entry => do pure (dict.set entry.1 (← read entry.1 entry.2))) ∅

/-- `TreeRepository.from_dict`. -/
def TreeRepository.fromDict (iso : IsoFormat datetime) (now : String → String → datetime) (data : Json) :
    Except PyError (TreeRepository datetime object) := do
  let data ← fieldsOf data
  let treesData ← fieldsOf ((Assoc.get? "trees" data).getD (.obj []))
  let trees ← readDict (fun rootId => MessageTree.fromDict iso (now rootId)) treesData
  let nodeToTree ← fieldsOf ((Assoc.get? "node_to_tree" data).getD (.obj []))
  pure ⟨trees, ← readDict (fun _ => textOf) nodeToTree⟩

/-! ### What comes back -/

/-- A node as it comes back: its context and the passing fields of its message are lost. -/
def MessageNode.restored (node : MessageNode datetime object) (now : datetime) :
    MessageNode datetime object :=
  { node with
    incoming := { node.incoming with statusMessageId := none, timestamp := now, rawEvent := none }
    context := none }

/-- A tree as it comes back: with nothing queued and nothing running. -/
def MessageTree.restored (tree : MessageTree datetime object) (now : String → datetime) :
    MessageTree datetime object :=
  { tree with
    nodes := tree.nodes.mapValues fun nodeId node => node.restored (now nodeId)
    queue := SnapshotQueue.empty
    isProcessing := false
    currentNodeId := none }

/-- A repository as it comes back. -/
def TreeRepository.restored (repository : TreeRepository datetime object)
    (now : String → String → datetime) : TreeRepository datetime object :=
  { repository with trees := repository.trees.mapValues fun rootId tree => tree.restored (now rootId) }

/-- The root comes first, every node stands under its own id, and the status index lists the nodes
with their status ids, which are distinct as they are its keys. -/
structure MessageTree.Coherent (tree : MessageTree datetime object) : Prop where
  rootFirst : ∃ root rest, tree.nodes.entries = (tree.rootId, root) :: rest
  keyed : ∀ entry ∈ tree.nodes.entries, entry.2.nodeId = entry.1
  indexed : tree.statusToNode.entries =
    tree.nodes.entries.map fun entry => (entry.2.statusMessageId, entry.1)

/-! ### Fields -/

@[simp] theorem except_ok_bind {α β : Type} (value : α) (next : α → Except PyError β) :
    (Except.ok value >>= next) = next value := rfl

@[simp] theorem optionalOf_optional (value : Option String) : optionalOf (optional value) = .ok value := by
  cases value with
  | none => rfl
  | some text => rfl

@[simp] theorem stateOf_stateValue (state : MessageState) : stateOf (stateValue state) = .ok state := by
  cases state with
  | pending => rfl
  | inProgress => rfl
  | completed => rfl
  | error => rfl

@[simp] theorem textsOf_arr (texts : List String) : textsOf (.arr (texts.map .str)) = .ok texts := by
  show (texts.map Json.str).mapM textOf = Except.ok texts
  induction texts with
  | nil => rfl
  | cons text rest ih =>
    rw [List.map_cons, List.mapM_cons, ih]
    rfl

theorem completionOf_optional {iso : IsoFormat datetime} (roundTrips : iso.RoundTrips)
    (time : Option datetime) : completionOf iso (optional (time.map iso.isoformat)) = .ok time := by
  cases time with
  | none => rfl
  | some time =>
    show (if iso.isoformat time = "" then pure none else some <$> iso.fromisoformat (iso.isoformat time)) =
      Except.ok (some time)
    rw [if_neg (roundTrips.nonempty time), roundTrips.returns time]
    rfl

/-- **A node comes back.** -/
theorem MessageNode.readBack {iso : IsoFormat datetime} (roundTrips : iso.RoundTrips)
    (node : MessageNode datetime object) (now : datetime) :
    MessageNode.fromDict iso now (node.toDict iso) = .ok (node.restored now) := by
  simp [fromDict, toDict, fieldsOf, item, Json.getKey, Assoc.get?, textOf, restored,
    completionOf_optional roundTrips, roundTrips.returns, pure, Except.pure]

/-! ### Trees -/

/-- Dictionaries with the same entries are the same. -/
theorem eq_of_entries {value : Type} {first second : Dict String value}
    (same : first.entries = second.entries) : first = second := by
  cases first
  cases second
  simpa only [Dict.mk.injEq] using same

namespace MessageTree

variable {iso : IsoFormat datetime}

/-- **The loop of `from_dict`** appends the nodes that it reads, and their status ids. -/
theorem foldlM_addNodeFromDict (roundTrips : iso.RoundTrips) (now : String → datetime) (rootId : String)
    (rest : List (String × MessageNode datetime object)) :
    ∀ tree : MessageTree datetime object,
      (∀ entry ∈ rest, entry.1 ≠ rootId ∧ entry.2.nodeId = entry.1) →
      (tree.nodes.entries.map Prod.fst ++ rest.map Prod.fst).Nodup →
      (tree.statusToNode.entries.map Prod.fst ++ rest.map fun entry => entry.2.statusMessageId).Nodup →
      ∃ nodes statusToNode,
        (rest.map fun entry => (entry.1, entry.2.toDict iso)).foldlM (readNode iso now rootId) tree =
          .ok { tree with nodes := nodes, statusToNode := statusToNode } ∧
        nodes.entries = tree.nodes.entries ++
          rest.map (fun entry => (entry.1, entry.2.restored (now entry.1))) ∧
        statusToNode.entries = tree.statusToNode.entries ++
          rest.map (fun entry => (entry.2.statusMessageId, entry.1)) := by
  induction rest with
  | nil =>
    intro tree _ _ _
    exact ⟨tree.nodes, tree.statusToNode, rfl, by simp, by simp⟩
  | cons entry rest ih =>
    intro tree proper freshIds freshStatus
    obtain ⟨⟨notRoot, keyed⟩, properRest⟩ := List.forall_mem_cons.mp proper
    rw [List.map_cons, List.nodup_append] at freshIds freshStatus
    have newId : entry.1 ∉ tree.nodes.entries.map Prod.fst := fun inside =>
      freshIds.2.2 entry.1 inside entry.1 List.mem_cons_self rfl
    have newStatus : entry.2.statusMessageId ∉ tree.statusToNode.entries.map Prod.fst := fun inside =>
      freshStatus.2.2 _ inside _ List.mem_cons_self rfl
    have nodes : (tree.addNodeFromDict (entry.2.restored (now entry.1))).nodes.entries =
        tree.nodes.entries ++ [(entry.1, entry.2.restored (now entry.1))] := by
      show Assoc.set entry.2.nodeId (entry.2.restored (now entry.1)) tree.nodes.entries = _
      rw [keyed]
      exact Assoc.set_of_notMem newId
    have statuses : (tree.addNodeFromDict (entry.2.restored (now entry.1))).statusToNode.entries =
        tree.statusToNode.entries ++ [(entry.2.statusMessageId, entry.1)] := by
      show Assoc.set entry.2.statusMessageId entry.2.nodeId tree.statusToNode.entries = _
      rw [keyed]
      exact Assoc.set_of_notMem newStatus
    obtain ⟨nodesLater, statusLater, ran, nodesRead, statusRead⟩ :=
      ih (tree.addNodeFromDict (entry.2.restored (now entry.1))) properRest
        (by
          rw [nodes, List.map_append, List.append_assoc, List.nodup_append]
          exact freshIds)
        (by
          rw [statuses, List.map_append, List.append_assoc, List.nodup_append]
          exact freshStatus)
    refine ⟨nodesLater, statusLater, ?_, ?_, ?_⟩
    · rw [List.map_cons, List.foldlM_cons, readNode, if_pos notRoot,
        MessageNode.readBack roundTrips]
      exact ran
    · rw [nodesRead, nodes, List.append_assoc]
      rfl
    · rw [statusRead, statuses, List.append_assoc]
      rfl

/-- **A tree comes back.** -/
theorem readBack (roundTrips : iso.RoundTrips) {tree : MessageTree datetime object}
    (coherent : tree.Coherent) (now : String → datetime) :
    fromDict iso now (tree.toDict iso) = .ok (tree.restored now) := by
  obtain ⟨root, rest, entries⟩ := coherent.rootFirst
  have keyed := coherent.keyed
  have indexed := coherent.indexed
  have distinct := tree.nodes.nodupKeys
  have statuses := tree.statusToNode.nodupKeys
  rw [entries] at keyed indexed distinct
  rw [indexed] at statuses
  obtain ⟨rootKeyed, restKeyed⟩ := List.forall_mem_cons.mp keyed
  have rootId : root.nodeId = tree.rootId := rootKeyed
  have notRoot : ∀ entry ∈ rest, entry.1 ≠ tree.rootId := by
    intro entry inside same
    rw [List.map_cons, List.nodup_cons] at distinct
    exact distinct.1 (List.mem_map.mpr ⟨entry, inside, same⟩)
  have rootNodes : (new (root.restored (now tree.rootId))).nodes.entries =
      [(tree.rootId, root.restored (now tree.rootId))] := by
    show Assoc.set root.nodeId _ [] = _
    rw [rootId]
    rfl
  have rootStatus : (new (root.restored (now tree.rootId))).statusToNode.entries =
      [(root.statusMessageId, tree.rootId)] := by
    show Assoc.set root.statusMessageId root.nodeId [] = _
    rw [rootId]
    rfl
  obtain ⟨nodes, statusToNode, ran, nodesRead, statusRead⟩ :=
    foldlM_addNodeFromDict roundTrips now tree.rootId rest (new (root.restored (now tree.rootId)))
      (fun entry inside => ⟨notRoot entry inside, restKeyed entry inside⟩)
      (by
        rw [rootNodes]
        exact distinct)
      (by
        rw [rootStatus]
        rw [List.map_map] at statuses
        exact statuses)
  have sameNodes : nodes = tree.nodes.mapValues fun nodeId node => node.restored (now nodeId) := by
    apply eq_of_entries
    show nodes.entries = tree.nodes.entries.map _
    rw [nodesRead, rootNodes, entries]
    rfl
  have sameStatus : statusToNode = tree.statusToNode := by
    apply eq_of_entries
    rw [statusRead, rootStatus, indexed]
    rfl
  let nodesData := tree.nodes.entries.map fun entry => (entry.1, entry.2.toDict iso)
  have rootItem : item nodesData tree.rootId = .ok (root.toDict iso) := by
    simp only [nodesData, item, entries, List.map_cons, Assoc.get?_cons, if_true]
  have loop : nodesData.foldlM (readNode iso now tree.rootId) (new (root.restored (now tree.rootId))) =
      .ok { new (root.restored (now tree.rootId)) with nodes := nodes, statusToNode := statusToNode } := by
    simp only [nodesData, entries, List.map_cons, List.foldlM_cons]
    rw [readNode, if_neg (not_not.mpr rfl)]
    exact ran
  show (do
    let rootNode ← MessageNode.fromDict iso (now tree.rootId) (← item nodesData tree.rootId)
    nodesData.foldlM (readNode iso now tree.rootId) (new rootNode)) = _
  rw [rootItem, except_ok_bind, MessageNode.readBack roundTrips, except_ok_bind, loop, sameNodes,
    sameStatus]
  simp only [restored, new, MessageNode.restored, rootId]

end MessageTree

/-! ### Repositories -/

/-- **A dict read entry by entry** has the entries that were written, in their order. -/
theorem readDict_entries {value : Type} (read : String → Json → Except PyError value)
    (write : value → Json) (image : String → value → value) (dict : Dict String value)
    (reads : ∀ entry ∈ dict.entries, read entry.1 (write entry.2) = .ok (image entry.1 entry.2)) :
    readDict read (dict.entries.map fun entry => (entry.1, write entry.2)) =
      .ok (dict.mapValues image) := by
  have loop (rest : List (String × value)) : ∀ before : Dict String value,
      (∀ entry ∈ rest, read entry.1 (write entry.2) = .ok (image entry.1 entry.2)) →
      (before.entries.map Prod.fst ++ rest.map Prod.fst).Nodup →
      ∃ after, (rest.map fun entry => (entry.1, write entry.2)).foldlM
          (fun (dict : Dict String value) entry => do
            pure (dict.set entry.1 (← read entry.1 entry.2))) before = Except.ok after ∧
        after.entries = before.entries ++ rest.map fun entry => (entry.1, image entry.1 entry.2) := by
    induction rest with
    | nil =>
      intro before _ _
      exact ⟨before, rfl, by simp⟩
    | cons entry rest ih =>
      intro before reads fresh
      obtain ⟨readsHere, readsRest⟩ := List.forall_mem_cons.mp reads
      rw [List.map_cons, List.nodup_append] at fresh
      have new : entry.1 ∉ before.entries.map Prod.fst := fun inside =>
        fresh.2.2 entry.1 inside entry.1 List.mem_cons_self rfl
      have entries : (before.set entry.1 (image entry.1 entry.2)).entries =
          before.entries ++ [(entry.1, image entry.1 entry.2)] := Assoc.set_of_notMem new
      obtain ⟨after, ran, result⟩ := ih (before.set entry.1 (image entry.1 entry.2)) readsRest (by
        rw [entries, List.map_append, List.append_assoc, List.nodup_append]
        exact fresh)
      refine ⟨after, ?_, ?_⟩
      · rw [List.map_cons, List.foldlM_cons, readsHere]
        exact ran
      · rw [result, entries, List.append_assoc]
        rfl
  obtain ⟨after, ran, entries⟩ := loop dict.entries ∅ reads dict.nodupKeys
  rw [readDict, ran]
  exact congrArg Except.ok (eq_of_entries entries)

theorem MessageTree.toDict_restored (iso : IsoFormat datetime) (tree : MessageTree datetime object)
    (now : String → datetime) : (tree.restored now).toDict iso = tree.toDict iso := by
  have nodes : (tree.restored now).nodes.entries.map (fun entry => (entry.1, entry.2.toDict iso)) =
      tree.nodes.entries.map fun entry => (entry.1, entry.2.toDict iso) := by
    show (tree.nodes.entries.map _).map _ = _
    rw [List.map_map]
    rfl
  rw [toDict, nodes]
  rfl

namespace TreeRepository

/-- What comes back is written as before. -/
theorem toDict_restored (iso : IsoFormat datetime) (repository : TreeRepository datetime object)
    (now : String → String → datetime) :
    (repository.restored now).toDict iso = repository.toDict iso := by
  have trees : (repository.restored now).trees.entries.map (fun entry => (entry.1, entry.2.toDict iso)) =
      repository.trees.entries.map fun entry => (entry.1, entry.2.toDict iso) := by
    show (repository.trees.entries.map _).map _ = _
    rw [List.map_map]
    apply List.map_congr_left
    intro entry _
    exact congrArg (Prod.mk entry.1) (entry.2.toDict_restored iso (now entry.1))
  rw [toDict, trees]
  rfl

/-- **The round trip of the stored trees.** A repository of coherent trees comes back with the same
trees, nodes, children, status indexes and node-to-tree map, nothing queued or running, and the
contexts and the passing fields of the messages lost; and it is written as it was. -/
theorem fromDict_toDict {iso : IsoFormat datetime} (roundTrips : iso.RoundTrips)
    (repository : TreeRepository datetime object)
    (coherent : ∀ tree ∈ repository.trees.values, tree.Coherent) (now : String → String → datetime) :
    fromDict iso now (repository.toDict iso) = .ok (repository.restored now) ∧
      (repository.restored now).toDict iso = repository.toDict iso := by
  refine ⟨?_, toDict_restored iso repository now⟩
  have trees := readDict_entries (fun rootId => MessageTree.fromDict iso (now rootId))
    (fun tree => tree.toDict iso) (fun rootId tree => tree.restored (now rootId)) repository.trees
    fun entry inside => MessageTree.readBack roundTrips
      (coherent entry.2 (List.mem_map.mpr ⟨entry, inside, rfl⟩)) (now entry.1)
  have index := readDict_entries (fun _ => textOf) Json.str (fun _ owner => owner)
    repository.nodeToTree fun _ _ => rfl
  rw [Dict.mapValues_eq_self fun _ _ _ => rfl] at index
  show (readDict _ _ >>= fun trees => readDict _ _ >>= fun index => pure (TreeRepository.mk trees index)) = _
  rw [trees, except_ok_bind, index, except_ok_bind]
  rfl

end TreeRepository

/-! ### Coherent trees -/

namespace MessageTree

variable {tree : MessageTree datetime object}

/-- `add_node`. -/
def addNode (tree : MessageTree datetime object) (nodeId : String)
    (incoming : IncomingMessage datetime object) (statusMessageId parentId : String) (now : datetime) :
    Except PyError (MessageTree datetime object) :=
  if (tree.nodes.get? parentId).isNone then
    .error (.valueError ("Parent node " ++ parentId ++ " not found in tree"))
  else
    let node : MessageNode datetime object := {
      nodeId := nodeId
      incoming := incoming
      statusMessageId := statusMessageId
      state := .pending
      parentId := some parentId
      sessionId := none
      childrenIds := []
      createdAt := now
      completedAt := none
      errorMessage := none
      context := none }
    .ok { tree with
      nodes := (tree.nodes.set nodeId node).mapValues fun id node =>
        if id = parentId then { node with childrenIds := node.childrenIds ++ [nodeId] } else node
      statusToNode := tree.statusToNode.set statusMessageId nodeId }

/-- `update_state`. -/
def updateState (tree : MessageTree datetime object) (nodeId : String) (state : MessageState)
    (sessionId errorMessage : Option String) (now : datetime) : MessageTree datetime object :=
  { tree with
    nodes := tree.nodes.mapValues fun id node =>
      if id = nodeId then
        { node with
          state := state
          sessionId := (sessionId.filter (· ≠ "")).or node.sessionId
          errorMessage := (errorMessage.filter (· ≠ "")).or node.errorMessage
          completedAt := if state.isFinal then some now else node.completedAt }
      else node }

/-- The deletion of one node in `remove_branch`. -/
def dropNode (tree : MessageTree datetime object) (nodeId : String) : MessageTree datetime object :=
  match tree.nodes.get? nodeId with
  | none => tree
  | some node =>
    { tree with
      nodes := tree.nodes.erase nodeId
      statusToNode := tree.statusToNode.erase node.statusMessageId }

theorem coherent_new (root : MessageNode datetime object) : (new root).Coherent where
  rootFirst := ⟨root, [], rfl⟩
  keyed entry inside := by
    have same : entry = (root.nodeId, root) := List.mem_singleton.mp inside
    rw [same]
  indexed := rfl

/-- A change of nodes that leaves their ids and status ids alone. -/
theorem Coherent.mapValues (coherent : tree.Coherent)
    {change : String → MessageNode datetime object → MessageNode datetime object}
    (nodeId : ∀ id node, (change id node).nodeId = node.nodeId)
    (statusId : ∀ id node, (change id node).statusMessageId = node.statusMessageId) :
    Coherent { tree with nodes := tree.nodes.mapValues change } where
  rootFirst := by
    obtain ⟨root, rest, entries⟩ := coherent.rootFirst
    refine ⟨change tree.rootId root, rest.map fun entry => (entry.1, change entry.1 entry.2), ?_⟩
    show tree.nodes.entries.map _ = _
    rw [entries]
    rfl
  keyed entry inside := by
    obtain ⟨before, here, rfl⟩ := List.mem_map.mp inside
    exact (nodeId _ _).trans (coherent.keyed before here)
  indexed := by
    show tree.statusToNode.entries = (tree.nodes.entries.map _).map _
    rw [coherent.indexed, List.map_map]
    apply List.map_congr_left
    intro entry _
    exact congrArg (Prod.mk · entry.1) (statusId entry.1 entry.2).symm

/-- **A node with a new id and a new status id.** -/
theorem Coherent.addNode (coherent : tree.Coherent) {next : MessageTree datetime object}
    {nodeId : String} {incoming : IncomingMessage datetime object} {statusMessageId parentId : String}
    {now : datetime} (newId : nodeId ∉ tree.nodes.keys) (newStatus : statusMessageId ∉ tree.statusToNode.keys)
    (added : tree.addNode nodeId incoming statusMessageId parentId now = .ok next) : next.Coherent := by
  rw [MessageTree.addNode] at added
  split_ifs at added
  cases added
  let node : MessageNode datetime object := {
    nodeId := nodeId
    incoming := incoming
    statusMessageId := statusMessageId
    state := .pending
    parentId := some parentId
    sessionId := none
    childrenIds := []
    createdAt := now
    completedAt := none
    errorMessage := none
    context := none }
  have entries : (tree.nodes.set nodeId node).entries = tree.nodes.entries ++ [(nodeId, node)] :=
    Assoc.set_of_notMem newId
  have grown : Coherent { tree with
      nodes := tree.nodes.set nodeId node
      statusToNode := tree.statusToNode.set statusMessageId nodeId } := by
    constructor
    · obtain ⟨root, rest, before⟩ := coherent.rootFirst
      refine ⟨root, rest ++ [(nodeId, node)], ?_⟩
      rw [entries, before]
      rfl
    · intro entry inside
      rw [entries] at inside
      rcases List.mem_append.mp inside with old | new
      · exact coherent.keyed entry old
      · rw [List.mem_singleton.mp new]
    · show Assoc.set statusMessageId nodeId tree.statusToNode.entries = _
      rw [entries, List.map_append, ← coherent.indexed]
      exact Assoc.set_of_notMem newStatus
  apply grown.mapValues
  · intro id other
    split_ifs
    · rfl
    · rfl
  · intro id other
    split_ifs
    · rfl
    · rfl

/-- A new state for a node. -/
theorem Coherent.updateState (coherent : tree.Coherent) (nodeId : String) (state : MessageState)
    (sessionId errorMessage : Option String) (now : datetime) :
    (tree.updateState nodeId state sessionId errorMessage now).Coherent := by
  apply coherent.mapValues
  · intro id node
    by_cases same : id = nodeId
    · rw [if_pos same]
    · rw [if_neg same]
  · intro id node
    by_cases same : id = nodeId
    · rw [if_pos same]
    · rw [if_neg same]

/-- **A node less**, if it is not the root. -/
theorem Coherent.dropNode (coherent : tree.Coherent) {nodeId : String} (notRoot : nodeId ≠ tree.rootId) :
    (tree.dropNode nodeId).Coherent := by
  rw [MessageTree.dropNode]
  split
  · exact coherent
  · rename_i node found
    have here := tree.nodes.mem_entries_iff.mpr found
    constructor
    · obtain ⟨root, rest, entries⟩ := coherent.rootFirst
      refine ⟨root, rest.filter fun entry => entry.1 ≠ nodeId, ?_⟩
      show tree.nodes.entries.filter _ = _
      rw [entries, List.filter_cons_of_pos (by simpa using notRoot.symm)]
    · intro entry inside
      exact coherent.keyed entry (List.mem_of_mem_filter inside)
    · show tree.statusToNode.entries.filter _ = (tree.nodes.entries.filter _).map _
      rw [coherent.indexed, List.filter_map]
      congr 1
      apply List.filter_congr
      intro entry inside
      -- the status ids are keys of the index, so they tell the nodes apart
      have apart : entry.2.statusMessageId = node.statusMessageId ↔ entry.1 = nodeId := by
        have keys := tree.statusToNode.nodupKeys
        rw [coherent.indexed, List.map_map] at keys
        constructor
        · intro same
          have equal := List.inj_on_of_nodup_map keys inside here same
          rw [equal]
        · intro same
          have foundToo := tree.nodes.mem_entries_iff.mp inside
          rw [same, found] at foundToo
          rw [Option.some.inj foundToo]
      simpa using apart

end MessageTree

/-! ### One conversation -/

/-- Times as their texts. -/
def isoTexts : IsoFormat { text : String // text ≠ "" } where
  isoformat := Subtype.val
  fromisoformat text :=
    if nonempty : text ≠ "" then .ok ⟨text, nonempty⟩
    else .error (.valueError "Invalid isoformat string: ''")

theorem isoTexts_roundTrips : isoTexts.RoundTrips where
  returns time := dif_pos time.property
  nonempty time := time.property

/-- The start of a conversation with a voice note, which was given a status message beforehand. -/
def voiceNote : MessageNode { text : String // text ≠ "" } String where
  nodeId := "10"
  incoming := {
    text := "Hello"
    chatId := "7"
    userId := "3"
    messageId := "10"
    platform := "telegram"
    replyToMessageId := none
    messageThreadId := none
    username := some "user"
    statusMessageId := some "11"
    timestamp := ⟨"2025-01-01T10:00:00+00:00", by decide⟩
    rawEvent := some "update" }
  statusMessageId := "11"
  state := .completed
  parentId := none
  sessionId := some "session"
  childrenIds := []
  createdAt := ⟨"2025-01-01T10:00:01+00:00", by decide⟩
  completedAt := some ⟨"2025-01-01T10:00:09+00:00", by decide⟩
  errorMessage := none
  context := none

/-- A text in reply to it, and the conversation of both. -/
def reply : IncomingMessage { text : String // text ≠ "" } String :=
  { voiceNote.incoming with
    text := "And then?"
    messageId := "12"
    replyToMessageId := some "10"
    statusMessageId := none
    timestamp := ⟨"2025-01-01T10:05:00+00:00", by decide⟩ }

def conversation : MessageTree { text : String // text ≠ "" } String :=
  match (MessageTree.new voiceNote).addNode "12" reply "13" "10" ⟨"2025-01-01T10:05:01+00:00", by decide⟩ with
  | .ok tree => tree
  | .error _ => .new voiceNote

theorem conversation_coherent : conversation.Coherent :=
  (MessageTree.coherent_new voiceNote).addNode (by decide) (by decide)
    (rfl : (MessageTree.new voiceNote).addNode "12" reply "13" "10" _ = .ok conversation)

/-- A repository with this conversation. -/
def voiceNotes : TreeRepository { text : String // text ≠ "" } String where
  trees := (∅ : Dict String _).set "10" conversation
  nodeToTree := ((((∅ : Dict String String).set "10" "10").set "11" "10").set "12" "10").set "13" "10"

/-- The time of the restart. -/
def restart : String → String → { text : String // text ≠ "" } :=
  fun _ _ => ⟨"2025-01-02T08:00:00+00:00", by decide⟩

/-- The conversation comes back, the reply as the child of the voice note. -/
theorem voiceNotes_return :
    (conversation.nodes.get? "10").map MessageNode.childrenIds = some ["12"] ∧
    TreeRepository.fromDict isoTexts restart (voiceNotes.toDict isoTexts) =
        .ok (voiceNotes.restored restart) ∧
      (voiceNotes.restored restart).toDict isoTexts = voiceNotes.toDict isoTexts := by
  refine ⟨by decide, TreeRepository.fromDict_toDict isoTexts_roundTrips voiceNotes ?_ restart⟩
  intro tree inside
  obtain rfl : tree = conversation := List.mem_singleton.mp inside
  exact conversation_coherent

/-- **The message does not come back as it was**: its status message, time and raw event are gone. -/
theorem voiceNotes_lose_status_message :
    ∃ back tree node, TreeRepository.fromDict isoTexts restart (voiceNotes.toDict isoTexts) = .ok back ∧
      back.trees.get? "10" = some tree ∧ tree.nodes.get? "10" = some node ∧
      node.incoming.statusMessageId = none ∧ voiceNote.incoming.statusMessageId = some "11" ∧
      node.incoming.timestamp ≠ voiceNote.incoming.timestamp ∧
      node.incoming.rawEvent ≠ voiceNote.incoming.rawEvent := by
  have read : (TreeRepository.fromDict isoTexts restart (voiceNotes.toDict isoTexts) :
      Except PyError (TreeRepository { text : String // text ≠ "" } String)) =
        .ok (voiceNotes.restored restart) := by decide +kernel
  refine ⟨_, _, _, read, rfl, rfl, rfl, rfl, ?_, ?_⟩
  · decide +kernel
  · decide +kernel

end Persistence

end ClaudeProxy
