import ADT.Lib.JsonText

/-!
# Checkpoint.Store — `D1LangGraphCheckpointStore`

The operations of `lib/langgraph-checkpoints.ts` on the three checkpoint tables.  An operation is one transaction:
its only statements that write are the last one it makes, or one batch.
-/

namespace ADT.Checkpoint

/-- `run_id`, `checkpoint_namespace` and `checkpoint_id`. -/
structure Key where
  runId : String
  ns : String
  id : String
  deriving DecidableEq

structure CheckpointRow where
  key : Key
  parent : Option String
  checkpointJson : String
  metadataJson : String
  configJson : String
  contentSha256 : String
  createdAt : String
  deriving DecidableEq

structure WriteRow where
  key : Key
  taskId : String
  writeIndex : ℤ
  channel : String
  valueJson : String
  contentSha256 : String
  createdAt : String
  deriving DecidableEq

structure PathRow where
  key : Key
  taskId : String
  taskPath : String
  deriving DecidableEq

structure Store where
  checkpoints : List CheckpointRow
  writes : List WriteRow
  taskPaths : List PathRow
  deriving DecidableEq

/-! ### Reading a request -/

def maxOperationBytes : ℕ := 1000000
def maxList : ℤ := 100

/-- `JSON.stringify` under a limit; `undefined` has no text. -/
def json (value : Option Json) : Except String (Option String) :=
  match value with
  | none => .ok none
  | some value =>
    if byteLength value.stringify > maxOperationBytes then .error "checkpoint_operation_too_large"
    else .ok (some value.stringify)

def parseJson (raw : String) : Except String Json := (Json.parse raw).elim (.error "SyntaxError") .ok

/-- `{...fields, ...more}` -/
def spread (fields more : List (String × Json)) : List (String × Json) := more.foldl Json.assign fields

def configurable (config : Option Json) : Option Json := config.bind (·.get? "configurable")

def property (config : Option Json) (name : String) : Option String :=
  ((configurable config).bind (·.get? name)).bind Json.asStr?

/-- The config of a stored checkpoint: the request's, with the key. -/
def storedConfig (config : Option Json) (key : Key) : Json :=
  let fields := match configurable config with
    | some (.obj fields) => fields
    | _ => []
  .obj [("configurable", .obj (spread fields
    [("thread_id", .str key.runId), ("checkpoint_ns", .str key.ns), ("checkpoint_id", .str key.id)]))]

/-- The namespace and the id of a config; both are strings where they are given. -/
def configValues (config : Option Json) (runId : String) : Except String (String × Option String) :=
  if property config "thread_id" ≠ some runId then .error "checkpoint_authority_invalid"
  else .ok ((property config "checkpoint_ns").getD "", property config "checkpoint_id")

inductive Operation
  | get (payload : Json)
  | list (payload : Json)
  | put (payload : Json)
  | putWrites (payload : Json)
  | deleteThread

structure Tuple where
  config : Json
  checkpoint : Json
  metadata : Json
  parentConfig : Option Json
  pendingWrites : List (String × String × Json)

inductive Reply
  | null
  | tuple (tuple : Tuple)
  | tuples (tuples : List Tuple)
  | config (config : Json)

/-! ### Reading the tables -/

/-- `COALESCE(p.task_path,'')` of the joined row. -/
def Store.pathOf (s : Store) (key : Key) (taskId : String) : String :=
  ((s.taskPaths.find? fun p => p.key = key ∧ p.taskId = taskId).map (·.taskPath)).getD ""

/-- `ORDER BY task_path, task_id, write_index` -/
def Store.inOrder (s : Store) (a b : WriteRow) : Bool :=
  let pathA := s.pathOf a.key a.taskId
  let pathB := s.pathOf b.key b.taskId
  pathA < pathB || (pathA == pathB && (a.taskId < b.taskId || (a.taskId == b.taskId && a.writeIndex ≤ b.writeIndex)))

def Store.writesOf (s : Store) (key : Key) : List WriteRow :=
  (s.writes.filter (·.key = key)).mergeSort s.inOrder

def pendingWrite (row : WriteRow) : Except String (String × String × Json) := do
  return (row.taskId, row.channel, ← parseJson row.valueJson)

def Store.tuple (s : Store) (row : CheckpointRow) : Except String Tuple := do
  let config ← parseJson row.configJson
  let checkpoint ← parseJson row.checkpointJson
  let metadata ← parseJson row.metadataJson
  let pendingWrites ← (s.writesOf row.key).mapM pendingWrite
  let fields := match config.get? "configurable" with
    | some (.obj fields) => fields
    | _ => []
  let parentConfig := (row.parent.filter (· ≠ "")).map fun parent =>
    Json.obj [("configurable", .obj (spread fields [("checkpoint_id", .str parent)]))]
  return { config, checkpoint, metadata, parentConfig, pendingWrites }

/-- `ORDER BY created_at DESC, checkpoint_id DESC` -/
def newestFirst (a b : CheckpointRow) : Bool :=
  b.createdAt < a.createdAt || (a.createdAt == b.createdAt && b.key.id ≤ a.key.id)

def Store.thread (s : Store) (runId ns : String) : List CheckpointRow :=
  (s.checkpoints.filter fun row => row.key.runId = runId ∧ row.key.ns = ns).mergeSort newestFirst

def Store.get (s : Store) (runId : String) (payload : Json) : Except String Reply := do
  let (ns, id) ← configValues (payload.get? "config") runId
  let row := match id.filter (· ≠ "") with
    | some id => s.checkpoints.find? (·.key = ⟨runId, ns, id⟩)
    | none => (s.thread runId ns).head?
  match row with
  | some row => return .tuple (← s.tuple row)
  | none => return .null

def Store.list (s : Store) (runId : String) (payload : Json) : Except String Reply := do
  let (ns, _) ← configValues (payload.get? "config") runId
  let limit ← match (payload.get? "options").bind (·.get? "limit") with
    | none | some .null => .ok maxList
    | some (.num n) => .ok n
    | some _ => .error "datatype mismatch"
  let limit := min maxList (max 1 limit)
  return .tuples (← ((s.thread runId ns).take limit.toNat).mapM s.tuple)

/-! ### Writing the tables -/

/-- Places of the writes on special channels. -/
def specialWriteIndexes (channel : String) : Option ℤ :=
  if channel = "__error__" then some (-1)
  else if channel = "__scheduled__" then some (-2)
  else if channel = "__interrupt__" then some (-3)
  else if channel = "__resume__" then some (-4)
  else none

/-- The names every object has from its prototype. -/
def inheritedNames : List String :=
  ["constructor", "__defineGetter__", "__defineSetter__", "hasOwnProperty", "__lookupGetter__", "__lookupSetter__",
    "isPrototypeOf", "propertyIsEnumerable", "toString", "valueOf", "__proto__", "toLocaleString"]

/-- `specialWriteIndexes[channel] ?? position`, where that is a number. -/
def writeIndex (channel : String) (position : ℕ) : Option ℤ :=
  if inheritedNames.contains channel then none else some ((specialWriteIndexes channel).getD position)

structure Write where
  channel : String
  index : Option ℤ
  valueJson : String
  hash : String
  deriving DecidableEq

section Writing

variable (digest : String → String) (now : String)

def contentHash (channel valueJson : String) : String := digest (channel ++ "\n" ++ valueJson)

def readWrite (write : Json) (position : ℕ) : Except String Write :=
  match write with
  | .arr [.str channel, value] =>
    if byteLength value.stringify > maxOperationBytes then .error "checkpoint_operation_too_large"
    else .ok ⟨channel, writeIndex channel position, value.stringify, contentHash digest channel value.stringify⟩
  | _ => .error "checkpoint_state_invalid"

def readWrites (writes : List Json) : Except String (List Write) :=
  writes.zipIdx.mapM fun p => readWrite digest p.1 p.2

def Store.writeAt (s : Store) (key : Key) (taskId : String) (index : ℤ) : Option WriteRow :=
  s.writes.find? fun row => row.key = key ∧ row.taskId = taskId ∧ row.writeIndex = index

/-- The rows that are not there yet. -/
def Store.newRows (s : Store) (key : Key) (taskId : String) : List Write → Except String (List WriteRow)
  | [] => .ok []
  | write :: writes =>
    match write.index with
    | none => .error "D1_TYPE_ERROR"
    | some index =>
      match s.writeAt key taskId index with
      | some row =>
        if row.contentSha256 ≠ write.hash then .error "checkpoint_state_conflicting"
        else s.newRows key taskId writes
      | none =>
        (s.newRows key taskId writes).map
          (⟨key, taskId, index, write.channel, write.valueJson, write.hash, now⟩ :: ·)

/-- The batch of insertions: all of them or none. -/
def Store.insertRows (s : Store) : List WriteRow → Except String Store
  | [] => .ok s
  | row :: rows =>
    if (s.writeAt row.key row.taskId row.writeIndex).isSome then .error "UNIQUE constraint failed"
    else Store.insertRows { s with writes := s.writes ++ [row] } rows

/-- The task's path: rows from before there were paths keep the empty one. -/
def Store.taskPath (s : Store) (key : Key) (taskId : String) (given : Option String) : String :=
  let existing := s.taskPaths.find? fun p => p.key = key ∧ p.taskId = taskId
  let legacy := existing.isNone && s.writes.any fun row => row.key = key ∧ row.taskId = taskId
  if legacy || existing.map (·.taskPath) == some "" then "" else given.getD ""

/-- The statements of `putWrites` once its payload is read. -/
def Store.putTask (s : Store) (key : Key) (taskId : String) (given : Option String) (writes : List Write) :
    Except String Store := do
  let path := s.taskPath key taskId given
  let existing := s.taskPaths.find? fun p => p.key = key ∧ p.taskId = taskId
  if existing.any (·.taskPath ≠ path) then .error "checkpoint_state_conflicting"
  else
    let rows ← s.newRows now key taskId writes
    let paths := if existing.isNone && !writes.isEmpty then [⟨key, taskId, path⟩] else []
    Store.insertRows { s with taskPaths := s.taskPaths ++ paths } rows

def maxWrites : ℕ := 256
def maxTaskPathBytes : ℕ := 8192

/-- `payload.taskPath` is `undefined` or a short string. -/
def readTaskPath (payload : Json) : Except String (Option String) :=
  match payload.get? "taskPath" with
  | none => .ok none
  | some (.str path) =>
    if byteLength path > maxTaskPathBytes then .error "checkpoint_state_invalid" else .ok (some path)
  | some _ => .error "checkpoint_state_invalid"

def Store.putWrites (s : Store) (runId : String) (payload : Json) : Except String Store := do
  let (ns, id) ← configValues (payload.get? "config") runId
  match id.filter (· ≠ ""), payload.get? "taskId", payload.get? "writes" with
  | some id, some (.str taskId), some (.arr items) =>
    if items.length > maxWrites then .error "checkpoint_state_invalid"
    else
      let given ← readTaskPath payload
      let writes ← readWrites digest items
      s.putTask now ⟨runId, ns, id⟩ taskId given writes
  | _, _, _ => .error "checkpoint_state_invalid"

/-- The text a template shows for what `json` gave. -/
def shown (raw : Option String) : String := raw.getD "undefined"

-- The reply of `put` is the config read back from its text.

def Store.put (s : Store) (runId : String) (payload : Json) : Except String (Json × Store) := do
  let (ns, parent) ← configValues (payload.get? "config") runId
  match (payload.get? "checkpoint").bind fun checkpoint =>
      ((checkpoint.get? "id").bind Json.asStr?).map (checkpoint, ·) with
  | none => .error "checkpoint_state_invalid"
  | some (checkpoint, id) =>
    if utf16Length id > 128 then .error "checkpoint_state_invalid"
    else
      let checkpointJson ← json (some checkpoint)
      let metadataJson ← json (payload.get? "metadata")
      let config := storedConfig (payload.get? "config") ⟨runId, ns, id⟩
      let configJson ← json (some config)
      let hash := digest (shown checkpointJson ++ "\n" ++ shown metadataJson ++ "\n" ++ shown configJson)
      match s.checkpoints.find? (·.key = ⟨runId, ns, id⟩) with
      | some row =>
        if row.contentSha256 ≠ hash then .error "checkpoint_state_conflicting" else .ok (config, s)
      | none =>
        match metadataJson with
        | none => .error "D1_TYPE_ERROR"
        | some metadataJson =>
          let row : CheckpointRow :=
            ⟨⟨runId, ns, id⟩, parent, shown checkpointJson, metadataJson, shown configJson, hash, now⟩
          .ok (config, { s with checkpoints := s.checkpoints ++ [row] })

def Store.deleteThread (s : Store) (runId : String) : Store where
  checkpoints := s.checkpoints.filter (·.key.runId ≠ runId)
  writes := s.writes.filter (·.key.runId ≠ runId)
  taskPaths := s.taskPaths.filter (·.key.runId ≠ runId)

/-- `execute`: the reply and the tables after it, or an error that leaves them as they are. -/
def Store.execute (s : Store) (runId threadId : String) (request : Operation) : Except String (Reply × Store) :=
  if threadId ≠ runId then .error "checkpoint_authority_invalid"
  else
    match request with
    | .get payload => (s.get runId payload).map (·, s)
    | .list payload => (s.list runId payload).map (·, s)
    | .put payload => (s.put digest now runId payload).map fun p => (.config p.1, p.2)
    | .putWrites payload => (s.putWrites digest now runId payload).map (.null, ·)
    | .deleteThread => .ok (.null, s.deleteThread runId)

end Writing

end ADT.Checkpoint
