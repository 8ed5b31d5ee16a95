import Mathlib.Data.String.Basic
import ADT.Checkpoint.Store
import ADT.Lib.Basics
import ADT.Runtime.NodeGateway

/-!
# Checkpoint.Retries — the attempts of one task

Each failed execution of a task is recorded by a write on `__error__`, which has one place in the table; the store
refuses another content there.  No attempt conflicts exactly if the errors that fit in a row all have one content
(`retries_agree_iff`), and in any case the writes of a success are the ones read afterwards.
-/

namespace ADT.Checkpoint

/-! ### A task and its attempts -/

/-- A task of a checkpoint, with the config and the path its writes come with. -/
structure Task where
  runId : String
  config : Json
  ns : String
  id : String
  taskId : String
  taskPath : Option String
  reads : configValues (some config) runId = .ok (ns, some id)
  id_ne : id ≠ ""

/-- What LangGraph keeps of an error. -/
structure Thrown where
  message : String
  name : String

def errorValue (error : Thrown) : Json := .obj [("message", .str error.message), ("name", .str error.name)]

def errorWrite (error : Thrown) : String × Json := ("__error__", errorValue error)

/-- The writes of a task that succeeded: values of the language, on channels that are not special. -/
structure Success where
  writes : List (String × Json)
  ordinary : ∀ w ∈ writes, specialWriteIndexes w.1 = none
  distinct : ∀ w ∈ writes, w.2.distinct = true

namespace Task

variable (t : Task)

def key : Key := ⟨t.runId, t.ns, t.id⟩

/-- The payload of `RemoteCheckpointSaver.putWrites`. -/
def payload (writes : List (String × Json)) : Json :=
  .obj ([("config", t.config), ("writes", .arr (writes.map fun w => .arr [.str w.1, w.2])), ("taskId", .str t.taskId)] ++
    (t.taskPath.map fun path => ("taskPath", .str path)).toList)

def getPayload : Json := .obj [("config", t.config)]

def owns (row : WriteRow) : Bool := row.key = t.key ∧ row.taskId = t.taskId

def ownsPath (row : PathRow) : Bool := row.key = t.key ∧ row.taskId = t.taskId

/-- An operation that is neither a write of this task nor the deletion of its thread. -/
def Apart (runId : String) : Operation → Prop
  | .putWrites payload =>
    runId ≠ t.runId ∨ configValues (payload.get? "config") runId ≠ .ok (t.ns, some t.id) ∨
      (payload.get? "taskId").bind Json.asStr? ≠ some t.taskId
  | .deleteThread => runId ≠ t.runId
  | _ => True

end Task

def Operation.distinct : Operation → Bool
  | .get payload | .list payload | .put payload | .putWrites payload => payload.distinct
  | .deleteThread => true

/-- An operation that comes between the attempts. -/
structure Other (t : Task) where
  now : String
  runId : String
  threadId : String
  request : Operation
  apart : t.Apart runId request
  distinct : request.distinct = true

inductive Trial (t : Task)
  | failed (error : Thrown) (now : String)
  | meanwhile (other : Other t)

section Runs

variable (digest : String → String) {t : Task}

def record (t : Task) (writes : List (String × Json)) (now : String) (s : Store) : Except String Store :=
  (s.execute digest now t.runId t.runId (.putWrites (t.payload writes))).map (·.2)

/-- The tables after a request: as they were where it failed. -/
def kept (s : Store) (result : Except String Store) : Store := result.toOption.getD s

def Other.next (s : Store) (other : Other t) : Store :=
  kept s ((s.execute digest other.now other.runId other.threadId other.request).map (·.2))

def Trial.result (s : Store) : Trial t → Except String Store
  | .failed error now => record digest t [errorWrite error] now s
  | .meanwhile other => .ok (other.next digest s)

def Trial.next (s : Store) (trial : Trial t) : Store := kept s (trial.result digest s)

def after (s : Store) (trials : List (Trial t)) : Store := trials.foldl (Trial.next digest) s

/-- No attempt is refused as conflicting. -/
def Agreeing (s : Store) : List (Trial t) → Prop
  | [] => True
  | trial :: trials =>
    trial.result digest s ≠ .error "checkpoint_state_conflicting" ∧ Agreeing (trial.next digest s) trials

/-- Whatever comes later, a read of the stored checkpoint shows these writes of the task besides its errors. -/
def Delivers (t : Task) (s : Store) (writes : List (String × Json)) : Prop :=
  ∀ later : List (Other t), let s' := later.foldl (Other.next digest) s
    (∃ row ∈ s'.checkpoints, row.key = t.key) → ∃ tuple, s'.get t.runId t.getPayload = .ok (.tuple tuple) ∧
      (tuple.pendingWrites.filter fun w => w.1 = t.taskId ∧ w.2.1 ≠ "__error__") =
        writes.map fun w => (t.taskId, w.1, w.2)

/-- The attempts of a task, the last of which may succeed: none conflicts and the success is delivered. -/
def RetriesAgree (s : Store) (trials : List (Trial t)) (success : Option (Success × String)) : Prop :=
  Agreeing digest s trials ∧ ∀ p ∈ success,
    record digest t p.1.writes p.2 (after digest s trials) ≠ .error "checkpoint_state_conflicting" ∧
      ∀ s', record digest t p.1.writes p.2 (after digest s trials) = .ok s' → Delivers digest t s' p.1.writes

def errors : List (Trial t) → List Thrown
  | [] => []
  | .failed error _ :: trials => error :: errors trials
  | .meanwhile _ :: trials => errors trials

def errorHash (error : Thrown) : String := contentHash digest "__error__" (errorValue error).stringify

def Thrown.fits (error : Thrown) : Bool := byteLength (errorValue error).stringify ≤ maxOperationBytes

def Task.fits (t : Task) : Bool := t.taskPath.all (byteLength · ≤ maxTaskPathBytes)

/-- The errors that are recorded have one content. -/
def SameContent (trials : List (Trial t)) : Prop :=
  t.fits = true → ∀ a ∈ (errors trials).filter Thrown.fits, ∀ b ∈ (errors trials).filter Thrown.fits,
    errorHash digest a = errorHash digest b

end Runs

/-- Every stored text is JSON. -/
structure Store.Readable (s : Store) : Prop where
  checkpoints : ∀ row ∈ s.checkpoints, ∃ config checkpoint metadata, Json.parse row.configJson = some config ∧
    Json.parse row.checkpointJson = some checkpoint ∧ Json.parse row.metadataJson = some metadata
  writes : ∀ row ∈ s.writes, ∃ value, Json.parse row.valueJson = some value

/-- The rows of the task: nothing, or the error that was recorded first. -/
structure Tried (t : Task) (s : Store) (seen : Option WriteRow) : Prop where
  rows : s.writes.filter t.owns = seen.toList
  path : s.taskPaths.find? t.ownsPath = seen.map fun _ => ⟨t.key, t.taskId, t.taskPath.getD ""⟩
  place : ∀ row ∈ seen, row.writeIndex = -1 ∧ row.channel = "__error__"

/-! ### The writes of an attempt -/

section Attempts

variable {digest : String → String} {now : String} {t : Task} {s : Store}

theorem get?_config (t : Task) (writes : List (String × Json)) : (t.payload writes).get? "config" = some t.config := rfl

theorem get?_taskId (t : Task) (writes : List (String × Json)) :
    (t.payload writes).get? "taskId" = some (.str t.taskId) := rfl

theorem get?_writes (t : Task) (writes : List (String × Json)) :
    (t.payload writes).get? "writes" = some (.arr (writes.map fun w => .arr [.str w.1, w.2])) := rfl

theorem readTaskPath_payload (t : Task) (writes : List (String × Json)) :
    readTaskPath (t.payload writes) = if t.fits then .ok t.taskPath else .error "checkpoint_state_invalid" := by
  have hget : (t.payload writes).get? "taskPath" = t.taskPath.map .str := by
    unfold Task.payload
    cases t.taskPath with
    | none => rfl
    | some path => rfl
  unfold readTaskPath Task.fits
  rw [hget]
  cases t.taskPath with
  | none => rfl
  | some path =>
    by_cases hpath : byteLength path > maxTaskPathBytes
    · simp [hpath]
    · simp [Nat.not_lt.mp hpath]

/-- The writes of an attempt, read. -/
def readAll (digest : String → String) (writes : List (String × Json)) : Except String (List Write) :=
  readWrites digest (writes.map fun w => .arr [.str w.1, w.2])

theorem record_eq (writes : List (String × Json)) : record digest t writes now s =
    if writes.length > maxWrites then .error "checkpoint_state_invalid"
    else if t.fits then (readAll digest writes).bind (s.putTask now t.key t.taskId t.taskPath)
    else .error "checkpoint_state_invalid" := by
  have hid : (some t.id).filter (fun id => decide (id ≠ "")) = some t.id := by simp [t.id_ne]
  simp only [record, Store.execute, ne_eq, not_true_eq_false, if_false, Store.putWrites, get?_config, get?_taskId,
    get?_writes, t.reads, bind, Except.bind, hid, List.length_map, readTaskPath_payload]
  have hmap : ∀ r : Except String Store, (r.map ((Reply.null, ·))).map (·.2) = r := by
    intro r
    cases r <;> rfl
  rw [hmap]
  by_cases hlength : writes.length > maxWrites
  · rw [if_pos hlength, if_pos hlength]
  · rw [if_neg hlength, if_neg hlength]
    cases t.fits <;> rfl

def small (w : String × Json) : Bool := byteLength w.2.stringify ≤ maxOperationBytes

/-- A write at its position, read. -/
def prepared (digest : String → String) (p : (String × Json) × ℕ) : Write :=
  ⟨p.1.1, writeIndex p.1.1 p.2, p.1.2.stringify, contentHash digest p.1.1 p.1.2.stringify⟩

theorem readAll_eq (writes : List (String × Json)) : readAll digest writes =
    if writes.all small then .ok (writes.zipIdx.map (prepared digest))
    else .error "checkpoint_operation_too_large" := by
  unfold readAll readWrites
  generalize 0 = n
  induction writes generalizing n with
  | nil => rfl
  | cons w writes ih =>
    rw [List.map_cons, List.zipIdx_cons, List.mapM_cons, ih (n + 1), List.all_cons, List.zipIdx_cons, List.map_cons]
    have hread : readWrite digest (.arr [.str w.1, w.2]) n =
        if small w then .ok (prepared digest (w, n)) else .error "checkpoint_operation_too_large" := by
      unfold readWrite small
      dsimp only
      by_cases hw : byteLength w.2.stringify > maxOperationBytes
      · rw [if_pos hw, if_neg (by simpa using hw)]
      · rw [if_neg hw, if_pos (by simpa using hw)]
        rfl
    dsimp only
    rw [hread]
    cases small w with
    | false => rfl
    | true =>
      cases writes.all small <;> rfl

theorem writeAt_eq (s : Store) (t : Task) (index : ℤ) :
    s.writeAt t.key t.taskId index = (s.writes.filter t.owns).find? (·.writeIndex = index) := by
  rw [List.find?_filter]
  unfold Store.writeAt Task.owns
  congr 1
  funext row
  simp [and_assoc]

theorem readWrite_distinct {write : Json} {position : ℕ} {w : Write} (hw : write.distinct = true)
    (h : readWrite digest write position = .ok w) : ∃ value, Json.parse w.valueJson = some value := by
  unfold readWrite at h
  split at h
  case h_1 channel value =>
    split_ifs at h with hsize
    cases h
    exact ⟨value, Json.parse_stringify value ((Json.distinct_arr _).mp hw value (by simp))⟩
  · cases h

theorem newRows_mem {key : Key} {taskId : String} {writes : List Write} {rows : List WriteRow}
    (h : s.newRows now key taskId writes = .ok rows) :
    ∀ row ∈ rows, row.key = key ∧ row.taskId = taskId ∧ ∃ w ∈ writes, row.valueJson = w.valueJson := by
  induction writes generalizing rows with
  | nil =>
    obtain rfl : [] = rows := by simpa [Store.newRows] using h
    simp
  | cons w writes ih =>
    rw [Store.newRows] at h
    cases hindex : w.index with
    | none =>
      rw [hindex] at h
      cases h
    | some index =>
      rw [hindex] at h
      dsimp only at h
      cases hrow : s.writeAt key taskId index with
      | some row =>
        rw [hrow] at h
        dsimp only at h
        split_ifs at h with hhash
        intro r hr
        obtain ⟨hkey, htask, v, hv, hvalue⟩ := ih h r hr
        exact ⟨hkey, htask, v, List.mem_cons_of_mem _ hv, hvalue⟩
      | none =>
        rw [hrow] at h
        dsimp only at h
        cases hrest : s.newRows now key taskId writes with
        | error e =>
          rw [hrest] at h
          cases h
        | ok rest =>
          rw [hrest] at h
          cases h
          intro r hr
          rcases List.mem_cons.mp hr with rfl | hr
          · exact ⟨rfl, rfl, w, List.mem_cons_self, rfl⟩
          · obtain ⟨hkey, htask, v, hv, hvalue⟩ := ih hrest r hr
            exact ⟨hkey, htask, v, List.mem_cons_of_mem _ hv, hvalue⟩

theorem insertRows_ok {rows : List WriteRow} {s' : Store} (h : s.insertRows rows = .ok s') :
    s' = { s with writes := s.writes ++ rows } := by
  induction rows generalizing s with
  | nil =>
    obtain rfl : s = s' := by simpa [Store.insertRows] using h
    simp
  | cons row rows ih =>
    rw [Store.insertRows] at h
    split_ifs at h with hthere
    rw [ih h]
    simp

theorem insertRows_new {rows : List WriteRow} (hnone : ∀ row ∈ rows, s.writeAt row.key row.taskId row.writeIndex = none)
    (hplaces : (rows.map (·.writeIndex)).Nodup) : s.insertRows rows = .ok { s with writes := s.writes ++ rows } := by
  induction rows generalizing s with
  | nil => simp [Store.insertRows]
  | cons row rows ih =>
    rw [List.map_cons, List.nodup_cons] at hplaces
    have hrest : ∀ r ∈ rows,
        Store.writeAt { s with writes := s.writes ++ [row] } r.key r.taskId r.writeIndex = none := by
      intro r hr
      have hne : row.writeIndex ≠ r.writeIndex := by
        intro heq
        exact hplaces.1 (by rw [heq]; exact List.mem_map_of_mem hr)
      have hold := hnone r (List.mem_cons_of_mem _ hr)
      unfold Store.writeAt at hold ⊢
      dsimp only
      rw [List.find?_append, hold]
      simp [hne]
    rw [Store.insertRows, hnone row List.mem_cons_self, if_neg (by simp), ih hrest hplaces.2]
    simp

theorem ownsPath_eq (s : Store) (t : Task) :
    (s.taskPaths.find? fun p => p.key = t.key ∧ p.taskId = t.taskId) = s.taskPaths.find? t.ownsPath := by
  unfold Task.ownsPath
  rfl

section

variable {seen : Option WriteRow} (h : Tried t s seen)

include h

theorem Tried.taskPath_eq : s.taskPath t.key t.taskId t.taskPath = t.taskPath.getD "" := by
  unfold Store.taskPath
  rw [ownsPath_eq, h.path]
  cases seen with
  | none =>
    have hlegacy : (s.writes.any fun row => row.key = t.key ∧ row.taskId = t.taskId) = false := by
      rw [List.any_eq_false]
      intro row hrow howns
      have : row ∈ s.writes.filter t.owns := List.mem_filter.mpr ⟨hrow, howns⟩
      rw [h.rows] at this
      cases this
    show (if (true && s.writes.any fun row => row.key = t.key ∧ row.taskId = t.taskId) || false then _ else _) = _
    rw [hlegacy]
    rfl
  | some row =>
    by_cases hpath : t.taskPath.getD "" = ""
    · simp [hpath]
    · simp [hpath]

theorem Tried.path_kept : (s.taskPaths.find? t.ownsPath).any (·.taskPath ≠ t.taskPath.getD "") = false := by
  rw [h.path]
  cases seen with
  | none => rfl
  | some row => simp

theorem Tried.putTask_eq (writes : List Write) :
    s.putTask now t.key t.taskId t.taskPath writes = (s.newRows now t.key t.taskId writes).bind fun rows =>
      Store.insertRows { s with taskPaths := s.taskPaths ++
        if seen.isNone && !writes.isEmpty then [⟨t.key, t.taskId, t.taskPath.getD ""⟩] else [] } rows := by
  have hnone : (s.taskPaths.find? t.ownsPath).isNone = seen.isNone := by
    rw [h.path]
    cases seen <;> rfl
  unfold Store.putTask
  rw [h.taskPath_eq, ownsPath_eq]
  dsimp only
  rw [h.path_kept, if_neg Bool.false_ne_true, hnone]
  rfl

theorem Tried.writeAt_eq (index : ℤ) :
    s.writeAt t.key t.taskId index = if index = -1 then seen else none := by
  rw [Checkpoint.writeAt_eq, h.rows]
  cases seen with
  | none => simp
  | some row =>
    have hplace := (h.place row rfl).1
    by_cases hindex : index = -1
    · rw [if_pos hindex, hindex]
      simp [hplace]
    · rw [if_neg hindex]
      simp [hplace, Ne.symm hindex]

end

def errorRow (digest : String → String) (now : String) (t : Task) (error : Thrown) : WriteRow :=
  ⟨t.key, t.taskId, -1, "__error__", (errorValue error).stringify, errorHash digest error, now⟩

theorem newRows_error {seen : Option WriteRow} (h : Tried t s seen) (error : Thrown) :
    s.newRows now t.key t.taskId [prepared digest (errorWrite error, 0)] =
      seen.elim (.ok [errorRow digest now t error]) fun row =>
        if row.contentSha256 ≠ errorHash digest error then .error "checkpoint_state_conflicting" else .ok [] := by
  have hindex : writeIndex "__error__" 0 = some (-1) := by decide
  unfold Store.newRows prepared errorWrite
  dsimp only
  rw [hindex]
  dsimp only
  rw [h.writeAt_eq, if_pos rfl]
  cases seen with
  | none => rfl
  | some row => rfl

theorem Tried.record_error {seen : Option WriteRow} (h : Tried t s seen) (hfits : t.fits = true) (error : Thrown) :
    record digest t [errorWrite error] now s =
      if error.fits then
        seen.elim (.ok { s with
          writes := s.writes ++ [errorRow digest now t error]
          taskPaths := s.taskPaths ++ [⟨t.key, t.taskId, t.taskPath.getD ""⟩] }) fun row =>
            if row.contentSha256 ≠ errorHash digest error then .error "checkpoint_state_conflicting" else .ok s
      else .error "checkpoint_operation_too_large" := by
  have hlength : ¬[errorWrite error].length > maxWrites := by
    rw [List.length_singleton]
    decide
  have hsmall : [errorWrite error].all small = error.fits := by
    show (small (errorWrite error) && true) = _
    rw [Bool.and_true]
    rfl
  rw [record_eq, if_neg hlength, if_pos hfits, readAll_eq, hsmall]
  cases hsize : error.fits with
  | false => rfl
  | true =>
    rw [if_pos rfl, if_pos rfl]
    show s.putTask now t.key t.taskId t.taskPath [prepared digest (errorWrite error, 0)] = _
    rw [h.putTask_eq, newRows_error h]
    cases seen with
    | none =>
      show Store.insertRows _ [errorRow digest now t error] = _
      rw [insertRows_new]
      · rfl
      · intro row hrow
        obtain rfl := List.mem_singleton.mp hrow
        exact h.writeAt_eq (-1)
      · simp
    | some row =>
      rw [Option.elim_some, Option.elim_some]
      by_cases hhash : row.contentSha256 ≠ errorHash digest error
      · rw [if_pos hhash, if_pos hhash]
        rfl
      · rw [if_neg hhash, if_neg hhash]
        show Store.insertRows { s with taskPaths := s.taskPaths ++ [] } [] = _
        rw [List.append_nil]
        rfl

end Attempts

/-! ### What other operations leave -/

/-- The rows of the task are as they were, and stored texts are still JSON. -/
structure Beside (t : Task) (s s' : Store) : Prop where
  rows : s'.writes.filter t.owns = s.writes.filter t.owns
  path : s'.taskPaths.find? t.ownsPath = s.taskPaths.find? t.ownsPath
  readable : s.Readable → s'.Readable

section Others

variable {digest : String → String} {now : String} {t : Task} {s s' : Store}

theorem Beside.refl (t : Task) (s : Store) : Beside t s s := ⟨rfl, rfl, id⟩

theorem Tried.beside {seen : Option WriteRow} (h : Tried t s seen) (hb : Beside t s s') : Tried t s' seen :=
  ⟨hb.rows.trans h.rows, hb.path.trans h.path, h.place⟩

theorem json_ok {value : Option Json} {raw : Option String} (h : json value = .ok raw) :
    raw = value.map Json.stringify := by
  cases value with
  | none =>
    obtain rfl : none = raw := by simpa [json] using h
    rfl
  | some value =>
    unfold json at h
    dsimp only at h
    split_ifs at h with hsize
    exact (Except.ok.inj h).symm

theorem distinct_storedConfig {config : Option Json} (h : ∀ c ∈ config, c.distinct = true) (key : Key) :
    (storedConfig config key).distinct = true := by
  have hspread : ∀ fields, (Json.obj fields).distinct = true → (Json.obj (spread fields
      [("thread_id", .str key.runId), ("checkpoint_ns", .str key.ns), ("checkpoint_id", .str key.id)])).distinct =
        true := by
    intro fields hfields
    refine Json.distinct_foldl_assign hfields fun f hf => ?_
    simp only [List.mem_cons, List.not_mem_nil, or_false] at hf
    rcases hf with rfl | rfl | rfl <;> rfl
  unfold storedConfig
  rw [Json.distinct_obj]
  refine ⟨by simp, fun f hf => ?_⟩
  rw [List.mem_singleton.mp hf]
  refine hspread _ ?_
  split
  case h_1 fields hfields =>
    obtain ⟨c, hc, hfields⟩ := Option.bind_eq_some_iff.mp hfields
    exact Json.distinct_get? (h c hc) hfields
  · rfl

theorem put_rows {runId : String} {payload reply : Json} (hpayload : payload.distinct = true)
    (h : s.put digest now runId payload = .ok (reply, s')) : s' = s ∨ ∃ row,
      s' = { s with checkpoints := s.checkpoints ++ [row] } ∧ ∃ config checkpoint metadata,
        Json.parse row.configJson = some config ∧ Json.parse row.checkpointJson = some checkpoint ∧
          Json.parse row.metadataJson = some metadata := by
  unfold Store.put at h
  obtain ⟨⟨ns, parent⟩, -, h⟩ := except_bind_ok.mp h
  dsimp only at h
  split at h
  · cases h
  case h_2 _ checkpoint id hcheckpoint =>
    split_ifs at h with hid
    obtain ⟨checkpointJson, hcp, h⟩ := except_bind_ok.mp h
    obtain ⟨metadataJson, hmd, h⟩ := except_bind_ok.mp h
    obtain ⟨configJson, hcf, hrow⟩ := except_bind_ok.mp h
    split at hrow
    · split_ifs at hrow with hhash
      exact Or.inl (Prod.mk.inj (Except.ok.inj hrow)).2.symm
    · cases metadataJson with
      | none => cases hrow
      | some metadata =>
        right
        obtain ⟨checkpoint', hgiven, hpair⟩ := Option.bind_eq_some_iff.mp hcheckpoint
        obtain ⟨id', -, hpair⟩ := Option.map_eq_some_iff.mp hpair
        obtain ⟨rfl, rfl⟩ := Prod.mk.inj hpair
        obtain ⟨value, hvalue, hmetadata⟩ := Option.map_eq_some_iff.mp (json_ok hmd).symm
        refine ⟨_, (Prod.mk.inj (Except.ok.inj hrow)).2.symm,
          storedConfig (payload.get? "config") ⟨runId, ns, id'⟩, checkpoint', value, ?_, ?_, ?_⟩
        · dsimp only
          rw [json_ok hcf]
          exact Json.parse_stringify _ (distinct_storedConfig (fun c hc => Json.distinct_get? hpayload hc) _)
        · dsimp only
          rw [json_ok hcp]
          exact Json.parse_stringify _ (Json.distinct_get? hpayload hgiven)
        · dsimp only
          rw [← hmetadata]
          exact Json.parse_stringify _ (Json.distinct_get? hpayload hvalue)

theorem putTask_ok {key : Key} {taskId : String} {given : Option String} {writes : List Write}
    (h : s.putTask now key taskId given writes = .ok s') : ∃ rows paths,
      s' = { s with writes := s.writes ++ rows, taskPaths := s.taskPaths ++ paths } ∧
        (∀ row ∈ rows, row.key = key ∧ row.taskId = taskId ∧ ∃ w ∈ writes, row.valueJson = w.valueJson) ∧
          ∀ path ∈ paths, path.key = key ∧ path.taskId = taskId := by
  unfold Store.putTask at h
  dsimp only at h
  split at h
  · cases h
  · obtain ⟨rows, hrows, h⟩ := except_bind_ok.mp h
    refine ⟨rows, _, insertRows_ok h, newRows_mem hrows, fun path hmem => ?_⟩
    split_ifs at hmem with hnew
    · rw [List.mem_singleton.mp hmem]
      exact ⟨rfl, rfl⟩
    · cases hmem

theorem putWrites_ok {runId : String} {payload : Json} (hpayload : payload.distinct = true)
    (h : s.putWrites digest now runId payload = .ok s') : ∃ ns id taskId rows paths,
      configValues (payload.get? "config") runId = .ok (ns, some id) ∧ payload.get? "taskId" = some (.str taskId) ∧
        s' = { s with writes := s.writes ++ rows, taskPaths := s.taskPaths ++ paths } ∧
          (∀ row ∈ rows, row.key = ⟨runId, ns, id⟩ ∧ row.taskId = taskId ∧
            ∃ value, Json.parse row.valueJson = some value) ∧
              ∀ path ∈ paths, path.key = ⟨runId, ns, id⟩ ∧ path.taskId = taskId := by
  unfold Store.putWrites at h
  obtain ⟨⟨ns, id⟩, hvalues, h⟩ := except_bind_ok.mp h
  dsimp only at h
  split at h
  case h_1 _ _ _ id' taskId items hid htask hitems =>
    split_ifs at h with hlength
    obtain ⟨given, -, h⟩ := except_bind_ok.mp h
    obtain ⟨writes, hwrites, h⟩ := except_bind_ok.mp h
    obtain ⟨rows, paths, hs', hrows, hpaths⟩ := putTask_ok h
    obtain rfl : id = some id' := (Option.filter_eq_some_iff.mp hid).1
    refine ⟨ns, id', taskId, rows, paths, hvalues, htask, hs', fun row hrow => ?_, hpaths⟩
    obtain ⟨hkey, htaskId, w, hw, hvalue⟩ := hrows row hrow
    refine ⟨hkey, htaskId, ?_⟩
    obtain ⟨p, hp, hread⟩ := exists_of_forall₂_right (mapM_ok hwrites) hw
    rw [hvalue]
    refine readWrite_distinct ?_ hread
    exact (Json.distinct_arr items).mp (Json.distinct_get? hpayload hitems) _ (List.fst_mem_of_mem_zipIdx hp)
  · cases h

theorem Store.Readable.putWrites {rows : List WriteRow} {paths : List PathRow} (h : s.Readable)
    (hrows : ∀ row ∈ rows, ∃ value, Json.parse row.valueJson = some value) :
    Store.Readable { s with writes := s.writes ++ rows, taskPaths := s.taskPaths ++ paths } where
  checkpoints := h.checkpoints
  writes row hrow := by
    rcases List.mem_append.mp hrow with hrow | hrow
    · exact h.writes row hrow
    · exact hrows row hrow

theorem beside_append {key : Key} {taskId : String} (hother : key ≠ t.key ∨ taskId ≠ t.taskId)
    {rows : List WriteRow} {paths : List PathRow}
    (hrows : ∀ row ∈ rows, row.key = key ∧ row.taskId = taskId ∧ ∃ value, Json.parse row.valueJson = some value)
    (hpaths : ∀ path ∈ paths, path.key = key ∧ path.taskId = taskId) :
    Beside t s { s with writes := s.writes ++ rows, taskPaths := s.taskPaths ++ paths } where
  rows := by
    have hnone : rows.filter t.owns = [] := by
      rw [List.filter_eq_nil_iff]
      intro row hrow howns
      obtain ⟨hkey, htask⟩ : row.key = t.key ∧ row.taskId = t.taskId := by simpa [Task.owns] using howns
      obtain ⟨rfl, rfl, -⟩ := hrows row hrow
      exact hother.elim (fun h => h hkey) (fun h => h htask)
    rw [List.filter_append, hnone, List.append_nil]
  path := by
    have hnone : paths.find? t.ownsPath = none := by
      rw [List.find?_eq_none]
      intro path hpath howns
      obtain ⟨hkey, htask⟩ : path.key = t.key ∧ path.taskId = t.taskId := by simpa [Task.ownsPath] using howns
      obtain ⟨rfl, rfl⟩ := hpaths path hpath
      exact hother.elim (fun h => h hkey) (fun h => h htask)
    rw [List.find?_append, hnone, Option.or_none]
  readable h := h.putWrites fun row hrow => (hrows row hrow).2.2

theorem beside_deleteThread {runId : String} (hother : runId ≠ t.runId) : Beside t s (s.deleteThread runId) where
  rows := by
    show (s.writes.filter _).filter t.owns = _
    rw [List.filter_filter]
    refine List.filter_congr fun row _ => ?_
    by_cases hrow : t.owns row = true
    · have hkey : row.key = t.key := (by simpa [Task.owns] using hrow : row.key = t.key ∧ _).1
      simp [hrow, hkey, Task.key, Ne.symm hother]
    · simp [hrow]
  path := by
    show (s.taskPaths.filter _).find? t.ownsPath = _
    rw [List.find?_filter]
    congr 1
    funext path
    by_cases hpath : t.ownsPath path = true
    · have hkey : path.key = t.key := (by simpa [Task.ownsPath] using hpath : path.key = t.key ∧ _).1
      simp [hpath, hkey, Task.key, Ne.symm hother]
    · simp [hpath]
  readable h := {
    checkpoints := fun row hrow => h.checkpoints row (List.mem_of_mem_filter hrow)
    writes := fun row hrow => h.writes row (List.mem_of_mem_filter hrow) }

/-- Another operation leaves what a retry compares. -/
theorem Other.beside (digest : String → String) (s : Store) (other : Other t) : Beside t s (other.next digest s) := by
  unfold Other.next kept
  cases hexecute : s.execute digest other.now other.runId other.threadId other.request with
  | error e => exact Beside.refl t s
  | ok p =>
    show Beside t s p.2
    obtain ⟨now, runId, threadId, request, apart, whole⟩ := other
    dsimp only at hexecute
    unfold Store.execute at hexecute
    split_ifs at hexecute with hthread
    cases request with
    | get payload =>
      obtain ⟨reply, -, rfl⟩ := except_map_ok.mp hexecute
      exact Beside.refl t s
    | list payload =>
      obtain ⟨reply, -, rfl⟩ := except_map_ok.mp hexecute
      exact Beside.refl t s
    | put payload =>
      obtain ⟨reply, hput, rfl⟩ := except_map_ok.mp hexecute
      rcases put_rows whole hput with hsame | ⟨row, hnew, hrow⟩
      · rw [hsame]
        exact Beside.refl t s
      · rw [hnew]
        refine ⟨rfl, rfl, fun h => ⟨fun r hr => ?_, h.writes⟩⟩
        rcases List.mem_append.mp hr with hr | hr
        · exact h.checkpoints r hr
        · rw [List.mem_singleton.mp hr]
          exact hrow
    | putWrites payload =>
      obtain ⟨s', hput, rfl⟩ := except_map_ok.mp hexecute
      obtain ⟨ns, id, taskId, rows, paths, hvalues, htask, rfl, hrows, hpaths⟩ := putWrites_ok whole hput
      have hother : (⟨runId, ns, id⟩ : Key) ≠ t.key ∨ taskId ≠ t.taskId := by
        by_contra hsame
        rw [not_or, not_ne_iff, not_ne_iff] at hsame
        obtain ⟨hkey, rfl⟩ := hsame
        obtain ⟨rfl, rfl, rfl⟩ := Key.mk.inj hkey
        rcases apart with h | h | h
        · exact h rfl
        · exact h hvalues
        · rw [htask] at h
          exact h rfl
      exact beside_append hother hrows hpaths
    | deleteThread =>
      cases hexecute
      exact beside_deleteThread apart

end Others

/-! ### Reading the writes back -/

section Reading

variable {digest : String → String} {now : String} {t : Task} {s s' : Store}

theorem inOrder_iff (s : Store) (a b : WriteRow) : s.inOrder a b = true ↔
    toLex (s.pathOf a.key a.taskId, toLex (a.taskId, a.writeIndex)) ≤
      toLex (s.pathOf b.key b.taskId, toLex (b.taskId, b.writeIndex)) := by
  unfold Store.inOrder
  simp only [Prod.Lex.toLex_le_toLex, Bool.or_eq_true, Bool.and_eq_true, decide_eq_true_eq, beq_iff_eq]

theorem writesOf_pairwise (s : Store) (key : Key) : (s.writesOf key).Pairwise (s.inOrder · ·) := by
  refine List.pairwise_mergeSort (fun a b c => ?_) (fun a b => ?_) _
  · rw [inOrder_iff, inOrder_iff, inOrder_iff]
    exact le_trans
  · rw [Bool.or_eq_true, inOrder_iff, inOrder_iff]
    exact le_total _ _

theorem filter_writesOf {key : Key} {p : WriteRow → Bool} {rows : List WriteRow}
    (hrows : s.writes.filter (fun row => decide (row.key = key) && p row) = rows)
    (hsorted : rows.Pairwise fun a b => s.inOrder a b ∧ ¬s.inOrder b a) : (s.writesOf key).filter p = rows := by
  have hperm : ((s.writesOf key).filter p).Perm rows := by
    have h := (List.mergeSort_perm (s.writes.filter (·.key = key)) s.inOrder).filter p
    rw [List.filter_filter] at h
    have hcomm : (s.writes.filter fun row => p row && decide (row.key = key)) = rows := by
      rw [← hrows]
      exact List.filter_congr fun row _ => Bool.and_comm _ _
    exact hcomm ▸ h
  refine List.Perm.eq_of_pairwise ?_ ((writesOf_pairwise s key).filter p) (hsorted.imp fun h => h.1) hperm
  intro a b ha hb hab hba
  by_contra hne
  rcases List.pairwise_iff_getElem.mp hsorted, List.mem_iff_getElem.mp (hperm.mem_iff.mp ha),
    List.mem_iff_getElem.mp hb with ⟨hlt, ⟨i, hi, rfl⟩, ⟨k, hk, rfl⟩⟩
  rcases Nat.lt_trichotomy i k with hik | rfl | hki
  · exact (hlt i k hi hk hik).2 hba
  · exact hne rfl
  · exact (hlt k i hk hi hki).2 hab

def successRow (digest : String → String) (now : String) (t : Task) (p : (String × Json) × ℕ) : WriteRow :=
  ⟨t.key, t.taskId, p.2, p.1.1, p.1.2.stringify, contentHash digest p.1.1 p.1.2.stringify, now⟩

def successRows (digest : String → String) (now : String) (t : Task) (writes : List (String × Json)) :
    List WriteRow := writes.zipIdx.map (successRow digest now t)

theorem writeIndex_ordinary {channel : String} (h : specialWriteIndexes channel = none) (position : ℕ) :
    writeIndex channel position = none ∨ writeIndex channel position = some (position : ℤ) := by
  unfold writeIndex
  rw [h]
  split
  · exact Or.inl rfl
  · exact Or.inr rfl

variable (digest) in
theorem newRows_success {seen : Option WriteRow} (h : Tried t s seen) {writes : List (String × Json)}
    (hordinary : ∀ w ∈ writes, specialWriteIndexes w.1 = none) (n : ℕ) :
    s.newRows now t.key t.taskId ((writes.zipIdx n).map (prepared digest)) = .error "D1_TYPE_ERROR" ∨
      s.newRows now t.key t.taskId ((writes.zipIdx n).map (prepared digest)) =
        .ok ((writes.zipIdx n).map (successRow digest now t)) := by
  induction writes generalizing n with
  | nil => exact Or.inr rfl
  | cons w writes ih =>
    have hrest := ih (fun v hv => hordinary v (List.mem_cons_of_mem _ hv)) (n + 1)
    have hprepared : (prepared digest (w, n)).index = writeIndex w.1 n := rfl
    rw [List.zipIdx_cons, List.map_cons, List.map_cons, Store.newRows, hprepared]
    rcases writeIndex_ordinary (hordinary w List.mem_cons_self) n with hindex | hindex
    · left
      rw [hindex]
    · have hfree : s.writeAt t.key t.taskId n = none := by rw [h.writeAt_eq, if_neg (by omega)]
      rw [hindex]
      dsimp only
      rw [hfree]
      dsimp only
      rcases hrest with hrest | hrest
      · rw [hrest]
        exact Or.inl rfl
      · rw [hrest]
        exact Or.inr rfl

theorem successRows_own (t : Task) (writes : List (String × Json)) :
    ∀ row ∈ successRows digest now t writes, row.key = t.key ∧ row.taskId = t.taskId := by
  intro row hrow
  obtain ⟨p, -, rfl⟩ := List.mem_map.mp hrow
  exact ⟨rfl, rfl⟩

theorem successRows_places (t : Task) (writes : List (String × Json)) :
    (successRows digest now t writes).Pairwise fun a b => a.writeIndex < b.writeIndex := by
  have hindexes : writes.zipIdx.Pairwise fun p q => (p.2 : ℤ) < q.2 := by
    have h := List.pairwise_lt_range' (s := 0) (n := writes.length)
    rw [← List.zipIdx_map_snd 0 writes, List.pairwise_map] at h
    exact h.imp fun hlt => by exact_mod_cast hlt
  exact List.pairwise_map.mpr hindexes

variable (digest) in
theorem record_success {seen : Option WriteRow} (h : Tried t s seen) (success : Success) :
    record digest t success.writes now s ≠ .error "checkpoint_state_conflicting" ∧
      ∀ s', record digest t success.writes now s = .ok s' →
        s'.writes.filter t.owns = seen.toList ++ successRows digest now t success.writes ∧
          (s.Readable → s'.Readable) := by
  rw [record_eq]
  by_cases hlength : success.writes.length > maxWrites
  · rw [if_pos hlength]
    exact ⟨by simp, fun s' h' => by cases h'⟩
  rw [if_neg hlength]
  by_cases hfits : t.fits = true
  swap
  · rw [if_neg hfits]
    exact ⟨by simp, fun s' h' => by cases h'⟩
  rw [if_pos hfits, readAll_eq]
  by_cases hsmall : success.writes.all small = true
  swap
  · rw [if_neg hsmall]
    exact ⟨by simp [Except.bind], fun s' h' => by cases h'⟩
  rw [if_pos hsmall]
  show s.putTask now t.key t.taskId t.taskPath _ ≠ _ ∧ ∀ s', s.putTask now t.key t.taskId t.taskPath _ = _ → _
  rw [h.putTask_eq]
  rcases newRows_success digest h success.ordinary 0 with hnew | hnew
  · rw [hnew]
    exact ⟨by simp [Except.bind], fun s' h' => by cases h'⟩
  · rw [hnew]
    show Store.insertRows _ (successRows digest now t success.writes) ≠ _ ∧
      ∀ s', Store.insertRows _ (successRows digest now t success.writes) = _ → _
    rw [insertRows_new]
    · refine ⟨by simp, fun s' h' => ?_⟩
      obtain rfl := Except.ok.inj h'
      have howns : (successRows digest now t success.writes).filter t.owns = successRows digest now t success.writes :=
        List.filter_eq_self.mpr fun row hrow => by simpa [Task.owns] using successRows_own t success.writes row hrow
      refine ⟨by rw [List.filter_append, h.rows, howns], fun hread => hread.putWrites fun row hrow => ?_⟩
      obtain ⟨p, hp, rfl⟩ := List.mem_map.mp hrow
      exact ⟨p.1.2, Json.parse_stringify _ (success.distinct p.1 (List.fst_mem_of_mem_zipIdx hp))⟩
    · intro row hrow
      obtain ⟨p, -, rfl⟩ := List.mem_map.mp hrow
      show s.writeAt t.key t.taskId p.2 = none
      rw [h.writeAt_eq, if_neg (by omega)]
    · exact List.pairwise_map.mpr ((successRows_places t success.writes).imp fun hlt => ne_of_lt hlt)

def shownRow (row : WriteRow) : String × String × Json :=
  (row.taskId, row.channel, (Json.parse row.valueJson).getD .null)

theorem mapM_pendingWrite {rows : List WriteRow} (h : ∀ row ∈ rows, ∃ value, Json.parse row.valueJson = some value) :
    rows.mapM pendingWrite = .ok (rows.map shownRow) := by
  induction rows with
  | nil => rfl
  | cons row rows ih =>
    obtain ⟨value, hvalue⟩ := h row List.mem_cons_self
    have hrow : pendingWrite row = .ok (shownRow row) := by
      unfold pendingWrite parseJson shownRow
      rw [hvalue]
      rfl
    rw [List.mapM_cons, hrow, ih fun r hr => h r (List.mem_cons_of_mem _ hr)]
    rfl

theorem get_stored (hread : s.Readable) (hstored : ∃ row ∈ s.checkpoints, row.key = t.key) :
    ∃ tuple, s.get t.runId t.getPayload = .ok (.tuple tuple) ∧
      tuple.pendingWrites = (s.writesOf t.key).map shownRow := by
  have hid : (some t.id).filter (fun id => decide (id ≠ "")) = some t.id := by simp [t.id_ne]
  obtain ⟨row, hrow⟩ : ∃ row, s.checkpoints.find? (·.key = ⟨t.runId, t.ns, t.id⟩) = some row := by
    obtain ⟨row, hmem, hkey⟩ := hstored
    exact Option.isSome_iff_exists.mp (List.find?_isSome.mpr ⟨row, hmem, by simpa [Task.key] using hkey⟩)
  have hkey : row.key = t.key := by simpa [Task.key] using List.find?_some hrow
  obtain ⟨config, checkpoint, metadata, hcf, hcp, hmd⟩ := hread.checkpoints row (List.mem_of_find?_eq_some hrow)
  have hwrites : (s.writesOf row.key).mapM pendingWrite = .ok ((s.writesOf row.key).map shownRow) :=
    mapM_pendingWrite fun r hr => hread.writes r (List.mem_of_mem_filter (List.mem_mergeSort.mp hr))
  have hconfig : t.getPayload.get? "config" = some t.config := rfl
  have htuple : ∃ tuple, s.tuple row = .ok tuple ∧ tuple.pendingWrites = (s.writesOf row.key).map shownRow := by
    unfold Store.tuple
    simp only [parseJson, hcf, hcp, hmd, hwrites, Option.elim_some, bind, Except.bind]
    exact ⟨_, rfl, rfl⟩
  obtain ⟨tuple, htuple, hpending⟩ := htuple
  refine ⟨tuple, ?_, hkey ▸ hpending⟩
  unfold Store.get
  rw [hconfig, t.reads]
  simp only [bind, Except.bind, hid, hrow, htuple]
  rfl

/-- What is shown of a task that succeeded. -/
theorem shown_success {error : List WriteRow} (herror : ∀ row ∈ error, row.channel = "__error__") (success : Success)
    (hrows : s.writes.filter t.owns = error ++ successRows digest now t success.writes) :
    (((s.writesOf t.key).map shownRow).filter fun w => w.1 = t.taskId ∧ w.2.1 ≠ "__error__") =
      success.writes.map fun w => (t.taskId, w.1, w.2) := by
  have hrest : s.writes.filter (fun row => decide (row.key = t.key) &&
      decide (row.taskId = t.taskId ∧ row.channel ≠ "__error__")) = successRows digest now t success.writes := by
    have hsplit : (fun row : WriteRow => decide (row.key = t.key) &&
        decide (row.taskId = t.taskId ∧ row.channel ≠ "__error__")) =
          fun row => decide (row.channel ≠ "__error__") && t.owns row := by
      funext row
      unfold Task.owns
      by_cases hkey : row.key = t.key <;> by_cases htask : row.taskId = t.taskId <;> simp [hkey, htask]
    have hnone : error.filter (fun row => decide (row.channel ≠ "__error__")) = [] :=
      List.filter_eq_nil_iff.mpr fun row hrow => by simpa using herror row hrow
    have hall : (successRows digest now t success.writes).filter (fun row => decide (row.channel ≠ "__error__")) =
        successRows digest now t success.writes := by
      refine List.filter_eq_self.mpr fun row hrow => ?_
      obtain ⟨p, hp, rfl⟩ := List.mem_map.mp hrow
      have hordinary := success.ordinary p.1 (List.fst_mem_of_mem_zipIdx hp)
      rw [decide_eq_true_eq]
      intro hchannel
      have hchannel : p.1.1 = "__error__" := hchannel
      rw [hchannel] at hordinary
      exact absurd hordinary (by decide)
    rw [hsplit, ← List.filter_filter, hrows, List.filter_append, hnone, hall, List.nil_append]
  have hsorted : (successRows digest now t success.writes).Pairwise fun a b => s.inOrder a b ∧ ¬s.inOrder b a := by
    refine (successRows_places t success.writes).imp_of_mem fun {a b} ha hb hlt => ?_
    obtain ⟨hkeyA, htaskA⟩ := successRows_own t success.writes a ha
    obtain ⟨hkeyB, htaskB⟩ := successRows_own t success.writes b hb
    unfold Store.inOrder
    rw [hkeyA, htaskA, hkeyB, htaskB]
    simp [hlt, hlt.le]
  rw [List.filter_map]
  show ((s.writesOf t.key).filter fun row => row.taskId = t.taskId ∧ row.channel ≠ "__error__").map shownRow = _
  rw [filter_writesOf hrest hsorted]
  unfold successRows
  rw [List.map_map]
  have hrow : ∀ p ∈ success.writes.zipIdx, (shownRow ∘ successRow digest now t) p = (t.taskId, p.1.1, p.1.2) := by
    intro p hp
    have hvalue := Json.parse_stringify p.1.2 (success.distinct p.1 (List.fst_mem_of_mem_zipIdx hp))
    show (t.taskId, p.1.1, (Json.parse p.1.2.stringify).getD .null) = _
    rw [hvalue]
    rfl
  rw [List.map_congr_left hrow]
  have hfst := List.zipIdx_map_fst 0 success.writes
  conv_rhs => rw [← hfst, List.map_map]
  rfl

end Reading

/-! ### The attempts together -/

section Together

variable {digest : String → String} {t : Task} {s : Store}

def AllEqual (hashes : List String) : Prop := ∀ a ∈ hashes, ∀ b ∈ hashes, a = b

theorem allEqual_cons_cons (a b : String) (l : List String) : AllEqual (a :: b :: l) ↔ a = b ∧ AllEqual (a :: l) := by
  constructor
  · intro h
    refine ⟨h a (by simp) b (by simp), fun x hx y hy => h x ?_ y ?_⟩
    · rcases List.mem_cons.mp hx with rfl | hx
      · simp
      · simp [hx]
    · rcases List.mem_cons.mp hy with rfl | hy
      · simp
      · simp [hy]
  · rintro ⟨rfl, h⟩ x hx y hy
    exact h x (by simpa using hx) y (by simpa using hy)

variable (digest) in
theorem Tried.first (h : Tried t s none) (error : Thrown) (now : String) :
    Tried t { s with
      writes := s.writes ++ [errorRow digest now t error]
      taskPaths := s.taskPaths ++ [⟨t.key, t.taskId, t.taskPath.getD ""⟩] } (some (errorRow digest now t error)) where
  rows := by
    rw [List.filter_append, h.rows]
    simp [Task.owns, errorRow]
  path := by
    rw [List.find?_append, h.path]
    simp [Task.ownsPath]
  place row hrow := by
    obtain rfl : errorRow digest now t error = row := by simpa using hrow
    exact ⟨rfl, rfl⟩

theorem record_unfit (hfits : ¬t.fits = true) (writes : List (String × Json)) (now : String) :
    record digest t writes now s = .error "checkpoint_state_invalid" := by
  rw [record_eq, if_neg hfits]
  exact ite_self _

variable (digest) in
theorem Trial.next_tried {seen : Option WriteRow} (h : Tried t s seen) (hread : s.Readable) (trial : Trial t) :
    (∃ seen', Tried t (trial.next digest s) seen') ∧ (trial.next digest s).Readable := by
  cases trial with
  | meanwhile other => exact ⟨⟨seen, h.beside (other.beside digest s)⟩, (other.beside digest s).readable hread⟩
  | failed error now =>
    show (∃ seen', Tried t (kept s (record digest t [errorWrite error] now s)) seen') ∧
      (kept s (record digest t [errorWrite error] now s)).Readable
    by_cases hfits : t.fits = true
    swap
    · rw [record_unfit hfits]
      exact ⟨⟨seen, h⟩, hread⟩
    rw [h.record_error hfits]
    by_cases hsize : error.fits = true
    swap
    · rw [if_neg hsize]
      exact ⟨⟨seen, h⟩, hread⟩
    rw [if_pos hsize]
    cases seen with
    | none =>
      refine ⟨⟨_, h.first digest error now⟩, hread.putWrites fun row hrow => ?_⟩
      rw [List.mem_singleton.mp hrow]
      exact ⟨errorValue error, Json.parse_stringify _ rfl⟩
    | some row =>
      rw [Option.elim_some]
      by_cases hhash : row.contentSha256 ≠ errorHash digest error
      · rw [if_pos hhash]
        exact ⟨⟨_, h⟩, hread⟩
      · rw [if_neg hhash]
        exact ⟨⟨_, h⟩, hread⟩

variable (digest) in
theorem after_tried {seen : Option WriteRow} (h : Tried t s seen) (hread : s.Readable) (trials : List (Trial t)) :
    (∃ seen', Tried t (after digest s trials) seen') ∧ (after digest s trials).Readable := by
  induction trials generalizing s seen with
  | nil => exact ⟨⟨seen, h⟩, hread⟩
  | cons trial trials ih =>
    obtain ⟨⟨seen', h'⟩, hread'⟩ := trial.next_tried digest h hread
    exact ih h' hread'

def hashes (digest : String → String) (trials : List (Trial t)) : List String :=
  ((errors trials).filter Thrown.fits).map (errorHash digest)

/-- **Trials agree** exactly when their hashes and the row that was seen do. -/
theorem agreeing_iff (hfits : t.fits = true) {seen : Option WriteRow} (h : Tried t s seen) (trials : List (Trial t)) :
    Agreeing digest s trials ↔ AllEqual (seen.toList.map (·.contentSha256) ++ hashes digest trials) := by
  induction trials generalizing s seen with
  | nil =>
    refine ⟨fun _ => ?_, fun _ => trivial⟩
    cases seen <;> simp [AllEqual, hashes, errors]
  | cons trial trials ih =>
    cases trial with
    | meanwhile other =>
      have hnext := ih (h.beside (other.beside digest s))
      show (_ ≠ _ ∧ Agreeing digest (other.next digest s) trials) ↔ _
      rw [hnext]
      exact ⟨fun hall => hall.2, fun hall => ⟨by simp [Trial.result], hall⟩⟩
    | failed error now =>
      show (record digest t [errorWrite error] now s ≠ _ ∧
        Agreeing digest (kept s (record digest t [errorWrite error] now s)) trials) ↔ _
      rw [h.record_error hfits]
      by_cases hsize : error.fits = true
      · have hhashes : hashes digest (Trial.failed error now :: trials) =
            errorHash digest error :: hashes digest trials := by
          simp [hashes, errors, hsize]
        rw [if_pos hsize, hhashes]
        cases seen with
        | none =>
          have hnext := ih (h.first digest error now)
          show (_ ≠ _ ∧ Agreeing digest _ trials) ↔ AllEqual (errorHash digest error :: hashes digest trials)
          rw [Option.elim_none]
          refine ⟨fun hall => hnext.mp hall.2, fun hall => ⟨by simp, hnext.mpr hall⟩⟩
        | some row =>
          rw [Option.elim_some]
          show _ ↔ AllEqual (row.contentSha256 :: errorHash digest error :: hashes digest trials)
          rw [allEqual_cons_cons]
          by_cases hhash : row.contentSha256 = errorHash digest error
          · rw [if_neg (by simpa using hhash)]
            exact ⟨fun hall => ⟨hhash, (ih h).mp hall.2⟩, fun hall => ⟨by simp, (ih h).mpr hall.2⟩⟩
          · rw [if_pos hhash]
            exact ⟨fun hall => absurd rfl hall.1, fun hall => absurd hall.1 hhash⟩
      · have hhashes : hashes digest (Trial.failed error now :: trials) = hashes digest trials := by
          simp [hashes, errors, hsize]
        rw [if_neg hsize, hhashes]
        exact ⟨fun hall => (ih h).mp hall.2, fun hall => ⟨by simp, (ih h).mpr hall⟩⟩

theorem agreeing_unfit (hfits : ¬t.fits = true) {seen : Option WriteRow} (h : Tried t s seen)
    (trials : List (Trial t)) : Agreeing digest s trials := by
  induction trials generalizing s seen with
  | nil => trivial
  | cons trial trials ih =>
    cases trial with
    | meanwhile other => exact ⟨by simp [Trial.result], ih (h.beside (other.beside digest s))⟩
    | failed error now =>
      show record digest t [errorWrite error] now s ≠ _ ∧
        Agreeing digest (kept s (record digest t [errorWrite error] now s)) trials
      rw [record_unfit hfits]
      exact ⟨by simp, ih h⟩

theorem Other.foldl_beside (others : List (Other t)) : Beside t s (others.foldl (Other.next digest) s) := by
  induction others generalizing s with
  | nil => exact Beside.refl t s
  | cons other others ih =>
    have hstep := other.beside digest s
    have hrest := ih (s := other.next digest s)
    exact ⟨hrest.rows.trans hstep.rows, hrest.path.trans hstep.path, fun h => hrest.readable (hstep.readable h)⟩

/-- Attempts of a task of which nothing is stored agree exactly if the errors that are recorded have one content. -/
theorem retries_agree_iff (hread : s.Readable) (hfresh : Tried t s none) (trials : List (Trial t))
    (success : Option (Success × String)) : RetriesAgree digest s trials success ↔ SameContent digest trials := by
  have hsuccess : ∀ p ∈ success,
      record digest t p.1.writes p.2 (after digest s trials) ≠ .error "checkpoint_state_conflicting" ∧
        ∀ s', record digest t p.1.writes p.2 (after digest s trials) = .ok s' → Delivers digest t s' p.1.writes := by
    intro p _
    obtain ⟨⟨seen, htried⟩, hafter⟩ := after_tried digest hfresh hread trials
    obtain ⟨hquiet, hstored⟩ := record_success digest htried p.1
    refine ⟨hquiet, fun s' h' later hcheckpoint => ?_⟩
    obtain ⟨hrows, hreadable⟩ := hstored s' h'
    have hbeside : Beside t s' (later.foldl (Other.next digest) s') := Other.foldl_beside later
    obtain ⟨tuple, hget, hpending⟩ := get_stored (hbeside.readable (hreadable hafter)) hcheckpoint
    refine ⟨tuple, hget, ?_⟩
    rw [hpending]
    exact shown_success (fun row hrow => (htried.place row (by simpa using hrow)).2) p.1 (hbeside.rows.trans hrows)
  have hagree : Agreeing digest s trials ↔ SameContent digest trials := by
    by_cases hfits : t.fits = true
    · rw [agreeing_iff hfits hfresh]
      show AllEqual (hashes digest trials) ↔ _
      unfold AllEqual hashes SameContent
      simp only [List.mem_map, forall_exists_index, and_imp, forall_apply_eq_imp_iff₂, hfits, forall_const]
    · exact ⟨fun _ h => absurd h hfits, fun _ => agreeing_unfit hfits hfresh trials⟩
  exact ⟨fun h => hagree.mp h.1, fun h => ⟨hagree.mpr h, hsuccess⟩⟩

end Together

/-! ### A node that is pending, then unreachable -/

/-- What LangGraph keeps of an error of the graph-node gateway. -/
def thrownBy (error : Runtime.NodeError) : Thrown := ⟨error.message, error.name⟩

def polledTask : Task where
  runId := "run"
  config := .obj [("configurable", .obj [("thread_id", .str "run"), ("checkpoint_ns", .str ""),
    ("checkpoint_id", .str "cp-1")])]
  ns := ""
  id := "cp-1"
  taskId := "task"
  taskPath := none
  reads := rfl
  id_ne := by decide

/-- The checkpoint the task belongs to, and nothing of the task. -/
def polledStore : Store where
  checkpoints := [⟨⟨"run", "", "cp-1"⟩, none, (Json.obj []).stringify, (Json.obj []).stringify, (Json.obj []).stringify,
    "", "2026-01-01T00:00:00.000Z"⟩]
  writes := []
  taskPaths := []

def stillPending : Runtime.GatewayCall := .answered 200 (some "\x7b\"state\":\"pending\"\x7d")

def unreachable : Runtime.GatewayCall := .transport .networkError

/-- The error of an attempt and the attempt that records it. -/
def attempt (error : Runtime.NodeError) (now : String) : Trial polledTask := .failed (thrownBy error) now

/-- A node that is pending at one attempt and cannot be reached at the next: the second attempt conflicts. -/
theorem pending_then_unreachable :
    Runtime.callOutcome Runtime.parseWire stillPending = .error (.nodePending .pending none none) ∧
      Runtime.callOutcome Runtime.parseWire unreachable =
        .error (.gatewayFailure .unavailable none (some .networkError)) ∧
      ¬RetriesAgree id polledStore [attempt (.nodePending .pending none none) "1",
        attempt (.gatewayFailure .unavailable none (some .networkError)) "2"] none := by
  refine ⟨by decide +kernel, rfl, fun h => h.1.2.1 ?_⟩
  decide +kernel

theorem polledStore_readable : polledStore.Readable where
  checkpoints row hrow := by
    rw [List.mem_singleton.mp hrow]
    exact ⟨_, _, _, Json.parse_stringify (Json.obj []) rfl, Json.parse_stringify (Json.obj []) rfl,
      Json.parse_stringify (Json.obj []) rfl⟩
  writes row hrow := by cases hrow

theorem polledTask_fresh : Tried polledTask polledStore none := ⟨rfl, rfl, fun row hrow => by cases hrow⟩

def finished : Success where
  writes := [("outputs", .str "done"), ("executions", .num 1)]
  ordinary := by decide
  distinct := by
    intro w hw
    simp only [List.mem_cons, List.not_mem_nil, or_false] at hw
    rcases hw with rfl | rfl <;> rfl

/-- Pending twice and then finished: the attempts agree and the output is delivered. -/
theorem pending_then_finished : RetriesAgree id polledStore [attempt (.nodePending .pending none none) "1",
    attempt (.nodePending .pending none (some 1000)) "2"] (some (finished, "3")) := by
  refine (retries_agree_iff polledStore_readable polledTask_fresh _ _).mpr fun _ a ha b hb => ?_
  have hsame : ∀ c ∈ (errors [attempt (.nodePending .pending none none) "1",
      attempt (.nodePending .pending none (some 1000)) "2"]).filter Thrown.fits,
        c = ⟨"langgraph_node_pending", "Error"⟩ := by
    intro c hc
    have hc := List.mem_of_mem_filter hc
    simpa [errors, attempt, thrownBy, Runtime.NodeError.message, Runtime.NodeError.name] using hc
  rw [hsame a ha, hsame b hb]

end ADT.Checkpoint
