import ADT.Lib.IsoDate
import ADT.Lib.JsonSize

/-!
# Runner.Record — the durable record of a job

The records of `codex-runner/src/job-runner.ts` and their files: what `persist` writes, and what `parsePersisted` takes.
A date is read in the format in which the Runner writes it.
-/

namespace ADT.Runner

inductive JobFailureReason
  | authenticationFailed | repositoryPreparationFailed | runnerRestarted | threadStartFailed | turnStartFailed
  | turnStartAmbiguous | turnFailed | interactionRequired | outputTooLarge | timeout | conversationUnavailable
  | internalError

namespace JobFailureReason

def text : JobFailureReason → String
  | authenticationFailed => "authentication_failed"
  | repositoryPreparationFailed => "repository_preparation_failed"
  | runnerRestarted => "runner_restarted"
  | threadStartFailed => "thread_start_failed"
  | turnStartFailed => "turn_start_failed"
  | turnStartAmbiguous => "turn_start_ambiguous"
  | turnFailed => "turn_failed"
  | interactionRequired => "interaction_required"
  | outputTooLarge => "output_too_large"
  | timeout => "timeout"
  | conversationUnavailable => "conversation_unavailable"
  | internalError => "internal_error"

def all : List JobFailureReason :=
  [authenticationFailed, repositoryPreparationFailed, runnerRestarted, threadStartFailed, turnStartFailed,
    turnStartAmbiguous, turnFailed, interactionRequired, outputTooLarge, timeout, conversationUnavailable, internalError]

def ofText (s : String) : Option JobFailureReason := all.find? (·.text == s)

theorem ofText_text (r : JobFailureReason) : ofText r.text = some r := by
  cases r <;> rfl

end JobFailureReason

inductive RecordState
  | queued | running | cancelling | completed | failed | cancelled
  deriving DecidableEq

namespace RecordState

def text : RecordState → String
  | queued => "queued"
  | running => "running"
  | cancelling => "cancelling"
  | completed => "completed"
  | failed => "failed"
  | cancelled => "cancelled"

def all : List RecordState := [queued, running, cancelling, completed, failed, cancelled]

def ofText (s : String) : Option RecordState := all.find? (·.text == s)

theorem ofText_text (st : RecordState) : ofText st.text = some st := by
  cases st <;> rfl

/-- `["completed","failed","cancelled"].includes(state)` -/
def terminal : RecordState → Bool
  | completed | failed | cancelled => true
  | _ => false

end RecordState

/-- `/^[a-f0-9]{n}$/` -/
def isHexText (n : ℕ) (s : String) : Bool := s.toList.length = n && s.toList.all isLowerHex

/-- A text of `n` hexadecimal digits. -/
abbrev HexText (n : ℕ) := {s : String // isHexText n s = true}

/-- `JOB_ID` -/
abbrev JobId := HexText 48

instance : LawfulBEq JobId := inferInstance

abbrev Digest := HexText 64

def isKeyChar (c : Char) : Bool := c.isDigit || c.isLower

/-- `/^[a-z0-9]+(?:-[a-z0-9]+)*$/`, of at most 80 units. -/
def isEnvironmentKey (s : String) : Bool :=
  (s.toList.splitOn '-').all (fun part => !part.isEmpty && part.all isKeyChar) && utf16Length s ≤ 80

abbrev EnvironmentKey := {s : String // isEnvironmentKey s = true}

structure JobRecord where
  revision : ℕ
  jobId : JobId
  idempotencyDigest : Digest
  fingerprint : Digest
  environmentKey : EnvironmentKey
  state : RecordState
  outputText : Option String
  reason : Option JobFailureReason
  threadId : Option String
  turnId : Option String
  conversationThreadId : Option String
  createdAt : Instant
  updatedAt : Instant

namespace JobRecord

/-- A field that is left out where it is `undefined`. -/
def field (key : String) (value : Option String) : List (String × Json) := value.toList.map fun s => (key, .str s)

/-- The fields of a record; those that are set later come last, in whatever order they were set. -/
def fields (r : JobRecord) : List (String × Json) :=
  [("schemaVersion", .num 1), ("revision", .num r.revision), ("jobId", .str r.jobId.val),
    ("idempotencyDigest", .str r.idempotencyDigest.val), ("fingerprint", .str r.fingerprint.val),
    ("environmentKey", .str r.environmentKey.val), ("state", .str r.state.text),
    ("createdAt", .str r.createdAt.toISOString), ("updatedAt", .str r.updatedAt.toISOString)] ++
  field "outputText" r.outputText ++ field "reason" (r.reason.map JobFailureReason.text) ++
  field "threadId" r.threadId ++ field "turnId" r.turnId ++ field "conversationThreadId" r.conversationThreadId

/-- `JSON.stringify(record)` -/
def snapshot (r : JobRecord) : String := (Json.obj r.fields).stringify

end JobRecord

def maxStateFile : ℕ := 300000
def maxOutput : ℕ := 262144

def maxSafeInteger : ℕ := 9007199254740991

/-- `persist` writes only a snapshot that is within the limit of a state file. -/
def JobRecord.fits (r : JobRecord) : Bool := byteLength r.snapshot ≤ maxStateFile

/-- The name of the file of a job. -/
def fileName (id : JobId) : String := id.val ++ ".json"

def allowed : List String :=
  ["schemaVersion", "revision", "jobId", "idempotencyDigest", "fingerprint", "environmentKey", "state", "outputText",
    "reason", "threadId", "turnId", "conversationThreadId", "createdAt", "updatedAt"]

def safeNat : Json → Option ℕ
  | .num n => if 0 ≤ n ∧ n ≤ maxSafeInteger then some n.toNat else none
  | _ => none

def isOne : Json → Bool
  | .num n => n == 1
  | _ => false

def formed (p : String → Bool) (j : Json) : Option {s : String // p s = true} :=
  j.asStr?.bind fun s => if h : p s = true then some ⟨s, h⟩ else none

def date (j : Json) : Option Instant := j.asStr?.bind Instant.parse

/-- An optional property, as `read` takes it. -/
def optional {α : Type} (value : Option Json) (read : Json → Option α) : Option (Option α) :=
  match value with
  | none => some none
  | some j => (read j).map some

/-- The id of a thread or a turn. -/
def identifier (j : Json) : Option String :=
  j.asStr?.filter fun s => 1 ≤ utf16Length s && utf16Length s ≤ 256

/-- What a state says about output and reason. -/
def coherent (state : RecordState) (outputText : Option String) (reason : Option JobFailureReason) : Bool :=
  (if state = .completed then outputText.any (byteLength · ≤ maxOutput) && reason.isNone else outputText.isNone) &&
    (if state = .failed then reason.isSome else reason.isNone)

/-- The fields of a file that is taken. -/
def readRecord (v : Json) : Option JobRecord := do
  let _ ← (v.get? "schemaVersion").filter isOne
  let revision ← (v.get? "revision").bind safeNat
  let jobId ← (v.get? "jobId").bind (formed (isHexText 48))
  let idempotencyDigest ← (v.get? "idempotencyDigest").bind (formed (isHexText 64))
  let fingerprint ← (v.get? "fingerprint").bind (formed (isHexText 64))
  let environmentKey ← (v.get? "environmentKey").bind (formed isEnvironmentKey)
  let state ← (v.get? "state").bind fun j => j.asStr?.bind RecordState.ofText
  let createdAt ← (v.get? "createdAt").bind date
  let updatedAt ← (v.get? "updatedAt").bind date
  let conversationThreadId ← optional (v.get? "conversationThreadId") identifier
  let threadId ← optional (v.get? "threadId") identifier
  let turnId ← optional (v.get? "turnId") identifier
  let outputText ← optional (v.get? "outputText") Json.asStr?
  let reason ← optional (v.get? "reason") fun j => j.asStr?.bind JobFailureReason.ofText
  if coherent state outputText reason then
    return ⟨revision, jobId, idempotencyDigest, fingerprint, environmentKey, state, outputText, reason, threadId, turnId,
      conversationThreadId, createdAt, updatedAt⟩
  else none

def parsePersisted (raw file : String) : Option JobRecord :=
  if byteLength raw ≤ maxStateFile then
    (Json.parse raw).bind fun v =>
      if v.strictKeys allowed then (readRecord v).filter fun r => fileName r.jobId == file else none
  else none

/-! ### What is written is read again -/

namespace JobRecord

variable (r : JobRecord)

theorem find_field (key name : String) (value : Option String) :
    (field key value).find? (·.1 == name) = if key = name then value.map fun s => (key, .str s) else none := by
  cases value with
  | none => exact (ite_self _).symm
  | some s =>
    by_cases h : key = name
    · simp [field, h]
    · simp [field, h]

def json : Json := .obj r.fields

theorem get_required : r.json.get? "schemaVersion" = some (.num 1) ∧ r.json.get? "revision" = some (.num r.revision) ∧
      r.json.get? "jobId" = some (.str r.jobId.val) ∧
      r.json.get? "idempotencyDigest" = some (.str r.idempotencyDigest.val) ∧
      r.json.get? "fingerprint" = some (.str r.fingerprint.val) ∧
      r.json.get? "environmentKey" = some (.str r.environmentKey.val) ∧
      r.json.get? "state" = some (.str r.state.text) ∧
      r.json.get? "createdAt" = some (.str r.createdAt.toISOString) ∧
      r.json.get? "updatedAt" = some (.str r.updatedAt.toISOString) := by
  refine ⟨rfl, rfl, rfl, rfl, rfl, rfl, rfl, rfl, rfl⟩

theorem get_optional : r.json.get? "outputText" = r.outputText.map .str ∧
      r.json.get? "reason" = r.reason.map (fun reason => .str reason.text) ∧
      r.json.get? "threadId" = r.threadId.map .str ∧ r.json.get? "turnId" = r.turnId.map .str ∧
      r.json.get? "conversationThreadId" = r.conversationThreadId.map .str := by
  refine ⟨?_, ?_, ?_, ?_, ?_⟩ <;>
    simp [json, fields, Json.get?, List.find?_append, find_field, Option.map_map, Function.comp_def]

theorem field_keys (key : String) (value : Option String) : ((field key value).map (·.1)).Sublist [key] := by
  cases value with
  | none => exact List.nil_sublist _
  | some s => exact List.Sublist.refl _

theorem keys_fields : (r.fields.map (·.1)).Sublist
    ["schemaVersion", "revision", "jobId", "idempotencyDigest", "fingerprint", "environmentKey", "state", "createdAt",
      "updatedAt", "outputText", "reason", "threadId", "turnId", "conversationThreadId"] := by
  have houtput := field_keys "outputText" r.outputText
  have hreason := field_keys "reason" (r.reason.map JobFailureReason.text)
  have hthread := field_keys "threadId" r.threadId
  have hturn := field_keys "turnId" r.turnId
  have hconversation := field_keys "conversationThreadId" r.conversationThreadId
  simp only [fields, List.map_append]
  exact ((((List.Sublist.refl _).append houtput).append hreason).append hthread).append hturn |>.append hconversation

theorem strictKeys_json : r.json.strictKeys allowed = true := by
  refine List.all_eq_true.mpr fun f hf => ?_
  have hmem := r.keys_fields.subset (List.mem_map_of_mem hf)
  refine List.contains_iff_mem.mpr ?_
  revert hmem
  generalize f.1 = key
  intro hmem
  simp only [List.mem_cons, List.not_mem_nil, or_false, allowed] at hmem ⊢
  tauto

theorem distinct_json : r.json.distinct = true := by
  rw [json, Json.distinct_obj]
  refine ⟨r.keys_fields.nodup (by decide), ?_⟩
  intro f hf
  simp only [fields, field, List.mem_append, List.mem_cons, List.not_mem_nil, or_false, List.mem_map] at hf
  rcases hf with (((((rfl | rfl | rfl | rfl | rfl | rfl | rfl | rfl | rfl) | ⟨_, _, rfl⟩) | ⟨_, _, rfl⟩) | ⟨_, _, rfl⟩) |
    ⟨_, _, rfl⟩) | ⟨_, _, rfl⟩ <;> rfl

/-- An id of a thread or a turn within its bounds. -/
def idBounded (id : Option String) : Bool := id.all fun s => 1 ≤ utf16Length s && utf16Length s ≤ 256

/-- What `parsePersisted` demands of a record, apart from its size. -/
def sound : Bool :=
  r.revision ≤ maxSafeInteger && idBounded r.conversationThreadId && idBounded r.threadId && idBounded r.turnId &&
    coherent r.state r.outputText r.reason

theorem formed_str {p : String → Bool} (s : {s : String // p s = true}) : formed p (.str s.val) = some s := by
  simp [formed, Json.asStr?, s.property]

theorem optional_identifier (id : Option String) :
    optional (id.map .str) identifier = if idBounded id then some id else none := by
  cases id with
  | none => rfl
  | some s =>
    by_cases h : (decide (1 ≤ utf16Length s) && decide (utf16Length s ≤ 256)) = true
    · simp [optional, identifier, Json.asStr?, Option.filter_some, idBounded, h]
    · simp [optional, identifier, Json.asStr?, Option.filter_some, idBounded, h]

theorem optional_text (value : Option String) : optional (value.map .str) Json.asStr? = some value := by
  cases value <;> rfl

theorem optional_reason (reason : Option JobFailureReason) :
    optional (reason.map fun reason => .str reason.text) (fun j => j.asStr?.bind JobFailureReason.ofText) =
      some reason := by
  cases reason with
  | none => rfl
  | some reason => exact congrArg (Option.map some) (JobFailureReason.ofText_text reason)

theorem safeNat_num (n : ℕ) : safeNat (.num n) = if n ≤ maxSafeInteger then some n else none := by
  simp [safeNat]

theorem date_iso (t : Instant) : date (.str t.toISOString) = some t := Instant.parse_toISOString t

theorem readRecord_json : readRecord r.json = if r.sound then some r else none := by
  obtain ⟨h₁, h₂, h₃, h₄, h₅, h₆, h₇, h₈, h₉⟩ := r.get_required
  obtain ⟨o₁, o₂, o₃, o₄, o₅⟩ := r.get_optional
  have hone : (some (Json.num 1)).filter isOne = some (Json.num 1) := rfl
  have hstate : (Json.str r.state.text).asStr?.bind RecordState.ofText = some r.state :=
    RecordState.ofText_text r.state
  simp only [readRecord, h₁, h₂, h₃, h₄, h₅, h₆, h₇, h₈, h₉, o₁, o₂, o₃, o₄, o₅, hone, hstate, Option.bind_some,
    formed_str, date_iso, optional_identifier, optional_text, optional_reason, safeNat_num, Option.bind_eq_bind,
    Option.pure_def, sound]
  by_cases hrevision : r.revision ≤ maxSafeInteger
  · by_cases hconversation : idBounded r.conversationThreadId = true
    · by_cases hthread : idBounded r.threadId = true
      · by_cases hturn : idBounded r.turnId = true
        · simp [hrevision, hconversation, hthread, hturn]
        · simp [hrevision, hconversation, hthread, hturn]
      · simp [hrevision, hconversation, hthread]
    · simp [hrevision, hconversation]
  · simp [hrevision]

theorem parsePersisted_snapshot :
    parsePersisted r.snapshot (fileName r.jobId) = if r.fits && r.sound then some r else none := by
  have hparse : Json.parse r.snapshot = some r.json := Json.parse_stringify _ r.distinct_json
  by_cases hfits : r.fits = true
  · rw [parsePersisted, if_pos (of_decide_eq_true hfits), hparse, Option.bind_some, if_pos r.strictKeys_json,
      readRecord_json, hfits, Bool.true_and]
    split
    · simp
    · rfl
  · rw [parsePersisted, if_neg fun h => hfits (decide_eq_true h)]
    simp [hfits]

end JobRecord

end ADT.Runner
