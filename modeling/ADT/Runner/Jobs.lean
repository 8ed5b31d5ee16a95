import ADT.Lib.Guarded
import ADT.Runner.Job

/-!
# Runner.Jobs — the job runner

`PersistentCodexJobRunner` of `codex-runner/src/job-runner.ts`: the maps of its jobs, its slot, the operations it runs
one at a time, and its state directory, which outlives it.  A move is what happens between two awaits; the operations
that the Runner runs one at a time begin when the earlier ones are over.
-/

namespace ADT.Runner

structure StartInput where
  idempotencyKey : String
  environmentKey : String
  prompt : String
  model : Option String
  reasoningEffort : Option String
  managedTaskId : Option String
  sourceBranch : Option String
  conversationRef : Option String
  deriving DecidableEq

/-- `value??null` -/
def orNull (value : Option String) : Json := value.elim .null .str

/-- What the fingerprint of a request is taken of. -/
def StartInput.fingerprintFields (input : StartInput) : List (String × Json) :=
  [("environmentKey", .str input.environmentKey), ("prompt", .str input.prompt), ("model", orNull input.model),
    ("reasoningEffort", orNull input.reasoningEffort)] ++
  ((input.managedTaskId.filter (· ≠ "")).toList.flatMap fun taskId =>
    [("managedTaskId", .str taskId), ("sourceBranch", orNull input.sourceBranch)]) ++
  [("conversationRef", orNull input.conversationRef)]

/-- `/^[a-z0-9](?:[a-z0-9-]{0,62}[a-z0-9])?$/` -/
def isTaskId (cs : List Char) : Bool :=
  cs.length ≤ 64 && cs.all (fun c => isKeyChar c || c == '-') && cs.head?.any isKeyChar && cs.getLast?.any isKeyChar

/-- `/^adt\/codex\/[a-z0-9](?:[a-z0-9-]{0,62}[a-z0-9])?$/` -/
def isBranch (s : String) : Bool := s.toList.take 10 == "adt/codex/".toList && isTaskId (s.toList.drop 10)

/-- The form `admit` demands of a request. -/
def StartInput.wellFormed (input : StartInput) : Bool :=
  input.conversationRef.all (isHexText 48) && input.managedTaskId.all (fun id => isTaskId id.toList) &&
    input.sourceBranch.all fun branch => input.managedTaskId.isSome && isBranch branch

structure Environment where
  key : EnvironmentKey
  enabled : Bool
  ready : Bool

/-- What the Runner is created with: whether it belongs to a bounded execution plane, whether its client offers
`observeWorkflowTurn` and `reconcileUnknownExecution`, and whether environments are configured. -/
structure Config where
  boundedExecutionPlane : Bool
  observes : Bool
  reconcilesUnknown : Bool
  environmentsConfigured : Bool

inductive Phase
  | down | loading | up
  deriving DecidableEq

/-- The operation that the Runner runs alone. -/
inductive Operation
  | start (input : StartInput) (id : JobId)
  | reconcileActive
  deriving DecidableEq

structure JobRunner where
  /-- The files of the state directory. -/
  disk : JobId → Option JobRecord
  phase : Phase
  /-- The jobs of this process, also those that a failed admission has taken out of the maps. -/
  jobs : JobId → Option Job
  /-- The keys of `records`, in the order of their insertion. -/
  records : List JobId
  byDigest : Digest → Option JobId
  activeJob : Option JobId
  storageHealthy : Bool
  exclusive : Option Operation
  /-- Every id that was ever drawn. -/
  used : List JobId
  /-- The calls of `start` that succeeded, the calls of `runWorkflowTurn`, and what was reported of jobs. -/
  starts : List (StartInput × JobId)
  calls : List JobId
  reports : List (JobId × Status)

inductive Act
  | start (input : StartInput) (environment : Option Environment) (admissionAllowed : Bool) (id : JobId)
  | job (id : JobId) (move : JobMove)
  | reconcileActive (reason : JobFailureReason)
  | report (id : JobId)
  | crash (landed : JobId → Bool)
  | boot
  | loadFile (id : JobId) (ok : Bool)
  | loaded

structure Move where
  now : Instant
  act : Act

namespace JobRunner

/-- An empty state directory and no process. -/
def initial : JobRunner :=
  ⟨fun _ => none, .down, fun _ => none, [], fun _ => none, none, true, none, [], [], [], []⟩

variable (digest : String → Digest) (cfg : Config) (now : Instant) (w : JobRunner)

def fingerprint (input : StartInput) : Digest := digest (Json.obj input.fingerprintFields).stringify

/-- `this.records.get(id)` -/
def record (id : JobId) : Option JobRecord := ((w.jobs id).filter (·.kept)).map (·.record)

/-- Whether a conversation can be continued. -/
def continuable (input : StartInput) : Bool :=
  input.conversationRef.all fun ref =>
    if h : isHexText 48 ref = true then
      (w.record ⟨ref, h⟩).any fun source =>
        source.state = .completed && source.environmentKey.val = input.environmentKey &&
          source.conversationThreadId.any (· ≠ "")
    else false

/-- The tests of `admit` for a key it does not know. -/
def admissible (input : StartInput) (environment : Option Environment) (admissionAllowed : Bool) :
    Except String EnvironmentKey :=
  if !cfg.environmentsConfigured then .error "configuration_unavailable"
  else match environment with
    | none => .error "unknown_environment"
    | some env =>
      if env.key.val ≠ input.environmentKey then .error "unknown_environment"
      else if !env.enabled then .error "environment_disabled"
      else if !env.ready then .error "environment_not_ready"
      else if !w.continuable input then .error "conversation_unavailable"
      else if w.activeJob.isSome then .error "runner_busy"
      else if !admissionAllowed then .error "emergency_stopped"
      else .ok env.key

/-- What `admit` decides: an earlier job, or a new one in an environment. -/
inductive Admission
  | replay (id : JobId)
  | fresh (key : EnvironmentKey)

/-- `admit`, up to the new record; `environment` is the override or the one found by its key. -/
def admits (input : StartInput) (environment : Option Environment) (admissionAllowed : Bool) : Except String Admission :=
  if !w.storageHealthy then .error "workflow_storage_unavailable"
  else if !input.wellFormed then .error "invalid_request"
  else match w.byDigest (digest input.idempotencyKey) with
    | some id =>
      match w.record id with
      | none => .error "internal_error"
      | some existing =>
        if existing.fingerprint ≠ fingerprint digest input then .error "idempotency_conflict" else .ok (.replay id)
    | none => (w.admissible cfg input environment admissionAllowed).map .fresh

/-- The record `admit` makes. -/
def newRecord (input : StartInput) (key : EnvironmentKey) (id : JobId) : JobRecord :=
  { revision := 0, jobId := id, idempotencyDigest := digest input.idempotencyKey
    fingerprint := fingerprint digest input, environmentKey := key, state := .queued, outputText := none, reason := none
    threadId := none, turnId := none, conversationThreadId := none, createdAt := now, updatedAt := now }

/-- A new job takes the slot and is written. -/
def enter (input : StartInput) (key : EnvironmentKey) (id : JobId) : JobRunner :=
  let job := (Job.admitted (newRecord digest now input key id)).persist now .admission
  { w with
    jobs := Function.update w.jobs id (some job), records := w.records ++ [id]
    byDigest := Function.update w.byDigest (digest input.idempotencyKey) (some id), activeJob := some id
    exclusive := some (.start input id), used := id :: w.used }

/-- The call of `start` that ends with the write of its job. -/
def succeeded (operation : Option Operation) (id : JobId) : List (StartInput × JobId) :=
  match operation with
  | some (.start input id') => if id' = id then [(input, id)] else []
  | _ => []

/-- What a job's move does to the Runner. -/
def apply (id : JobId) (before : Job) (o : Outcome) : JobRunner :=
  let healthy := w.storageHealthy && !o.damages
  let forgotten := before.kept && !o.job.kept
  { w with
    disk := if o.stored.isSome then Function.update w.disk id o.stored else w.disk
    jobs := Function.update w.jobs id (some o.job)
    records := if forgotten then w.records.erase id else w.records
    byDigest := if forgotten then Function.update w.byDigest before.record.idempotencyDigest none else w.byDigest
    activeJob :=
      if w.activeJob = some id ∧ (o.releases = .always ∨ o.releases = .ifHealthy ∧ healthy) then none else w.activeJob
    storageHealthy := healthy
    exclusive := if o.ends then none else w.exclusive
    starts := if o.ends && o.stored.isSome then w.starts ++ succeeded w.exclusive id else w.starts
    calls := if o.runs then w.calls ++ [id] else w.calls }

/-- What is left when the process ends; `landed` says which of the files being written are in place. -/
def crashed (landed : JobId → Bool) : JobRunner :=
  let file (id : JobId) : Option JobRecord :=
    match (w.jobs id).bind Job.landing with
    | some r => if landed id then some r else w.disk id
    | none => w.disk id
  { initial with disk := file, used := w.used, starts := w.starts, calls := w.calls, reports := w.reports }

/-- Whether `load` leaves the execution of an active record to be observed. -/
def resumable (r : JobRecord) : Bool :=
  cfg.boundedExecutionPlane && (r.threadId.isSome && r.turnId.isSome && cfg.observes || cfg.reconcilesUnknown)

def insert (id : JobId) (job : Job) : JobRunner :=
  { w with
    jobs := Function.update w.jobs id (some job), records := w.records ++ [id]
    byDigest := Function.update w.byDigest job.record.idempotencyDigest (some id) }

/-- The record of a job whose execution the restart has ended. -/
def restarted (r : JobRecord) : JobRecord :=
  { r with
    state := .failed, reason := some .runnerRestarted, threadId := none, turnId := none, revision := r.revision + 1
    updatedAt := now }

/-- The process ends because its state is not trusted or cannot be written. -/
def untrusted : JobRunner := w.crashed fun _ => false

/-- `load` of a record that it has read; `ok` where it can be written. -/
def take (id : JobId) (value : JobRecord) (ok : Bool) : JobRunner :=
  if (w.byDigest value.idempotencyDigest).isSome then w.untrusted
  else if value.state.terminal then w.insert id (.loaded value .done)
  else if resumable cfg value then
    if w.activeJob.isSome then w.untrusted
    else { w.insert id (.loaded value .resuming) with activeJob := some id }
  else if ok && (restarted now value).fits then
    { w.insert id (.loaded (restarted now value) .done) with
      disk := Function.update w.disk id (some (restarted now value)) }
  else w.untrusted

/-- `load` of one file. -/
def loadFile (id : JobId) (file : JobRecord) (ok : Bool) : JobRunner :=
  match parsePersisted file.snapshot (fileName id) with
  | none => w.untrusted
  | some value => w.take cfg now id value ok

/-- One move of the Runner; `none` where it is not possible. -/
def step (m : Move) : Option JobRunner :=
  match m.act with
  | .start input environment admissionAllowed id =>
    if w.phase ≠ .up ∨ w.exclusive.isSome then none
    else match w.admits digest cfg input environment admissionAllowed with
      | .error _ => some w
      | .ok (.replay old) => some { w with starts := w.starts ++ [(input, old)] }
      | .ok (.fresh key) => if id ∈ w.used then none else some (w.enter digest m.now input key id)
  | .job id move =>
    if w.phase ≠ .up then none
    else (w.jobs id).bind fun job => (job.act cfg.boundedExecutionPlane m.now move).map (w.apply id job)
  | .reconcileActive reason =>
    if w.phase ≠ .up ∨ w.exclusive.isSome then none
    else w.activeJob.bind fun id => (w.jobs id).map fun job =>
      { w.apply id job (job.reconcile m.now reason) with exclusive := some .reconcileActive }
  | .report id =>
    if w.phase ≠ .up then none
    else ((w.jobs id).filter (·.kept)).map fun job => { w with reports := w.reports ++ [(id, job.public)] }
  | .crash landed => if w.phase = .down then none else some (w.crashed landed)
  | .boot => if w.phase = .down then some { w with phase := .loading } else none
  | .loadFile id ok =>
    if w.phase ≠ .loading ∨ (w.jobs id).isSome then none
    else (w.disk id).map fun file => w.loadFile cfg m.now id file ok
  | .loaded =>
    if w.phase = .loading ∧ w.used.all (fun id => (w.disk id).isNone || (w.jobs id).isSome) then
      some { w with phase := .up }
    else none

end JobRunner

end ADT.Runner
