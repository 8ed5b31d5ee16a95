import ADT.Lib.Guarded
import ADT.Runner.Jobs
import ADT.Sqlite.Storage

/-!
# Executor.Server — the executor

The server of `codex-runner/src/executor.ts` behind its authentication: its gate, its executions, and the handlers that
are under way.  A move is what happens between two awaits; the checks of a workspace, a turn of the App Server and the
restore of a backup may end in any way and at any time.
-/

namespace ADT.Executor

open Runner (TurnFailure isTaskId isBranch)
open Sqlite (Thrown isBackupId)

abbrev Id := String

def invalidRequest : Thrown := .safe "invalid_request" 400

def runnerBusy : Thrown := .safe "runner_busy" 409

/-- The owner of `ExecutorAdmissionGate`; the source calls the last one `unsafe`. -/
inductive Owner
  | idle | execution | restore | closed
  deriving DecidableEq

namespace Owner

def reserve (next owner : Owner) : Except Thrown Owner :=
  if owner = .idle then .ok next else .error runnerBusy

def reserveExecution : Owner → Except Thrown Owner := reserve .execution

def reserveRestore : Owner → Except Thrown Owner := reserve .restore

def release (held owner : Owner) : Owner := if owner = held then .idle else owner

def releaseExecution : Owner → Owner := release .execution

def releaseRestore : Owner → Owner := release .restore

def failClosed (owner : Owner) : Owner := if owner = .restore then .closed else owner

/-- After a restore; where the databases are not known to be safe, the gate is closed. -/
def restored (outcome : Except Thrown Unit) (owner : Owner) : Owner :=
  releaseRestore (match outcome with
    | .error e =>
      if e.is "restore_rollback_failed" || e.is "app_server_shutdown_unconfirmed" then owner.failClosed else owner
    | .ok _ => owner)

end Owner

/-! ### Requests -/

/-- A string of a length between the two, or nothing. -/
def optionalText (least most : ℕ) : Option Json → Option (Option String)
  | none => some none
  | some (.str s) => if least ≤ utf16Length s ∧ utf16Length s ≤ most then some (some s) else none
  | _ => none

structure StartRequest where
  cwd : String
  prompt : String
  model : Option String
  reasoningEffort : Option String
  managedTaskId : Option Json
  expectedManagedBranch : Option Json
  resumeThreadId : Option String

/-- The body of `POST /internal/v1/executions`, as it is checked before the first await. -/
def parseStart (body : Option Json) : Except Thrown StartRequest :=
  let keys := ["cwd", "sandbox", "prompt", "model", "reasoningEffort", "managedTaskId", "expectedManagedBranch",
    "resumeThreadId"]
  match body.filter (·.strictKeys keys) with
  | none => .error invalidRequest
  | some v =>
    match v.get? "cwd", v.get? "prompt", v.get? "sandbox", optionalText 0 120 (v.get? "model"),
      optionalText 0 40 (v.get? "reasoningEffort"), optionalText 1 256 (v.get? "resumeThreadId") with
    | some (.str cwd), some (.str prompt), some (.str "workspace-write"), some model, some effort, some thread =>
      if byteLength prompt ≤ 524320 then
        .ok ⟨cwd, prompt, model, effort, v.get? "managedTaskId", v.get? "expectedManagedBranch", thread⟩
      else .error invalidRequest
    | _, _, some (.str "read-only"), _, _, _ => .error (.safe "read_only_not_supported" 409)
    | _, _, _, _, _, _ => .error invalidRequest

/-- Whether the workspace is a managed one; a request that says so otherwise than it should is invalid. -/
def StartRequest.managed (r : StartRequest) : Except Thrown Bool :=
  match r.managedTaskId, r.expectedManagedBranch with
  | none, none => .ok false
  | some (.str taskId), some (.str branch) =>
    if isTaskId taskId.toList && isBranch branch then .ok true else .error invalidRequest
  | _, _ => .error invalidRequest

/-- The body of `POST /internal/v1/sqlite-storage/restore`. -/
def parseRestore (body : Option Json) : Except Thrown String :=
  match (body.filter (·.strictKeys ["backupId"])).bind (·.get? "backupId") with
  | some (.str backupId) => if backupId == "latest" || isBackupId backupId then .ok backupId else .error invalidRequest
  | _ => .error invalidRequest

/-! ### Executions -/

/-- `WorkflowTurnResult` -/
inductive TurnResult
  | ok (outputText threadId turnId : String)
  | failed (reason : TurnFailure) (threadId turnId : Option String)

def TurnResult.isOk : TurnResult → Bool
  | ok .. => true
  | failed .. => false

def TurnResult.ambiguous : TurnResult → Bool
  | failed .turnStartAmbiguous .. => true
  | _ => false

/-- `{ok:false,reason:"turn_failed"}` -/
def turnFailed : TurnResult := .failed .turnFailed none none

inductive ExecutionState
  | running | cancelling | completed | failed | cancelled
  deriving DecidableEq

def ExecutionState.terminal : ExecutionState → Bool
  | running | cancelling => false
  | completed | failed | cancelled => true

inductive ActivityCategory
  | model | tool | interaction

structure Execution where
  state : ExecutionState := .running
  result : Option TurnResult := none
  threadId : Option String := none
  turnId : Option String := none
  cancellationRequested : Bool := false
  interruptSent : Bool := false
  activityCount : ℕ := 0
  activityCategory : ActivityCategory := .model

/-- Where the handlers that are chained to a call of `runWorkflowTurn` stand. -/
inductive Turn
  | running (managed : Bool)
  | checking (result : TurnResult)   -- `managedWorkspaceInvariant` after a managed turn
  | settled                          -- before `finally`
  | unresolved                       -- the promise that never resolves

structure Server where
  owner : Owner
  active : Option Id
  executions : Id → Option Execution
  /-- The requests that wait for the checks of their workspace. -/
  starting : List StartRequest
  /-- How many requests wait for `storage.restore`. -/
  restoring : ℕ
  turns : Id → Option Turn
  /-- The calls of `interruptWorkflowTurn`, the latest first. -/
  interrupts : List (Id × String × String)

namespace Server

def initial : Server := ⟨.idle, none, fun _ => none, [], 0, fun _ => none, []⟩

variable (s : Server) (id : Id)

/-- The record of an execution is written, its handlers go on to `turn`, and its turn is sent the interrupts `sent`. -/
def write (e : Execution) (turn : Option Turn) (sent : List (String × String)) : Server :=
  { s with
    executions := Function.update s.executions id (some e)
    turns := Function.update s.turns id turn
    interrupts := sent.map (id, ·) ++ s.interrupts }

/-- Up to the first await; a request that is refused leaves the gate as it was. -/
def start (body : Option Json) : Except Thrown Server := do
  let owner ← s.owner.reserveExecution
  let parsed := if s.active.isSome then .error runnerBusy else parseStart body
  return { s with owner, starting := (← parsed) :: s.starting }

/-- The checks of the workspace of the `n`th request have ended, and it gets an execution unless they failed. -/
def checked (n : ℕ) (checks : Except Thrown Unit) : Option Server := do
  let request ← s.starting[n]?
  let rest := { s with starting := s.starting.eraseIdx n }
  match checks *> request.managed with
  | .error _ => return { rest with owner := s.owner.releaseExecution }
  | .ok managed => return { rest.write id {} (some (.running managed)) [] with active := some id }

def onStarted (threadId turnId : String) : Option Server := do
  let e ← s.executions id
  let e := { e with threadId := some threadId, turnId := some turnId, activityCount := e.activityCount + 1 }
  return if e.cancellationRequested && !e.interruptSent then
    s.write id { e with interruptSent := true } (s.turns id) [(threadId, turnId)]
  else s.write id e (s.turns id) []

def onActivity (category : ActivityCategory) : Option Server := do
  let e ← s.executions id
  let e := { e with activityCategory := category, activityCount := min 1000000 (e.activityCount + 1) }
  return s.write id e (s.turns id) []

/-- The result is written down; a cancellation of which nobody knows whether the turn runs stays open. -/
def conclude (e : Execution) (result : TurnResult) : Server :=
  let e := { e with result := some result }
  if e.cancellationRequested && !e.interruptSent && result.ambiguous then
    s.write id e (some .unresolved) []
  else
    let state : ExecutionState :=
      if e.cancellationRequested then .cancelled else if result.isOk then .completed else .failed
    s.write id { e with state } (some .settled) []

/-- `runWorkflowTurn` resolves, or it is rejected. -/
def turnOver (result : Option TurnResult) : Option Server := do
  let e ← s.executions id
  match s.turns id, result with
  | some (.running true), some result => some (s.write id e (some (.checking result)) [])
  | some (.running _), result => some (s.conclude id e (result.getD turnFailed))
  | _, _ => none

/-- `managedWorkspaceInvariant` after a turn. -/
def inspected (holds : Bool) : Option Server := do
  let e ← s.executions id
  match s.turns id with
  | some (.checking result) => some (s.conclude id e (if holds then result else turnFailed))
  | _ => none

/-- `finally` -/
def settle : Option Server := do
  let e ← s.executions id
  match s.turns id with
  | some .settled => some { s.write id e none [] with
      active := if s.active = some id then none else s.active
      owner := s.owner.releaseExecution }
  | _ => none

def cancel : Except Thrown Server :=
  match s.executions id with
  | none => .error (.safe "not_found" 404)
  | some e =>
    if e.state = .running then
      let e := { e with cancellationRequested := true, state := .cancelling }
      match e.threadId.filter (· ≠ ""), e.turnId.filter (· ≠ "") with
      | some threadId, some turnId =>
        if e.interruptSent then .ok (s.write id e (s.turns id) [])
        else .ok (s.write id { e with interruptSent := true } (s.turns id) [(threadId, turnId)])
      | _, _ => .ok (s.write id e (s.turns id) [])
    else .ok s

def restore (body : Option Json) : Except Thrown Server := do
  let _ ← parseRestore body
  let owner ← s.owner.reserveRestore
  return { s with owner, restoring := s.restoring + 1 }

def restored (outcome : Except Thrown Unit) : Option Server :=
  if s.restoring = 0 then none
  else some { s with owner := s.owner.restored outcome, restoring := s.restoring - 1 }

end Server

inductive Move
  | start (body : Option Json)
  | checked (n : ℕ) (checks : Except Thrown Unit) (id : Id)
  | onStarted (id : Id) (threadId turnId : String)
  | onActivity (id : Id) (category : ActivityCategory)
  | turnOver (id : Id) (result : Option TurnResult)
  | inspected (id : Id) (holds : Bool)
  | settle (id : Id)
  | cancel (id : Id)
  | restore (body : Option Json)
  | restored (outcome : Except Thrown Unit)

/-- A request that is refused leaves the server as it is. -/
def step (s : Server) : Move → Option Server
  | .start body => (s.start body).toOption.getD s
  | .checked n checks id => s.checked id n checks
  | .onStarted id threadId turnId => s.onStarted id threadId turnId
  | .onActivity id category => s.onActivity id category
  | .turnOver id result => s.turnOver id result
  | .inspected id holds => s.inspected id holds
  | .settle id => s.settle id
  | .cancel id => (s.cancel id).toOption.getD s
  | .restore body => (s.restore body).toOption.getD s
  | .restored outcome => s.restored outcome

/-- `randomUUID` draws an id that no execution has. -/
def fresh (s : Server) : Move → Bool
  | .checked _ _ id => (s.executions id).isNone
  | _ => true

abbrev Reaches : Server → Server → Prop := Guarded.Reaches step fun s m => fresh s m = true

end ADT.Executor
