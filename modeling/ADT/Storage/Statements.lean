import ADT.Storage.Database

/-!
# Storage.Statements — the statements that write

One constructor for every `UPDATE` and `INSERT` of `lib/workflow-d1-storage.ts` and `lib/workflow-approvals.ts`,
with its `WHERE` clause and its `SET` clause.  A statement is atomic and answers whether it changed a row.
-/

namespace ADT.Storage

/-! ### `UPDATE workflow_runs` -/

inductive RunUpdate
  /-- `claimWorkflowLaunch` -/
  | claimLaunch (generation : ℕ) (instanceId : String) (now : Time)
  /-- `claimWorkflowLaunch`, of a launch that went stale -/
  | takeOverLaunch (generation : ℕ) (reserved : String) (attemptedAt now : Time)
  /-- `attachWorkflowInstance` -/
  | attach (generation : ℕ) (instanceId : String)
  /-- `recordWorkflowLaunchFailure` -/
  | launchFailure (generation : ℕ) (instanceId message : String)
  /-- `claimGraphNode`, after the attempt was claimed -/
  | enterStep (stepId : String)
  /-- `completeRun` -/
  | complete (stepId output : String) (url : Option String)
  /-- `recordGraphFailure` -/
  | graphFailure (code : FailureCategory) (message : String)
  /-- `recordOrchestrationDiagnostics` and `clearOrchestrationDiagnostics` -/
  | diagnostics (generation : ℕ)
  /-- `failRun` -/
  | fail (code : FailureCategory) (message : String) (generation : Option ℕ)
  /-- `requestCancellation` -/
  | requestCancellation (now : Time)
  /-- `recordCancellationResult` -/
  | cancellationResult (next : CancellationResult) (current : Option CancellationResult)
  /-- `cancelRun` -/
  | cancel
  /-- `prepareManualRetry` -/
  | manualRetry (stepId : String) (generation : ℕ)
  /-- `require` -/
  | awaitApproval (nodeId : String) (generation : ℕ)
  /-- `consume` -/
  | resume (requestId : String)
  deriving DecidableEq

namespace RunUpdate

/-- An approved request that is not consumed. -/
def decided (db : Database) (requestId : String) : Bool :=
  db.approvals.any fun a => a.requestId == requestId && a.status == .approved && a.consumedAt.isNone

/-- `WHERE` -/
def guard (db : Database) : RunUpdate → Bool
  | claimLaunch generation _ _ =>
    db.run.workflowGeneration == generation &&
      (db.run.workflowLaunchState == .unclaimed || db.run.workflowLaunchState == .launchFailed) &&
      (db.run.status == .queued || db.run.status == .failed)
  | takeOverLaunch generation reserved attemptedAt _ =>
    db.run.workflowGeneration == generation && db.run.workflowLaunchState == .launching &&
      db.run.reservedWorkflowInstanceId == some reserved && db.run.workflowLaunchAttemptedAt == some attemptedAt
  | attach generation instanceId | launchFailure generation instanceId _ =>
    db.run.workflowGeneration == generation && db.run.workflowLaunchState == .launching &&
      db.run.reservedWorkflowInstanceId == some instanceId
  | enterStep _ => db.run.status == .queued || db.run.status == .running
  | complete stepId _ _ =>
    db.run.status == .running && db.attempts.any fun a => a.key.stepId == stepId && a.status == .succeeded
  | graphFailure _ _ => db.run.status.active
  | diagnostics generation => db.run.workflowGeneration == generation && db.run.status.active
  | fail _ _ generation =>
    db.run.status.active && (generation.isNone || generation == some db.run.workflowGeneration)
  | requestCancellation _ => db.run.status.active || db.run.status == .cancelling
  | cancellationResult _ current => db.run.status == .cancelling && db.run.cancellationResult == current
  | cancel => db.run.status == .cancelling
  | manualRetry _ generation => db.run.status == .failed && db.run.workflowGeneration == generation
  | awaitApproval _ generation =>
    db.run.workflowGeneration == generation && db.run.status.active && db.run.cancelRequestedAt.isNone
  | resume requestId =>
    db.run.status == .waitingApproval && db.run.cancelRequestedAt.isNone && decided db requestId

def set (run : WorkflowRun) : RunUpdate → WorkflowRun
  | claimLaunch _ instanceId now =>
    { run with
      workflowLaunchState := .launching
      reservedWorkflowInstanceId := some instanceId
      workflowLaunchAttemptedAt := some now }
  | takeOverLaunch _ _ _ now => { run with workflowLaunchAttemptedAt := some now }
  | attach _ instanceId =>
    { run with
      workflowInstanceId := some instanceId
      workflowLaunchState := .attached
      status := .queued
      failureCode := none
      failureMessage := none }
  | launchFailure _ _ message =>
    { run with
      workflowLaunchState := .launchFailed
      status := .failed
      failureCode := some .internalError
      failureMessage := some message }
  | enterStep stepId => { run with status := .running, currentStepId := some stepId }
  | complete _ output url =>
    { run with
      status := .succeeded
      currentStepId := none
      finalOutput := some output
      finalExternalUrl := url }
  | graphFailure code message =>
    { run with
      failureCode := run.failureCode.or (some code)
      failureMessage := run.failureMessage.or (some message) }
  | diagnostics _ => run
  | fail code message _ =>
    { run with
      status := .failed
      failureCode := some code
      failureMessage := some message }
  | requestCancellation now =>
    { run with
      status := .cancelling
      cancelRequestedAt := run.cancelRequestedAt.or (some now) }
  | cancellationResult next _ => { run with cancellationResult := some next }
  | cancel => { run with status := .cancelled }
  | manualRetry stepId _ =>
    { run with
      currentStepId := some stepId
      workflowGeneration := run.workflowGeneration + 1
      workflowInstanceId := none
      reservedWorkflowInstanceId := none
      workflowLaunchState := .unclaimed }
  | awaitApproval nodeId _ => { run with status := .waitingApproval, currentStepId := some nodeId }
  | resume _ => { run with status := .running }

end RunUpdate

/-- Run an `UPDATE workflow_runs`. -/
def Database.updateRun (db : Database) (u : RunUpdate) : Bool × Database :=
  if u.guard db then (true, { db with run := u.set db.run }) else (false, db)

/-! ### `UPDATE workflow_step_attempts` -/

inductive AttemptUpdate
  /-- `claimGraphNode` -/
  | claim (key : AttemptKey) (input : String) (now : Time)
  /-- `bindConversationSource` -/
  | bindConversation (key : AttemptKey) (source : ConversationSourceIdentity)
  /-- `recordProviderDiagnostics` -/
  | providerDiagnostics (key : AttemptKey)
  /-- `persistProviderTask`, of a task that is already known -/
  | repoll (key : AttemptKey) (task : String) (delay : Time)
  /-- `persistProviderTask` -/
  | providerTask (key : AttemptKey) (task : String) (delay : Time)
  /-- `persistProviderProgress` -/
  | progress (key : AttemptKey) (state : String) (delay : Time) (output : Option String)
  /-- `incrementPollCount` -/
  | pollCount (key : AttemptKey) (delay : Time)
  /-- `completeStep` -/
  | complete (key : AttemptKey) (output : String) (url : Option String)
  /-- `failStep` -/
  | fail (key : AttemptKey) (failure : StepFailure)
  /-- `cancelRun` -/
  | cancelAll
  deriving DecidableEq

namespace AttemptUpdate

/-- `WHERE` -/
def guard (db : Database) (a : StepAttempt) : AttemptUpdate → Bool
  | claim key _ _ =>
    a.key == key && a.status == .pending && (db.run.status == .queued || db.run.status == .running) &&
      db.run.failureCode.isNone
  | bindConversation key _ =>
    a.key == key && (a.status == .pending || a.status == .starting) && a.conversationSource.isNone
  | providerDiagnostics key => a.key == key && a.status == .starting
  | repoll key task _ => a.key == key && a.status == .waitingProvider && a.providerTaskId == some task
  | providerTask key _ _ => a.key == key && a.status == .starting && a.providerTaskId.isNone
  | progress key _ _ _ => a.key == key && a.status == .waitingProvider && a.providerTaskId.isSome
  | pollCount key _ => a.key == key && a.status == .waitingProvider
  | complete key _ _ | fail key _ =>
    a.key == key && (a.status == .starting || a.status == .waitingProvider)
  | cancelAll =>
    (a.status == .pending || a.status == .starting || a.status == .waitingProvider) &&
      (db.run.status == .cancelling || db.run.status == .cancelled)

def set (a : StepAttempt) : AttemptUpdate → StepAttempt
  | claim _ input now =>
    { a with
      status := .starting
      inputText := some input
      startedAt := some now
      providerState := some "starting" }
  | bindConversation _ source => { a with conversationSource := some source }
  | providerDiagnostics _ => a
  | repoll _ _ delay => { a with nextPollDelayMs := some delay }
  | providerTask _ task delay =>
    { a with
      status := .waitingProvider
      providerTaskId := some task
      providerState := some "pending"
      nextPollDelayMs := some delay }
  | progress _ state delay output =>
    { a with
      providerState := some state
      nextPollDelayMs := some delay
      outputText := output.or a.outputText }
  | pollCount _ delay =>
    { a with
      providerPollCount := a.providerPollCount + 1
      nextPollDelayMs := some delay }
  | complete _ output url =>
    { a with
      status := .succeeded
      outputText := some output
      outputExternalUrl := url
      providerState := some "completed" }
  | fail _ failure => { a with status := .failed, failure := some failure }
  | cancelAll => { a with status := .cancelled }

end AttemptUpdate

/-- Run an `UPDATE workflow_step_attempts`. -/
def Database.updateAttempts (db : Database) (u : AttemptUpdate) : Bool × Database :=
  (db.attempts.any (u.guard db),
    { db with attempts := db.attempts.map fun a => if u.guard db a then u.set a else a })

/-! ### `INSERT INTO workflow_step_attempts` -/

inductive AttemptInsert
  /-- `ensureGraphActivation` -/
  | activation (stepId activationId agentId connectionKey : String)
  /-- `createAutomaticRetryAttempt` -/
  | automaticRetry (prior : AttemptKey) (activationId : Option String)
  /-- `prepareManualRetry` -/
  | manualRetry (prior : AttemptKey)
  deriving DecidableEq

namespace AttemptInsert

/-- The attempt after `prior`. -/
def nextKey (prior : AttemptKey) : AttemptKey :=
  { prior with attempt := prior.attempt + 1 }

/-- The row a retry copies from the failed attempt. -/
def retryOf (a : StepAttempt) : StepAttempt :=
  { StepAttempt.fresh (nextKey a.key) a.graphActivationId a.agentId a.connectionKey with
    conversationSource := a.conversationSource }

/-- The rows its `SELECT` yields. -/
def rows (db : Database) : AttemptInsert → List StepAttempt
  | activation stepId activationId agentId connectionKey =>
    let ofStep := db.attempts.filter (·.key.stepId == stepId)
    if ofStep.any (·.graphActivationId == some activationId) || db.run.failureCode.isSome then []
    else
      let iteration := (ofStep.map (·.key.iteration)).foldl max 0 + 1
      [StepAttempt.fresh ⟨stepId, iteration, 1⟩ (some activationId) agentId connectionKey]
  | automaticRetry prior activationId =>
    let admits := db.run.status == .running &&
      (activationId.isSome || db.run.currentStepId == some prior.stepId)
    (db.attempts.filter fun a => a.key == prior && a.status == .failed && admits &&
      (activationId.isNone || a.graphActivationId == activationId)).map retryOf
  | manualRetry prior => (db.attempts.filter fun a => a.key == prior && a.status == .failed).map retryOf

end AttemptInsert

/-- Run an `INSERT INTO workflow_step_attempts`: `none` when a key is taken. -/
def Database.insertAttempts (db : Database) (i : AttemptInsert) : Option Bool × Database :=
  let rows := i.rows db
  if rows.any fun r => db.attempts.any (·.key == r.key) then (none, db)
  else (some (!rows.isEmpty), { db with attempts := db.attempts ++ rows })

/-! ### `workflow_approvals` -/

/-- Insert a request, unless the run cannot wait for it: `none` when a key is taken. -/
def Database.insertApproval (db : Database) (a : WorkflowApproval) : Option Bool × Database :=
  if db.run.workflowGeneration == a.workflowGeneration && db.run.status.active &&
      db.run.cancelRequestedAt.isNone then
    if (db.approval a.requestId).isSome || (db.approvalOf a.workflowGeneration a.activationId).isSome then
      (none, db)
    else (some true, { db with approvals := db.approvals ++ [a] })
  else (some false, db)

/-- The request `approve` writes on. -/
def approveGuard (db : Database) (requestId : String) (a : WorkflowApproval) : Bool :=
  a.requestId == requestId && a.status == .pending && a.consumedAt.isNone &&
    db.run.workflowGeneration == a.workflowGeneration && db.run.status == .waitingApproval &&
    db.run.cancelRequestedAt.isNone

def Database.approve (db : Database) (requestId : String) (now : Time) : Bool × Database :=
  (db.approvals.any (approveGuard db requestId),
    { db with approvals := db.approvals.map fun a =>
        if approveGuard db requestId a then { a with status := .approved, approvedAt := a.approvedAt.or (some now) }
        else a })

/-- The request the second statement of `consume` writes on. -/
def consumeGuard (db : Database) (requestId : String) (a : WorkflowApproval) : Bool :=
  a.requestId == requestId && a.status == .approved && a.consumedAt.isNone && db.run.status == .running &&
    db.run.cancelRequestedAt.isNone

def Database.markConsumed (db : Database) (requestId : String) (now : Time) : Bool × Database :=
  (db.approvals.any (consumeGuard db requestId),
    { db with approvals := db.approvals.map fun a =>
        if consumeGuard db requestId a then { a with consumedAt := some now } else a })

/-- The batch of `consume`: both statements in one transaction. -/
def Database.consume (db : Database) (requestId : String) (now : Time) : (Bool × Bool) × Database :=
  let resumed := db.updateRun (.resume requestId)
  let consumed := resumed.2.markConsumed requestId now
  ((resumed.1, consumed.1), consumed.2)

end ADT.Storage
