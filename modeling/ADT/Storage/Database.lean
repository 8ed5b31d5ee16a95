import ADT.Workflow.Plan

/-!
# Storage.Database — the rows of one run

The tables `workflow_runs`, `workflow_step_attempts` and `workflow_approvals` of `lib/workflow-d1-storage.ts`
and `lib/workflow-approvals.ts`.  Every statement names its run by id, so that the rows of one run are a
database of their own; attempts and approvals stand in the order of their insertion.  Columns no function
here reads (`updated_at`, `state_version`, the diagnostics) are left out, and runs are of engine version 2.
-/

namespace ADT.Storage

open Workflow

abbrev Time := ℕ

inductive RunStatus
  | queued | running | waitingApproval | cancelling | succeeded | failed | cancelled
  deriving DecidableEq

inductive StepStatus
  | pending | starting | waitingProvider | succeeded | failed | cancelled
  deriving DecidableEq

inductive WorkflowLaunchState
  | unclaimed | launching | attached | launchFailed
  deriving DecidableEq

inductive CancellationResult
  | cancelled | cancellationPending | alreadyTerminal | unsupported | safeFailure
  deriving DecidableEq

inductive FailureCategory
  | configurationInvalid | securityDenied | securityTimeout | securityUnavailable | connectionUnavailable
  | authenticationFailed | permissionDenied | providerRejected | providerStartAmbiguous
  | providerPublishAmbiguous | rateLimited | providerUnavailable | providerTimeout | malformedResponse
  | outputTooLarge | cancelled | conversationUnavailable | internalError
  deriving DecidableEq

inductive ApprovalStatus
  | pending | approved
  deriving DecidableEq

def RunStatus.terminal : RunStatus → Bool
  | .succeeded | .failed | .cancelled => true
  | _ => false

/-- The statuses in which a driver may still move the run. -/
def RunStatus.active : RunStatus → Bool
  | .queued | .running | .waitingApproval => true
  | _ => false

theorem RunStatus.active_iff {s : RunStatus} :
    s.active = true ↔ s = .queued ∨ s = .running ∨ s = .waitingApproval := by
  cases s <;> simp [RunStatus.active]

def transitionCancellationResult (current : Option CancellationResult) (next : CancellationResult) :
    Except String CancellationResult :=
  match current with
  | none => .ok next
  | some c =>
    if c = next then .ok c
    else if c = .cancellationPending then .ok next
    else .error "cancellation_result_conflict"

/-! ### Rows -/

/-- An agent as frozen with the run; `executionTimeoutMs` is what `providerExecutionTimeoutMs` gives for its
connection and options, `none` where it gives nothing or they do not parse. -/
structure AgentSnapshot where
  id : String
  connectionKey : String
  executionTimeoutMs : Option Time

/-- What a run never changes; `connectionSnapshots` gives the adapter of each connection key. -/
structure RunSnapshot where
  id : String
  initialInput : String
  createdAt : Time
  executionPlan : ExecutionPlan
  agentSnapshots : List AgentSnapshot
  connectionSnapshots : List (String × String)

structure WorkflowRun where
  snapshot : RunSnapshot
  status : RunStatus
  currentStepId : Option String
  workflowGeneration : ℕ
  workflowLaunchState : WorkflowLaunchState
  workflowInstanceId : Option String
  reservedWorkflowInstanceId : Option String
  workflowLaunchAttemptedAt : Option Time
  cancelRequestedAt : Option Time
  cancellationResult : Option CancellationResult
  failureCode : Option FailureCategory
  failureMessage : Option String
  finalOutput : Option String
  finalExternalUrl : Option String

structure ConversationSourceIdentity where
  stepId : String
  activationId : Option String
  iteration : ℕ
  attempt : ℕ
  deriving DecidableEq

/-- The primary key of an attempt. -/
structure AttemptKey where
  stepId : String
  iteration : ℕ
  attempt : ℕ
  deriving DecidableEq

structure StepFailure where
  category : FailureCategory
  safeMessage : String
  retryable : Bool
  deriving DecidableEq

structure StepAttempt where
  key : AttemptKey
  graphActivationId : Option String
  agentId : String
  connectionKey : String
  status : StepStatus
  inputText : Option String
  outputText : Option String
  outputExternalUrl : Option String
  providerTaskId : Option String
  providerState : Option String
  providerPollCount : ℕ
  nextPollDelayMs : Option Time
  startedAt : Option Time
  failure : Option StepFailure
  conversationSource : Option ConversationSourceIdentity
  deriving DecidableEq

/-- A fresh row of `ensureGraphActivation`. -/
def StepAttempt.fresh (key : AttemptKey) (activationId : Option String) (agentId connectionKey : String) :
    StepAttempt :=
  { key, graphActivationId := activationId, agentId, connectionKey, status := .pending, inputText := none,
    outputText := none, outputExternalUrl := none, providerTaskId := none, providerState := none,
    providerPollCount := 0, nextPollDelayMs := none, startedAt := none, failure := none,
    conversationSource := none }

structure WorkflowApproval where
  requestId : String
  workflowGeneration : ℕ
  nodeId : String
  activationId : String
  interruptId : String
  message : String
  reviewText : String
  status : ApprovalStatus
  requestedAt : Time
  approvedAt : Option Time
  consumedAt : Option Time
  deriving DecidableEq

structure Database where
  run : WorkflowRun
  attempts : List StepAttempt
  approvals : List WorkflowApproval

namespace Database

variable (db : Database)

/-- The attempts of `getRun`: `ORDER BY iteration, rowid, attempt`. -/
def orderedAttempts : List StepAttempt :=
  db.attempts.insertionSort fun a b => a.key.iteration ≤ b.key.iteration

/-- The rows of a step, or of one of its activations. -/
def ofStep (stepId : String) (activationId : Option String) (a : StepAttempt) : Bool :=
  a.key.stepId == stepId && (activationId.isNone || a.graphActivationId == activationId)

/-- `activation`: `ORDER BY attempt DESC LIMIT 1`, and `latest`: `ORDER BY iteration DESC, attempt DESC`. -/
def latestAttempt (stepId : String) (activationId : Option String) : Option StepAttempt :=
  let rows := db.attempts.filter (ofStep stepId activationId)
  match activationId with
  | some _ => rows.argmax (·.key.attempt)
  | none => rows.argmax fun a => toLex (a.key.iteration, a.key.attempt)

def attempt (key : AttemptKey) : Option StepAttempt :=
  db.attempts.find? (·.key == key)

/-- `get` -/
def approval (requestId : String) : Option WorkflowApproval :=
  db.approvals.find? (·.requestId == requestId)

/-- The request of an activation. -/
def approvalOf (generation : ℕ) (activationId : String) : Option WorkflowApproval :=
  db.approvals.find? fun a => a.workflowGeneration == generation && a.activationId == activationId

def suspendedMs (now : Time) : Time :=
  (db.approvals.map fun a => (a.consumedAt.getD now : ℤ) - a.requestedAt).sum.toNat

end Database

end ADT.Storage
