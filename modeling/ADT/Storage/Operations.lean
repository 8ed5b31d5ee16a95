import ADT.Lib.Json
import ADT.Storage.World

/-!
# Storage.Operations — `D1WorkflowRunStorage`

The methods of `D1WorkflowRunStorage` in `lib/workflow-d1-storage.ts` as services: statement by statement, with
what they read before and after, so that others may run between any two of their statements.
-/

namespace ADT.Storage

open Workflow Interleave

/-- `throw new Error(message)` -/
def error {α : Type} (message : String) : Service α :=
  throw (Thrown.error message)

def changed (ok : Bool) (message : String) : Service Unit :=
  if ok then pure () else error message

structure RunDetail where
  run : WorkflowRun
  attempts : List StepAttempt

/-- Two reads: the row of the run, then its attempts. -/
def getRun : Service RunDetail := do
  let run ← request .selectRun
  let attempts ← request .selectAttempts
  return ⟨run, attempts⟩

/-- The last attempt of a step, or of one of its activations, as `getRun` orders them. -/
def RunDetail.last? (detail : RunDetail) (stepId : String) (activationId : Option String) : Option StepAttempt :=
  (detail.attempts.filter (Database.ofStep stepId activationId)).getLast?

/-- `activation` and `latest` -/
def latest (stepId : String) (activationId : Option String) : Service StepAttempt := do
  match ← request (.selectLatest stepId activationId) with
  | some a => return a
  | none => error "attempt_not_found"

def attempt (key : AttemptKey) : Service StepAttempt := do
  match ← request (.selectAttempt key) with
  | some a => return a
  | none => error "attempt_not_found"

/-! ### Launching -/

def workflowLaunchStaleMs : Time := 2 * 60 * 1000

inductive LaunchClaim
  | claimed | staleLaunchClaimed | launchInProgress | alreadyAttached | terminal

def claimWorkflowLaunch (generation : ℕ) (instanceId : String) : Service (LaunchClaim × String) := do
  let now ← request .now
  if ← request (.updateRun (.claimLaunch generation instanceId now)) then
    return (.claimed, instanceId)
  let detail ← getRun
  if detail.run.status.terminal && detail.run.workflowLaunchState != .launchFailed then
    return (.terminal, instanceId)
  if detail.run.workflowGeneration != generation then
    error "workflow_generation_conflict"
  else match detail.run.workflowLaunchState with
  | .attached => return (.alreadyAttached, detail.run.workflowInstanceId.getD "")
  | .launching =>
    let reserved := detail.run.reservedWorkflowInstanceId.getD ""
    match detail.run.workflowLaunchAttemptedAt with
    | none => return (.launchInProgress, reserved)
    | some attemptedAt =>
      if now < attemptedAt + workflowLaunchStaleMs then
        return (.launchInProgress, reserved)
      if ← request (.updateRun (.takeOverLaunch generation reserved attemptedAt now)) then
        return (.staleLaunchClaimed, reserved)
      let reread ← getRun
      if reread.run.workflowLaunchState = .attached then
        return (.alreadyAttached, reread.run.workflowInstanceId.getD "")
      return (.launchInProgress, reread.run.reservedWorkflowInstanceId.getD reserved)
  | _ => error "invalid_launch_state"

def attachWorkflowInstance (generation : ℕ) (instanceId : String) : Service Unit := do
  if ← request (.updateRun (.attach generation instanceId)) then
    return
  let detail ← getRun
  if detail.run.workflowGeneration == generation && detail.run.workflowLaunchState == .attached &&
      detail.run.workflowInstanceId == some instanceId then
    return
  error "workflow_instance_conflict"

def recordWorkflowLaunchFailure (generation : ℕ) (instanceId message : String) : Service Unit := do
  let _ ← request (.updateRun (.launchFailure generation instanceId message))

/-- The statements that settle a launch. -/
def settles : RunUpdate → Bool
  | .attach .. | .launchFailure .. => true
  | _ => false

/-! ### Node attempts -/

/-- The agent an activation of the node runs with: its own, or that of the node it publishes. -/
def activationAgent (snapshot : RunSnapshot) (stepId : String) : Option AgentSnapshot := do
  let node ← snapshot.executionPlan.nodes.find? (·.id == stepId)
  let agentId ← match node.config with
    | .publishGitHubPr config =>
      (snapshot.executionPlan.nodes.find? fun n =>
        n.id == config.sourceNodeId && n.blockType == "agent").bind (·.config.agentIds.head?)
    | config => if node.blockType == "agent" then config.agentIds.head? else none
  snapshot.agentSnapshots.find? (·.id == agentId)

def ensureGraphActivation (stepId activationId : String) : Service StepAttempt := do
  if activationId.isEmpty || 128 < utf16Length activationId then
    error "invalid_graph_activation"
  else
    let detail ← getRun
    let admitted := detail.run.snapshot.executionPlan.nodes.any fun n =>
      n.id == stepId && (n.blockType == "agent" || n.blockType == "publish-github-pr")
    if !admitted || detail.run.status.terminal then
      error "invalid_graph_activation"
    else match detail.last? stepId (some activationId) with
    | some existing => return existing
    | none =>
      if detail.run.failureCode.isSome then
        error "invalid_graph_activation"
      else match activationAgent detail.run.snapshot stepId with
      | none => error "invalid_graph_activation"
      | some agent =>
        -- a taken key and an insert without a row are told apart only by the read that follows both
        let _ ← request (.insertAttempts (.activation stepId activationId agent.id agent.connectionKey))
        let reread ← getRun
        match reread.last? stepId (some activationId) with
        | some created => return created
        | none => error "invalid_graph_activation"

structure NodeClaim where
  attempt : StepAttempt
  claimed : Bool

def claimGraphNode (stepId input : String) (activationId : Option String) : Service NodeClaim := do
  let now ← request .now
  let current ← latest stepId activationId
  let claimed ← request (.updateAttempts (.claim current.key input now))
  if claimed then
    let _ ← request (.updateRun (.enterStep stepId))
  let attempt ← latest stepId activationId
  if !claimed && attempt.status == .pending then
    let detail ← getRun
    if detail.run.failureCode.isSome then
      return ⟨attempt, claimed⟩
    error "invalid_step_claim"
  else
    return ⟨attempt, claimed⟩

def bindConversationSource (key : AttemptKey) (source : ConversationSourceIdentity) : Service StepAttempt := do
  if source.stepId.isEmpty || source.iteration < 1 || source.attempt < 1 then
    error "invalid_conversation_source"
  else
    let existing ← attempt key
    match existing.conversationSource with
    | some bound => if bound != source then error "conversation_source_conflict" else return existing
    | none =>
      let bound ← request (.updateAttempts (.bindConversation key source))
      let reread ← attempt key
      if !bound && reread.conversationSource != some source then
        error "conversation_source_conflict"
      else
        return reread

def recordProviderDiagnostics (key : AttemptKey) : Service Unit := do
  changed (← request (.updateAttempts (.providerDiagnostics key))) "invalid_attempt_state"

def persistProviderTask (key : AttemptKey) (task : String) (pollDelayMs : Time) : Service Unit := do
  let existing ← attempt key
  match existing.providerTaskId with
  | some known =>
    if known != task then
      error "provider_task_conflict"
    else
      changed (← request (.updateAttempts (.repoll key task pollDelayMs))) "invalid_attempt_state"
  | none => changed (← request (.updateAttempts (.providerTask key task pollDelayMs))) "invalid_attempt_state"

def persistProviderProgress (key : AttemptKey) (state : String) (pollDelayMs : Time) (output : Option String) :
    Service Unit := do
  changed (← request (.updateAttempts (.progress key state pollDelayMs output))) "invalid_attempt_state"

def incrementPollCount (key : AttemptKey) (nextDelayMs : Time) : Service ℕ := do
  changed (← request (.updateAttempts (.pollCount key nextDelayMs))) "invalid_attempt_state"
  let reread ← attempt key
  return reread.providerPollCount

def completeStep (key : AttemptKey) (output : String) (url : Option String) : Service Unit := do
  let old ← attempt key
  if old.status == .succeeded then
    if old.outputText == some output then
      return
    error "completion_conflict"
  else
    changed (← request (.updateAttempts (.complete key output url))) "invalid_attempt_state"

def failStep (key : AttemptKey) (failure : StepFailure) : Service Unit := do
  let old ← attempt key
  if old.status == .failed then
    return
  changed (← request (.updateAttempts (.fail key failure))) "invalid_attempt_state"

/-! ### The run -/

def completeRun (stepId output : String) (url : Option String) : Service Unit := do
  let old ← getRun
  if old.run.status == .succeeded then
    return
  changed (← request (.updateRun (.complete stepId output url))) "invalid_completion"

def recordGraphFailure (code : FailureCategory) (message : String) : Service Unit := do
  changed (← request (.updateRun (.graphFailure code message))) "invalid_run_state"

inductive DiagnosticMutation
  | updated | generationChanged | noLongerActive
  deriving DecidableEq

/-- `recordOrchestrationDiagnostics` and `clearOrchestrationDiagnostics`: the same but for what they write. -/
def mutateOrchestrationDiagnostics (generation : ℕ) : Service DiagnosticMutation := do
  if ← request (.updateRun (.diagnostics generation)) then
    return .updated
  let detail ← getRun
  if detail.run.workflowGeneration != generation then
    return .generationChanged
  if !detail.run.status.active then
    return .noLongerActive
  error "diagnostic_mutation_conflict"

def failRun (code : FailureCategory) (message : String) (generation : Option ℕ) : Service Unit := do
  if ← request (.updateRun (.fail code message generation)) then
    return
  let old ← getRun
  if !old.run.status.terminal then
    error "invalid_run_state"

def requestCancellation : Service RunStatus := do
  let now ← request .now
  if ← request (.updateRun (.requestCancellation now)) then
    return .cancelling
  let old ← getRun
  if !old.run.status.terminal then
    error "invalid_cancellation"
  else
    return old.run.status

/-- A transition that throws, throws from here. -/
def transition (current : Option CancellationResult) (next : CancellationResult) : Service CancellationResult :=
  match transitionCancellationResult current next with
  | .ok r => return r
  | .error message => error message

def recordCancellationResult (result : CancellationResult) : Service Unit := do
  let detail ← getRun
  if detail.run.status != .cancelling then
    error "invalid_cancellation"
  else
    let current := detail.run.cancellationResult
    let next ← transition current result
    if current == some next then
      return
    if ← request (.updateRun (.cancellationResult next current)) then
      return
    let reconciled ← getRun
    if reconciled.run.status != .cancelling then
      error "cancellation_result_conflict"
    else
      let after ← transition reconciled.run.cancellationResult result
      if reconciled.run.cancellationResult != some after then
        error "cancellation_result_conflict"

def cancelRun : Service Unit := do
  let _ ← request (.updateAttempts .cancelAll)
  let cancelled ← request (.updateRun .cancel)
  let detail ← getRun
  if !cancelled && detail.run.status != .cancelled then
    error "invalid_cancellation"

/-! ### Retries -/

def createAutomaticRetryAttempt (stepId : String) (activationId : Option String) : Service StepAttempt := do
  let detail ← getRun
  match detail.last? stepId activationId with
  | none => error "invalid_retry"
  | some prior =>
    if detail.run.status != .running || prior.status != .failed || 3 ≤ prior.key.attempt then
      error "invalid_retry"
    else if (← request (.insertAttempts (.automaticRetry prior.key activationId))) = some true then
      attempt (AttemptInsert.nextKey prior.key)
    else
      let existing ← attempt (AttemptInsert.nextKey prior.key)
      if existing.status != .pending || existing.graphActivationId != prior.graphActivationId then
        error "invalid_retry"
      else
        return existing

def prepareManualRetry (stepId : String) : Service RunDetail := do
  let detail ← getRun
  match detail.last? stepId none with
  | none => error "invalid_retry"
  | some prior =>
    if detail.run.status != .failed || prior.status != .failed || 10 ≤ prior.key.attempt then
      error "invalid_retry"
    else
      let inserted ← request (.insertAttempts (.manualRetry prior.key))
      if inserted != some true then
        let _ ← attempt (AttemptInsert.nextKey prior.key)
      let moved ← request (.updateRun (.manualRetry stepId detail.run.workflowGeneration))
      let reconciled ← getRun
      if !moved && reconciled.run.workflowGeneration != detail.run.workflowGeneration + 1 then
        error "invalid_retry"
      else
        return reconciled

/-- `manualRetryEligibility`: the step a retry starts from. -/
def manualRetryEligibility (detail : RunDetail) : Option String :=
  if detail.run.status != .failed then none
  else match (detail.attempts.filter (·.status == .failed)).getLast? with
    | none => none
    | some a => if 10 ≤ a.key.attempt then none else some a.key.stepId

end ADT.Storage
