import ADT.Durable.NodeTurn
import ADT.Storage.Approvals

/-!
# Durable.Driver — launching a run and driving it

`waitForApprovalWake`, `executeLangGraphWorkflow` and `executeWorkflowRun` of `lib/workflow-worker-runtime.ts`, and
`ensureWorkflowLaunched` of `lib/workflow-launch.ts`.  A durable step of an instance keeps what it left: a driver
that is started again reads it back, and does everything else once more against the database as it is by then.
-/

namespace ADT.Durable

open Workflow Interleave Storage

/-- `step.do`: the outcome of a completed step is read back; an error counts as its outcome. -/
def stepDo (name : StepName) (body : Service StepOutcome) : Service StepOutcome := do
  match ← request (.recall name) with
  | some outcome => return outcome
  | none =>
    let outcome ← tryCatch body fun _ => pure .threw
    request (.record name outcome)

/-- `step.sleep`, and `step.waitForEvent` whose timeout is ignored: the wait is over once. -/
def stepWait (name : StepName) : Service Unit := do
  match ← request (.recall name) with
  | some _ => return
  | none =>
    let _ ← request (.record name .elapsed)

/-! ### Waiting for an approval -/

inductive Wake
  | approved (resume : ApprovalResume)
  | cancelled

/-- The run is cancelled or being cancelled. -/
def cancellationSeen (run : WorkflowRun) : Bool :=
  run.cancelRequestedAt.isSome || run.status == .cancelling || run.status == .cancelled

/-- Finish a cancellation that was seen. -/
def finishCancellation (run : WorkflowRun) : Service Unit := do
  if run.status = .cancelling then
    cancelRun

def reconcileCancellation : Service Bool := do
  let detail ← getRun
  if cancellationSeen detail.run then
    finishCancellation detail.run
    return true
  else
    return false

/-- What the request, as it stands, makes of the wait: `none` to wait for the next event. -/
def decideWake (run : WorkflowRun) (requestId : String) : Option WorkflowApproval → Service (Option Wake)
  | none => error "approval_not_pending"
  | some a => do
    if a.status = .pending then
      return none
    else if a.consumedAt.isSome then
      if run.status = .running then
        return some (.approved ⟨a.requestId, a.interruptId⟩)
      else
        error "approval_not_pending"
    else if ← consume requestId then
      return some (.approved ⟨a.requestId, a.interruptId⟩)
    else
      let reconciled ← getRun
      if reconciled.run.status = .cancelling then
        cancelRun
        return some .cancelled
      else
        error "approval_consume_conflict"

/-- The loop over occurrences of the event, cut off after `fuel` of them like a wait that never wakes. -/
def awaitDecision (requestId : String) : ℕ → ℕ → Service Wake
  | 0, _ => error "approval_wait_depth"
  | fuel + 1, occurrence => do
    let detail ← getRun
    let durable ← request (.getApproval requestId)
    if cancellationSeen detail.run then
      finishCancellation detail.run
      return .cancelled
    else match ← decideWake detail.run requestId durable with
    | some wake => return wake
    | none =>
      stepWait (.approvalWait requestId occurrence)
      awaitDecision requestId fuel (occurrence + 1)

/-- The request of an interrupt, where none is needed any more when the run was cancelled meanwhile. -/
def requireUnlessCancelled (i : Interrupt) (generation : ℕ) : Service (Option WorkflowApproval) :=
  tryCatch (do return some (← require i generation)) fun e => do
    if ← reconcileCancellation then
      return none
    else
      throw e

def waitForApprovalWake (fuel generation : ℕ) (i : Interrupt) : Service Wake := do
  if ← reconcileCancellation then
    return .cancelled
  else match ← requireUnlessCancelled i generation with
  | none => return .cancelled
  | some approval => awaitDecision approval.requestId fuel 1

/-! ### The driver -/

def maxLanggraphRecoveryFailures : ℕ := 6
def maxLanggraphTransportTurns : ℕ := 32768

/-- Whether the run left the driver's hands: `some` with the status it is to end with. -/
def reconcileOrchestrationRace (generation : ℕ) : Service (Option RunStatus) := do
  let latest ← getRun
  if latest.run.workflowGeneration != generation then
    return some latest.run.status
  else if latest.run.status = .cancelling || latest.run.cancelRequestedAt.isSome then
    finishCancellation latest.run
    return some .cancelled
  else if latest.run.status.terminal then
    return some latest.run.status
  else
    return none

/-- The failures after which the driver gives the run up. -/
def fatalFailure (failure : Option RuntimeFailure) (failures : ℕ) : Option (FailureCategory × String) :=
  if failure.any (·.transportReason == some .platformSubrequestLimit) then
    some (.providerUnavailable, "Workflow orchestration exceeded the platform external-subrequest budget.")
  else if failure.any (·.runtimeCode == some "capability_unavailable") then
    some (.connectionUnavailable, "ADT Runtime LangGraph capability is unavailable.")
  else match failure.filter fun f => f.category == .authenticationFailed || f.category == .configurationInvalid with
    | some f => some (f.category, f.safeMessage)
    | none =>
      if maxLanggraphRecoveryFailures < failures then
        some (.providerUnavailable, "Workflow orchestration remained unavailable after bounded recovery.")
      else none

/-- What the driver does next: end with a status, or go on after so many failures in a row. -/
inductive Recovery
  | ended (status : RunStatus)
  | recovered (failures : ℕ)

/-- A diagnostic that found the run changed. -/
def diagnosticRace (generation : ℕ) : Service RunStatus := do
  match ← reconcileOrchestrationRace generation with
  | some status => return status
  | none => error "diagnostic_mutation_conflict"

def handleFailure (failure : Option RuntimeFailure) (generation failures : ℕ) (sleepName : StepName) :
    Service Recovery := do
  match ← reconcileOrchestrationRace generation with
  | some status => return .ended status
  | none =>
    match fatalFailure failure (failures + 1) with
    | some (category, message) =>
      failRun category message (some generation)
      return .ended .failed
    | none =>
      if (← mutateOrchestrationDiagnostics generation) = .updated then
        stepWait sleepName
        return .recovered (failures + 1)
      else
        return .ended (← diagnosticRace generation)

/-- The head of both loops: the run as it is, and the status to end with if there is nothing left to do. -/
def loopHead : Service (WorkflowRun × Option RunStatus) := do
  let current ← getRun
  if current.run.status.terminal then
    return (current.run, some current.run.status)
  else if current.run.status = .cancelling || current.run.cancelRequestedAt.isSome then
    cancelRun
    return (current.run, some .cancelled)
  else
    let now ← request .now
    let suspended ← request .suspendedMs
    if current.run.snapshot.createdAt + suspended + maxWorkflowRunMs < now then
      failRun .providerTimeout "The workflow run exceeded its time limit." none
      return (current.run, some .failed)
    else
      return (current.run, none)

/-- The validation of the runtime. -/
def validateBody : Service StepOutcome := do
  match ← request .validateLangGraph with
  | .ok _ => return .validated
  | .error (.runtime failure) => return .runtimeFailure failure
  | .error .thrown => error "runtime_validation"

/-- `none` once the runtime is validated; the seventh failure in a row ends the run. -/
def validationLoop : ℕ → ℕ → ℕ → Service (Option RunStatus)
  | 0, _, _ => error "runtime_validation_depth"
  | fuel + 1, attempt, failures => do
    match ← loopHead with
    | (_, some status) => return some status
    | (run, none) =>
      let sleepName := StepName.validationRecovery run.workflowGeneration attempt
      match ← stepDo (.validation run.workflowGeneration attempt) validateBody with
      | .validated => return none
      | .threw => error "runtime_validation"
      | .runtimeFailure failure =>
        match ← handleFailure (some failure) run.workflowGeneration failures sleepName with
        | .ended status => return some status
        | .recovered failures => validationLoop fuel (attempt + 1) failures
      | _ =>
        match ← handleFailure none run.workflowGeneration failures sleepName with
        | .ended status => return some status
        | .recovered failures => validationLoop fuel (attempt + 1) failures

/-- `identifier` of the result parser. -/
def identifier (s : String) : Bool :=
  !s.isEmpty && s.length ≤ 256 && s.toList.all fun c => c.isAlphanum || c == ':' || c == '_' || c == '-'

/-- What `parseDurableLangGraphStepResult` makes of a result. -/
def parseResult (r : AdvanceResult) : StepOutcome :=
  let parses : Bool := match r with
    | .completed output => byteLength output ≤ 262144
    | .admissionRequired frontier =>
      frontier.length ≤ 3 && frontier.all fun a => identifier a.nodeId && identifier a.activationId
    | .pending retryAfterMs => retryAfterMs.all fun ms => 1000 ≤ ms && ms ≤ 900000
    | .graphFailure code message =>
      code.all (fun c => c == .outputTooLarge || c == .configurationInvalid) &&
        message.all fun m => byteLength m ≤ 512
    | _ => true
  if parses then .result r else .malformed

/-- The attempt an activation of the frontier is admitted with. -/
def admitActivation (admitted : RunDetail) (activation : Activation) : Service NodeAuthority := do
  let attempt ←
    if admitted.run.failureCode.isSome then
      match admitted.last? activation.nodeId (some activation.activationId) with
      | some existing => pure existing
      | none => error "invalid_graph_admission"
    else ensureGraphActivation activation.nodeId activation.activationId
  if attempt.status = .cancelled then
    error "invalid_graph_admission"
  else
    return ⟨activation, admitted.run.workflowGeneration, attempt.key.iteration, attempt.key.attempt⟩

def admitAll (admitted : RunDetail) : List Activation → Service (List NodeAuthority)
  | [] => return []
  | activation :: rest => do
    let authority ← admitActivation admitted activation
    let authorities ← admitAll admitted rest
    return authority :: authorities

/-- How the ADT Runtime advances the graph; a `RemoteRuntimeFailure` is one of its outcomes. -/
abbrev Advance := Option ApprovalResume → Option (List NodeAuthority) → Service (RuntimeFailure ⊕ AdvanceResult)

/-- A call of `advanceLangGraph`, of which nothing but the answer is known. -/
def advanceRemote : Advance := fun resume authorities => do
  match ← request (.advanceLangGraph resume authorities) with
  | .ok result => return .inr result
  | .error (.runtime failure) => return .inl failure
  | .error .thrown => error "advance"

/-- The durable step of a turn: inspect the graph, admit its frontier, and advance it. -/
def turnStep (advance : Advance) (generation : ℕ) (resume : Option ApprovalResume) : Service StepOutcome := do
  match ← advance resume none with
  | .inl failure => return .runtimeFailure failure
  | .inr (.admissionRequired frontier) =>
    let admitted ← getRun
    if admitted.run.workflowGeneration != generation || frontier.isEmpty then
      error "invalid_graph_admission"
    else
      let authorities ← admitAll admitted frontier
      match ← advance resume (some authorities) with
      | .inl failure => return .runtimeFailure failure
      | .inr result => return parseResult result
  | .inr result => return parseResult result

/-- The slices of a wait; between them the run is looked at. -/
def waitSlices (generation turn : ℕ) : ℕ → ℕ → Service (Option RunStatus)
  | 0, _ => return none
  | slices + 1, slice => do
    stepWait (.wait generation turn slice)
    match ← reconcileOrchestrationRace generation with
    | some status => return some status
    | none => waitSlices generation turn slices (slice + 1)

/-- How long a pending graph is left alone, in slices of five seconds. -/
def pendingSlices (retryAfterMs : Option Time) (pendingTurns : ℕ) : ℕ :=
  let remaining := max (retryAfterMs.getD 1000) (min 45000 (3000 * 2 ^ min (pendingTurns - 1) 4))
  (remaining + 4999) / 5000

/-- Settle a graph that completed. -/
def completeGraph (terminalNodeId output : String) : Service RunStatus := do
  let durable ← getRun
  let terminal := (durable.attempts.filter fun a => a.key.stepId == terminalNodeId && a.status == .succeeded).getLast?
  match terminal with
  | some a =>
    if a.outputText = some output then
      completeRun terminalNodeId output a.outputExternalUrl
      return .succeeded
    else
      failRun .internalError "Workflow terminal result could not be reconciled." none
      return .failed
  | none =>
    failRun .internalError "Workflow terminal result could not be reconciled." none
    return .failed

/-- A failed node fails the run, unless the run says otherwise by now. -/
def failedGraph : Service RunStatus := do
  let refreshed ← getRun
  if refreshed.run.status = .failed || refreshed.run.status = .cancelled then
    return refreshed.run.status
  else
    failRun .internalError "Workflow node state could not be reconciled." none
    return .failed

/-- The results that end the driver. -/
def endTurn (terminalNodeId : String) : AdvanceResult → Service RunStatus
  | .completed output => completeGraph terminalNodeId output
  | .graphFailure code message => do
    failRun (code.getD .internalError) (message.getD "Workflow graph execution failed.") none
    return .failed
  | .executionLimit => do
    failRun .internalError "The workflow execution limit was reached." none
    return .failed
  | .failed => failedGraph
  | _ => do
    let refreshed ← getRun
    finishCancellation refreshed.run
    return .cancelled

/-- What the driver carries from turn to turn. -/
structure DriverState where
  failures : ℕ
  pendingTurns : ℕ
  resume : Option ApprovalResume

/-- After a result the failures are forgotten, in the database too. -/
def clearFailures (generation failures : ℕ) : Service (Option RunStatus) := do
  if failures = 0 then
    return none
  else if (← mutateOrchestrationDiagnostics generation) = .updated then
    return none
  else
    return some (← diagnosticRace generation)

/-- What a turn leads to: the end of the driver, or the next turn. -/
inductive TurnEnd
  | ended (status : RunStatus)
  | next (state : DriverState)

/-- The result of a turn that did not fail. -/
def settleTurn (wakes : ℕ) (run : WorkflowRun) (turn : ℕ) (state : DriverState) (result : AdvanceResult) :
    Service TurnEnd := do
  match ← clearFailures run.workflowGeneration state.failures with
  | some status => return .ended status
  | none =>
    match result with
    | .approvalRequired none =>
      failRun .internalError "Approval state could not be persisted." none
      return .ended .failed
    | .approvalRequired (some interrupt) =>
      match ← waitForApprovalWake wakes run.workflowGeneration interrupt with
      | .cancelled => return .ended .cancelled
      | .approved resume => return .next ⟨0, state.pendingTurns, some resume⟩
    | .pending retryAfterMs =>
      let slices := pendingSlices retryAfterMs (state.pendingTurns + 1)
      match ← waitSlices run.workflowGeneration turn slices 0 with
      | some status => return .ended status
      | none => return .next ⟨0, state.pendingTurns + 1, none⟩
    | .advanced | .admissionRequired _ => return .next ⟨0, 0, none⟩
    | result => return .ended (← endTurn run.snapshot.executionPlan.terminalNodeId result)

def driverTurn (advance : Advance) (wakes turn : ℕ) (state : DriverState) : Service TurnEnd := do
  match ← loopHead with
  | (_, some status) => return .ended status
  | (run, none) =>
    let recover (failure : Option RuntimeFailure) : Service TurnEnd := do
      match ← handleFailure failure run.workflowGeneration state.failures (.recovery run.workflowGeneration turn) with
      | .ended status => return .ended status
      | .recovered failures => return .next { state with failures }
    match ← stepDo (.turn run.workflowGeneration turn) (turnStep advance run.workflowGeneration state.resume) with
    | .result result => settleTurn wakes run turn state result
    | .runtimeFailure failure => recover (some failure)
    | _ => recover none

/-- The loop over turns, with the number of turns it may still take. -/
def turnLoop (advance : Advance) (wakes : ℕ) : ℕ → ℕ → DriverState → Service RunStatus
  | 0, _, _ => do
    failRun .internalError "The workflow orchestration recovery limit was reached." none
    return .failed
  | remaining + 1, turn, state => do
    match ← driverTurn advance wakes turn state with
    | .ended status => return status
    | .next state => turnLoop advance wakes remaining (turn + 1) state

/-- `wakes` bounds the waits of one approval. -/
def executeLangGraphWorkflow (advance : Advance) (wakes : ℕ) : Service RunStatus := do
  match ← validationLoop (maxLanggraphRecoveryFailures + 2) 0 0 with
  | some status => return status
  | none => turnLoop advance wakes maxLanggraphTransportTurns 0 ⟨0, 0, none⟩

def executeWorkflowRun (advance : Advance) (wakes : ℕ) (instanceId : String) : Service RunStatus := do
  let detail ← getRun
  attachWorkflowInstance detail.run.workflowGeneration instanceId
  executeLangGraphWorkflow advance wakes

/-! ### Launching -/

inductive LaunchResult
  | attached (instanceId : String)
  | launched (instanceId : String)
  | inProgress (instanceId : String)

/-- The instance a launch proposes. -/
def proposedInstance (runId : String) (generation : ℕ) : String :=
  runId ++ "-g" ++ toString generation

/-- Create the instance and attach it; any other error than a duplicate fails the launch. -/
def createInstance (generation : ℕ) (instanceId : String) : Service LaunchResult := do
  let fails : Service LaunchResult := do
    recordWorkflowLaunchFailure generation instanceId "The durable workflow could not be started."
    error "workflow_launch_unavailable"
  match ← request (.createInstance instanceId) with
  | .ok _ =>
    let attached ← tryCatch (do attachWorkflowInstance generation instanceId; return true) fun _ => pure false
    if attached then
      return .launched instanceId
    else
      fails
  | .error .duplicate =>
    attachWorkflowInstance generation instanceId
    return .attached instanceId
  | .error .unavailable => fails

def ensureWorkflowLaunched (generation : ℕ) : Service LaunchResult := do
  let detail ← getRun
  match ← claimWorkflowLaunch generation (proposedInstance detail.run.snapshot.id generation) with
  | (.terminal, _) => error "invalid_launch_state"
  | (.alreadyAttached, instanceId) => return .attached instanceId
  | (.launchInProgress, instanceId) => return .inProgress instanceId
  | (_, instanceId) => createInstance generation instanceId

/-- Launch a run whose launch state calls for it. -/
def reconcileWorkflowLaunch (detail : RunDetail) : Service Unit := do
  match detail.run.workflowLaunchState with
  | .attached => return
  | .launching =>
    if !detail.run.status.terminal then
      let _ ← ensureWorkflowLaunched detail.run.workflowGeneration
  | _ =>
    let _ ← ensureWorkflowLaunched detail.run.workflowGeneration

def retryRun : Service LaunchResult := do
  let detail ← getRun
  match manualRetryEligibility detail with
  | none => error "invalid_retry"
  | some stepId =>
    let prepared ← prepareManualRetry stepId
    ensureWorkflowLaunched prepared.run.workflowGeneration

end ADT.Durable
