import ADT.Lib.Json
import ADT.Storage.Operations

/-!
# Durable.NodeTurn — one turn of a graph node

`executeDurableGraphNodeTurn` and `reconcileFailedGraphRun` of `lib/workflow-durable-driver.ts`: a turn makes at
most one transition of the provider lifecycle of the attempt it finds.
-/

namespace ADT.Durable

open Workflow Interleave Storage

def maxText : ℕ := 262144
def maxPollDelay : Time := 900000
def defaultPoll : Time := 10000
def minPoll : Time := 1000
def maxTotalAttempts : ℕ := 10
def maxProviderPolls : ℕ := 720
def maxWorkflowRunMs : Time := 86400000
def maxProviderStepMs : Time := 7200000
def minGraphStartUncertaintyMs : Time := 2 * 60000
def providerTransportAllowanceMs : Time := 6000

def transient : FailureCategory → Bool
  | .rateLimited | .providerUnavailable | .providerTimeout => true
  | _ => false

def graphStartUncertaintyMs (detail : RunDetail) (attempt : StepAttempt) : Time :=
  let timeout := (detail.run.snapshot.agentSnapshots.find? (·.id == attempt.agentId)).bind (·.executionTimeoutMs)
  max minGraphStartUncertaintyMs (timeout.getD 0 + providerTransportAllowanceMs + 20000)

def clampPollDelay : Option ℤ → Time
  | some value => (max (minPoll : ℤ) (min maxPollDelay value)).toNat
  | none => defaultPoll

/-- The delay stored with an attempt. -/
def storedDelay (attempt : StepAttempt) : Time :=
  clampPollDelay (attempt.nextPollDelayMs.map (↑))

/-! ### Failures -/

/-- `safe.replaceAll("_"," ")` -/
def categoryWords : FailureCategory → String
  | .configurationInvalid => "configuration invalid"
  | .securityDenied => "security denied"
  | .securityTimeout => "security timeout"
  | .securityUnavailable => "security unavailable"
  | .connectionUnavailable => "connection unavailable"
  | .authenticationFailed => "authentication failed"
  | .permissionDenied => "permission denied"
  | .providerRejected => "provider rejected"
  | .providerStartAmbiguous => "provider start ambiguous"
  | .providerPublishAmbiguous => "provider publish ambiguous"
  | .rateLimited => "rate limited"
  | .providerUnavailable => "provider unavailable"
  | .providerTimeout => "provider timeout"
  | .malformedResponse => "malformed response"
  | .outputTooLarge => "output too large"
  | .cancelled => "cancelled"
  | .conversationUnavailable => "conversation unavailable"
  | .internalError => "internal error"

/-- `safe.startsWith("security_")` -/
def isSecurity : FailureCategory → Bool
  | .securityDenied | .securityTimeout | .securityUnavailable => true
  | _ => false

def ambiguousMessage (diagnostics : Option ProviderTransportDiagnostics) : String :=
  match diagnostics with
  | some ⟨elapsed, .timeout, _⟩ =>
    "The provider request timed out after " ++ toString ((elapsed + 500) / 1000) ++ " seconds before ADT received "
      ++ "a provider task ID. The provider may still have accepted the request, so ADT did not automatically "
      ++ "submit another request."
  | some ⟨_, .networkError, _⟩ =>
    "The connection ended before ADT received a provider task ID. The provider may still have accepted the "
      ++ "request, so ADT did not automatically submit another request."
  | _ =>
    "The provider may have accepted the request, so ADT did not automatically start a duplicate. Inspect "
      ++ "provider activity before manually retrying if necessary."

def defaultMessage (safe : FailureCategory) (diagnostics : Option ProviderTransportDiagnostics) : String :=
  match safe with
  | .conversationUnavailable => "The selected Codex conversation is no longer available to continue."
  | .internalError => "The provider operation failed unexpectedly."
  | .providerStartAmbiguous => ambiguousMessage diagnostics
  | .providerPublishAmbiguous =>
    "The provider may have opened the pull request. ADT will not blindly request another publication."
  | _ => "The provider operation failed (" ++ categoryWords safe ++ ")."

def durableSafeFailure (e : Thrown) : StepFailure :=
  let safe := e.category.getD .internalError
  let reason := e.transportDiagnostics.bind (·.reason)
  let localRuntime := reason == some .crossRequestIo || reason == some .invalidRequestContext
  { category := safe
    safeMessage :=
      if localRuntime then
        "ADT could not start the provider request because the Worker runtime rejected the network operation. "
          ++ "No provider response was received."
      else e.safeMessage.getD (defaultMessage safe e.transportDiagnostics)
    retryable := if localRuntime || isSecurity safe then false else e.retryable.getD (transient safe) }

/-- The start of an attempt whose outcome nobody recorded. -/
def ambiguousStart : StepFailure :=
  { category := .providerStartAmbiguous
    safeMessage :=
      "ADT did not receive a durable provider task identity or result. The provider may have accepted the "
        ++ "request, so ADT did not automatically submit another request."
    retryable := false }

def conversationUnavailable : Thrown :=
  ⟨"conversation unavailable", some .conversationUnavailable,
    some "The selected Codex conversation is no longer available to continue.", some false, none⟩

def outputTooLarge : Thrown := .withCategory "large" .outputTooLarge

/-! ### Provider calls -/

/-- What the outside answers, thrown where it throws. -/
def orThrow {α : Type} : Except Thrown α → Service α
  | .ok a => pure a
  | .error e => throw e

/-- The attempt whose conversation `attempt` continues. -/
def conversationAttempt (detail : RunDetail) (source : ConversationSourceIdentity) : Option StepAttempt :=
  detail.attempts.find? fun a =>
    a.key == ⟨source.stepId, source.iteration, source.attempt⟩ && a.graphActivationId == source.activationId

def idempotencyKey (runId : String) (key : AttemptKey) : String :=
  runId ++ ":" ++ key.stepId ++ ":" ++ toString key.iteration ++ ":" ++ toString key.attempt

def invocationOf (detail : RunDetail) (attempt : StepAttempt) (adapter : String) : AdapterInvocation :=
  { key := attempt.key
    idempotencyKey := idempotencyKey detail.run.snapshot.id attempt.key
    providerPollCount := attempt.providerPollCount
    inputText := attempt.inputText.getD ""
    adapter
    providerState := attempt.providerState
    outputText := attempt.outputText
    conversationRef := (attempt.conversationSource.bind (conversationAttempt detail)).bind (·.providerTaskId) }

/-- The source of the conversation must have succeeded with a provider task. -/
def conversationUsable (detail : RunDetail) (attempt : StepAttempt) : Bool :=
  match attempt.conversationSource with
  | none => true
  | some source =>
    (conversationAttempt detail source).any fun a => a.status == .succeeded && a.providerTaskId.isSome

def durableInvocation (detail : RunDetail) (attempt : StepAttempt) : Service AdapterInvocation := do
  let live ← orThrow (← request (.resolveConnection attempt.connectionKey))
  let snapshot := (detail.run.snapshot.connectionSnapshots.find? (·.1 == attempt.connectionKey)).map (·.2)
  if !live.enabled || snapshot != some live.adapter then
    throw (Thrown.withCategory "connection unavailable" .connectionUnavailable)
  else if !conversationUsable detail attempt then
    throw conversationUnavailable
  else
    return invocationOf detail attempt live.adapter

/-- `runtimes.resolve`, where a missing runtime is an error. -/
def requireRuntime (adapter : String) : Service Unit := do
  if !(← request (.resolveRuntime adapter)) then
    throw (Thrown.withCategory "runtime unavailable" .configurationInvalid)

/-- Cancel the provider task of an attempt; whatever goes wrong is a `safe_failure`. -/
def cancelProviderTask (detail : RunDetail) (attempt : StepAttempt) (task : String) :
    Service CancellationResult :=
  tryCatch
    (do
      let call ← durableInvocation detail attempt
      if ← request (.resolveRuntime call.adapter) then
        orThrow (← request (.cancel task call))
      else
        return .unsupported)
    fun _ => pure .safeFailure

/-! ### The turn -/

inductive TurnState
  | completed | pending | failed | cancelled

structure GraphNodeTurnResult where
  state : TurnState
  outputText : Option String
  safeMessage : Option String
  retryAfterMs : Option Time

namespace GraphNodeTurnResult

def completed (output : String) : GraphNodeTurnResult := ⟨.completed, some output, none, none⟩
def pending (delay : Time) : GraphNodeTurnResult := ⟨.pending, none, none, some delay⟩
def failed (message : String) : GraphNodeTurnResult := ⟨.failed, none, some message, none⟩
def cancelled : GraphNodeTurnResult := ⟨.cancelled, none, none, none⟩

end GraphNodeTurnResult

/-- How the body of a turn ends: with a result, or by `deferFailure`, which is a tail call everywhere. -/
inductive Next
  | answer (result : GraphNodeTurnResult)
  | defer (category : FailureCategory) (safeMessage : String)

/-- The polling limit of an attempt. -/
def pollingExceeded (attempt : StepAttempt) (now : Time) : Bool :=
  maxProviderPolls ≤ attempt.providerPollCount ||
    attempt.startedAt.all fun startedAt => startedAt + maxProviderStepMs < now

/-- `finish`: fail the run once no attempt of it is outstanding. -/
def finishFailed (category : FailureCategory) (message : String) : Service GraphNodeTurnResult := do
  let current ← getRun
  if current.attempts.any fun a => a.providerTaskId.isSome && (a.status == .starting || a.status == .waitingProvider)
      || a.status == .starting && a.providerTaskId.isNone then
    return .pending minPoll
  failRun category message none
  return .failed message

/-- Poll a task of a failed run once: `none` when the attempt is settled. -/
def settleSibling (attempt : StepAttempt) (task : String) : Service (Option GraphNodeTurnResult) :=
  tryCatch
    (do
      let _ ← incrementPollCount attempt.key (storedDelay attempt)
      let detail ← getRun
      let attempt := (detail.attempts.find? (·.key == attempt.key)).getD attempt
      let call ← durableInvocation detail attempt
      requireRuntime call.adapter
      match ← orThrow (← request (.check (some task) call)) with
      | .completed output url =>
        if maxText < byteLength output then
          throw outputTooLarge
        else
          completeStep attempt.key output url
          return none
      | .pending pollAfterMs state output =>
        let next := clampPollDelay pollAfterMs
        persistProviderProgress attempt.key ((state.or attempt.providerState).getD "pending") next output
        return some (.pending next)
      | .failed failure =>
        failStep attempt.key { failure with retryable := false }
        return none)
    fun e => do
      failStep attempt.key { durableSafeFailure e with retryable := false }
      return none

def reconcileFailedGraphRun (detail : RunDetail) (attempt : StepAttempt) : Service GraphNodeTurnResult := do
  let category := detail.run.failureCode.getD .internalError
  let message := detail.run.failureMessage.getD ""
  if attempt.status == .starting && attempt.providerTaskId.isNone then
    let now ← request .now
    if attempt.startedAt.any fun startedAt => now < startedAt + graphStartUncertaintyMs detail attempt then
      return .pending minPoll
    failStep attempt.key ambiguousStart
    finishFailed category message
  else match attempt.providerTaskId with
  | none => finishFailed category message
  | some task =>
    if attempt.status != .waitingProvider then
      finishFailed category message
    else if (← cancelProviderTask detail attempt task) = .cancelled then
      failStep attempt.key
        ⟨.cancelled, "The admitted sibling provider task was cancelled after another graph branch failed.", false⟩
      finishFailed category message
    else if pollingExceeded attempt (← request .now) then
      failStep attempt.key
        ⟨.providerTimeout, "The admitted sibling provider task could not be reconciled within its polling limit.",
          false⟩
      finishFailed category message
    else
      match ← settleSibling attempt task with
      | some result => return result
      | none => finishFailed category message

structure TurnInput where
  nodeId : String
  activationId : Option String
  inputText : String

/-- Cancel every admitted provider task. -/
def cancelAdmitted (detail : RunDetail) : List StepAttempt → Service (List CancellationResult)
  | [] => return []
  | a :: rest => do
    match a.providerTaskId with
    | some task =>
      if a.status == .starting || a.status == .waitingProvider then
        let outcome ← cancelProviderTask detail a task
        let outcomes ← cancelAdmitted detail rest
        return outcome :: outcomes
      else
        cancelAdmitted detail rest
    | none => cancelAdmitted detail rest

def cancellationOutcome (outcomes : List CancellationResult) : CancellationResult :=
  if outcomes.contains .cancellationPending then .cancellationPending
  else if outcomes.contains .safeFailure then .safeFailure
  else if outcomes.contains .unsupported then .unsupported
  else if outcomes.contains .cancelled then .cancelled
  else .alreadyTerminal

/-- A turn of a run that is being cancelled. -/
def cancelTurn (detail : RunDetail) (attempt : StepAttempt) : Service GraphNodeTurnResult := do
  let outcomes ← cancelAdmitted detail detail.attempts
  let outcome := cancellationOutcome outcomes
  recordCancellationResult outcome
  if outcome = .cancellationPending then
    return .pending (min 5000 (storedDelay attempt))
  cancelRun
  return .cancelled

/-- A failed step: try again later, or fail the graph. -/
def afterFailure (failure : StepFailure) : Next :=
  if failure.retryable && transient failure.category then .answer (.pending minPoll)
  else .defer failure.category failure.safeMessage

def failThrown (attempt : StepAttempt) (e : Thrown) : Service Next := do
  let failure := durableSafeFailure e
  failStep attempt.key failure
  return afterFailure failure

/-- The conversation the node asks for. -/
def planConversation (snapshot : RunSnapshot) (nodeId : String) : Option String :=
  (snapshot.executionPlan.nodes.find? (·.id == nodeId)).bind fun n =>
    match n.config with
    | .agentV3 _ _ conversation => conversation
    | _ => none

/-- What the provider answered to a start. -/
def persistStart (attempt : StepAttempt) : AdapterState → Service Next
  | .pending taskId pollAfterMs state output taskUrl => do
    let delay := clampPollDelay pollAfterMs
    persistProviderTask attempt.key taskId delay
    if state.isSome || output.isSome || taskUrl.isSome then
      persistProviderProgress attempt.key (state.getD "pending") delay output
    return .answer (.pending delay)
  | .completed output url => do
    if maxText < byteLength output then
      throw outputTooLarge
    else
      completeStep attempt.key output url
      return .answer (.completed output)

def recordStart (attempt : StepAttempt) (result : AdapterResult) : Service Next := do
  if result.transportDiagnostics.isSome then
    recordProviderDiagnostics attempt.key
  persistStart attempt result.state

/-- The turn that owns the start of the attempt calls the provider. -/
def startTurn (input : TurnInput) (attempt : StepAttempt) : Service Next :=
  tryCatch
    (do
      let detail ← getRun
      if (planConversation detail.run.snapshot input.nodeId).isSome && attempt.conversationSource.isNone then
        throw conversationUnavailable
      else if detail.run.status = .cancelled then
        return .answer .cancelled
      else if detail.run.status = .cancelling || detail.run.cancelRequestedAt.isSome then
        return .answer (.pending minPoll)
      else
        let call ← durableInvocation detail attempt
        requireRuntime call.adapter
        recordStart attempt (← orThrow (← request (.start call))))
    fun e => do
      if e.transportDiagnostics.isSome then
        recordProviderDiagnostics attempt.key
      failThrown attempt e

/-- A turn of an attempt whose provider task is under way. -/
def pollTurn (input : TurnInput) (attempt : StepAttempt) : Service Next := do
  if attempt.providerTaskId.isNone then
    error "invalid_attempt_state"
  else if pollingExceeded attempt (← request .now) then
    let failure : StepFailure := ⟨.providerTimeout, "The provider step exceeded its polling limit.", false⟩
    failStep attempt.key failure
    return .defer failure.category failure.safeMessage
  else
    let counted ← tryCatch
      (do
        let _ ← incrementPollCount attempt.key (storedDelay attempt)
        let detail ← getRun
        return Except.ok detail)
      fun e => pure (Except.error e)
    match counted with
    | .error e => failThrown attempt e
    | .ok detail =>
      -- the read after the poll count is of the latest attempt, which may be another one by now
      let attempt := (detail.last? input.nodeId input.activationId).getD attempt
      tryCatch
        (do
          let call ← durableInvocation detail attempt
          requireRuntime call.adapter
          match ← orThrow (← request (.check attempt.providerTaskId call)) with
          | .completed output url =>
            if maxText < byteLength output then
              throw outputTooLarge
            else
              completeStep attempt.key output url
              return .answer (.completed output)
          | .pending pollAfterMs state output =>
            let next := clampPollDelay pollAfterMs
            persistProviderProgress attempt.key ((state.or attempt.providerState).getD "pending") next output
            return .answer (.pending next)
          | .failed failure =>
            failStep attempt.key failure
            return afterFailure failure)
        (failThrown attempt)

/-- A turn of a failed attempt: the next attempt, or the failure of the graph. -/
def failedTurn (input : TurnInput) (detail : RunDetail) (attempt : StepAttempt) : Service Next := do
  let failure := attempt.failure.getD ⟨.internalError, "The workflow step failed.", false⟩
  let total := (detail.attempts.filter (Database.ofStep input.nodeId input.activationId)).length
  if failure.retryable && transient failure.category && attempt.key.attempt < 3 && total < maxTotalAttempts then
    let _ ← createAutomaticRetryAttempt input.nodeId input.activationId
    return .answer (.pending (if attempt.key.attempt = 1 then 10000 else 30000))
  return .defer failure.category failure.safeMessage

/-- A turn of an attempt that somebody else is starting. -/
def awaitStartTurn (detail : RunDetail) (attempt : StepAttempt) : Service Next := do
  let now ← request .now
  if attempt.startedAt.all fun startedAt => now < startedAt + graphStartUncertaintyMs detail attempt then
    return .answer (.pending minPoll)
  failStep attempt.key ambiguousStart
  return .defer ambiguousStart.category ambiguousStart.safeMessage

/-- The transition the status of the attempt calls for; `ownsStart` is what `claimGraphNode` answered. -/
def attemptTurn (input : TurnInput) (detail : RunDetail) (attempt : StepAttempt) (ownsStart : Bool) :
    Service Next :=
  match attempt.status with
  | .starting => if ownsStart then startTurn input attempt else awaitStartTurn detail attempt
  | .waitingProvider => pollTurn input attempt
  | .failed => failedTurn input detail attempt
  | _ => return .answer (.pending minPoll)

/-- A turn of a pending attempt claims it. -/
def claimTurn (input : TurnInput) (detail : RunDetail) : Service Next := do
  if maxText < byteLength input.inputText then
    error "output_too_large"
  else
    let claim ← claimGraphNode input.nodeId input.inputText input.activationId
    if claim.attempt.status = .cancelled then
      return .answer .cancelled
    else if !claim.claimed && claim.attempt.status = .pending then
      let detail ← getRun
      if detail.run.failureCode.isSome then
        return .answer (← reconcileFailedGraphRun detail claim.attempt)
      else
        error "invalid_step_claim"
    else
      attemptTurn input detail claim.attempt claim.claimed

/-- The output of a node of a run that succeeded. -/
def succeededOutput (detail : RunDetail) (input : TurnInput) : String :=
  let last := (detail.attempts.filter fun a =>
    Database.ofStep input.nodeId input.activationId a && a.status == .succeeded).getLast?
  ((last.bind (·.outputText)).or detail.run.finalOutput).getD ""

/-- The turn up to `deferFailure`. -/
def turnBody (input : TurnInput) : Service Next := do
  let detail ← getRun
  if !detail.run.snapshot.executionPlan.nodes.any (·.id == input.nodeId) then
    error "invalid_graph_node"
  else if detail.run.status = .succeeded then
    return .answer (.completed (succeededOutput detail input))
  else if detail.run.status = .cancelled then
    return .answer .cancelled
  else if detail.run.snapshot.createdAt + maxWorkflowRunMs < (← request .now) then
    failRun .providerTimeout "The workflow run exceeded its time limit." none
    return .answer (.failed "The workflow run exceeded its time limit.")
  else match detail.last? input.nodeId input.activationId with
  | none => error "invalid_graph_node"
  | some attempt =>
    if detail.run.status = .cancelling || detail.run.cancelRequestedAt.isSome then
      return .answer (← cancelTurn detail attempt)
    else if detail.run.failureCode.isSome then
      return .answer (← reconcileFailedGraphRun detail attempt)
    else match attempt.status with
    | .succeeded => return .answer (.completed (attempt.outputText.getD ""))
    | .pending => claimTurn input detail
    | _ => attemptTurn input detail attempt false

/-- `deferFailure` calls the turn again; a call cut off after `depth` repetitions ends like one that crashed. -/
def executeDurableGraphNodeTurn : ℕ → TurnInput → Service GraphNodeTurnResult
  | 0, _ => error "turn_depth"
  | depth + 1, input => do
    match ← turnBody input with
    | .answer result => return result
    | .defer category message =>
      recordGraphFailure category message
      executeDurableGraphNodeTurn depth input

end ADT.Durable
