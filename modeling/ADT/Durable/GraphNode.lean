import ADT.Durable.NodeTurn

/-!
# Durable.GraphNode — a call of the node gateway

`executeWorkflowGraphNode` of `lib/workflow-worker-runtime.ts`, with `ensureConversationSourceBinding` of
`lib/workflow-conversation-continuation.ts`: a call carries the authority of one attempt, which is compared with the
latest attempt of its activation; then the node is published, or a turn of it is taken.
-/

namespace ADT.Durable

open Workflow Interleave Storage

/-- `new ConversationUnavailableError()` -/
def conversationUnavailableError : Thrown :=
  ⟨"conversation_unavailable", some .conversationUnavailable,
    some "The selected Codex conversation is no longer available to continue.", some false, none⟩

/-- The attempt the target is bound to, which must have succeeded with a provider task. -/
def resolveBoundConversationSource (detail : RunDetail) (target : StepAttempt) : Service StepAttempt :=
  match target.conversationSource.bind (conversationAttempt detail) with
  | some source =>
    if source.status = .succeeded && source.providerTaskId.isSome then return source
    else throw conversationUnavailableError
  | none => throw conversationUnavailableError

def ensureConversationSourceBinding (detail : RunDetail) (target : StepAttempt) (sourceNodeId : String) :
    Service StepAttempt := do
  if target.conversationSource.isSome then
    resolveBoundConversationSource detail target
  else
    match (detail.attempts.filter fun a => a.key.stepId == sourceNodeId && a.status == .succeeded).getLast? with
    | none => throw conversationUnavailableError
    | some source =>
      if source.providerTaskId.isNone then
        throw conversationUnavailableError
      else
        let bound ← bindConversationSource target.key
          ⟨source.key.stepId, source.graphActivationId, source.key.iteration, source.key.attempt⟩
        resolveBoundConversationSource detail bound

/-! ### The call -/

/-- What a call finds outside of the rows of its run: what the run's snapshot says of the managed repositories of its
agents, and what the calls to them, and to the connections of tools and security profiles, answer. -/
structure NodeHost where
  /-- The agent is set to continue from a published branch. -/
  continues : Bool
  /-- The agent has a managed repository. -/
  managed : Bool
  /-- The agent of the node that is published has one. -/
  sourceManaged : Bool
  /-- `resolvePriorManagedPublication` -/
  prior : Except Thrown Unit
  /-- `reconcileManagedPullRequestAssociation`: the output and the address of the pull request. -/
  recovered : Except Thrown (Option (String × String))
  /-- `publishManagedPullRequest` -/
  published : Except Thrown (String × String)
  /-- `resolveFrozenMcpTools` and `resolveFrozenSecurityProfile` -/
  tools : Except Thrown Unit

def publishFailure (message : String) : StepFailure := ⟨.providerRejected, message, false⟩

/-- Open the pull request with the attempt `active`; whatever goes wrong fails the attempt and the graph. -/
def publishActive (host : NodeHost) (active : StepAttempt) : Service GraphNodeTurnResult :=
  tryCatch
    (do
      if !host.sourceManaged then
        error "permission_denied"
      else
        let _ ← getRun
        let (output, url) ← orThrow host.published
        completeStep active.key output (some url)
        return .completed output)
    fun e => do
      let message := if e.message = "permission_denied" then "Managed repository publication is not authorised."
        else "Managed pull-request publication failed safely."
      failStep active.key (publishFailure message)
      recordGraphFailure .providerRejected message
      return .failed message

/-- A publish node: claim its attempt, or find the pull request of one that was started. -/
def publishNode (host : NodeHost) (scope : NodeAuthority) (inputText : String) (attempt : StepAttempt) :
    Service GraphNodeTurnResult := do
  match attempt.status with
  | .succeeded => return .completed (attempt.outputText.getD "")
  | .pending =>
    let claim ← claimGraphNode scope.activation.nodeId inputText (some scope.activation.activationId)
    if !claim.claimed then
      error "provider_publish_ambiguous"
    else
      publishActive host claim.attempt
  | .starting =>
    match ← orThrow host.recovered with
    | some (output, url) =>
      completeStep attempt.key output (some url)
      return .completed output
    | none => publishActive host attempt
  | _ => error "provider_publish_ambiguous"

/-- The errors of a conversation that cannot be continued. -/
def continuationErrors : List String :=
  ["conversation_unavailable", "invalid_managed_continuation", "conversation_source_incompatible"]

def conversationFailure : StepFailure :=
  ⟨.conversationUnavailable, "The selected Codex conversation is no longer available to continue.", false⟩

/-- The conversation of an agent is bound before its turn, and its branch is looked up. -/
def prepareAgent (host : NodeHost) (detail : RunDetail) (scope : NodeAuthority) (attempt : StepAttempt) :
    Service Unit := do
  match planConversation detail.run.snapshot scope.activation.nodeId with
  | some sourceNodeId =>
    if host.continues then
      throw conversationUnavailableError
    else
      let _ ← ensureConversationSourceBinding detail attempt sourceNodeId
      let _ ← getRun
      if host.managed then
        orThrow host.prior
  | none =>
    if host.continues then
      if !host.managed then
        error "invalid_graph_node"
      else
        orThrow host.prior

/-- The conversation cannot be continued: the attempt is claimed, if nobody did, and failed, and the graph with it. -/
def conversationFailed (scope : NodeAuthority) (inputText : String) (attempt : StepAttempt) :
    Service GraphNodeTurnResult := do
  let active ←
    if attempt.status = .pending then do
      let claim ← claimGraphNode scope.activation.nodeId inputText (some scope.activation.activationId)
      pure claim.attempt
    else pure attempt
  if active.status = .starting then
    failStep active.key conversationFailure
  recordGraphFailure conversationFailure.category conversationFailure.safeMessage
  return .failed conversationFailure.safeMessage

/-- Whether an agent node can go on with its conversation. -/
def prepared (host : NodeHost) (detail : RunDetail) (scope : NodeAuthority) (attempt : StepAttempt) : Service Bool :=
  tryCatch (do prepareAgent host detail scope attempt; return true) fun e =>
    if continuationErrors.contains e.message then return false else throw e

/-- The turn of a node that is prepared. -/
def takeTurn (depth : ℕ) (host : NodeHost) (scope : NodeAuthority) (inputText : String) :
    Service GraphNodeTurnResult := do
  orThrow host.tools
  executeDurableGraphNodeTurn depth ⟨scope.activation.nodeId, some scope.activation.activationId, inputText⟩

def agentNode (depth : ℕ) (host : NodeHost) (detail : RunDetail) (scope : NodeAuthority) (inputText : String)
    (attempt : StepAttempt) : Service GraphNodeTurnResult := do
  if ← prepared host detail scope attempt then
    takeTurn depth host scope inputText
  else
    conversationFailed scope inputText attempt

/-- The call names the latest attempt of its activation, in the generation of the run. -/
def authorised (detail : RunDetail) (scope : NodeAuthority) (attempt : StepAttempt) : Bool :=
  detail.run.workflowGeneration == scope.workflowGeneration && attempt.key.iteration == scope.iteration &&
    attempt.key.attempt == scope.attempt

def executeWorkflowGraphNode (depth : ℕ) (host : NodeHost) (scope : NodeAuthority) (inputText : String) :
    Service GraphNodeTurnResult := do
  let detail ← getRun
  match detail.last? scope.activation.nodeId (some scope.activation.activationId),
      detail.run.snapshot.executionPlan.nodes.find? (·.id == scope.activation.nodeId) with
  | some attempt, some node =>
    if !authorised detail scope attempt then
      error "invalid_graph_node"
    else if node.blockType = "publish-github-pr" then
      publishNode host scope inputText attempt
    else if node.blockType = "agent" then
      agentNode depth host detail scope inputText attempt
    else
      takeTurn depth host scope inputText
  | _, _ => error "invalid_graph_node"

end ADT.Durable
