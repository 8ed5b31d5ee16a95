import ADT.Durable.GraphNode

/-!
# Durable.Issues — which requests the services of a run issue

What a service may issue is a predicate on requests.  The classes below say that it admits the requests a part of a
service is made of: the reads and the ends of the run, the work on one attempt, its claim and its start, its retry.  Each
predicate of the modules that follow is shown once to be of a class, and then holds of every service of that part.
-/

namespace ADT.Durable

open Workflow Interleave Storage

variable {P P' : Request → Prop} {α : Type}

@[simp] theorem error_issues (message : String) : (error message : Service α).Issues P := trivial

@[simp] theorem changed_issues (ok : Bool) (message : String) : (changed ok message).Issues P := by
  simp [changed]

@[simp] theorem orThrow_issues (r : Except Thrown α) : (orThrow r).Issues P := by
  unfold orThrow
  split <;> simp

@[simp] theorem transition_issues (current : Option CancellationResult) (next : CancellationResult) :
    (transition current next).Issues P := by
  unfold transition
  split <;> simp

@[simp] theorem resolveBoundConversationSource_issues (detail : RunDetail) (a : StepAttempt) :
    (resolveBoundConversationSource detail a).Issues P := by
  unfold resolveBoundConversationSource
  split <;> simp

/-! ### The reads and the ends of the run -/

/-- `P` admits the reads of the run, what is asked of the outside about an attempt, and the failure and the
cancellation of the run. -/
class AdmitsReads (P : Request → Prop) : Prop where
  run : P .selectRun
  attempts : P .selectAttempts
  attempt : ∀ key, P (.selectAttempt key)
  now : P .now
  connection : ∀ connectionKey, P (.resolveConnection connectionKey)
  runtime : ∀ adapter, P (.resolveRuntime adapter)
  cancel : ∀ task call, P (.cancel task call)
  graphFailure : ∀ code message, P (.updateRun (.graphFailure code message))
  fail : ∀ code message generation, P (.updateRun (.fail code message generation))
  request : ∀ now, P (.updateRun (.requestCancellation now))
  cancelRun : P (.updateRun .cancel)
  cancelAll : P (.updateAttempts .cancelAll)

theorem AdmitsReads.mono (h : AdmitsReads P) (hP : ∀ q, P q → P' q) : AdmitsReads P' := by
  constructor <;> intros <;> apply hP
  exacts [h.run, h.attempts, h.attempt _, h.now, h.connection _, h.runtime _, h.cancel _ _, h.graphFailure _ _,
    h.fail _ _ _, h.request _, h.cancelRun, h.cancelAll]

section Reads

variable [hr : AdmitsReads P] (detail : RunDetail) (a : StepAttempt)

@[simp] theorem getRun_issues : getRun.Issues P := by
  simp [getRun, hr.run, hr.attempts]

@[simp] theorem attempt_issues (key : AttemptKey) : (attempt key).Issues P := by
  refine Prog.issues_bind.2 ⟨by simp [hr.attempt], fun a _ => ?_⟩
  split <;> simp

@[simp] theorem recordGraphFailure_issues (code : FailureCategory) (message : String) :
    (recordGraphFailure code message).Issues P := by
  simp [recordGraphFailure, hr.graphFailure]

@[simp] theorem failRun_issues (code : FailureCategory) (message : String) (generation : Option ℕ) :
    (failRun code message generation).Issues P := by
  simp [failRun, hr.fail]

@[simp] theorem requestCancellation_issues : requestCancellation.Issues P := by
  simp [requestCancellation, hr.now, hr.request]

@[simp] theorem cancelRun_issues : cancelRun.Issues P := by
  simp [cancelRun, hr.cancelRun, hr.cancelAll]

@[simp] theorem finishFailed_issues (category : FailureCategory) (message : String) :
    (finishFailed category message).Issues P := by
  simp [finishFailed]

@[simp] theorem durableInvocation_issues : (durableInvocation detail a).Issues P := by
  simp [durableInvocation, hr.connection]

theorem durableInvocation_key {detail : RunDetail} {a : StepAttempt} {call : AdapterInvocation}
    (h : (durableInvocation detail a).Returns call) : call.key = a.key := by
  obtain ⟨live, _, h⟩ := Prog.returns_bind.1 h
  obtain ⟨connection, _, h⟩ := Prog.returns_bind.1 h
  dsimp only at h
  split at h
  · cases h
  · split at h
    · cases h
    · exact congrArg AdapterInvocation.key h.symm

@[simp] theorem requireRuntime_issues (adapter : String) : (requireRuntime adapter).Issues P := by
  simp [requireRuntime, hr.runtime]

@[simp] theorem cancelProviderTask_issues (task : String) : (cancelProviderTask detail a task).Issues P := by
  simp [cancelProviderTask, hr.runtime, hr.cancel]

@[simp] theorem cancelAdmitted_issues (attempts : List StepAttempt) : (cancelAdmitted detail attempts).Issues P := by
  induction attempts with
  | nil => trivial
  | cons a rest ih =>
    unfold cancelAdmitted
    split <;> simp [ih]

theorem ensureGraphActivation_issues (h : ∀ stepId activationId agentId connectionKey,
      P (.insertAttempts (.activation stepId activationId agentId connectionKey))) (stepId activationId : String) :
    (ensureGraphActivation stepId activationId).Issues P := by
  unfold ensureGraphActivation
  refine Prog.issues_ite.2 ⟨fun _ => trivial, fun _ => Prog.issues_bind.2 ⟨getRun_issues, fun detail _ => ?_⟩⟩
  refine Prog.issues_ite.2 ⟨fun _ => trivial, fun _ => ?_⟩
  split
  · trivial
  · refine Prog.issues_ite.2 ⟨fun _ => trivial, fun _ => ?_⟩
    split
    · trivial
    · refine Prog.issues_bind.2 ⟨⟨h _ _ _ _, fun _ => trivial⟩, fun _ _ => Prog.issues_bind.2
        ⟨getRun_issues, fun reread _ => ?_⟩⟩
      split <;> trivial

theorem prepareManualRetry_issues (hretry : ∀ prior, prior.attempt < 10 → P (.insertAttempts (.manualRetry prior)))
    (hmove : ∀ stepId generation, P (.updateRun (.manualRetry stepId generation))) (stepId : String) :
    (prepareManualRetry stepId).Issues P := by
  refine Prog.issues_bind.2 ⟨getRun_issues, fun detail _ => ?_⟩
  split
  · trivial
  · rename_i prior _
    refine Prog.issues_ite.2 ⟨fun _ => trivial, fun hprior => ?_⟩
    have hlt : prior.key.attempt < 10 := by
      simp only [Bool.or_eq_true, decide_eq_true_eq, not_or, not_le] at hprior
      exact hprior.2
    simp [hretry _ hlt, hmove]

theorem bindConversationSource_issues {key : AttemptKey} (h : ∀ source, P (.updateAttempts (.bindConversation key source)))
    (source : ConversationSourceIdentity) : (bindConversationSource key source).Issues P := by
  unfold bindConversationSource
  refine Prog.issues_ite.2 ⟨fun _ => trivial, fun _ => Prog.issues_bind.2 ⟨attempt_issues key, fun existing _ => ?_⟩⟩
  split <;> simp [h]

theorem prepared_issues {a : StepAttempt} (h : ∀ source, P (.updateAttempts (.bindConversation a.key source)))
    (host : NodeHost) (detail : RunDetail) (scope : NodeAuthority) : (prepared host detail scope a).Issues P := by
  have hbinding : ∀ sourceNodeId, (ensureConversationSourceBinding detail a sourceNodeId).Issues P := fun sourceNodeId => by
    unfold ensureConversationSourceBinding
    refine Prog.issues_ite.2 ⟨fun _ => by simp, fun _ => ?_⟩
    split <;> simp [bindConversationSource_issues h]
  have hprepare : (prepareAgent host detail scope a).Issues P := by
    unfold prepareAgent
    split <;> simp [hbinding]
  simp [prepared, hprepare]

/-- `P` admits a result of the cancellation. -/
class AdmitsResult (P : Request → Prop) : Prop where
  result : ∀ next current, P (.updateRun (.cancellationResult next current))

variable [hrecords : AdmitsResult P]

@[simp] theorem recordCancellationResult_issues (result : CancellationResult) :
    (recordCancellationResult result).Issues P := by
  simp [recordCancellationResult, hrecords.result]

@[simp] theorem cancelTurn_issues : (cancelTurn detail a).Issues P := by
  simp [cancelTurn]

end Reads

/-! ### The work on an attempt -/

/-- `P` admits the checks of the attempt and the updates that write down what its provider said. -/
class AdmitsWork (P : Request → Prop) (key : AttemptKey) : Prop where
  check : ∀ task call, call.key = key → P (.check task call)
  diagnostics : P (.updateAttempts (.providerDiagnostics key))
  repoll : ∀ task delay, P (.updateAttempts (.repoll key task delay))
  task : ∀ task delay, P (.updateAttempts (.providerTask key task delay))
  progress : ∀ state delay output, P (.updateAttempts (.progress key state delay output))
  pollCount : ∀ delay, P (.updateAttempts (.pollCount key delay))
  fail : ∀ failure, P (.updateAttempts (.fail key failure))

/-- `P` admits its completion besides. -/
class AdmitsCompletion (P : Request → Prop) (key : AttemptKey) : Prop extends AdmitsWork P key where
  complete : ∀ output url, P (.updateAttempts (.complete key output url))

theorem AdmitsCompletion.mono {key : AttemptKey} (h : AdmitsCompletion P key) (hP : ∀ q, P q → P' q) :
    AdmitsCompletion P' key := by
  refine @AdmitsCompletion.mk _ _ ?_ fun _ _ => hP _ (h.complete _ _)
  constructor <;> intros <;> apply hP
  exacts [h.check _ _ ‹_›, h.diagnostics, h.repoll _ _, h.task _ _, h.progress _ _ _, h.pollCount _, h.fail _]

section Works

variable {key : AttemptKey} [hw : AdmitsWork P key]

@[simp] theorem recordProviderDiagnostics_issues : (recordProviderDiagnostics key).Issues P := by
  simp [recordProviderDiagnostics, hw.diagnostics]

@[simp] theorem persistProviderProgress_issues (state : String) (delay : Time) (output : Option String) :
    (persistProviderProgress key state delay output).Issues P := by
  simp [persistProviderProgress, hw.progress]

variable [hr : AdmitsReads P] {a : StepAttempt} [ha : AdmitsWork P a.key]

@[simp] theorem persistProviderTask_issues (task : String) (delay : Time) :
    (persistProviderTask key task delay).Issues P := by
  refine Prog.issues_bind.2 ⟨attempt_issues key, fun a _ => ?_⟩
  split <;> simp [hw.repoll, hw.task]

@[simp] theorem incrementPollCount_issues (delay : Time) : (incrementPollCount key delay).Issues P := by
  simp [incrementPollCount, hw.pollCount]

@[simp] theorem failStep_issues (failure : StepFailure) : (failStep key failure).Issues P := by
  simp [failStep, hw.fail]

@[simp] theorem failThrown_issues (e : Thrown) : (failThrown a e).Issues P := by
  simp [failThrown]

@[simp] theorem awaitStartTurn_issues (detail : RunDetail) : (awaitStartTurn detail a).Issues P := by
  simp [awaitStartTurn, hr.now]

theorem check_issues (detail : RunDetail) (taskId : Option String) {f : CheckResult → Service α}
    (hf : ∀ result, (f result).Issues P) :
    (do
      let call ← durableInvocation detail a
      requireRuntime call.adapter
      let result ← orThrow (← request (.check taskId call))
      f result : Service α).Issues P := by
  refine Prog.issues_bind.2 ⟨durableInvocation_issues _ _, fun call hcall => Prog.issues_bind.2
    ⟨requireRuntime_issues _, fun _ _ => Prog.issues_bind.2 ⟨?_, fun answered _ => Prog.issues_bind.2
      ⟨orThrow_issues _, fun result _ => hf result⟩⟩⟩⟩
  simp [ha.check _ _ (durableInvocation_key hcall)]

end Works

section Finishes

variable [hr : AdmitsReads P] {key : AttemptKey} [hk : AdmitsCompletion P key] {a : StepAttempt}
  [ha : AdmitsCompletion P a.key]

@[simp] theorem completeStep_issues (output : String) (url : Option String) : (completeStep key output url).Issues P := by
  simp [completeStep, hk.complete]

@[simp] theorem settleSibling_issues (task : String) : (settleSibling a task).Issues P := by
  refine Prog.issues_tryCatch.2 ⟨?_, fun e _ => by simp⟩
  refine Prog.issues_bind.2 ⟨incrementPollCount_issues _, fun _ _ => Prog.issues_bind.2 ⟨getRun_issues, fun detail _ => ?_⟩⟩
  -- the row that is read again is of the same attempt
  have hkey : ((detail.attempts.find? (·.key == a.key)).getD a).key = a.key := by
    rcases hf : detail.attempts.find? (·.key == a.key) with _ | b <;> rw [hf]
    · rfl
    · simpa using List.find?_some hf
  generalize (detail.attempts.find? (·.key == a.key)).getD a = b at hkey
  have hb : AdmitsCompletion P b.key := hkey ▸ ha
  refine check_issues detail _ fun result => ?_
  split <;> simp

@[simp] theorem reconcileFailedGraphRun_issues (detail : RunDetail) : (reconcileFailedGraphRun detail a).Issues P := by
  unfold reconcileFailedGraphRun
  refine Prog.issues_ite.2 ⟨fun _ => by simp [hr.now], fun _ => ?_⟩
  split
  · simp
  · simp only [Prog.issues_ite, Prog.issues_bind, finishFailed_issues, cancelProviderTask_issues, failStep_issues,
      settleSibling_issues, request, Prog.issues_ask, Prog.issues_done, hr.now, implies_true, true_and]
    intro _ _ _ _ _ _ _ settled _
    split <;> simp

@[simp] theorem recordStart_issues (result : AdapterResult) : (recordStart a result).Issues P := by
  have hstate : (persistStart a result.state).Issues P := by
    unfold persistStart
    split <;> simp
  simp [recordStart, hstate]

@[simp] theorem publishActive_issues (host : NodeHost) : (publishActive host a).Issues P := by
  simp [publishActive]

theorem startTurn_issues (hstart : ∀ call, call.key = a.key → P (.start call)) (input : TurnInput) :
    (startTurn input a).Issues P := by
  refine Prog.issues_tryCatch.2 ⟨Prog.issues_bind.2 ⟨getRun_issues, fun detail _ => ?_⟩, fun e _ => by simp⟩
  simp only [Prog.issues_ite, Prog.issues_throw, Prog.issues_pure, implies_true, true_and]
  refine fun _ _ _ => Prog.issues_bind.2 ⟨durableInvocation_issues _ _, fun call hcall => Prog.issues_bind.2
    ⟨requireRuntime_issues _, fun _ _ => Prog.issues_bind.2 ⟨?_, fun answered _ => by simp⟩⟩⟩
  simp [hstart _ (durableInvocation_key hcall)]

end Finishes

theorem pollTurn_issues [hr : AdmitsReads P] [∀ key, AdmitsCompletion P key] (input : TurnInput) (a : StepAttempt) :
    (pollTurn input a).Issues P := by
  unfold pollTurn
  simp only [Prog.issues_ite, Prog.issues_bind, error_issues, failStep_issues, Prog.issues_pure, request,
    Prog.issues_ask, Prog.issues_done, Prog.issues_tryCatch, incrementPollCount_issues, getRun_issues, hr.now,
    implies_true, true_and]
  intro _ _ _ _ counted _
  split
  · simp
  · refine Prog.issues_tryCatch.2 ⟨check_issues _ _ fun result => ?_, fun e _ => by simp⟩
    split <;> simp

/-! ### The turn of a node -/

/-- `P` admits the automatic retry of an attempt. -/
class AdmitsRetries (P : Request → Prop) : Prop where
  retry : ∀ prior activationId, prior.attempt < 3 → P (.insertAttempts (.automaticRetry prior activationId))

/-- `P` admits the claim and the start of an attempt. -/
class AdmitsClaims (P : Request → Prop) : Prop where
  latest : ∀ stepId activationId, P (.selectLatest stepId activationId)
  claim : ∀ key input now, P (.updateAttempts (.claim key input now))
  enter : ∀ stepId, P (.updateRun (.enterStep stepId))
  start : ∀ call, P (.start call)

section Retries

variable [hr : AdmitsReads P] [hretries : AdmitsRetries P]

@[simp] theorem createAutomaticRetryAttempt_issues (stepId : String) (activationId : Option String) :
    (createAutomaticRetryAttempt stepId activationId).Issues P := by
  refine Prog.issues_bind.2 ⟨getRun_issues, fun detail _ => ?_⟩
  split
  · trivial
  · rename_i prior _
    refine Prog.issues_ite.2 ⟨fun _ => trivial, fun hprior => ?_⟩
    have hlt : prior.key.attempt < 3 := by
      simp only [Bool.or_eq_true, decide_eq_true_eq, not_or, not_le] at hprior
      exact hprior.2
    simp [hretries.retry _ _ hlt]

@[simp] theorem failedTurn_issues (input : TurnInput) (detail : RunDetail) (a : StepAttempt) :
    (failedTurn input detail a).Issues P := by
  simp [failedTurn]

end Retries

section Claims

variable [ht : AdmitsClaims P]

@[simp] theorem latest_issues (stepId : String) (activationId : Option String) : (latest stepId activationId).Issues P := by
  refine Prog.issues_bind.2 ⟨by simp [ht.latest], fun a _ => ?_⟩
  split <;> simp

variable [hr : AdmitsReads P]

@[simp] theorem claimGraphNode_issues (stepId input : String) (activationId : Option String) :
    (claimGraphNode stepId input activationId).Issues P := by
  simp [claimGraphNode, hr.now, ht.claim, ht.enter]

@[simp] theorem conversationFailed_issues [∀ key, AdmitsWork P key] (scope : NodeAuthority) (inputText : String)
  (a : StepAttempt) :
    (conversationFailed scope inputText a).Issues P := by
  simp [conversationFailed]

variable [ha : ∀ key, AdmitsCompletion P key]

@[simp] theorem publishNode_issues (host : NodeHost) (scope : NodeAuthority) (inputText : String) (a : StepAttempt) :
    (publishNode host scope inputText a).Issues P := by
  unfold publishNode
  split
  · trivial
  · simp
  · refine Prog.issues_bind.2 ⟨orThrow_issues _, fun recovered _ => ?_⟩
    split <;> simp
  · trivial

variable [AdmitsRetries P]

@[simp] theorem attemptTurn_issues (input : TurnInput) (detail : RunDetail) (a : StepAttempt) (ownsStart : Bool) :
    (attemptTurn input detail a ownsStart).Issues P := by
  unfold attemptTurn
  split
  · simp [startTurn_issues fun call _ => ht.start call]
  · exact pollTurn_issues _ _
  · exact failedTurn_issues _ _ _
  · trivial

@[simp] theorem claimTurn_issues (input : TurnInput) (detail : RunDetail) : (claimTurn input detail).Issues P := by
  simp [claimTurn]

variable [AdmitsResult P]

@[simp] theorem turnBody_issues (input : TurnInput) : (turnBody input).Issues P := by
  refine Prog.issues_bind.2 ⟨getRun_issues, fun detail _ => ?_⟩
  simp only [Prog.issues_ite, Prog.issues_bind, Prog.issues_pure, request, Prog.issues_ask, Prog.issues_done,
    error_issues, failRun_issues, hr.now, implies_true, and_true, true_and]
  intro _ _ _ now _ _
  split
  · trivial
  · simp only [Prog.issues_ite, Prog.issues_bind, Prog.issues_pure, cancelTurn_issues,
      reconcileFailedGraphRun_issues, implies_true, and_true, true_and]
    intro _ _
    split <;> simp

@[simp] theorem takeTurn_issues (depth : ℕ) (host : NodeHost) (scope : NodeAuthority) (inputText : String) :
    (takeTurn depth host scope inputText).Issues P := by
  have hturn : ∀ depth input, (executeDurableGraphNodeTurn depth input).Issues P := fun depth input => by
    induction depth with
    | zero => trivial
    | succ depth ih =>
      refine Prog.issues_bind.2 ⟨turnBody_issues input, fun next _ => ?_⟩
      split
      · trivial
      · exact Prog.issues_bind.2 ⟨recordGraphFailure_issues _ _, fun _ _ => ih⟩
  simp [takeTurn, hturn]

end Claims

/-- Not a claim, a start, a retry or a statement of a launch: the requests every discipline passes over. -/
@[simp] def quiet : Request → Bool
  | .start _ | .selectLatest _ _ | .updateAttempts (.claim ..) => false
  | .insertAttempts (.automaticRetry ..) | .insertAttempts (.manualRetry _) => false
  | .updateRun (.claimLaunch ..) | .updateRun (.takeOverLaunch ..) | .updateRun (.attach ..) => false
  | .updateRun (.launchFailure ..) | .updateRun (.manualRetry ..) => false
  | _ => true

def Quiet (q : Request) : Prop := quiet q

/-- The service issues quiet requests only. -/
abbrev QuietService {α : Type} (p : Service α) : Prop := p.Issues Quiet

instance : AdmitsReads Quiet := by constructor <;> intros <;> exact rfl

instance : AdmitsResult Quiet := ⟨fun _ _ => rfl⟩

instance (key : AttemptKey) : AdmitsWork Quiet key := by constructor <;> intros <;> exact rfl

instance (key : AttemptKey) : AdmitsCompletion Quiet key := ⟨fun _ _ => rfl⟩

end ADT.Durable
