import ADT.Durable.Driver
import ADT.Durable.Issues
import ADT.Lib.Clients
import ADT.Storage.Effects

/-!
# Durable.System — the clients of a run, and what they issue

Everybody who acts on a run: launches, cancellations, approvals, retries, drivers and calls of the node gateway.  The
driver behind its attachment is quiet; a launch issues launch statements and manual retries besides, a node call claims,
starts and automatic retries.
-/

namespace ADT.Durable

open Workflow Interleave Storage

/-! ### Approvals and the driver -/

/-- The waits between the turns of a driver. -/
def waits : StepName → Bool
  | .wait .. => true
  | _ => false

/-- A quiet request that writes on no attempt but to cancel it. -/
@[simp] def steering : Request → Bool
  | .updateAttempts u => u == .cancelAll
  | q => quiet q

def Steering (q : Request) : Prop := steering q

/-- The service issues such requests only. -/
abbrev SteeringService {α : Type} (p : Service α) : Prop := p.Issues Steering

variable (q : Request) {α : Type} (message : String) (code : FailureCategory) {p : Service α} (stepId : String)
  (i : Interrupt) (generation : ℕ) (requestId : String) (run : WorkflowRun) {name : StepName} (admitted : RunDetail)
  (resume : Option ApprovalResume) (wakes : ℕ) (instanceId : String) (detail : RunDetail)
  (activationId : Option String) (input : TurnInput) (a : StepAttempt) (host : NodeHost) (scope : NodeAuthority)
  (inputText : String) (depth : ℕ)

theorem quiet_of_steering (h : Steering q) : Quiet q := by
  unfold Steering steering at h
  split at h
  · rename_i u
    obtain rfl : u = .cancelAll := by simpa using h
    rfl
  · exact h

instance : AdmitsReads Steering := by constructor <;> intros <;> exact rfl

/-- A steering request of a driver at work: it neither waits for the graph nor hands out authorities. -/
@[simp] def busy : Request → Bool
  | .recall name => !waits name
  | .record name _ => !waits name
  | .advanceLangGraph _ authorities => authorities.isNone
  | q => steering q

def Busy (q : Request) : Prop := busy q

theorem steering_of_busy (h : Busy q) : Steering q := by
  unfold Busy busy at h
  split at h <;> first | rfl | exact h

/-- The service issues such requests only. -/
abbrev BusyService {α : Type} (p : Service α) : Prop := p.Issues Busy

theorem steering_service (h : BusyService p) : SteeringService p := h.mono steering_of_busy

theorem quiet_service (h : SteeringService p) : QuietService p := h.mono quiet_of_steering

instance : AdmitsReads Busy := by constructor <;> intros <;> exact rfl

@[simp] theorem ensureGraphActivation_busy (activationId : String) :
    BusyService (ensureGraphActivation stepId activationId) :=
  ensureGraphActivation_issues (fun _ _ _ _ => rfl) stepId activationId

@[simp] theorem matching_busy (a : WorkflowApproval) : BusyService (matching i a) := by
  simp [matching]

@[simp] theorem findAgain_busy : BusyService (findAgain i generation) := by
  refine Prog.issues_bind.2 ⟨by simp [Busy, busy, steering, quiet], fun a _ => ?_⟩
  split <;> simp

@[simp] theorem awaitCreated_busy (a : WorkflowApproval) : BusyService (awaitCreated i generation a) := by
  simp [awaitCreated, Busy, busy, steering, quiet]

@[simp] theorem createRequest_busy : BusyService (createRequest i generation) := by
  simp only [createRequest, request, Prog.issues_bind, Prog.issues_ask, Prog.issues_done, Busy, busy, steering, quiet,
    implies_true,
    and_true, true_and]
  intro requestId _ now _ inserted _
  split
  · exact findAgain_busy i generation
  · refine Prog.issues_bind.2 ⟨by simp [Busy, busy, steering, quiet], fun a _ => ?_⟩
    split <;> simp

@[simp] theorem require_busy : BusyService (require i generation) := by
  unfold require
  refine Prog.issues_ite.2 ⟨fun _ => error_issues _, fun _ => Prog.issues_bind.2
    ⟨by simp [Busy, busy, steering, quiet], fun a _ => ?_⟩⟩
  split <;> simp

@[simp] theorem approve_steering : SteeringService (Storage.approve requestId) := by
  simp only [Storage.approve, request, Prog.issues_bind, Prog.issues_ask, Prog.issues_done, Steering, steering, quiet,
    implies_true,
    and_true, true_and]
  intro now _ decided _ a _
  split <;> simp [Steering, steering, quiet]

@[simp] theorem consume_busy : BusyService (consume requestId) := by
  simp only [consume, request, Prog.issues_bind, Prog.issues_ask, Prog.issues_done, Busy, busy, steering, quiet, implies_true,
    and_true, true_and]
  intro now _ consumed _
  split <;> simp

@[simp] theorem finishCancellation_busy : BusyService (finishCancellation run) := by
  simp [finishCancellation]

@[simp] theorem reconcileCancellation_busy : BusyService reconcileCancellation := by
  simp [reconcileCancellation]

@[simp] theorem stepWait_busy (h : waits name = false) : BusyService (stepWait name) := by
  refine Prog.issues_bind.2 ⟨by simp [Busy, h], fun a _ => ?_⟩
  split <;> simp [Busy, h]

@[simp] theorem stepWait_steering (name : StepName) : SteeringService (stepWait name) := by
  refine Prog.issues_bind.2 ⟨by simp [Steering, steering, quiet], fun a _ => ?_⟩
  split <;> simp [Steering, steering, quiet]

theorem stepDo_issues {P : Request → Prop} {body : Service StepOutcome} (hrecall : P (.recall name))
    (hrecord : ∀ outcome, P (.record name outcome)) (h : body.Issues P) : (stepDo name body).Issues P := by
  refine Prog.issues_bind.2 ⟨⟨hrecall, fun _ => trivial⟩, fun a _ => ?_⟩
  split
  · trivial
  · exact Prog.issues_bind.2 ⟨Prog.issues_tryCatch.2 ⟨h, fun _ _ => trivial⟩, fun outcome _ =>
      ⟨hrecord outcome, fun _ => trivial⟩⟩

@[simp] theorem decideWake_busy (requestId : String) (a : Option WorkflowApproval) :
    BusyService (decideWake run requestId a) := by
  unfold decideWake
  split <;> simp

@[simp] theorem awaitDecision_busy (fuel occurrence : ℕ) : BusyService (awaitDecision requestId fuel occurrence) := by
  induction fuel generalizing occurrence with
  | zero => trivial
  | succ fuel ih =>
    simp only [awaitDecision, request, Prog.issues_bind, Prog.issues_ite, Prog.issues_ask, Prog.issues_done,
      getRun_issues, finishCancellation_busy, decideWake_busy, Prog.issues_pure, Busy, busy, steering, quiet,
        implies_true, and_true,
      true_and]
    intro detail _ durable _ _ wake _
    split
    · trivial
    · exact Prog.issues_bind.2 ⟨stepWait_busy rfl, fun _ _ => ih _⟩

@[simp] theorem requireUnlessCancelled_busy : BusyService (requireUnlessCancelled i generation) := by
  simp [requireUnlessCancelled]

@[simp] theorem waitForApprovalWake_busy (fuel generation : ℕ) (i : Interrupt) :
    BusyService (waitForApprovalWake fuel generation i) := by
  refine Prog.issues_bind.2 ⟨reconcileCancellation_busy, fun cancelled _ => ?_⟩
  refine Prog.issues_ite.2 ⟨fun _ => trivial, fun _ => Prog.issues_bind.2 ⟨requireUnlessCancelled_busy i generation,
    fun a _ => ?_⟩⟩
  split <;> simp

@[simp] theorem reconcileOrchestrationRace_busy : BusyService (reconcileOrchestrationRace generation) := by
  simp [reconcileOrchestrationRace]

@[simp] theorem mutateOrchestrationDiagnostics_busy : BusyService (mutateOrchestrationDiagnostics generation) := by
  simp [mutateOrchestrationDiagnostics, Busy, busy, steering, quiet]

@[simp] theorem diagnosticRace_busy : BusyService (diagnosticRace generation) := by
  refine Prog.issues_bind.2 ⟨reconcileOrchestrationRace_busy generation, fun status _ => ?_⟩
  split <;> simp

@[simp] theorem handleFailure_busy (failure : Option RuntimeFailure) (generation failures : ℕ)
    (h : waits name = false) : BusyService (handleFailure failure generation failures name) := by
  refine Prog.issues_bind.2 ⟨reconcileOrchestrationRace_busy generation, fun status _ => ?_⟩
  split
  · trivial
  · split <;> simp [h]

@[simp] theorem loopHead_busy : BusyService loopHead := by
  simp [loopHead, Busy, busy, steering, quiet]

@[simp] theorem validateBody_busy : BusyService validateBody := by
  refine Prog.issues_bind.2 ⟨by simp [Busy, busy, steering, quiet], fun a _ => ?_⟩
  split <;> simp

@[simp] theorem validationLoop_busy (fuel attempt failures : ℕ) :
    BusyService (validationLoop fuel attempt failures) := by
  induction fuel generalizing attempt failures with
  | zero => trivial
  | succ fuel ih =>
    refine Prog.issues_bind.2 ⟨loopHead_busy, fun head _ => ?_⟩
    split
    · trivial
    · refine Prog.issues_bind.2 ⟨stepDo_issues rfl (fun _ => rfl) validateBody_busy, fun outcome _ => ?_⟩
      split
      · trivial
      · trivial
      · refine Prog.issues_bind.2 ⟨handleFailure_busy _ _ _ rfl, fun recovery _ => ?_⟩
        split
        · trivial
        · exact ih _ _
      · refine Prog.issues_bind.2 ⟨handleFailure_busy _ _ _ rfl, fun recovery _ => ?_⟩
        split
        · trivial
        · exact ih _ _

@[simp] theorem admitActivation_busy (activation : Activation) : BusyService (admitActivation admitted activation) := by
  unfold admitActivation
  refine Prog.issues_ite.2 ⟨fun _ => ?_, fun _ => ?_⟩
  · split <;> simp
  · simp

@[simp] theorem admitAll_busy (frontier : List Activation) : BusyService (admitAll admitted frontier) := by
  induction frontier with
  | nil => trivial
  | cons activation rest ih => simp [admitAll, ih]

@[simp] theorem advanceRemote_busy : BusyService (advanceRemote resume none) := by
  refine Prog.issues_bind.2 ⟨by simp [Busy], fun a _ => ?_⟩
  split <;> simp

@[simp] theorem advanceRemote_steering (authorities : Option (List NodeAuthority)) :
    SteeringService (advanceRemote resume authorities) := by
  refine Prog.issues_bind.2 ⟨by simp [Steering, steering, quiet], fun a _ => ?_⟩
  split <;> simp

@[simp] theorem completeRun_busy (output : String) (url : Option String) :
    BusyService (completeRun stepId output url) := by
  simp [completeRun, Busy, busy, steering, quiet]

@[simp] theorem completeGraph_busy (terminalNodeId output : String) :
    BusyService (completeGraph terminalNodeId output) := by
  refine Prog.issues_bind.2 ⟨getRun_issues, fun durable _ => ?_⟩
  dsimp only
  split <;> simp

@[simp] theorem failedGraph_busy : BusyService failedGraph := by
  simp [failedGraph]

@[simp] theorem endTurn_busy (terminalNodeId : String) (result : AdvanceResult) :
    BusyService (endTurn terminalNodeId result) := by
  unfold endTurn
  split <;> simp

@[simp] theorem clearFailures_busy (failures : ℕ) : BusyService (clearFailures generation failures) := by
  simp [clearFailures]

@[simp] theorem turnStep_steering : SteeringService (turnStep advanceRemote generation resume) := by
  refine Prog.issues_bind.2 ⟨advanceRemote_steering _ _, fun advanced _ => ?_⟩
  split
  · trivial
  · refine Prog.issues_bind.2 ⟨getRun_issues, fun admitted _ => ?_⟩
    refine Prog.issues_ite.2 ⟨fun _ => trivial, fun _ => Prog.issues_bind.2 ⟨steering_service (admitAll_busy _ _),
      fun authorities _ =>
      Prog.issues_bind.2 ⟨advanceRemote_steering _ _, fun advanced _ => ?_⟩⟩⟩
    split <;> simp
  · trivial

@[simp] theorem waitSlices_steering (turn slices slice : ℕ) :
    SteeringService (waitSlices generation turn slices slice) := by
  induction slices generalizing slice with
  | zero => trivial
  | succ slices ih =>
    refine Prog.issues_bind.2 ⟨stepWait_steering _, fun _ _ => Prog.issues_bind.2
      ⟨steering_service (reconcileOrchestrationRace_busy generation), fun status _ => ?_⟩⟩
    split
    · trivial
    · exact ih _

@[simp] theorem settleTurn_steering (run : WorkflowRun) (turn : ℕ) (state : DriverState)
    (result : AdvanceResult) : SteeringService (settleTurn wakes run turn state result) := by
  refine Prog.issues_bind.2 ⟨steering_service (clearFailures_busy _ _), fun status _ => ?_⟩
  split
  · trivial
  · split
    · simp
    · refine Prog.issues_bind.2 ⟨steering_service (waitForApprovalWake_busy _ _ _), fun wake _ => ?_⟩
      split <;> simp
    · refine Prog.issues_bind.2 ⟨waitSlices_steering _ _ _ _, fun status _ => ?_⟩
      split <;> simp
    · trivial
    · trivial
    · simp [steering_service (endTurn_busy _ _)]

@[simp] theorem driverTurn_steering (turn : ℕ) (state : DriverState) :
    SteeringService (driverTurn advanceRemote wakes turn state) := by
  refine Prog.issues_bind.2 ⟨steering_service loopHead_busy, fun head _ => ?_⟩
  split
  · trivial
  · refine Prog.issues_bind.2 ⟨stepDo_issues rfl (fun _ => rfl) (turnStep_steering _ _), fun outcome _ => ?_⟩
    split
    · exact settleTurn_steering _ _ _ _ _
    · refine Prog.issues_bind.2 ⟨steering_service (handleFailure_busy _ _ _ rfl), fun recovery _ => ?_⟩
      split <;> trivial
    · refine Prog.issues_bind.2 ⟨steering_service (handleFailure_busy _ _ _ rfl), fun recovery _ => ?_⟩
      split <;> trivial

@[simp] theorem turnLoop_steering (remaining turn : ℕ) (state : DriverState) :
    SteeringService (turnLoop advanceRemote wakes remaining turn state) := by
  induction remaining generalizing turn state with
  | zero => simp [turnLoop]
  | succ remaining ih =>
    refine Prog.issues_bind.2 ⟨driverTurn_steering _ _ _, fun ended _ => ?_⟩
    split
    · trivial
    · exact ih _ _

/-- **The driver, once attached, steers.** -/
@[simp] theorem executeLangGraphWorkflow_steering : SteeringService (executeLangGraphWorkflow advanceRemote wakes) := by
  refine Prog.issues_bind.2 ⟨steering_service (validationLoop_busy _ _ _), fun status _ => ?_⟩
  split
  · trivial
  · exact turnLoop_steering _ _ _ _

/-! ### Launches -/

/-- A steering request, a statement of a launch, or the manual retry of one of the first nine attempts. -/
@[simp] def launching : Request → Bool
  | .updateRun _ => true
  | .insertAttempts (.manualRetry prior) => prior.attempt < 10
  | q => steering q

def Launching (q : Request) : Prop := launching q

theorem launching_of_steering (h : Steering q) : Launching q := by
  unfold Launching launching
  split
  · rfl
  · cases h
  · exact h

abbrev LaunchService {α : Type} (p : Service α) : Prop := p.Issues Launching

theorem launch_of_steering (h : SteeringService p) : LaunchService p :=
  h.mono launching_of_steering

instance : AdmitsReads Launching := AdmitsReads.mono inferInstance launching_of_steering

@[simp] theorem claimWorkflowLaunch_launch : LaunchService (claimWorkflowLaunch generation instanceId) := by
  unfold claimWorkflowLaunch
  simp only [Prog.issues_bind, Prog.issues_ite, Prog.issues_pure, request, Prog.issues_ask, Prog.issues_done,
    getRun_issues, error, Prog.issues_throw, Launching, launching, implies_true, and_true, true_and]
  refine ⟨rfl, fun now _ _ _ _ detail _ _ _ => ?_⟩
  split
  · trivial
  · split
    · trivial
    · simp [Launching, launching]
  · trivial

@[simp] theorem attachWorkflowInstance_launch : LaunchService (attachWorkflowInstance generation instanceId) := by
  simp [attachWorkflowInstance, error, Launching, launching]

@[simp] theorem createInstance_launch : LaunchService (createInstance generation instanceId) := by
  refine Prog.issues_bind.2 ⟨by simp [Launching, launching, steering, quiet], fun a _ => ?_⟩
  split <;> simp [recordWorkflowLaunchFailure, error, Launching, launching]

@[simp] theorem ensureWorkflowLaunched_launch : LaunchService (ensureWorkflowLaunched generation) := by
  refine Prog.issues_bind.2 ⟨getRun_issues, fun detail _ => Prog.issues_bind.2
    ⟨claimWorkflowLaunch_launch _ _, fun claim _ => ?_⟩⟩
  split <;> simp [error]

@[simp] theorem reconcileWorkflowLaunch_launch : LaunchService (reconcileWorkflowLaunch detail) := by
  unfold reconcileWorkflowLaunch
  split <;> simp

@[simp] theorem prepareManualRetry_launch : LaunchService (prepareManualRetry stepId) :=
  prepareManualRetry_issues (fun prior h => by simp [Launching, launching, h]) (fun _ _ => rfl) stepId

@[simp] theorem retryRun_launch : LaunchService retryRun := by
  refine Prog.issues_bind.2 ⟨getRun_issues, fun detail _ => ?_⟩
  split <;> simp [error]

theorem executeWorkflowRun_launch : LaunchService (executeWorkflowRun advanceRemote wakes instanceId) := by
  simp [executeWorkflowRun, launch_of_steering (executeLangGraphWorkflow_steering wakes)]

/-! ### Node calls -/

/-- A quiet request, or the claim or the start of an attempt. -/
@[simp] def acting : Request → Bool
  | .start _ | .selectLatest _ _ | .updateAttempts (.claim ..) => true
  | q => quiet q

def Acting (q : Request) : Prop := acting q

theorem acting_of_quiet (h : Quiet q) : Acting q := by
  unfold Acting acting
  split <;> first | rfl | exact h

abbrev ActService {α : Type} (p : Service α) : Prop := p.Issues Acting

instance : AdmitsReads Acting := AdmitsReads.mono inferInstance acting_of_quiet

instance : AdmitsResult Acting := ⟨fun _ _ => rfl⟩

instance (key : AttemptKey) : AdmitsCompletion Acting key := AdmitsCompletion.mono inferInstance acting_of_quiet

instance : AdmitsClaims Acting := by constructor <;> intros <;> exact rfl

/-- A turn may retry one of the first two attempts besides. -/
@[simp] def turning : Request → Bool
  | .insertAttempts (.automaticRetry prior _) => prior.attempt < 3
  | q => acting q

def Turning (q : Request) : Prop := turning q

theorem turning_of_acting (h : Acting q) : Turning q := by
  unfold Turning turning
  split
  · cases h
  · exact h

abbrev TurnService {α : Type} (p : Service α) : Prop := p.Issues Turning

instance : AdmitsReads Turning := AdmitsReads.mono inferInstance turning_of_acting

instance : AdmitsResult Turning := ⟨fun _ _ => rfl⟩

instance (key : AttemptKey) : AdmitsCompletion Turning key := AdmitsCompletion.mono inferInstance turning_of_acting

instance : AdmitsClaims Turning := by constructor <;> intros <;> exact rfl

instance : AdmitsRetries Turning := ⟨fun _ _ h => by simp [Turning, turning, h]⟩

theorem executeWorkflowGraphNode_turn : TurnService (executeWorkflowGraphNode depth host scope inputText) := by
  have hprepared : ∀ detail a, TurnService (prepared host detail scope a) := fun detail a =>
    prepared_issues (fun _ => rfl) host detail scope
  refine Prog.issues_bind.2 ⟨getRun_issues, fun detail _ => ?_⟩
  split
  · simp [agentNode, hprepared]
  · trivial

/-! ### Interleavings -/

namespace System

/-- Who acts on a run. -/
inductive Client
  | launch (generation : ℕ)
  | reconcileLaunch
  | cancel
  | approve (requestId : String)
  | retry
  | driver (wakes : ℕ) (instanceId : String)
  | node (depth : ℕ) (host : NodeHost) (scope : NodeAuthority) (inputText : String)

def Client.service : Client → Service Unit
  | .launch generation => (ensureWorkflowLaunched generation).forget
  | .reconcileLaunch => getRun >>= reconcileWorkflowLaunch
  | .cancel => requestCancellation.forget
  | .approve requestId => (Storage.approve requestId).forget
  | .retry => retryRun.forget
  | .driver wakes instanceId => (executeWorkflowRun advanceRemote wakes instanceId).forget
  | .node depth host scope inputText => (executeWorkflowGraphNode depth host scope inputText).forget

/-- A client sets out, or one under way issues its next request. -/
abbrev Move := Interleave.Move machine Client.service

/-- The clients under way and what they did, after the moves. -/
abbrev after (w : World) (moves : List Move) : Services := (Pool.init w).run (moves.map Move.action)

theorem after_concat (w : World) (moves : List Move) (m : Move) : after w (moves ++ [m]) = (after w moves).step m.action :=
  run_moves_concat _ moves m

/-- Thread `t` issues its next `n` requests. -/
abbrev runs (t n : ℕ) (env : Env) : List Move := Interleave.runs t n env

/-- The request a move issues. -/
abbrev asks (pool : Services) (m : Move) : Option Request := Interleave.asks pool m

theorem generation_answer (env : Env) (w : World) (q : Request) :
    (answer env q w).2.db.run.workflowGeneration = w.db.run.workflowGeneration ∨
    ∃ stepId generation, q = .updateRun (.manualRetry stepId generation) ∧
      (RunUpdate.manualRetry stepId generation).guard w.db = true := by
  rcases run_cases (answer_effect env w q) with hrun | ⟨u, hg, hset, hq | ⟨requestId, _, rfl, _⟩⟩
  · exact .inl (by rw [hrun])
  · subst hq
    cases u
    case manualRetry stepId generation => exact .inr ⟨stepId, generation, rfl, hg⟩
    all_goals exact .inl (by rw [hset]; rfl)
  · exact .inl (by rw [hset]; rfl)

theorem generation_move (pool : Services) (m : Move) :
    (pool.step m.action).world.db.run.workflowGeneration = pool.world.db.run.workflowGeneration ∨
    ∃ t env stepId generation, m = .run t env ∧ asks pool m = some (.updateRun (.manualRetry stepId generation)) ∧
      (RunUpdate.manualRetry stepId generation).guard pool.world.db = true := by
  rcases step_cases pool m with ⟨hw, -⟩ | ⟨t, env, q, next, hm, -, hq, hstep⟩
  · exact .inl (by rw [hw])
  · rw [hstep]
    rcases generation_answer env pool.world q with hgen | ⟨stepId, generation, rfl, hg⟩
    · exact .inl hgen
    · exact .inr ⟨t, env, stepId, generation, hm, hq, hg⟩

theorem snapshot_stays (env : Env) (w : World) (q : Request) :
    (answer env q w).2.db.run.snapshot = w.db.run.snapshot := by
  rcases run_cases (answer_effect env w q) with hrun | ⟨u, -, hset, -⟩
  · rw [hrun]
  · rw [hset]
    cases u <;> rfl

theorem client_launches (c : Client) (hc : ∀ depth host scope inputText, c ≠ .node depth host scope inputText) :
    LaunchService c.service := by
  rcases c with _ | _ | _ | _ | _ | _ | ⟨depth, host, scope, inputText⟩
  case node => exact absurd rfl (hc depth host scope inputText)
  all_goals
    simp [Client.service, Prog.forget, launch_of_steering (approve_steering _),
      executeWorkflowRun_launch]

theorem client_issues (c : Client) : c.service.Issues fun q => Launching q ∨ Turning q := by
  by_cases hc : ∃ depth host scope inputText, c = .node depth host scope inputText
  · obtain ⟨depth, host, scope, inputText, rfl⟩ := hc
    refine Prog.Issues.mono (P := Turning) ?_ fun _ => .inr
    simp [Client.service, Prog.forget, executeWorkflowGraphNode_turn]
  · exact (client_launches c fun d h s i heq => hc ⟨d, h, s, i, heq⟩).mono fun _ => .inl

/-- The provider refuses the agent's request. -/
def refusingEnv (now : Time) : Env :=
  { admittingEnv now with start := fun _ => .error (.withCategory "no" .providerRejected) }

/-- Nothing is managed, and nothing fails. -/
def plainHost : NodeHost := ⟨false, false, false, .ok (), .ok none, .error (.error "none"), .ok ()⟩

/-- The call for an attempt of the agent node. -/
def sampleCall (generation attempt : ℕ) : Client :=
  .node 2 plainHost ⟨⟨"a", "x"⟩, generation, 1, attempt⟩ "go"

/-- The run is launched and its agent node admitted; the driver is asleep while the graph is pending. -/
def admittedRun : List Move :=
  .client (.launch 1) :: runs 0 6 (admittingEnv 5) ++ .client (.driver 1 "run-g1") :: runs 1 28 (admittingEnv 5)

end System

end ADT.Durable
