import ADT.Lib.Interleave
import ADT.Storage.Statements

/-!
# Storage.World — the requests of the services and the world that answers them

The services read and write the database one statement at a time and call what is outside of them: the clock,
the provider runtimes, the binding that creates workflow instances, the durable steps of an instance, and the
graph of the ADT Runtime.  What the outside answers is an `Env`, free at every request.
-/

namespace ADT.Storage

open Interleave

inductive TransportOutcome
  | responseReceived | timeout | networkError

inductive TransportReason
  | crossRequestIo | platformSubrequestLimit | invalidRequestContext | networkConnectionLost | aborted
  | fetchTypeError | unknown
  deriving DecidableEq

structure ProviderTransportDiagnostics where
  elapsedMs : Time
  outcome : TransportOutcome
  reason : Option TransportReason

/-- A thrown error; `category` is `none` where the error carries no known category. -/
structure Thrown where
  message : String
  category : Option FailureCategory
  safeMessage : Option String
  retryable : Option Bool
  transportDiagnostics : Option ProviderTransportDiagnostics

/-- `new Error(message)` -/
def Thrown.error (message : String) : Thrown := ⟨message, none, none, none, none⟩

def Thrown.withCategory (message : String) (category : FailureCategory) : Thrown :=
  ⟨message, some category, none, none, none⟩

/-! ### Providers -/

/-- What is sent to a provider runtime. -/
structure AdapterInvocation where
  key : AttemptKey
  idempotencyKey : String
  providerPollCount : ℕ
  inputText : String
  adapter : String
  providerState : Option String
  outputText : Option String
  conversationRef : Option String
  deriving DecidableEq

/-- Urls stand as `safeExternalUrl` leaves them, delays are rounded. -/
inductive AdapterState
  | pending (taskId : String) (pollAfterMs : Option ℤ) (providerState outputText taskUrl : Option String)
  | completed (outputText : String) (externalUrl : Option String)

structure AdapterResult where
  state : AdapterState
  transportDiagnostics : Option ProviderTransportDiagnostics

inductive CheckResult
  | pending (pollAfterMs : Option ℤ) (providerState outputText : Option String)
  | completed (outputText : String) (externalUrl : Option String)
  | failed (failure : StepFailure)

/-- What `resolveConnection` finds for a connection key. -/
structure LiveConnection where
  enabled : Bool
  adapter : String

/-- Why the binding created no instance. -/
inductive BindingFailure
  | duplicate | unavailable

/-! ### The graph of the ADT Runtime -/

/-- An approval interrupt: one visit of an Approval node. -/
structure Interrupt where
  interruptId : String
  nodeId : String
  activationId : String
  message : String
  text : String
  deriving DecidableEq

structure ApprovalResume where
  requestId : String
  interruptId : String
  deriving DecidableEq

/-- The checkpointed graph of the run: the interrupt it stands at, every interrupt it raised, and the
resumes it took. -/
structure Graph where
  pending : Option Interrupt
  raised : List Interrupt
  resumed : List (Interrupt × ApprovalResume)

/-- A graph that stands at no interrupt may raise one; its task, and so its ids, are new. -/
def Graph.raise (g : Graph) (i : Interrupt) : Graph :=
  if g.pending.isNone && g.raised.all (fun j => j.activationId != i.activationId && j.interruptId != i.interruptId)
  then { g with pending := some i, raised := i :: g.raised }
  else g

/-- `graph.invoke(new Command({resume:true}))`: it resumes the interrupt the graph stands at. -/
def Graph.resume (g : Graph) (r : ApprovalResume) : Graph :=
  match g.pending with
  | some i => { g with pending := none, resumed := (i, r) :: g.resumed }
  | none => g

structure Activation where
  nodeId : String
  activationId : String
  deriving DecidableEq

/-- `LangGraphAdvanceResult`; an approval result may miss a field. -/
inductive AdvanceResult
  | admissionRequired (frontier : List Activation)
  | approvalRequired (interrupt : Option Interrupt)
  | advanced
  | completed (outputText : String)
  | pending (retryAfterMs : Option Time)
  | failed
  | cancelled
  | executionLimit
  | graphFailure (failureCode : Option FailureCategory) (safeMessage : Option String)
  deriving DecidableEq

/-- `DurableRuntimeFailure` -/
structure RuntimeFailure where
  category : FailureCategory
  safeMessage : String
  runtimeCode : Option String
  transportReason : Option TransportReason
  deriving DecidableEq

/-- A call of the ADT Runtime fails with a `RemoteRuntimeFailure` or with any other error. -/
inductive RemoteError
  | runtime (failure : RuntimeFailure)
  | thrown

/-- The authority of one node turn. -/
structure NodeAuthority where
  activation : Activation
  workflowGeneration : ℕ
  iteration : ℕ
  attempt : ℕ
  deriving DecidableEq

/-- The names of the durable steps of an instance, by their parts. -/
inductive StepName
  | validation (generation attempt : ℕ)
  | validationRecovery (generation attempt : ℕ)
  | turn (generation turn : ℕ)
  | recovery (generation turn : ℕ)
  | wait (generation turn slice : ℕ)
  | approvalWait (requestId : String) (occurrence : ℕ)
  deriving DecidableEq

/-- What a durable step left: its value as the parsers read it, or that it threw. -/
inductive StepOutcome
  | threw
  | malformed
  | validated
  | result (r : AdvanceResult)
  | runtimeFailure (failure : RuntimeFailure)
  | elapsed
  deriving DecidableEq

/-! ### Requests -/

inductive Request
  | selectRun
  | selectAttempts
  | selectLatest (stepId : String) (activationId : Option String)
  | selectAttempt (key : AttemptKey)
  | updateRun (u : RunUpdate)
  | updateAttempts (u : AttemptUpdate)
  | insertAttempts (i : AttemptInsert)
  | findApproval (generation : ℕ) (activationId : String)
  | getApproval (requestId : String)
  | insertApproval (a : WorkflowApproval)
  | approve (requestId : String) (now : Time)
  | consume (requestId : String) (now : Time)
  | suspendedMs
  | now
  | randomUUID
  | resolveConnection (connectionKey : String)
  | resolveRuntime (adapter : String)
  | start (call : AdapterInvocation)
  | check (taskId : Option String) (call : AdapterInvocation)
  | cancel (taskId : String) (call : AdapterInvocation)
  | createInstance (id : String)
  | recall (name : StepName)
  | record (name : StepName) (outcome : StepOutcome)
  | validateLangGraph
  | advanceLangGraph (resume : Option ApprovalResume) (authorities : Option (List NodeAuthority))
  | graphState
  | graphResume (r : ApprovalResume)
  | graphInvoke
  deriving DecidableEq

@[reducible] def Answer : Request → Type
  | .selectRun => WorkflowRun
  | .selectAttempts => List StepAttempt
  | .selectLatest _ _ | .selectAttempt _ => Option StepAttempt
  | .updateRun _ | .updateAttempts _ => Bool
  | .insertAttempts _ => Option Bool
  | .findApproval _ _ | .getApproval _ => Option WorkflowApproval
  | .insertApproval _ => Option Bool
  | .approve _ _ => Bool
  | .consume _ _ => Bool × Bool
  | .suspendedMs | .now => Time
  | .randomUUID => String
  | .resolveConnection _ => Except Thrown LiveConnection
  | .resolveRuntime _ => Bool
  | .start _ => Except Thrown AdapterResult
  | .check _ _ => Except Thrown CheckResult
  | .cancel _ _ => Except Thrown CancellationResult
  | .createInstance _ => Except BindingFailure Unit
  | .recall _ => Option StepOutcome
  | .record _ _ => StepOutcome
  | .validateLangGraph => Except RemoteError Unit
  | .advanceLangGraph _ _ => Except RemoteError AdvanceResult
  | .graphState => Option Interrupt
  | .graphResume _ => Unit
  | .graphInvoke => Unit

@[reducible] def signature : Signature := ⟨Request, Answer⟩

/-- A service: it throws a `Thrown`. -/
abbrev Service := Prog signature Thrown

structure World where
  db : Database
  durable : List (StepName × StepOutcome)
  graph : Graph

/-- The answers of the outside. -/
structure Env where
  now : Time
  uuid : String
  live : String → Except Thrown LiveConnection
  runtime : String → Bool
  start : AdapterInvocation → Except Thrown AdapterResult
  check : Option String → AdapterInvocation → Except Thrown CheckResult
  cancel : String → AdapterInvocation → Except Thrown CancellationResult
  create : String → Except BindingFailure Unit
  validate : Except RemoteError Unit
  advance : Option ApprovalResume → Option (List NodeAuthority) → Except RemoteError AdvanceResult
  raises : Option Interrupt

namespace World

variable (w : World)

def withDb {α : Type} (r : α × Database) : α × World := (r.1, { w with db := r.2 })

/-- What a durable step left, if it was completed. -/
def recalled (name : StepName) : Option StepOutcome :=
  (w.durable.find? (·.1 == name)).map (·.2)

/-- A step is completed once; a later outcome is dropped. -/
def recorded (name : StepName) (outcome : StepOutcome) : World :=
  if (w.recalled name).isSome then w else { w with durable := w.durable ++ [(name, outcome)] }

end World

def answer (env : Env) : (q : Request) → World → Answer q × World
  | .selectRun, w => (w.db.run, w)
  | .selectAttempts, w => (w.db.orderedAttempts, w)
  | .selectLatest stepId activationId, w => (w.db.latestAttempt stepId activationId, w)
  | .selectAttempt key, w => (w.db.attempt key, w)
  | .updateRun u, w => w.withDb (w.db.updateRun u)
  | .updateAttempts u, w => w.withDb (w.db.updateAttempts u)
  | .insertAttempts i, w => w.withDb (w.db.insertAttempts i)
  | .findApproval generation activationId, w => (w.db.approvalOf generation activationId, w)
  | .getApproval requestId, w => (w.db.approval requestId, w)
  | .insertApproval a, w => w.withDb (w.db.insertApproval a)
  | .approve requestId now, w => w.withDb (w.db.approve requestId now)
  | .consume requestId now, w => w.withDb (w.db.consume requestId now)
  | .suspendedMs, w => (w.db.suspendedMs env.now, w)
  | .now, w => (env.now, w)
  | .randomUUID, w => (env.uuid, w)
  | .resolveConnection key, w => (env.live key, w)
  | .resolveRuntime adapter, w => (env.runtime adapter, w)
  | .start call, w => (env.start call, w)
  | .check taskId call, w => (env.check taskId call, w)
  | .cancel taskId call, w => (env.cancel taskId call, w)
  | .createInstance id, w => (env.create id, w)
  | .recall name, w => (w.recalled name, w)
  | .record name outcome, w => ((w.recalled name).getD outcome, w.recorded name outcome)
  | .validateLangGraph, w => (env.validate, w)
  | .advanceLangGraph resume authorities, w => (env.advance resume authorities, w)
  | .graphState, w => (w.graph.pending, w)
  | .graphResume r, w => ((), { w with graph := w.graph.resume r })
  | .graphInvoke, w =>
    ((), match env.raises with
      | some i => { w with graph := w.graph.raise i }
      | none => w)

@[reducible] def machine : Machine signature := ⟨World, Env, answer⟩

abbrev Services := Pool machine Thrown

@[simp] def request (q : Request) : Service (Answer q) :=
  .ask q .done

/-! ### A run to look at -/

def sampleSnapshot : RunSnapshot where
  id := "run"
  initialInput := "go"
  createdAt := 0
  executionPlan := ⟨[⟨"a", .agentV1 "agent"⟩], [], "a", "a", 8⟩
  agentSnapshots := [⟨"agent", "key", none⟩]
  connectionSnapshots := [("key", "test")]

/-- It was launched and waits for its first step. -/
def sampleRun : WorkflowRun where
  snapshot := sampleSnapshot
  status := .queued
  currentStepId := some "a"
  workflowGeneration := 1
  workflowLaunchState := .attached
  workflowInstanceId := some "run-g1"
  reservedWorkflowInstanceId := some "run-g1"
  workflowLaunchAttemptedAt := some 0
  cancelRequestedAt := none
  cancellationResult := none
  failureCode := none
  failureMessage := none
  finalOutput := none
  finalExternalUrl := none

/-- A run as `createRun` leaves it. -/
def createdRun (snapshot : RunSnapshot) : World where
  db := ⟨{ sampleRun with
    snapshot
    currentStepId := some snapshot.executionPlan.entryNodeId
    workflowLaunchState := .unclaimed
    workflowInstanceId := none
    reservedWorkflowInstanceId := none
    workflowLaunchAttemptedAt := none }, [], []⟩
  durable := []
  graph := ⟨none, [], []⟩

/-- Its agent node was admitted for the activation `x`. -/
def sampleWorld : World where
  db := ⟨sampleRun, [StepAttempt.fresh ⟨"a", 1, 1⟩ (some "x") "agent" "key"], []⟩
  durable := []
  graph := ⟨none, [], []⟩

/-- Everything outside is available; a provider answers at once. -/
def sampleEnv (now : Time) : Env where
  now
  uuid := "request"
  live := fun _ => .ok ⟨true, "test"⟩
  runtime := fun _ => true
  start := fun _ => .ok ⟨.completed "done" none, none⟩
  check := fun _ _ => .ok (.completed "done" none)
  cancel := fun _ _ => .ok .cancelled
  create := fun _ => .ok ()
  validate := .ok ()
  advance := fun _ _ => .ok .advanced
  raises := none

/-- The provider takes its time. -/
def pendingEnv (now : Time) : Env :=
  { sampleEnv now with start := fun _ => .ok ⟨.pending "task" none none none none, none⟩ }

/-- The graph asks for the agent node; its provider takes its time. -/
def admittingEnv (now : Time) : Env :=
  { pendingEnv now with
    advance := fun _ authorities => .ok (if authorities.isNone then .admissionRequired [⟨"a", "x"⟩] else .pending none) }

end ADT.Storage
