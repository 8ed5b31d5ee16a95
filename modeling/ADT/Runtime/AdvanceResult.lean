import ADT.Runtime.Advance
import ADT.Runtime.Delivery

/-!
# Runtime.AdvanceResult — what an advance returns

`advanceGenericGraph` of `adt-runtime/src/langgraph.ts` with the graph library as a parameter: a turn looks at the
checkpoint, runs the graph at most once, and returns or begins again.

* `received_toJson_iff`: which results the client and the durable step take.
* `results_agree_iff`: a call's result is taken if and only if what its last turn finds fits.
-/

namespace ADT.Runtime

open Workflow

/-! ### Results -/

def NodeState.label : NodeState → String
  | pending => "pending"
  | failed => "failed"
  | cancelled => "cancelled"

/-- A task of the frontier. -/
structure Activation where
  nodeId : String
  activationId : String

/-- The key of a task in the map of authorities. -/
def Activation.key (a : Activation) : String := a.nodeId ++ ":" ++ a.activationId

structure Approval where
  interruptId : String
  nodeId : String
  activationId : String
  message : String
  text : String

/-- The failures of a graph an advance reports. -/
inductive GraphFailure
  | frontier | join | context | state

def GraphFailure.failureCode : GraphFailure → String
  | frontier => "configuration_invalid"
  | _ => "output_too_large"

def GraphFailure.safeMessage : GraphFailure → String
  | frontier => "The graph frontier exceeds the supported concurrency bound."
  | join => "Join output exceeds the allowed size."
  | context => "Selected Workflow context exceeds the Agent input limit"
  | state => "Workflow context exceeds the safe checkpoint state limit"

inductive AdvanceResult
  | approvalRequired (approval : Approval)
  | graphFailure (failure : GraphFailure)
  | executionLimit
  | admissionRequired (frontier : List Activation)
  | completed (outputText : String)
  | advanced (outputText : Option String) (frontier : List Activation)
  | node (state : NodeState) (safeMessage : Option String) (retryAfterMs : Option ℤ)

def Activation.toJson (a : Activation) : Json := .obj [("nodeId", .str a.nodeId), ("activationId", .str a.activationId)]

def executionLimitMessage : String := "The workflow execution limit was reached."

/-- The result in the answer: fields that are `undefined` are left out. -/
def AdvanceResult.toJson : AdvanceResult → Json
  | .approvalRequired a => .obj [("state", .str "approval_required"), ("interruptId", .str a.interruptId),
      ("nodeId", .str a.nodeId), ("activationId", .str a.activationId), ("message", .str a.message),
      ("text", .str a.text)]
  | .graphFailure f => .obj [("state", .str "graph_failure"), ("failureCode", .str f.failureCode),
      ("safeMessage", .str f.safeMessage)]
  | .executionLimit => .obj [("state", .str "execution_limit"), ("safeMessage", .str executionLimitMessage)]
  | .admissionRequired frontier => .obj [("state", .str "admission_required"),
      ("frontier", .arr (frontier.map Activation.toJson))]
  | .completed outputText => completedResult outputText
  | .advanced outputText frontier => .obj (("state", .str "advanced") ::
      (outputText.elim [] fun text => [("outputText", .str text)]) ++
      [("frontier", .arr (frontier.map Activation.toJson))])
  | .node state safeMessage retryAfterMs => .obj (("state", .str state.label) ::
      (safeMessage.elim [] fun message => [("safeMessage", .str message)]) ++
      (retryAfterMs.elim [] fun delay => [("retryAfterMs", .num delay)]))

/-! ### The graph library -/

/-- An error that `execute` threw, and the gateway call it came from. -/
structure ExecuteError where
  call : GatewayCall
  error : NodeError
  thrown : callOutcome parseWire call = .error error

/-- What running the graph throws: the error of a node, another `Error`, an `AggregateError`, or anything else. -/
inductive GraphError
  | execute (e : ExecuteError)
  | error (message : String)
  | aggregate (message : String) (errors : List GraphError)
  | other

/-- An interrupt of a task; its value is kept where it is an approval. -/
structure Interrupt where
  id : Option String
  value : Option (String × String × String × String)

structure Task where
  id : String
  name : String
  finished : Bool
  interrupts : List Interrupt := []

structure Snapshot where
  values : GraphState
  next : List String
  tasks : List Task

inductive GraphInput
  | initial (initialInput : String)
  | resume
  | proceed

/-- The compiled graph over a checkpoint store: the pending writes of the latest checkpoint, its snapshot, and a run. -/
structure GraphLibrary (S : Type) where
  getTuple : S → Option (List (String × String))
  getState : S → Snapshot
  invoke : GraphInput → S → S × Except GraphError GraphState

structure GraphExecutionRequest where
  plan : ExecutionPlan
  initialInput : String
  approvalResume : Option String
  authorities : Option (List Activation)

/-! ### A turn -/

/-- `pendingApproval`; an interrupt without an id is known by its activation. -/
def pendingApproval (snapshot : Snapshot) : Except GraphError (Option Approval) :=
  let values := (snapshot.tasks.flatMap (·.interrupts)).filterMap fun item =>
    item.value.map fun (nodeId, activationId, message, text) =>
      ({ interruptId := item.id.getD activationId, nodeId, activationId, message, text } : Approval)
  if values.length > 1 then .error (.error "multiple_approval_interrupts") else .ok values.head?

mutual

def graphErrorIncludes (message : String) : GraphError → Bool
  | .execute e => e.error.message == message
  | .error m => m == message
  | .aggregate m errors => m == message || anyIncludes message errors
  | .other => false

def anyIncludes (message : String) : List GraphError → Bool
  | [] => false
  | e :: es => graphErrorIncludes message e || anyIncludes message es

end

/-- `error instanceof Error && error.message.includes("execution_limit")` -/
def isExecutionLimit : GraphError → Bool
  | .execute e => decide ("execution_limit".toList <:+: e.error.message.toList)
  | .error m => decide ("execution_limit".toList <:+: m.toList)
  | .aggregate m _ => decide ("execution_limit".toList <:+: m.toList)
  | .other => false

/-- The errors of a run that are results. -/
def caught (e : GraphError) : Except GraphError AdvanceResult :=
  if isExecutionLimit e then .ok .executionLimit
  else if graphErrorIncludes "join_output_too_large" e then .ok (.graphFailure .join)
  else if graphErrorIncludes "agent_context_too_large" e then .ok (.graphFailure .context)
  else if graphErrorIncludes "context_graph_state_too_large" e then .ok (.graphFailure .state)
  else .error e

def byNodeAndActivation (a b : Activation) : Prop :=
  a.nodeId < b.nodeId ∨ a.nodeId = b.nodeId ∧ a.activationId ≤ b.activationId

instance : DecidableRel byNodeAndActivation := fun a b =>
  inferInstanceAs (Decidable (a.nodeId < b.nodeId ∨ a.nodeId = b.nodeId ∧ a.activationId ≤ b.activationId))

/-- The agents' tasks that have neither a result nor a pending write that is no error. -/
def frontierOf (plan : ExecutionPlan) (snapshot : Snapshot) (pendingWrites : List (String × String)) :
    List Activation :=
  let successfulTaskIds := (pendingWrites.filter (·.2 != "__error__")).map (·.1)
  ((snapshot.tasks.filter fun task => isAgent plan task.name && !task.finished && !successfulTaskIds.contains task.id).map
    fun task => { nodeId := task.name, activationId := task.id }).insertionSort byNodeAndActivation

/-- The agents' tasks without a result. -/
def remainingOf (plan : ExecutionPlan) (snapshot : Snapshot) : List Activation :=
  (snapshot.tasks.filter fun task => isAgent plan task.name && !task.finished).map
    fun task => { nodeId := task.name, activationId := task.id }

/-- A turn returns or throws, or begins the next one. -/
inductive Turn (S : Type)
  | again (request : GraphExecutionRequest) (s : S)
  | done (outcome : Except GraphError AdvanceResult)

section

variable {S : Type} (lib : GraphLibrary S)

/-- A call without authorities begins a thread that has no checkpoint. -/
def opened (request : GraphExecutionRequest) (s : S) : Except GraphError S :=
  if request.authorities = none ∧ lib.getTuple s = none then
    match lib.invoke (.initial request.initialInput) s with
    | (s', .ok _) => .ok s'
    | (_, .error e) => .error e
  else .ok s

def inspect (request : GraphExecutionRequest) (s : S) (approval : Option Approval) (frontier : List Activation) :
    Turn S :=
  let snapshot := lib.getState s
  match approval with
  | some approval =>
    match request.approvalResume with
    | some interruptId =>
      if interruptId ≠ approval.interruptId then .done (.ok (.approvalRequired approval))
      else
        match lib.invoke .resume s with
        | (s', .ok _) => .again { request with approvalResume := none } s'
        | (_, .error e) => .done (.error e)
    | none => .done (.ok (.approvalRequired approval))
  | none =>
    if frontier.length > maxGraphFrontier then .done (.ok (.graphFailure .frontier))
    else if snapshot.values.executions + frontier.length > request.plan.maxStepExecutions then
      .done (.ok .executionLimit)
    else if frontier ≠ [] then .done (.ok (.admissionRequired frontier))
    else if snapshot.next = [] then
      .done (.ok (.completed ((latestOutput snapshot.values.outputs request.plan.terminalNodeId).getD "")))
    else if snapshot.values.executions + snapshot.tasks.length > request.plan.maxStepExecutions then
      .done (.ok .executionLimit)
    else
      match lib.invoke .proceed s with
      | (s', .ok _) => .again request s'
      | (_, .error e) => .done (caught e)

/-- A call with the authorities of the frontier. -/
def runFrontier (plan : ExecutionPlan) (authorities : List Activation) (s : S) (frontier : List Activation) :
    Except GraphError AdvanceResult :=
  let keys := (authorities.map Activation.key).dedup
  if keys.length ≠ frontier.length ∨ ¬∀ item ∈ frontier, item.key ∈ keys then
    .error (.error "graph_node_gateway_invalid")
  else
    match lib.invoke .proceed s with
    | (s', .ok values) =>
      let after := lib.getState s'
      match pendingApproval after with
      | .error e => caught e
      | .ok (some approval) => .ok (.approvalRequired approval)
      | .ok none =>
        let remaining := remainingOf plan after
        let outputText := latestOutput values.outputs plan.terminalNodeId
        if remaining ≠ [] then .ok (.advanced outputText remaining) else .ok (.completed (outputText.getD ""))
    | (_, .error (.execute e)) =>
      match e.error with
      | .nodePending state safeMessage retryAfterMs => .ok (.node state safeMessage retryAfterMs)
      | .gatewayFailure _ _ _ => caught (.execute e)
    | (_, .error e) => caught e

def turn (request : GraphExecutionRequest) (s : S) : Turn S :=
  match opened lib request s with
  | .error e => .done (.error e)
  | .ok s =>
    match pendingApproval (lib.getState s) with
    | .error e => .done (.error e)
    | .ok approval =>
      let frontier := frontierOf request.plan (lib.getState s) ((lib.getTuple s).getD [])
      match request.authorities with
      | none => inspect lib request s approval frontier
      | some authorities => .done (runFrontier lib request.plan authorities s frontier)

/-- `advanceGenericGraph`, with a bound on its turns. -/
def advanceGenericGraph : ℕ → GraphExecutionRequest → S → Option (Except GraphError AdvanceResult)
  | 0, _, _ => none
  | n + 1, request, s =>
    match turn lib request s with
    | .again request' s' => advanceGenericGraph n request' s'
    | .done outcome => some outcome

/-- The request and the checkpoint the last turn of a call begins with. -/
def lastTurn : ℕ → GraphExecutionRequest → S → Option (GraphExecutionRequest × S)
  | 0, _, _ => none
  | n + 1, request, s =>
    match turn lib request s with
    | .again request' s' => lastTurn n request' s'
    | .done _ => some (request, s)

end

/-- Both checks take the ids of the task. -/
def Activation.Fits (a : Activation) : Prop := isIdentifier a.nodeId = true ∧ isIdentifier a.activationId = true

/-- A text of at least one and at most `max` UTF-16 units. -/
def Bounded (s : String) (max : ℕ) : Prop := 1 ≤ utf16Length s ∧ utf16Length s ≤ max

structure Approval.Fits (a : Approval) : Prop where
  nodeId : Bounded a.nodeId 256
  activationId : Bounded a.activationId 256
  interruptId : Bounded a.interruptId 256
  message : Bounded a.message 2000
  trimmed : trim a.message = a.message
  text : byteLength a.text ≤ maxOutputBytes
  response : escapedLength a.interruptId + escapedLength a.nodeId + escapedLength a.activationId +
    escapedLength a.message + escapedLength a.text + 155 ≤ maxResponseBytes

/-- An output in a completed result. -/
def OutputFits (outputText : String) : Prop :=
  byteLength outputText ≤ maxOutputBytes ∧ escapedLength outputText + 93 ≤ maxResponseBytes

/-- A frontier with the output so far. -/
structure FrontierFits (outputText : Option String) (frontier : List Activation) : Prop where
  ids : ∀ a ∈ frontier, a.Fits
  width : frontier.length ≤ maxGraphFrontier
  output : ∀ text, outputText = some text → byteLength text ≤ maxOutputBytes
  response : ∀ text, outputText = some text → escapedLength text +
    (frontier.map fun a => escapedLength a.nodeId + escapedLength a.activationId + 32).sum + 105 ≤ maxResponseBytes

def AdvanceResult.Fits : AdvanceResult → Prop
  | .approvalRequired approval => approval.Fits
  | .graphFailure _ | .executionLimit => True
  | .admissionRequired frontier => FrontierFits none frontier
  | .completed outputText => OutputFits outputText
  | .advanced outputText frontier => FrontierFits outputText frontier
  | .node _ safeMessage retryAfterMs => (∀ message, safeMessage = some message → byteLength message ≤ maxSafeMessageBytes) ∧
      ∀ delay, retryAfterMs = some delay → 1000 ≤ delay ∧ delay ≤ 900000

/-! ### Which results are taken -/

theorem boundedProtocolString_iff (s : String) (max : ℕ) :
    boundedProtocolString (some (.str s)) max = true ↔ Bounded s max := by
  show (decide (1 ≤ utf16Length s) && decide (utf16Length s ≤ max)) = true ↔ _
  rw [Bool.and_eq_true, decide_eq_true_eq, decide_eq_true_eq, Bounded]

variable (frontier : List Activation) (counts : DurableRuntimeRequestCounts) {state : String} {r : AdvanceResult}

theorem distinct_activations : (Json.arr (frontier.map Activation.toJson)).distinct = true := by
  rw [Json.distinct_arr]
  intro j hj
  obtain ⟨a, -, rfl⟩ := List.mem_map.mp hj
  rw [Activation.toJson, Json.distinct_obj]
  refine ⟨by show ["nodeId", "activationId"].Nodup; decide, fun f hf => ?_⟩
  simp only [List.mem_cons, List.not_mem_nil, or_false] at hf
  rcases hf with rfl | rfl
  · rfl
  · rfl

theorem received_approval (a : Approval) :
    received counts (AdvanceResult.approvalRequired a).toJson = some (AdvanceResult.approvalRequired a).toJson ↔
      a.Fits := by
  have hdistinct : (AdvanceResult.approvalRequired a).toJson.distinct = true := by
    rw [AdvanceResult.toJson, Json.distinct_obj]
    refine ⟨?_, fun f hf => ?_⟩
    · show ["state", "interruptId", "nodeId", "activationId", "message", "text"].Nodup
      decide
    · simp only [List.mem_cons, List.not_mem_nil, or_false] at hf
      rcases hf with rfl | rfl | rfl | rfl | rfl | rfl
      · rfl
      · rfl
      · rfl
      · rfl
      · rfl
      · rfl
  have haccepted : acceptedResult (AdvanceResult.approvalRequired a).toJson = true ↔ Bounded a.nodeId 256 ∧
      Bounded a.activationId 256 ∧ Bounded a.interruptId 256 ∧ Bounded a.message 2000 ∧ trim a.message = a.message ∧
      byteLength a.text ≤ maxOutputBytes := by
    show (validApprovalResult (AdvanceResult.approvalRequired a).toJson && true && true && true && true) = true ↔ _
    rw [Bool.and_true, Bool.and_true, Bool.and_true, Bool.and_true]
    show (boundedProtocolString (some (.str a.nodeId)) 256 && boundedProtocolString (some (.str a.activationId)) 256 &&
      boundedProtocolString (some (.str a.interruptId)) 256 && boundedProtocolString (some (.str a.message)) 2000 &&
      (trim a.message == a.message) && decide (byteLength a.text ≤ maxOutputBytes)) = true ↔ _
    simp only [Bool.and_eq_true, boundedProtocolString_iff, beq_iff_eq, decide_eq_true_eq, and_assoc]
  have hvalid : validResult (AdvanceResult.approvalRequired a).toJson = true := rfl
  have hsize : byteLength (runtimeResponse (AdvanceResult.approvalRequired a).toJson) = escapedLength a.interruptId +
      escapedLength a.nodeId + escapedLength a.activationId + escapedLength a.message + escapedLength a.text + 155 := by
    have hobj := Json.size_obj ("state", .str "approval_required") [("interruptId", .str a.interruptId),
      ("nodeId", .str a.nodeId), ("activationId", .str a.activationId), ("message", .str a.message), ("text", .str a.text)]
    have hkeys : escapedLength "state" = 5 ∧ escapedLength "interruptId" = 11 ∧ escapedLength "nodeId" = 6 ∧
        escapedLength "activationId" = 12 ∧ escapedLength "message" = 7 ∧ escapedLength "text" = 4 ∧
        escapedLength "approval_required" = 17 := by decide
    simp only [List.map_cons, List.map_nil, List.sum_cons, List.sum_nil, Json.size_str, hkeys] at hobj
    rw [size_runtimeResponse, AdvanceResult.toJson]
    rw [Json.size] at hobj
    omega
  rw [received_iff hdistinct, haccepted, hsize]
  constructor
  · rintro ⟨hresponse, ⟨hnode, hactivation, hinterrupt, hmessage, htrimmed, htext⟩, -⟩
    exact ⟨hnode, hactivation, hinterrupt, hmessage, htrimmed, htext, hresponse⟩
  · rintro ⟨hnode, hactivation, hinterrupt, hmessage, htrimmed, htext, hresponse⟩
    exact ⟨hresponse, ⟨hnode, hactivation, hinterrupt, hmessage, htrimmed, htext⟩, hvalid⟩

theorem received_completed (outputText : String) :
    received counts (completedResult outputText) = some (completedResult outputText) ↔ OutputFits outputText := by
  constructor
  · intro hreceived
    have hvalid := ((received_iff (distinct_completedResult outputText) counts).mp hreceived).2.2
    have houtput : byteLength outputText ≤ maxOutputBytes := by
      by_contra hlarge
      have hfalse : decide (byteLength outputText ≤ maxOutputBytes) = false := decide_eq_false hlarge
      have : validResult (completedResult outputText) = false := by
        show (true && decide (byteLength outputText ≤ maxOutputBytes) && _ && _ && _ && _) = false
        rw [hfalse]
        rfl
      rw [this] at hvalid
      cases hvalid
    exact ⟨houtput, (returned_iff counts houtput).mp hreceived⟩
  · rintro ⟨houtput, hsize⟩
    exact (returned_iff counts houtput).mpr hsize

theorem received_constant :
    received counts AdvanceResult.executionLimit.toJson = some AdvanceResult.executionLimit.toJson ∧
      ∀ f, received counts (AdvanceResult.graphFailure f).toJson = some (AdvanceResult.graphFailure f).toJson := by
  refine ⟨(received_iff (by decide) counts).mpr ⟨by decide +kernel, by decide +kernel, by decide +kernel⟩, fun f => ?_⟩
  cases f <;> exact (received_iff (by decide) counts).mpr ⟨by decide +kernel, by decide +kernel, by decide +kernel⟩

def frontierJson (state : String) (outputText : Option String) (frontier : List Activation) : Json :=
  .obj (("state", .str state) :: (outputText.elim [] fun text => [("outputText", .str text)]) ++
    [("frontier", .arr (frontier.map Activation.toJson))])

theorem frontier_strings : (frontier.map Activation.toJson).all (fun item =>
      ((item.get? "nodeId").bind Json.asStr?).isSome && ((item.get? "activationId").bind Json.asStr?).isSome) = true := by
  rw [List.all_map, List.all_eq_true]
  intro a _
  rfl

theorem frontier_identifiers : (frontier.map Activation.toJson).all (fun item =>
      item.strictKeys ["nodeId", "activationId"] && identifier (item.get? "nodeId") &&
        identifier (item.get? "activationId")) = true ↔ ∀ a ∈ frontier, a.Fits := by
  rw [List.all_map, List.all_eq_true]
  refine forall₂_congr fun a _ => ?_
  show (isIdentifier a.nodeId && isIdentifier a.activationId) = true ↔ _
  rw [Bool.and_eq_true, Activation.Fits]

theorem isFrontier_iff (check : Json → Bool) (frontier : List Activation) :
    isFrontier check (.arr (frontier.map Activation.toJson)) = true ↔
      frontier.length ≤ maxGraphFrontier ∧ (frontier.map Activation.toJson).all check = true := by
  show (decide ((frontier.map Activation.toJson).length ≤ 3) && (frontier.map Activation.toJson).all check) = true ↔ _
  rw [Bool.and_eq_true, decide_eq_true_eq, List.length_map, maxGraphFrontier]

theorem distinct_frontierJson (state : String) (outputText : Option String) (frontier : List Activation) :
    (frontierJson state outputText frontier).distinct = true := by
  have hactivations := distinct_activations frontier
  rw [frontierJson, Json.distinct_obj]
  cases outputText with
  | none =>
    refine ⟨by show ["state", "frontier"].Nodup; decide, fun f hf => ?_⟩
    simp only [Option.elim, List.cons_append, List.nil_append, List.mem_cons, List.not_mem_nil, or_false] at hf
    rcases hf with rfl | rfl
    · rfl
    · exact hactivations
  | some text =>
    refine ⟨by show ["state", "outputText", "frontier"].Nodup; decide, fun f hf => ?_⟩
    simp only [Option.elim, List.cons_append, List.nil_append, List.mem_cons, List.not_mem_nil, or_false] at hf
    rcases hf with rfl | rfl | rfl
    · rfl
    · rfl
    · exact hactivations

theorem accepted_frontierJson (hstate : state = "admission_required" ∨ state = "advanced")
    (outputText : Option String) (frontier : List Activation) :
    acceptedResult (frontierJson state outputText frontier) = true ↔ frontier.length ≤ maxGraphFrontier := by
  have hreduce : acceptedResult (frontierJson state outputText frontier) =
      (isFrontier (fun item => ((item.get? "nodeId").bind Json.asStr?).isSome &&
        ((item.get? "activationId").bind Json.asStr?).isSome) (.arr (frontier.map Activation.toJson)) && true && true) := by
    rcases hstate with rfl | rfl
    · cases outputText <;> rfl
    · cases outputText <;> rfl
  rw [hreduce, Bool.and_true, Bool.and_true, isFrontier_iff]
  exact and_iff_left (frontier_strings frontier)

theorem valid_frontierJson (hstate : state = "admission_required" ∨ state = "advanced")
    (outputText : Option String) (frontier : List Activation) :
    validResult (frontierJson state outputText frontier) = true ↔
      (∀ text, outputText = some text → byteLength text ≤ maxOutputBytes) ∧
        frontier.length ≤ maxGraphFrontier ∧ ∀ a ∈ frontier, a.Fits := by
  have hreduce : validResult (frontierJson state outputText frontier) =
      (outputText.all (byteLength · ≤ maxOutputBytes) && true && isFrontier (fun item =>
        item.strictKeys ["nodeId", "activationId"] && identifier (item.get? "nodeId") &&
          identifier (item.get? "activationId")) (.arr (frontier.map Activation.toJson)) && true && true) := by
    rcases hstate with rfl | rfl
    · cases outputText <;> rfl
    · cases outputText <;> rfl
  rw [hreduce, Bool.and_true, Bool.and_true, Bool.and_true, Bool.and_eq_true, isFrontier_iff, frontier_identifiers]
  refine and_congr_left fun _ => ?_
  cases outputText with
  | none => simp
  | some text => simp

theorem size_frontierJson (state : String) (outputText : Option String) {frontier : List Activation} (hne : frontier ≠ []) :
    byteLength (runtimeResponse (frontierJson state outputText frontier)) = escapedLength state +
      (outputText.elim 0 fun text => escapedLength text + 16) +
      (frontier.map fun a => escapedLength a.nodeId + escapedLength a.activationId + 32).sum + 81 := by
  have hkeys : escapedLength "state" = 5 ∧ escapedLength "outputText" = 10 ∧ escapedLength "frontier" = 8 ∧
      escapedLength "nodeId" = 6 ∧ escapedLength "activationId" = 12 := by decide
  have hactivation : ∀ a : Activation, a.toJson.size + 1 = escapedLength a.nodeId + escapedLength a.activationId + 32 := by
    intro a
    have hobj := Json.size_obj ("nodeId", .str a.nodeId) [("activationId", .str a.activationId)]
    simp only [List.map_cons, List.map_nil, List.sum_cons, List.sum_nil, Json.size_str, hkeys] at hobj
    rw [Activation.toJson]
    omega
  have harr : (Json.arr (frontier.map Activation.toJson)).size =
      1 + (frontier.map fun a => escapedLength a.nodeId + escapedLength a.activationId + 32).sum := by
    obtain ⟨a, rest, rfl⟩ := List.exists_cons_of_ne_nil hne
    have hmap : (a :: rest).map ((fun k => k.size + 1) ∘ Activation.toJson) =
        (a :: rest).map fun a => escapedLength a.nodeId + escapedLength a.activationId + 32 :=
      List.map_congr_left fun b _ => hactivation b
    rw [List.map_cons, Json.size_arr, ← List.map_cons (f := Activation.toJson), List.map_map, hmap]
  rw [size_runtimeResponse, frontierJson]
  cases outputText with
  | none =>
    have hobj := Json.size_obj ("state", .str state) [("frontier", .arr (frontier.map Activation.toJson))]
    simp only [List.map_cons, List.map_nil, List.sum_cons, List.sum_nil, Json.size_str, hkeys, harr] at hobj
    rw [Json.size] at hobj
    simp only [Option.elim, List.cons_append, List.nil_append]
    omega
  | some text =>
    have hobj := Json.size_obj ("state", .str state) [("outputText", .str text),
      ("frontier", .arr (frontier.map Activation.toJson))]
    simp only [List.map_cons, List.map_nil, List.sum_cons, List.sum_nil, Json.size_str, hkeys, harr] at hobj
    rw [Json.size] at hobj
    simp only [Option.elim, List.cons_append, List.nil_append]
    omega

theorem sum_ids_le {frontier : List Activation} (hids : ∀ a ∈ frontier, a.Fits)
    (hwidth : frontier.length ≤ maxGraphFrontier) :
    (frontier.map fun a => escapedLength a.nodeId + escapedLength a.activationId + 32).sum ≤ 9312 := by
  have hid : ∀ s : String, isIdentifier s = true → escapedLength s ≤ 1536 := by
    intro s hs
    simp only [isIdentifier, Bool.and_eq_true, decide_eq_true_eq] at hs
    have := escapedLength_le s
    omega
  have hsum := List.sum_le_card_nsmul
    (frontier.map fun a => escapedLength a.nodeId + escapedLength a.activationId + 32) 3104 fun n hn => by
      obtain ⟨a, ha, rfl⟩ := List.mem_map.mp hn
      have hnode := hid a.nodeId (hids a ha).1
      have hactivation := hid a.activationId (hids a ha).2
      omega
  rw [List.length_map, smul_eq_mul] at hsum
  rw [maxGraphFrontier] at hwidth
  omega

theorem received_frontierJson
    (hstate : state = "admission_required" ∨ state = "advanced") {outputText : Option String} {frontier : List Activation}
    (hne : frontier ≠ []) (hnone : state = "admission_required" → outputText = none) :
    received counts (frontierJson state outputText frontier) = some (frontierJson state outputText frontier) ↔
      FrontierFits outputText frontier := by
  have hsize := size_frontierJson state outputText hne
  have hmax : maxResponseBytes = 300000 := rfl
  have hadmission : escapedLength "admission_required" = 18 := by decide
  have hadvanced : escapedLength "advanced" = 8 := by decide
  rw [received_iff (distinct_frontierJson _ _ _), accepted_frontierJson hstate, valid_frontierJson hstate, hsize]
  constructor
  · rintro ⟨hresponse, -, houtput, hwidth, hids⟩
    refine ⟨hids, hwidth, houtput, ?_⟩
    rintro text rfl
    rcases hstate with rfl | rfl
    · exact absurd (hnone rfl) (by simp)
    · simp only [Option.elim] at hresponse
      omega
  · rintro ⟨hids, hwidth, houtput, hresponse⟩
    refine ⟨?_, hwidth, houtput, hwidth, hids⟩
    have hsum := sum_ids_le hids hwidth
    cases outputText with
    | none =>
      simp only [Option.elim]
      rcases hstate with rfl | rfl
      · omega
      · omega
    | some text =>
      have htext := hresponse text rfl
      simp only [Option.elim]
      rcases hstate with rfl | rfl
      · exact absurd (hnone rfl) (by simp)
      · omega

theorem size_node {state : NodeState} {safeMessage : Option String} {retryAfterMs : Option ℤ}
    (hfits : (AdvanceResult.node state safeMessage retryAfterMs).Fits) :
    byteLength (runtimeResponse (AdvanceResult.node state safeMessage retryAfterMs).toJson) ≤ maxResponseBytes := by
  obtain ⟨hmessage, hdelay⟩ := hfits
  have hmax : maxResponseBytes = 300000 := rfl
  have hlabel : escapedLength state.label ≤ 9 := by cases state <;> decide
  have hkeys : escapedLength "state" = 5 ∧ escapedLength "safeMessage" = 11 ∧ escapedLength "retryAfterMs" = 12 := by
    decide
  have hdelaySize : ∀ delay, retryAfterMs = some delay → (Json.num delay).size ≤ 24 := by
    intro delay hsome
    obtain ⟨hlow, hhigh⟩ := hdelay delay hsome
    obtain ⟨n, rfl⟩ := Int.eq_ofNat_of_zero_le (by omega : 0 ≤ delay)
    exact byteLength_toString_le (k := 6) (by omega) (by omega)
  have hmessageSize : ∀ message, safeMessage = some message → escapedLength message ≤ 3072 := by
    intro message hsome
    have hbytes := hmessage message hsome
    have hlength := length_le_byteLength message
    have hescaped := escapedLength_le message
    rw [maxSafeMessageBytes] at hbytes
    omega
  rw [size_runtimeResponse, AdvanceResult.toJson]
  cases safeMessage with
  | none =>
    cases retryAfterMs with
    | none =>
      have hobj := Json.size_obj ("state", .str state.label) []
      simp only [List.map_cons, List.map_nil, List.sum_cons, List.sum_nil, Json.size_str, hkeys] at hobj
      rw [Json.size] at hobj
      simp only [Option.elim, List.append_nil]
      omega
    | some delay =>
      have hdelay := hdelaySize delay rfl
      have hobj := Json.size_obj ("state", .str state.label) [("retryAfterMs", .num delay)]
      simp only [List.map_cons, List.map_nil, List.sum_cons, List.sum_nil, Json.size_str, hkeys] at hobj
      rw [Json.size] at hobj
      simp only [Option.elim, List.cons_append, List.nil_append]
      omega
  | some message =>
    have hmessage := hmessageSize message rfl
    cases retryAfterMs with
    | none =>
      have hobj := Json.size_obj ("state", .str state.label) [("safeMessage", .str message)]
      simp only [List.map_cons, List.map_nil, List.sum_cons, List.sum_nil, Json.size_str, hkeys] at hobj
      rw [Json.size] at hobj
      simp only [Option.elim, List.append_nil]
      omega
    | some delay =>
      have hdelay := hdelaySize delay rfl
      have hobj := Json.size_obj ("state", .str state.label) [("safeMessage", .str message), ("retryAfterMs", .num delay)]
      simp only [List.map_cons, List.map_nil, List.sum_cons, List.sum_nil, Json.size_str, hkeys] at hobj
      rw [Json.size] at hobj
      simp only [Option.elim, List.cons_append, List.nil_append]
      omega

theorem received_node (state : NodeState) (safeMessage : Option String) (retryAfterMs : Option ℤ) :
    received counts (AdvanceResult.node state safeMessage retryAfterMs).toJson =
        some (AdvanceResult.node state safeMessage retryAfterMs).toJson ↔
      (AdvanceResult.node state safeMessage retryAfterMs).Fits := by
  have hdistinct : (AdvanceResult.node state safeMessage retryAfterMs).toJson.distinct = true := by
    rw [AdvanceResult.toJson, Json.distinct_obj]
    cases safeMessage <;> cases retryAfterMs <;> simp [Json.distinct]
  have haccepted : acceptedResult (AdvanceResult.node state safeMessage retryAfterMs).toJson =
      (true && retryAfterMs.all fun delay => decide (1000 ≤ delay) && decide (delay ≤ 900000)) := by
    cases state <;> cases safeMessage <;> cases retryAfterMs <;> rfl
  have hvalid : validResult (AdvanceResult.node state safeMessage retryAfterMs).toJson =
      (true && safeMessage.all (byteLength · ≤ maxSafeMessageBytes) && true && true &&
        retryAfterMs.all fun delay => decide (1000 ≤ delay) && decide (delay ≤ 900000)) := by
    cases state <;> cases safeMessage <;> cases retryAfterMs <;> rfl
  have hdelay : (retryAfterMs.all fun delay => decide (1000 ≤ delay) && decide (delay ≤ 900000)) = true ↔
      ∀ delay, retryAfterMs = some delay → 1000 ≤ delay ∧ delay ≤ 900000 := by
    cases retryAfterMs <;> simp
  have hmessage : safeMessage.all (byteLength · ≤ maxSafeMessageBytes) = true ↔
      ∀ message, safeMessage = some message → byteLength message ≤ maxSafeMessageBytes := by
    cases safeMessage <;> simp
  rw [received_iff hdistinct, haccepted, hvalid, Bool.true_and, Bool.true_and, Bool.and_true, Bool.and_true,
    Bool.and_eq_true, hdelay, hmessage]
  constructor
  · rintro ⟨-, -, hfits⟩
    exact hfits
  · intro hfits
    exact ⟨size_node hfits, hfits.2, hfits⟩

/-- A frontier that is returned is not empty. -/
def AdvanceResult.Proper : AdvanceResult → Prop
  | .admissionRequired frontier => frontier ≠ []
  | .advanced _ frontier => frontier ≠ []
  | _ => True

/-- **Codecs**: the client and the durable step take exactly the results that fit, and take them as they are. -/
theorem received_toJson_iff (hproper : r.Proper) : received counts r.toJson = some r.toJson ↔ r.Fits := by
  cases r with
  | approvalRequired approval => exact received_approval counts approval
  | graphFailure failure => exact iff_of_true ((received_constant counts).2 failure) trivial
  | executionLimit => exact iff_of_true (received_constant counts).1 trivial
  | admissionRequired frontier =>
    have hjson : (AdvanceResult.admissionRequired frontier).toJson = frontierJson "admission_required" none frontier := rfl
    rw [hjson]
    exact received_frontierJson counts (Or.inl rfl) hproper fun _ => rfl
  | completed outputText => exact received_completed counts outputText
  | advanced outputText frontier =>
    have hjson : (AdvanceResult.advanced outputText frontier).toJson = frontierJson "advanced" outputText frontier := rfl
    rw [hjson]
    exact received_frontierJson counts (Or.inr rfl) hproper fun h => absurd h (by decide)
  | node state safeMessage retryAfterMs => exact received_node counts state safeMessage retryAfterMs

/-! ### What a turn finds -/

/-- The safe message of a gateway answer that ends a turn: of a failed or a cancelled node. -/
def GatewayCall.safeMessage : GatewayCall → Option String
  | .answered _ (some body) =>
    (parseWire body).bind fun wire => if wire.state = some "pending" then none else wire.safeMessage
  | _ => none

/-- What the last turn of an inspection finds. -/
def InspectionFits (plan : ExecutionPlan) (snapshot : Snapshot) (frontier : List Activation) : Prop :=
  match pendingApproval snapshot with
  | .ok (some approval) => approval.Fits
  | .ok none => frontier.length ≤ maxGraphFrontier →
      snapshot.values.executions + frontier.length ≤ plan.maxStepExecutions →
      (∀ a ∈ frontier, a.Fits) ∧ (frontier = [] → snapshot.next = [] →
        OutputFits ((latestOutput snapshot.values.outputs plan.terminalNodeId).getD ""))
  | .error _ => True

/-- What running a frontier leads to: its checkpoint, or the gateway's answer that ended it. -/
def RunFits {S : Type} (lib : GraphLibrary S) (plan : ExecutionPlan) : S × Except GraphError GraphState → Prop
  | (s', .ok values) =>
    match pendingApproval (lib.getState s') with
    | .ok (some approval) => approval.Fits
    | .ok none => if remainingOf plan (lib.getState s') = [] then
        OutputFits ((latestOutput values.outputs plan.terminalNodeId).getD "")
      else FrontierFits (latestOutput values.outputs plan.terminalNodeId) (remainingOf plan (lib.getState s'))
    | .error _ => True
  | (_, .error (.execute e)) =>
    ∀ message, e.call.safeMessage = some message → byteLength (sliceMessage message) ≤ maxSafeMessageBytes
  | (_, .error _) => True

def TurnFits {S : Type} (lib : GraphLibrary S) (request : GraphExecutionRequest) (s : S) : Prop :=
  match opened lib request s with
  | .ok s => request.authorities.elim
      (InspectionFits request.plan (lib.getState s)
        (frontierOf request.plan (lib.getState s) ((lib.getTuple s).getD [])))
      fun _ => RunFits lib request.plan (lib.invoke .proceed s)
  | .error _ => True

theorem clampDelay_bounds (x : ℚ) : 1000 ≤ clampDelay x ∧ clampDelay x ≤ 900000 := by
  rw [clampDelay]
  omega

theorem nodePending_of_call {call : GatewayCall} {state : NodeState} {safeMessage : Option String} {retryAfterMs : Option ℤ}
    (hthrown : callOutcome parseWire call = .error (.nodePending state safeMessage retryAfterMs)) :
    safeMessage = call.safeMessage.map sliceMessage ∧ ∀ delay, retryAfterMs = some delay → 1000 ≤ delay ∧ delay ≤ 900000 := by
  cases call with
  | noAuthority => cases hthrown
  | transport outcome => cases hthrown
  | answered status body =>
    change graphNodeResponse parseWire status body = _ at hthrown
    unfold graphNodeResponse at hthrown
    dsimp only at hthrown
    by_cases hstatus : status ≥ 500
    · rw [if_pos hstatus] at hthrown
      cases hthrown
    · rw [if_neg hstatus] at hthrown
      cases body with
      | none => cases hthrown
      | some raw =>
        dsimp only at hthrown
        by_cases hlarge : byteLength raw > maxNodeResponseBytes
        · rw [if_pos hlarge] at hthrown
          cases hthrown
        · rw [if_neg hlarge] at hthrown
          cases hwire : parseWire raw with
          | none =>
            rw [hwire] at hthrown
            cases hthrown
          | some wire =>
            rw [hwire] at hthrown
            dsimp only at hthrown
            rw [GatewayCall.safeMessage, hwire, Option.bind_some]
            split_ifs at hthrown with hcompleted hpending hcancelled hfailed
            · cases hthrown
              rw [if_pos (by simp only [Bool.and_eq_true, beq_iff_eq] at hpending; exact hpending.2)]
              refine ⟨rfl, fun delay hdelay => ?_⟩
              obtain ⟨x, -, rfl⟩ := Option.map_eq_some_iff.mp hdelay
              exact clampDelay_bounds x
            · cases hthrown
              have hstate : wire.state = some "cancelled" := by
                simp only [Bool.and_eq_true, beq_iff_eq] at hcancelled
                exact hcancelled.2
              rw [if_neg (by rw [hstate]; decide)]
              exact ⟨rfl, fun delay hdelay => by cases hdelay⟩
            · cases hthrown
              have hstate : wire.state = some "failed" := by
                simp only [Bool.and_eq_true, beq_iff_eq] at hfailed
                exact hfailed.1.2
              rw [if_neg (by rw [hstate]; decide)]
              exact ⟨rfl, fun delay hdelay => by cases hdelay⟩
            · cases hthrown
            · cases hthrown

theorem caught_fits {e : GraphError} (hcaught : caught e = .ok r) : r.Proper ∧ r.Fits := by
  unfold caught at hcaught
  split_ifs at hcaught
  · cases hcaught
    exact ⟨trivial, trivial⟩
  · cases hcaught
    exact ⟨trivial, trivial⟩
  · cases hcaught
    exact ⟨trivial, trivial⟩
  · cases hcaught
    exact ⟨trivial, trivial⟩

theorem caught_execute (e : ExecuteError) : caught (.execute e) = .error (.execute e) := by
  have hmessage : e.error.message ∈ ["langgraph_node_pending", "graph_node_gateway_invalid",
    "graph_node_gateway_unavailable"] := by
    cases e.error with
    | nodePending state safeMessage retryAfterMs => exact List.mem_cons_self
    | gatewayFailure kind httpStatus transportOutcome =>
      cases kind with
      | unavailable => exact List.mem_cons_of_mem _ (List.mem_cons_of_mem _ List.mem_cons_self)
      | invalid => exact List.mem_cons_of_mem _ List.mem_cons_self
      | backend => exact List.mem_cons_of_mem _ (List.mem_cons_of_mem _ List.mem_cons_self)
  have htable : ∀ own ∈ ["langgraph_node_pending", "graph_node_gateway_invalid", "graph_node_gateway_unavailable"],
      decide ("execution_limit".toList <:+: own.toList) = false ∧ ∀ message ∈ ["join_output_too_large",
        "agent_context_too_large", "context_graph_state_too_large"], (own == message) = false := by decide
  have hlimit : isExecutionLimit (.execute e) = false := (htable _ hmessage).1
  have hincludes : ∀ message ∈ ["join_output_too_large", "agent_context_too_large", "context_graph_state_too_large"],
      graphErrorIncludes message (.execute e) = false := by
    intro message hm
    rw [graphErrorIncludes]
    exact (htable _ hmessage).2 message hm
  have hjoin := hincludes "join_output_too_large" (by simp)
  have hcontext := hincludes "agent_context_too_large" (by simp)
  have hstate := hincludes "context_graph_state_too_large" (by simp)
  rw [caught, hlimit, hjoin, hcontext, hstate]
  rfl

section

variable {S : Type} (lib : GraphLibrary S)
variable {request : GraphExecutionRequest} {s : S} {frontier : List Activation} {r : AdvanceResult}

theorem inspect_fits_approval {approval : Approval} (happroval : pendingApproval (lib.getState s) = .ok (some approval))
    (hdone : inspect lib request s (some approval) frontier = .done (.ok r)) :
    r.Proper ∧ (InspectionFits request.plan (lib.getState s) frontier ↔ r.Fits) := by
  unfold InspectionFits
  rw [happroval]
  unfold inspect at hdone
  dsimp only at hdone ⊢
  cases hresume : request.approvalResume with
  | none =>
    rw [hresume] at hdone
    cases hdone
    exact ⟨trivial, Iff.rfl⟩
  | some interruptId =>
    rw [hresume] at hdone
    dsimp only at hdone
    by_cases hother : interruptId ≠ approval.interruptId
    · rw [if_pos hother] at hdone
      cases hdone
      exact ⟨trivial, Iff.rfl⟩
    · rw [if_neg hother] at hdone
      cases hinvoke : lib.invoke .resume s with
      | mk s' outcome =>
        rw [hinvoke] at hdone
        cases outcome with
        | ok values => cases hdone
        | error e => cases hdone

theorem inspect_fits_frontier (happroval : pendingApproval (lib.getState s) = .ok none)
    (hdone : inspect lib request s none frontier = .done (.ok r)) :
    r.Proper ∧ (InspectionFits request.plan (lib.getState s) frontier ↔ r.Fits) := by
  unfold InspectionFits
  rw [happroval]
  unfold inspect at hdone
  dsimp only at hdone ⊢
  by_cases hwide : frontier.length > maxGraphFrontier
  · rw [if_pos hwide] at hdone
    cases hdone
    exact ⟨trivial, iff_of_true (fun h => absurd h (by omega)) trivial⟩
  · rw [if_neg hwide] at hdone
    by_cases hlimit : (lib.getState s).values.executions + frontier.length > request.plan.maxStepExecutions
    · rw [if_pos hlimit] at hdone
      cases hdone
      exact ⟨trivial, iff_of_true (fun _ h => absurd h (by omega)) trivial⟩
    · rw [if_neg hlimit] at hdone
      by_cases hfrontier : frontier ≠ []
      · rw [if_pos hfrontier] at hdone
        cases hdone
        refine ⟨hfrontier, fun h => ?_, fun h _ _ => ⟨h.ids, fun hnil => absurd hnil hfrontier⟩⟩
        obtain ⟨hids, -⟩ := h (by omega) (by omega)
        exact ⟨hids, by omega, by simp, by simp⟩
      · rw [if_neg hfrontier] at hdone
        rw [not_not] at hfrontier
        by_cases hnext : (lib.getState s).next = []
        · rw [if_pos hnext] at hdone
          cases hdone
          refine ⟨trivial, fun h => (h (by omega) (by omega)).2 hfrontier hnext, fun h _ _ => ⟨?_, fun _ _ => h⟩⟩
          rw [hfrontier]
          simp
        · rw [if_neg hnext] at hdone
          have hfits : ∀ {r' : AdvanceResult}, r'.Fits → (frontier.length ≤ maxGraphFrontier →
              (lib.getState s).values.executions + frontier.length ≤ request.plan.maxStepExecutions →
              (∀ a ∈ frontier, a.Fits) ∧ (frontier = [] → (lib.getState s).next = [] → OutputFits
                ((latestOutput (lib.getState s).values.outputs request.plan.terminalNodeId).getD "")) ↔ r'.Fits) := by
            intro r' hr'
            refine iff_of_true (fun _ _ => ⟨?_, fun _ h => absurd h hnext⟩) hr'
            rw [hfrontier]
            simp
          split_ifs at hdone with hsteps
          · cases hdone
            exact ⟨trivial, hfits trivial⟩
          · cases hinvoke : lib.invoke .proceed s with
            | mk s' outcome =>
              rw [hinvoke] at hdone
              cases outcome with
              | ok values => cases hdone
              | error e =>
                obtain ⟨hproper, hr⟩ := caught_fits (Turn.done.inj hdone)
                exact ⟨hproper, hfits hr⟩

theorem inspect_fits {approval : Option Approval} (happroval : pendingApproval (lib.getState s) = .ok approval)
    (hdone : inspect lib request s approval frontier = .done (.ok r)) :
    r.Proper ∧ (InspectionFits request.plan (lib.getState s) frontier ↔ r.Fits) := by
  cases approval with
  | some approval => exact inspect_fits_approval lib happroval hdone
  | none => exact inspect_fits_frontier lib happroval hdone

/-- The answer of a frontier fits if and only if what it read fits. -/
theorem runFrontier_fits {plan : ExecutionPlan} {authorities frontier : List Activation} {s : S} {r : AdvanceResult}
    (hrun : runFrontier lib plan authorities s frontier = .ok r) :
    r.Proper ∧ (RunFits lib plan (lib.invoke .proceed s) ↔ r.Fits) := by
  unfold runFrontier at hrun
  dsimp only at hrun
  split_ifs at hrun with hmismatch
  cases hinvoke : lib.invoke .proceed s with
  | mk s' outcome =>
    rw [hinvoke] at hrun
    cases outcome with
    | ok values =>
      unfold RunFits
      dsimp only at hrun ⊢
      cases happroval : pendingApproval (lib.getState s') with
      | error e =>
        rw [happroval] at hrun
        obtain ⟨hproper, hr⟩ := caught_fits hrun
        exact ⟨hproper, iff_of_true trivial hr⟩
      | ok approval =>
        rw [happroval] at hrun
        cases approval with
        | some approval =>
          cases hrun
          exact ⟨trivial, Iff.rfl⟩
        | none =>
          dsimp only at hrun ⊢
          by_cases hremaining : remainingOf plan (lib.getState s') = []
          · rw [if_neg (not_not.mpr hremaining)] at hrun
            cases hrun
            exact ⟨trivial, iff_of_eq (if_pos hremaining)⟩
          · rw [if_pos hremaining] at hrun
            cases hrun
            exact ⟨hremaining, iff_of_eq (if_neg hremaining)⟩
    | error e =>
      cases e with
      | execute e =>
        dsimp only at hrun
        cases herror : e.error with
        | nodePending state safeMessage retryAfterMs =>
          rw [herror] at hrun
          cases hrun
          obtain ⟨hmessage, hdelay⟩ := nodePending_of_call (e.thrown.trans (congrArg Except.error herror))
          refine ⟨trivial, fun h => ⟨?_, hdelay⟩, fun h message hm => ?_⟩
          · intro message hm
            rw [hmessage] at hm
            obtain ⟨raw, hraw, rfl⟩ := Option.map_eq_some_iff.mp hm
            exact h raw hraw
          · exact h.1 _ (by rw [hmessage, hm]; rfl)
        | gatewayFailure kind httpStatus transportOutcome =>
          rw [herror] at hrun
          dsimp only at hrun
          rw [caught_execute] at hrun
          cases hrun
      | error message =>
        obtain ⟨hproper, hr⟩ := caught_fits hrun
        exact ⟨hproper, iff_of_true trivial hr⟩
      | aggregate message errors =>
        obtain ⟨hproper, hr⟩ := caught_fits hrun
        exact ⟨hproper, iff_of_true trivial hr⟩
      | other =>
        obtain ⟨hproper, hr⟩ := caught_fits hrun
        exact ⟨hproper, iff_of_true trivial hr⟩

/-- **Step**: the result of a turn fits if and only if what the turn finds does. -/
theorem turn_fits (hdone : turn lib request s = .done (.ok r)) : r.Proper ∧ (TurnFits lib request s ↔ r.Fits) := by
  unfold turn at hdone
  unfold TurnFits
  cases hopened : opened lib request s with
  | error e =>
    rw [hopened] at hdone
    cases hdone
  | ok s₁ =>
    rw [hopened] at hdone
    dsimp only at hdone ⊢
    cases happroval : pendingApproval (lib.getState s₁) with
    | error e =>
      rw [happroval] at hdone
      cases hdone
    | ok approval =>
      rw [happroval] at hdone
      dsimp only at hdone
      cases hauthorities : request.authorities with
      | none =>
        rw [hauthorities] at hdone
        exact inspect_fits lib happroval hdone
      | some authorities =>
        rw [hauthorities] at hdone
        exact runFrontier_fits lib (Turn.done.inj hdone)

/-- **Run**: a call returns what its last turn returns. -/
theorem advanceGenericGraph_last {n : ℕ} {outcome : Except GraphError AdvanceResult}
    (hcall : advanceGenericGraph lib n request s = some outcome) :
    ∃ last, lastTurn lib n request s = some last ∧ turn lib last.1 last.2 = .done outcome := by
  induction n generalizing request s with
  | zero => cases hcall
  | succ n ih =>
    unfold advanceGenericGraph at hcall
    unfold lastTurn
    cases hturn : turn lib request s with
    | again request' s' =>
      rw [hturn] at hcall
      exact ih hcall
    | done final =>
      rw [hturn] at hcall
      cases hcall
      exact ⟨(request, s), rfl, hturn⟩

/-- **Results agree**: the client and the durable step take a call's result, as it is, if and only if what its last turn
finds fits. -/
theorem results_agree_iff (counts : DurableRuntimeRequestCounts) {n : ℕ} {request : GraphExecutionRequest} {s : S}
    {r : AdvanceResult} (hcall : advanceGenericGraph lib n request s = some (.ok r)) :
    ∃ last, lastTurn lib n request s = some last ∧
      (received counts r.toJson = some r.toJson ↔ TurnFits lib last.1 last.2) := by
  obtain ⟨last, hlast, hdone⟩ := advanceGenericGraph_last lib hcall
  obtain ⟨hproper, hfits⟩ := turn_fits lib hdone
  exact ⟨last, hlast, (received_toJson_iff counts hproper).trans hfits.symm⟩

end

/-! ### One agent -/

def oneAgent : ExecutionPlan :=
  { nodes := [⟨"a", .agentV1 "writer"⟩], edges := [], entryNodeId := "a", terminalNodeId := "a",
    maxStepExecutions := 4 }

def oneAgentTask : Activation := { nodeId := "a", activationId := "7c9e6679-7425-40de-944b-e07fc1f90ae7" }

def oneAgentRequest : GraphExecutionRequest :=
  { plan := oneAgent, initialInput := "Go.", approvalResume := none, authorities := some [oneAgentTask] }

/-- A thread whose only task gets one answer of the gateway. -/
def oneAnswer (e : ExecuteError) : GraphLibrary Unit where
  getTuple _ := some []
  getState _ := { values := { initialInput := "Go." }, next := ["a"],
                  tasks := [{ id := oneAgentTask.activationId, name := oneAgentTask.nodeId, finished := false }] }
  invoke _ s := (s, .error (.execute e))

theorem oneAnswer_call (e : ExecuteError) (state : NodeState) (safeMessage : Option String) (retryAfterMs : Option ℤ)
    (herror : e.error = .nodePending state safeMessage retryAfterMs) :
    advanceGenericGraph (oneAnswer e) 1 oneAgentRequest () = some (.ok (.node state safeMessage retryAfterMs)) := by
  obtain ⟨call, error, thrown⟩ := e
  subst herror
  rfl

/-- The gateway's answer that a node is still running. -/
def stillRunning : ExecuteError where
  call := .answered 200 (some "\x7b\"state\":\"pending\",\"retryAfterMs\":200\x7d")
  error := .nodePending .pending none (some 1000)
  thrown := by decide +kernel

theorem stillRunning_agrees : received oneRequest (AdvanceResult.node .pending none (some 1000)).toJson =
    some (AdvanceResult.node .pending none (some 1000)).toJson := by
  have hcall := oneAnswer_call stillRunning .pending none (some 1000) rfl
  obtain ⟨last, hlast, hagrees⟩ := results_agree_iff (oneAnswer stillRunning) oneRequest hcall
  refine hagrees.mpr ?_
  have hstart : last = (oneAgentRequest, ()) := (Option.some.inj hlast).symm
  rw [hstart]
  intro message hmessage
  have hnone : stillRunning.call.safeMessage = none := by decide +kernel
  rw [hnone] at hmessage
  cases hmessage

/-- A message of signs of three bytes each. -/
def euros (n : ℕ) : String := String.ofList (List.replicate n '€')

/-- The gateway's answer that a node failed. -/
def failedAnswer (message : String) : Json := .obj [("state", .str "failed"), ("safeMessage", .str message)]

theorem failedAnswer_thrown {message : String} (hsize : byteLength (failedAnswer message).stringify ≤ maxNodeResponseBytes) :
    callOutcome parseWire (.answered 422 (some (failedAnswer message).stringify)) =
      .error (.nodePending .failed (some (sliceMessage message)) none) := by
  have hdistinct : (failedAnswer message).distinct = true := by
    rw [failedAnswer, Json.distinct_obj]
    refine ⟨by show ["state", "safeMessage"].Nodup; decide, fun f hf => ?_⟩
    simp only [List.mem_cons, List.not_mem_nil, or_false] at hf
    rcases hf with rfl | rfl
    · rfl
    · rfl
  have hparse : parseWire (failedAnswer message).stringify = some (wireOf (failedAnswer message)) := by
    rw [parseWire, Json.parse_stringify _ hdistinct, Option.map_some]
  show graphNodeResponse parseWire 422 (some (failedAnswer message).stringify) = _
  unfold graphNodeResponse
  dsimp only
  rw [if_neg (by decide), if_neg (by omega), hparse]
  rfl

theorem byteLength_euros (n : ℕ) : byteLength (euros n) = 3 * n := by
  have heuro : Char.utf8Size '€' = 3 := rfl
  rw [euros, byteLength_ofList, List.map_replicate, List.sum_replicate, heuro, smul_eq_mul, mul_comm]

theorem sliceUnits_replicate {c : Char} (hc : c.toNat < 0x10000) {k n : ℕ} (hk : k ≤ n) :
    sliceUnits n (List.replicate k c) = List.replicate k c := by
  induction k generalizing n with
  | zero => rfl
  | succ k ih =>
    rw [List.replicate_succ, sliceUnits, if_pos hc, if_pos (by omega), ih (by omega)]

theorem sliceMessage_euros {n : ℕ} (hn : n ≤ 512) : sliceMessage (euros n) = euros n := by
  rw [sliceMessage, euros, String.toList_ofList, sliceUnits_replicate (by decide) hn]

theorem size_failedAnswer {n : ℕ} (hn : n ≤ 512) :
    byteLength (failedAnswer (euros n)).stringify ≤ maxNodeResponseBytes := by
  have hobj := Json.size_obj ("state", .str "failed") [("safeMessage", .str (euros n))]
  have hkeys : escapedLength "state" = 5 ∧ escapedLength "safeMessage" = 11 ∧ escapedLength "failed" = 6 := by decide
  have heuros := escapedLength_le (euros n)
  have hlength := length_le_byteLength (euros n)
  rw [byteLength_euros] at hlength
  simp only [List.map_cons, List.map_nil, List.sum_cons, List.sum_nil, Json.size_str, hkeys] at hobj
  rw [failedAnswer, maxNodeResponseBytes]
  rw [Json.size] at hobj
  omega

/-- The gateway's answer that a node failed, with a message of 600 bytes. -/
def failedInEuros : ExecuteError where
  call := .answered 422 (some (failedAnswer (euros 200)).stringify)
  error := .nodePending .failed (some (sliceMessage (euros 200))) none
  thrown := failedAnswer_thrown (size_failedAnswer (by decide))

/-- The failure is cut at 512 units of UTF-16; the durable step takes 512 bytes of UTF-8. -/
theorem failedInEuros_refused : advanceGenericGraph (oneAnswer failedInEuros) 1 oneAgentRequest () =
        some (.ok (.node .failed (some (euros 200)) none)) ∧
      received oneRequest (AdvanceResult.node .failed (some (euros 200)) none).toJson ≠
        some (AdvanceResult.node .failed (some (euros 200)) none).toJson := by
  have hcall := oneAnswer_call failedInEuros .failed (some (sliceMessage (euros 200))) none rfl
  rw [sliceMessage_euros (by decide)] at hcall
  refine ⟨hcall, fun hreceived => ?_⟩
  have hbytes := ((received_node oneRequest .failed (some (euros 200)) none).mp hreceived).1 (euros 200) rfl
  rw [byteLength_euros, maxSafeMessageBytes] at hbytes
  omega

end ADT.Runtime
