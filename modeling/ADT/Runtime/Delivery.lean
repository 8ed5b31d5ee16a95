import ADT.Runtime.ResultCodec

/-!
# Runtime.Delivery — an output on its way through the graph

A stored output leaves the gateway as its answer, enters it again in the request of the next node and leaves the Runtime
in its last result.  Each hop bounds the JSON text, the step only the output itself.

* `deliverable_iff`: an output passes all hops if and only if its escaped text fits the request of the next node.
-/

namespace ADT.Runtime

inductive RuntimeGatewayRequestKind
  | checkpoint | graphNode | artifactSearch

def runtimeGatewayRequestLimits : RuntimeGatewayRequestKind → ℕ
  | .checkpoint => 1000000
  | .graphNode => 270000
  | .artifactSearch => 2048

def readBoundedJson (body : String) (max : ℕ) : Except String Json :=
  if byteLength body > max then .error "body_too_large"
  else (Json.parse body).elim (.error "invalid_json") .ok

def readRuntimeGatewayRequest (body : String) (kind : RuntimeGatewayRequestKind) : Except String Json :=
  readBoundedJson body (runtimeGatewayRequestLimits kind)

/-- What a request names besides the input. -/
structure GraphNodeRequest where
  runId : String
  nodeId : String
  activationId : String
  workflowGeneration : ℕ
  iteration : ℕ
  attempt : ℕ

def GraphNodeRequest.toJson (r : GraphNodeRequest) (inputText : String) : Json :=
  .obj [("runId", .str r.runId), ("nodeId", .str r.nodeId), ("activationId", .str r.activationId),
    ("workflowGeneration", .num r.workflowGeneration), ("iteration", .num r.iteration), ("attempt", .num r.attempt),
    ("inputText", .str inputText)]

/-- The body `execute` sends to the graph-node gateway. -/
def GraphNodeRequest.body (r : GraphNodeRequest) (inputText : String) : String := (r.toJson inputText).stringify

/-- A completed turn, as the gateway answers it and as the Runtime returns it. -/
def completedResult (outputText : String) : Json :=
  .obj [("state", .str "completed"), ("outputText", .str outputText)]

/-- **Delivery** of an output: in the gateway's answer, in the request of the next node, in the Runtime's result. -/
structure Deliverable (r : GraphNodeRequest) (counts : DurableRuntimeRequestCounts) (outputText : String) : Prop where
  answered : graphNodeResponse parseWire 200 (some (completedResult outputText).stringify) = .ok outputText
  requested : readRuntimeGatewayRequest (r.body outputText) .graphNode = .ok (r.toJson outputText)
  returned : received counts (completedResult outputText) = some (completedResult outputText)

/-- The bytes of a request with an empty input. -/
def GraphNodeRequest.envelopeLength (r : GraphNodeRequest) : ℕ :=
  103 + escapedLength r.runId + escapedLength r.nodeId + escapedLength r.activationId +
    byteLength (toString (r.workflowGeneration : ℤ)) + byteLength (toString (r.iteration : ℤ)) +
    byteLength (toString (r.attempt : ℤ))

/-! ### The sizes of the three texts -/

variable (outputText : String) (r : GraphNodeRequest) (inputText : String)

theorem size_completedResult : byteLength (completedResult outputText).stringify = escapedLength outputText + 37 := by
  have hsize := Json.size_obj ("state", .str "completed") [("outputText", .str outputText)]
  have hstate : escapedLength "state" = 5 := by decide
  have houtput : escapedLength "outputText" = 10 := by decide
  have hcompleted : escapedLength "completed" = 9 := by decide
  simp only [List.map_cons, List.map_nil, List.sum_cons, List.sum_nil, Json.size_str, hstate, houtput, hcompleted] at hsize
  rw [completedResult]
  rw [Json.size] at hsize
  omega

theorem size_runtimeResponse (result : Json) : byteLength (runtimeResponse result) = byteLength result.stringify + 56 := by
  have hsize := Json.size_obj ("protocolVersion", .str adtRuntimeProtocol) [("ok", .bool true), ("result", result)]
  have hversion : escapedLength "protocolVersion" = 15 := by decide
  have hprotocol : escapedLength adtRuntimeProtocol = 14 := by decide
  have hok : escapedLength "ok" = 2 := by decide
  have hresult : escapedLength "result" = 6 := by decide
  have htrue : (Json.bool true).size = 4 := rfl
  simp only [List.map_cons, List.map_nil, List.sum_cons, List.sum_nil, Json.size_str, hversion, hprotocol, hok, hresult,
    htrue] at hsize
  rw [runtimeResponse]
  rw [Json.size, Json.size] at hsize
  omega

theorem size_body : byteLength (r.body inputText) = escapedLength inputText + r.envelopeLength := by
  have hsize := Json.size_obj ("runId", .str r.runId) [("nodeId", .str r.nodeId), ("activationId", .str r.activationId),
    ("workflowGeneration", .num r.workflowGeneration), ("iteration", .num r.iteration), ("attempt", .num r.attempt),
    ("inputText", .str inputText)]
  have hrunId : escapedLength "runId" = 5 := by decide
  have hnodeId : escapedLength "nodeId" = 6 := by decide
  have hactivationId : escapedLength "activationId" = 12 := by decide
  have hgeneration : escapedLength "workflowGeneration" = 18 := by decide
  have hiteration : escapedLength "iteration" = 9 := by decide
  have hattempt : escapedLength "attempt" = 7 := by decide
  have hinput : escapedLength "inputText" = 9 := by decide
  have hnum : ∀ n : ℕ, (Json.num n).size = byteLength (toString (n : ℤ)) := fun n => rfl
  simp only [List.map_cons, List.map_nil, List.sum_cons, List.sum_nil, Json.size_str, hnum, hrunId, hnodeId,
    hactivationId, hgeneration, hiteration, hattempt, hinput] at hsize
  rw [GraphNodeRequest.body, GraphNodeRequest.toJson, GraphNodeRequest.envelopeLength]
  rw [Json.size] at hsize
  omega

/-! ### The three hops -/

theorem distinct_completedResult : (completedResult outputText).distinct = true := by
  rw [completedResult, Json.distinct_obj]
  refine ⟨by show ["state", "outputText"].Nodup; decide, fun f hf => ?_⟩
  simp only [List.mem_cons, List.not_mem_nil, or_false] at hf
  rcases hf with rfl | rfl
  · rfl
  · rfl

theorem distinct_toJson : (r.toJson inputText).distinct = true := by
  rw [GraphNodeRequest.toJson, Json.distinct_obj]
  refine ⟨?_, fun f hf => ?_⟩
  · show ["runId", "nodeId", "activationId", "workflowGeneration", "iteration", "attempt", "inputText"].Nodup
    decide
  · simp only [List.mem_cons, List.not_mem_nil, or_false] at hf
    rcases hf with rfl | rfl | rfl | rfl | rfl | rfl | rfl
    · rfl
    · rfl
    · rfl
    · rfl
    · rfl
    · rfl
    · rfl

theorem answered_iff {outputText : String} (houtput : byteLength outputText ≤ maxOutputBytes) :
    graphNodeResponse parseWire 200 (some (completedResult outputText).stringify) = .ok outputText ↔
      escapedLength outputText + 37 ≤ maxNodeResponseBytes := by
  have hparse : parseWire (completedResult outputText).stringify = some (wireOf (completedResult outputText)) := by
    rw [parseWire, Json.parse_stringify _ (distinct_completedResult outputText), Option.map_some]
  have hfits : decide (byteLength outputText ≤ maxAgentInputBytes) = true := decide_eq_true houtput
  rw [← size_completedResult]
  unfold graphNodeResponse
  constructor
  · intro hanswer
    by_contra hlarge
    dsimp only at hanswer
    rw [if_neg (by decide), if_pos (by omega)] at hanswer
    cases hanswer
  · intro hsize
    dsimp only
    rw [if_neg (by decide), if_neg (by omega), hparse]
    exact if_pos (by show (true && true && decide (byteLength outputText ≤ maxAgentInputBytes)) = true; rw [hfits]; rfl)

theorem requested_iff : readRuntimeGatewayRequest (r.body inputText) .graphNode = .ok (r.toJson inputText) ↔
      escapedLength inputText + r.envelopeLength ≤ runtimeGatewayRequestLimits .graphNode := by
  rw [← size_body, readRuntimeGatewayRequest, readBoundedJson]
  by_cases hsize : byteLength (r.body inputText) ≤ runtimeGatewayRequestLimits .graphNode
  · have hparse : Json.parse (r.body inputText) = _ := Json.parse_stringify _ (distinct_toJson r inputText)
    rw [if_neg (by omega), hparse]
    exact ⟨fun _ => hsize, fun _ => rfl⟩
  · rw [if_pos (by omega)]
    constructor
    · intro h
      cases h
    · intro h
      exact absurd h hsize

theorem returned_iff (counts : DurableRuntimeRequestCounts) {outputText : String}
    (houtput : byteLength outputText ≤ maxOutputBytes) :
    received counts (completedResult outputText) = some (completedResult outputText) ↔
      escapedLength outputText + 93 ≤ maxResponseBytes := by
  have haccepted : acceptedResult (completedResult outputText) = true := rfl
  have hvalid : validResult (completedResult outputText) = true := by
    have hfits : decide (byteLength outputText ≤ maxOutputBytes) = true := decide_eq_true houtput
    show (_ && decide (byteLength outputText ≤ maxOutputBytes) && _ && _ && _ && _) = true
    rw [hfits]
    rfl
  rw [received_iff (distinct_completedResult outputText), size_runtimeResponse, size_completedResult]
  exact ⟨fun h => by omega, fun h => ⟨by omega, haccepted, hvalid⟩⟩

/-- **Delivery**: an output of admitted size is delivered if and only if its escaped text, with what else the request
of the next node says, is within the gateway's bound. -/
theorem deliverable_iff (r : GraphNodeRequest) (counts : DurableRuntimeRequestCounts) {outputText : String}
    (houtput : byteLength outputText ≤ maxOutputBytes) : Deliverable r counts outputText ↔
      escapedLength outputText + r.envelopeLength ≤ runtimeGatewayRequestLimits .graphNode := by
  constructor
  · intro h
    exact (requested_iff r outputText).mp h.requested
  · intro hsize
    have hlimit : runtimeGatewayRequestLimits .graphNode = 270000 := rfl
    have hnode : maxNodeResponseBytes = 300000 := rfl
    have hresponse : maxResponseBytes = 300000 := rfl
    refine ⟨(answered_iff houtput).mpr ?_, (requested_iff r outputText).mpr hsize, (returned_iff counts houtput).mpr ?_⟩
    · omega
    · omega

def nextNode : GraphNodeRequest :=
  { runId := "5f0c2b3e-8f3d-4c56-9a7e-0d6a1f0b9c11", nodeId := "review", activationId := "7c9e6679-7425-40de-944b-e07fc1f90ae7",
    workflowGeneration := 1, iteration := 1, attempt := 1 }

def oneRequest : DurableRuntimeRequestCounts :=
  { readiness := 0, langgraphExecution := 1, readiness_le := by decide, langgraphExecution_le := by decide }

theorem hello_delivered : Deliverable nextNode oneRequest "Hello.\n" :=
  (deliverable_iff nextNode oneRequest (by decide)).mpr (by decide)

/-- An output of quotation marks. -/
def quotes (n : ℕ) : String := String.ofList (List.replicate n '"')

theorem escapedLength_quotes (n : ℕ) : escapedLength (quotes n) = 2 * n := by
  have hquote : escapedSize '"' = 2 := rfl
  rw [escapedLength, quotes, String.toList_ofList, List.map_replicate, List.sum_replicate, hquote, smul_eq_mul, mul_comm]

theorem byteLength_quotes (n : ℕ) : byteLength (quotes n) = n := by
  have hquote : Char.utf8Size '"' = 1 := rfl
  rw [quotes, byteLength_ofList, List.map_replicate, List.sum_replicate, hquote, smul_eq_mul, mul_one]

/-- 150000 quotation marks are an admitted output; no hop takes them. -/
theorem quotes_undelivered : byteLength (quotes 150000) ≤ maxOutputBytes ∧
    graphNodeResponse parseWire 200 (some (completedResult (quotes 150000)).stringify) ≠ .ok (quotes 150000) ∧
    runtimeGatewayRequestLimits .graphNode < byteLength (nextNode.body (quotes 150000)) ∧
    received oneRequest (completedResult (quotes 150000)) ≠ some (completedResult (quotes 150000)) := by
  have houtput : byteLength (quotes 150000) ≤ maxOutputBytes := by
    rw [byteLength_quotes, maxOutputBytes]
    omega
  have hescaped := escapedLength_quotes 150000
  have hlimit : runtimeGatewayRequestLimits .graphNode = 270000 := rfl
  have hnode : maxNodeResponseBytes = 300000 := rfl
  have hresponse : maxResponseBytes = 300000 := rfl
  refine ⟨houtput, fun h => ?_, ?_, fun h => ?_⟩
  · have := (answered_iff houtput).mp h
    omega
  · rw [size_body]
    omega
  · have := (returned_iff oneRequest houtput).mp h
    omega

end ADT.Runtime
