import ADT.Lib.JsonSize
import ADT.Runtime.NodeGateway

/-!
# Runtime.ResultCodec — the result of a graph execution on its way to the driver

The Runtime answers with its result in an envelope (`runtimeResponse`); the client checks the answer
(`advanceLangGraph`) and hands the result to the durable step, where it is checked once more when it is replayed
(`parseResult`).
-/

namespace ADT.Runtime

def adtRuntimeProtocol : String := "adt-runtime-v1"
def maxResponseBytes : ℕ := 300000
def maxOutputBytes : ℕ := 262144
def maxSafeMessageBytes : ℕ := 512

def states : List String :=
  ["admission_required", "approval_required", "advanced", "completed", "pending", "failed", "cancelled",
    "execution_limit", "graph_failure"]

mutual

/-- `String(value)` -/
def text : Json → String
  | .null => "null"
  | .bool b => if b then "true" else "false"
  | .num n => toString n
  | .str s => s
  | .arr items => ",".intercalate (itemTexts items)
  | .obj _ => "[object Object]"

/-- The texts of an array's items; `null` is empty. -/
def itemTexts : List Json → List String
  | [] => []
  | .null :: js => "" :: itemTexts js
  | j :: js => text j :: itemTexts js

end

def textOf (value : Option Json) : String := (value.map text).getD "undefined"

def isString (value : Json) : Bool := value.asStr?.isSome

/-- `Number.isInteger(value)`, within bounds -/
def integer (value : Json) (min max : ℤ) : Bool :=
  match value with
  | .num n => min ≤ n && n ≤ max
  | _ => false

/-- An absent property, or one that passes. -/
def optional (result : Json) (key : String) (check : Json → Bool) : Bool := (result.get? key).all check

/-- The answer to `LANGGRAPH_EXECUTE_PATH`. -/
def runtimeResponse (result : Json) : String :=
  (Json.obj [("protocolVersion", .str adtRuntimeProtocol), ("ok", .bool true), ("result", result)]).stringify

def boundedJson (body : String) : Option Json := if byteLength body > maxResponseBytes then none else Json.parse body

def boundedProtocolString (value : Option Json) (max : ℕ) : Bool :=
  (value.bind Json.asStr?).any fun s => 1 ≤ utf16Length s && utf16Length s ≤ max

def validApprovalResult (result : Json) : Bool :=
  boundedProtocolString (result.get? "nodeId") 256 && boundedProtocolString (result.get? "activationId") 256 &&
    boundedProtocolString (result.get? "interruptId") 256 && boundedProtocolString (result.get? "message") 2000 &&
    ((result.get? "message").bind Json.asStr?).any (fun s => trim s == s) &&
    ((result.get? "text").bind Json.asStr?).any (byteLength · ≤ maxOutputBytes)

def isFrontier (check : Json → Bool) (value : Json) : Bool :=
  match value with
  | .arr items => items.length ≤ 3 && items.all check
  | _ => false

def acceptedResult (result : Json) : Bool :=
  states.contains (textOf (result.get? "state")) &&
    ((result.get? "state").bind Json.asStr? != some "approval_required" || validApprovalResult result) &&
    optional result "outputText" isString &&
    optional result "frontier" (isFrontier fun item =>
      ((item.get? "nodeId").bind Json.asStr?).isSome && ((item.get? "activationId").bind Json.asStr?).isSome) &&
    optional result "safeMessage" isString && optional result "retryAfterMs" (integer · 1000 900000)

/-- `advanceLangGraph`, from the answer on; `none` where it throws a failure. -/
def advanceLangGraph (status : ℕ) (body : String) : Option Json :=
  (boundedJson body).bind fun wire =>
    if 200 ≤ status && status ≤ 299 && (wire.get? "protocolVersion").bind Json.asStr? == some adtRuntimeProtocol &&
        (wire.get? "ok").bind Json.asBool? == some true && acceptedResult ((wire.get? "result").getD .null) then
      wire.get? "result"
    else none

/-! ### The durable step -/

/-- `/^[A-Za-z0-9:_-]+$/`, at most 256 characters -/
def isIdentifier (s : String) : Bool :=
  s ≠ "" && s.toList.length ≤ 256 && s.toList.all fun c => c.isAlphanum || c == ':' || c == '_' || c == '-'

def identifier (value : Option Json) : Bool := (value.bind Json.asStr?).any isIdentifier

def resultKeys : List String :=
  ["state", "outputText", "frontier", "interruptId", "nodeId", "activationId", "message", "text", "safeMessage",
    "failureCode", "retryAfterMs"]

def validResult (result : Json) : Bool :=
  result.strictKeys resultKeys && states.contains (textOf (result.get? "state")) &&
    ["outputText", "interruptId", "nodeId", "activationId", "message", "text", "safeMessage"].all
      (fun key => optional result key isString) &&
    ((result.get? "outputText").bind Json.asStr?).all (byteLength · ≤ maxOutputBytes) &&
    ((result.get? "safeMessage").bind Json.asStr?).all (byteLength · ≤ maxSafeMessageBytes) &&
    optional result "frontier" (isFrontier fun item =>
      item.strictKeys ["nodeId", "activationId"] && identifier (item.get? "nodeId") &&
        identifier (item.get? "activationId")) &&
    optional result "failureCode" (fun code => ["output_too_large", "configuration_invalid"].contains (text code)) &&
    optional result "retryAfterMs" (integer · 1000 900000)

def parseResult (value : Json) : Option Json := if validResult value then some value else none

def parseCounts (value : Json) : Option Json :=
  if value.strictKeys ["readiness", "langgraphExecution"] && (value.get? "readiness").any (integer · 0 1) &&
      (value.get? "langgraphExecution").any (integer · 0 2) then
    some value
  else none

/-- `parseDurableLangGraphStepResult` on an envelope that holds a result. -/
def parseDurableLangGraphStepResult (envelope : Json) : Option (Json × Json) :=
  if envelope.strictKeys ["kind", "result", "requestCounts"] &&
      (envelope.get? "kind").bind Json.asStr? == some "result" then
    ((envelope.get? "requestCounts").bind parseCounts).bind fun counts =>
      ((envelope.get? "result").bind parseResult).map fun result => (result, counts)
  else none

/-- The requests a durable step has counted. -/
structure DurableRuntimeRequestCounts where
  readiness : ℕ
  langgraphExecution : ℕ
  readiness_le : readiness ≤ 1
  langgraphExecution_le : langgraphExecution ≤ 2

def DurableRuntimeRequestCounts.toJson (counts : DurableRuntimeRequestCounts) : Json :=
  .obj [("readiness", .num counts.readiness), ("langgraphExecution", .num counts.langgraphExecution)]

/-- What a durable step returns for a result. -/
def durableResult (result : Json) (counts : DurableRuntimeRequestCounts) : Json :=
  .obj [("kind", .str "result"), ("result", result), ("requestCounts", counts.toJson)]

/-- A result as the driver has it: through the client, the durable step and the replay of the step. -/
def received (counts : DurableRuntimeRequestCounts) (result : Json) : Option Json :=
  (advanceLangGraph 200 (runtimeResponse result)).bind fun value =>
    (parseDurableLangGraphStepResult (durableResult value counts)).map (·.1)

/-! ### What is received -/

theorem parseCounts_toJson (counts : DurableRuntimeRequestCounts) : parseCounts counts.toJson = some counts.toJson := by
  have hreadiness := counts.readiness_le
  have hexecution := counts.langgraphExecution_le
  refine if_pos ?_
  rw [Bool.and_eq_true, Bool.and_eq_true]
  refine ⟨⟨by rfl, ?_⟩, ?_⟩
  · show (decide ((0 : ℤ) ≤ counts.readiness) && decide ((counts.readiness : ℤ) ≤ 1)) = true
    rw [Bool.and_eq_true, decide_eq_true_eq, decide_eq_true_eq]
    omega
  · show (decide ((0 : ℤ) ≤ counts.langgraphExecution) && decide ((counts.langgraphExecution : ℤ) ≤ 2)) = true
    rw [Bool.and_eq_true, decide_eq_true_eq, decide_eq_true_eq]
    omega

theorem parseDurable_durableResult (result : Json) (counts : DurableRuntimeRequestCounts) :
    (parseDurableLangGraphStepResult (durableResult result counts)).map (·.1) = parseResult result := by
  have hcounts := parseCounts_toJson counts
  unfold parseDurableLangGraphStepResult
  rw [if_pos (by rfl)]
  show ((parseCounts counts.toJson).bind fun c => (parseResult result).map fun r => (r, c)).map (·.1) = _
  rw [hcounts, Option.bind_some, Option.map_map]
  exact Option.map_id'

section

variable {result : Json} (hdistinct : result.distinct = true)

include hdistinct

theorem distinct_envelope :
    (Json.obj [("protocolVersion", .str adtRuntimeProtocol), ("ok", .bool true), ("result", result)]).distinct = true := by
  rw [Json.distinct_obj]
  refine ⟨by show ["protocolVersion", "ok", "result"].Nodup; decide, fun f hf => ?_⟩
  simp only [List.mem_cons, List.not_mem_nil, or_false] at hf
  rcases hf with rfl | rfl | rfl
  · rfl
  · rfl
  · exact hdistinct

theorem advanceLangGraph_runtimeResponse : advanceLangGraph 200 (runtimeResponse result) =
      if byteLength (runtimeResponse result) ≤ maxResponseBytes ∧ acceptedResult result = true then some result
      else none := by
  have hparse := Json.parse_stringify _ (distinct_envelope hdistinct)
  by_cases hsize : byteLength (runtimeResponse result) ≤ maxResponseBytes
  · have hbounded : boundedJson (runtimeResponse result) = _ := (if_neg (by omega)).trans hparse
    rw [advanceLangGraph, hbounded, Option.bind_some]
    by_cases haccepted : acceptedResult result = true
    · exact (if_pos haccepted).trans (if_pos ⟨hsize, haccepted⟩).symm
    · exact (if_neg haccepted).trans (if_neg fun h => haccepted h.2).symm
  · have hbounded : boundedJson (runtimeResponse result) = none := if_pos (by omega)
    rw [advanceLangGraph, hbounded, if_neg fun h => hsize h.1]
    rfl

/-- **Receipt**: a result is received if and only if its envelope is small enough and both checks take it. -/
theorem received_iff (counts : DurableRuntimeRequestCounts) :
    received counts result = some result ↔
      byteLength (runtimeResponse result) ≤ maxResponseBytes ∧ acceptedResult result = true ∧
        validResult result = true := by
  unfold received
  rw [advanceLangGraph_runtimeResponse hdistinct]
  by_cases haccepted : byteLength (runtimeResponse result) ≤ maxResponseBytes ∧ acceptedResult result = true
  · rw [if_pos haccepted, Option.bind_some, parseDurable_durableResult, parseResult]
    by_cases hvalid : validResult result = true
    · rw [if_pos hvalid]
      exact ⟨fun _ => ⟨haccepted.1, haccepted.2, hvalid⟩, fun _ => rfl⟩
    · rw [if_neg hvalid]
      constructor
      · intro h
        cases h
      · intro h
        exact absurd h.2.2 hvalid
  · rw [if_neg haccepted]
    constructor
    · intro h
      cases h
    · intro h
      exact absurd ⟨h.1, h.2.1⟩ haccepted

end

end ADT.Runtime
