import ADT.Lib.JsonText
import ADT.Runtime.State

/-!
# Runtime.NodeGateway — `graphNodeResponse`

How `adt-runtime/src/langgraph.ts` reads the answer of the graph-node gateway, and the errors it throws when a node has
no output yet.
-/

namespace ADT.Runtime

inductive NodeState
  | pending | failed | cancelled
  deriving DecidableEq

inductive FailureKind
  | unavailable | invalid | backend
  deriving DecidableEq

inductive TransportOutcome
  | responseReceived | timeout | networkError
  deriving DecidableEq

/-- `NodePending` and `GraphNodeGatewayFailure` -/
inductive NodeError
  | nodePending (state : NodeState) (safeMessage : Option String) (retryAfterMs : Option ℤ)
  | gatewayFailure (kind : FailureKind) (httpStatus : Option ℕ) (transportOutcome : Option TransportOutcome)
  deriving DecidableEq

def NodeError.message : NodeError → String
  | .nodePending _ _ _ => "langgraph_node_pending"
  | .gatewayFailure .invalid _ _ => "graph_node_gateway_invalid"
  | .gatewayFailure _ _ _ => "graph_node_gateway_unavailable"

/-- `error.name`, which neither class sets. -/
def NodeError.name (_ : NodeError) : String := "Error"

/-! ### The answer -/

/-- What is read of the parsed answer: properties that have the expected type. -/
structure Wire where
  state : Option String
  outputText : Option String
  safeMessage : Option String
  retryAfterMs : Option ℚ

def wireOf (value : Json) : Wire where
  state := (value.get? "state").bind Json.asStr?
  outputText := (value.get? "outputText").bind Json.asStr?
  safeMessage := (value.get? "safeMessage").bind Json.asStr?
  retryAfterMs := match value.get? "retryAfterMs" with
    | some (.num n) => some n
    | _ => none

/-- The first `n` code units of a text; half of a surrogate pair becomes the replacement character. -/
def sliceUnits : ℕ → List Char → List Char
  | _, [] => []
  | n, c :: cs =>
    let units := if c.toNat < 0x10000 then 1 else 2
    if units ≤ n then c :: sliceUnits (n - units) cs
    else if n = 0 then [] else [Char.ofNat 0xFFFD]

def sliceMessage (message : String) : String := String.ofList (sliceUnits 512 message.toList)

def round (x : ℚ) : ℤ := ⌊x + 1 / 2⌋

def clampDelay (x : ℚ) : ℤ := max 1000 (min 900000 (round x))

def maxNodeResponseBytes : ℕ := 300000

/-- `graphNodeResponse`; the body is missing where reading it fails. -/
def graphNodeResponse (parse : String → Option Wire) (status : ℕ) (body : Option String) : Except NodeError String :=
  let malformed : Except NodeError String :=
    .error (.gatewayFailure (if [401, 403, 409].contains status then .invalid else .unavailable) (some status)
      (some .responseReceived))
  let ok := 200 ≤ status && status ≤ 299
  if status ≥ 500 then .error (.gatewayFailure .backend (some status) (some .responseReceived))
  else
    match body with
    | none => .error (.gatewayFailure .unavailable (some status) (some .responseReceived))
    | some raw =>
      if byteLength raw > maxNodeResponseBytes then malformed
      else
        match parse raw with
        | none => malformed
        | some wire =>
          if ok && wire.state == some "completed" && wire.outputText.any (byteLength · ≤ maxAgentInputBytes) then
            .ok (wire.outputText.getD "")
          else if ok && wire.state == some "pending" then
            .error (.nodePending .pending none (wire.retryAfterMs.map clampDelay))
          else if ok && wire.state == some "cancelled" then
            .error (.nodePending .cancelled (wire.safeMessage.map sliceMessage) none)
          else if status == 422 && wire.state == some "failed" && wire.safeMessage.isSome then
            .error (.nodePending .failed (wire.safeMessage.map sliceMessage) none)
          else malformed

/-- The outcome of one call of the gateway: an answer, or an error on the way to it. -/
inductive GatewayCall
  | noAuthority
  | transport (outcome : TransportOutcome)
  | answered (status : ℕ) (body : Option String)

def callOutcome (parse : String → Option Wire) : GatewayCall → Except NodeError String
  | .noAuthority => .error (.gatewayFailure .invalid none none)
  | .transport outcome => .error (.gatewayFailure .unavailable none (some outcome))
  | .answered status body => graphNodeResponse parse status body

/-- The parser the Runtime reads an answer with. -/
def parseWire (raw : String) : Option Wire := (Json.parse raw).map wireOf

end ADT.Runtime
