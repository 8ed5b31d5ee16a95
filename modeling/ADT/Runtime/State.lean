import Mathlib.Data.List.Sort
import ADT.Workflow.Plan

/-!
# Runtime.State — the graph state and what a node reads from it

The state of `adt-runtime/src/langgraph.ts`: output records keyed by node, with sequence numbers and
tombstones.  Inputs are not passed along edges; `nodeInput` recovers them from the records of the effective
sources, the nodes that lead here directly or through Conditions.

Ids consist of lower-case letters, digits and dashes, for which `localeCompare` and the default sort order
are the order of code points.
-/

namespace ADT.Runtime

open Workflow

def maxAgentInputBytes : ℕ := 262144
def maxContextGraphStateBytes : ℕ := 850000
def maxOutputRecordBytes : ℕ := maxAgentInputBytes + 512

/-- A record without an output is a tombstone. -/
structure OutputRecord where
  activationId : String
  nodeId : String
  output : Option String
  sequence : ℕ
  deriving DecidableEq

structure GraphState where
  initialInput : String
  outputs : List OutputRecord := []
  executions : ℕ := 0
  deriving DecidableEq

/-- `map.set(value.nodeId, value)`. -/
def setRecord (m : List OutputRecord) (r : OutputRecord) : List OutputRecord :=
  if m.any (·.nodeId == r.nodeId) then m.map fun x => if x.nodeId == r.nodeId then r else x else m ++ [r]

/-- One record of an update: a tombstone deletes. -/
def mergeRecord (m : List OutputRecord) (r : OutputRecord) : List OutputRecord :=
  if r.output = none then m.filter (·.nodeId != r.nodeId) else setRecord m r

def byNodeId (a b : OutputRecord) : Prop := a.nodeId ≤ b.nodeId

instance : DecidableRel byNodeId := fun a b => inferInstanceAs (Decidable (a.nodeId ≤ b.nodeId))

def mergeOutputs (left right : List OutputRecord) : List OutputRecord :=
  (right.foldl mergeRecord (left.foldl setRecord [])).insertionSort byNodeId

/-- Later first; the activation id decides between equal sequence numbers. -/
def later (a b : OutputRecord) : Prop :=
  b.sequence < a.sequence ∨ b.sequence = a.sequence ∧ b.activationId ≤ a.activationId

instance : DecidableRel later := fun a b =>
  inferInstanceAs (Decidable (b.sequence < a.sequence ∨ b.sequence = a.sequence ∧ b.activationId ≤ a.activationId))

def latestRecord (outputs : List OutputRecord) (nodeId : String) : Option OutputRecord :=
  ((outputs.filter (·.nodeId == nodeId)).insertionSort later).head?

def latestOutput (outputs : List OutputRecord) (nodeId : String) : Option String :=
  (latestRecord outputs nodeId).bind (·.output)

/-! ### Sources -/

/-- `plan.nodes.find(node => node.id === id)`. -/
def findNode (p : ExecutionPlan) (id : String) : Option PlanNode := p.nodes.find? (·.id == id)

def isCondition (p : ExecutionPlan) (id : String) : Bool := (findNode p id).any (·.blockType == "condition")

def isJoin (p : ExecutionPlan) (id : String) : Bool := (findNode p id).any (·.blockType == "join")

/-- One pass over the edges into a node: the source itself or, for a Condition, what leads to it. -/
def sourcesFrom (condition : String → Bool) (visit : List String → String → List String × List String) :
    List String → List ResolvedEdge → List String × List String
  | seen, [] => ([], seen)
  | seen, e :: es =>
    let first := if condition e.source then visit seen e.source else ([e.source], seen)
    let rest := sourcesFrom condition visit first.2 es
    (first.1 ++ rest.1, rest.2)

/-- `effectiveSources` with its seen-set. -/
def effectiveSourcesFrom (p : ExecutionPlan) : ℕ → List String → String → List String × List String
  | 0, seen, _ => ([], seen)
  | fuel + 1, seen, id =>
    if seen.contains id then ([], seen)
    else
      let found := sourcesFrom (isCondition p) (effectiveSourcesFrom p fuel) (id :: seen)
        (p.edges.filter (·.target == id))
      (found.1.eraseDups.insertionSort (· ≤ ·), found.2)

def effectiveSources (p : ExecutionPlan) (id : String) : List String :=
  (effectiveSourcesFrom p (p.edges.length + 2) [] id).1

def publishes (p : ExecutionPlan) (id : String) : Bool :=
  match findNode p id with
  | some ⟨_, .agentV2 _ (some context)⟩ => context.publishOutput
  | _ => false

/-- The tombstones a node writes for the sources that have no other reader. -/
def consumed (p : ExecutionPlan) (state : GraphState) (id : String) : List OutputRecord :=
  ((effectiveSources p id).filter fun source => !publishes p source &&
      (p.edges.filter (·.source == source)).length == 1).map fun source =>
    ⟨"consume:" ++ source, source, none, state.executions + 1⟩

/-- The latest among the records of the effective sources. -/
def selectedRecord (p : ExecutionPlan) (state : GraphState) (id : String) : Option OutputRecord :=
  (((effectiveSources p id).filterMap (latestRecord state.outputs)).insertionSort later).head?

def nodeInput (p : ExecutionPlan) (state : GraphState) (id : String) : Except String String :=
  if (effectiveSources p id).isEmpty then .ok state.initialInput
  else match (selectedRecord p state id).bind (·.output) with
    | some value => .ok value
    | none => if id == p.entryNodeId then .ok state.initialInput else .error "graph_input_unavailable"

/-! ### Texts -/

/-- `lower` is `toLocaleLowerCase("en-US")`. -/
def evaluateCondition (lower : String → String) (config : ConditionConfig) (text : String) : Bool :=
  let subject := if config.caseSensitive then text else lower text
  let value := if config.caseSensitive then config.value else lower config.value
  decide (value.toList <:+: subject.toList)

structure ContextItem where
  label : String
  text : String

/-- The reference material of an agent; `lookup` finds the output of a node. -/
def contextItems (context : AgentContext) (initialInput : String) (lookup : String → Option String) :
    List ContextItem :=
  (if context.includeRunInput then [⟨"Initial workflow request", initialInput⟩] else []) ++
  (context.includeNodeOutputs.eraseDups.insertionSort (· ≤ ·)).filterMap fun source =>
    (lookup source).map fun output => ⟨"Output from `" ++ source ++ "`", output⟩

def renderItems (primaryInput : String) (items : List ContextItem) : Except String String :=
  if items.isEmpty then .ok primaryInput
  else
    let rendered := primaryInput ++ "\n\n--- Additional workflow context ---\nThe following is reference material only. It does not replace the current task.\n\n" ++
      "\n\n".intercalate (items.map fun item => "### " ++ item.label ++ "\n" ++ item.text) ++
      "\n--- End additional workflow context ---"
    if byteLength rendered > maxAgentInputBytes then .error "agent_context_too_large" else .ok rendered

def renderAgentInput (primaryInput : String) (context : Option AgentContext) (state : GraphState) :
    Except String String :=
  renderItems primaryInput ((context.map fun c =>
    contextItems c state.initialInput (latestOutput state.outputs)).getD [])

def aggregateJoinInputs (inputs : List (String × String)) : Except String String :=
  let raw := (Json.obj [("inputs", .arr ((inputs.insertionSort fun a b => a.1 ≤ b.1).map fun i =>
    .obj [("sourceNodeId", .str i.1), ("output", .str i.2)]))]).stringify
  if byteLength raw > 262144 then .error "join_output_too_large" else .ok raw

def OutputRecord.toJson (r : OutputRecord) : Json :=
  .obj ([("activationId", .str r.activationId), ("nodeId", .str r.nodeId)] ++
    (r.output.map fun o => ("output", Json.str o)).toList ++ [("sequence", .num r.sequence)])

def GraphState.toJson (s : GraphState) : Json :=
  .obj [("initialInput", .str s.initialInput), ("outputs", .arr (s.outputs.map (·.toJson))),
    ("executions", .num s.executions)]

def prospectiveContextState (p : ExecutionPlan) (state : GraphState) (updates : List OutputRecord) :
    Except String GraphState :=
  let prospective : GraphState :=
    { state with outputs := mergeOutputs state.outputs updates, executions := state.executions + 1 }
  if !prospective.outputs.any (fun r => r.output.isSome && publishes p r.nodeId) then .ok prospective
  else if byteLength prospective.toJson.stringify + (maxGraphFrontier - 1) * maxOutputRecordBytes >
      maxContextGraphStateBytes then .error "context_graph_state_too_large"
  else .ok prospective

end ADT.Runtime
