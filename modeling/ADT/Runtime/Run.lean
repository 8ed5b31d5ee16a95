import ADT.Runtime.Records
import ADT.Workflow.Supersteps

/-!
# Runtime.Run — node functions and whole runs

The node functions `compileGenericStateGraph` registers, and the runs of the graph: in a superstep every
active node runs on the state of its start, the updates are merged by the reducers, and the control state
moves on by `Lib.Superstep`.  What is outside (the answers of the providers, the task ids, the order in which
the updates of a superstep are merged, the lower-casing of texts) is an `Environment`.
-/

namespace ADT.Runtime

open Workflow Superstep

/-! ### Node functions -/

/-- The text handed to an agent or publish node. -/
def agentInput (p : ExecutionPlan) (state : GraphState) (n : PlanNode) : Except String String := do
  let primary ← nodeInput p state n.id
  match n.config with
  | .agentV2 _ context => renderAgentInput primary context state
  | _ => .ok primary

def joinSources (p : ExecutionPlan) (id : String) : List String :=
  ((p.edges.filter (·.target == id)).map (·.source)).eraseDups

/-- What a Join reads of one branch. -/
def joinInput (state : GraphState) (source : String) : Except String (String × String) :=
  match latestOutput state.outputs source with
  | some output => .ok (source, output)
  | none => .error "join_input_unavailable"

def joinText (p : ExecutionPlan) (state : GraphState) (id : String) : Except String String := do
  let inputs ← (joinSources p id).mapM (joinInput state)
  aggregateJoinInputs inputs

/-- The output of a node, a Condition having none; `answer` is what `execute` returns. -/
def nodeOutput (p : ExecutionPlan) (state : GraphState) (answer : String) (n : PlanNode) :
    Except String (Option String) :=
  match n.config with
  | .agentV1 _ | .agentV2 _ _ | .agentV3 _ _ _ | .publishGitHubPr _ => do
    let _ ← agentInput p state n
    .ok (some answer)
  | .condition _ => do
    let _ ← nodeInput p state n.id
    .ok none
  | .approval _ => do
    let input ← nodeInput p state n.id
    .ok (some input)
  | .join | .subworkflow _ => do
    let text ← joinText p state n.id
    .ok (some text)

/-- A Join deletes every record that is not published; the others delete what they consume. -/
def tombstones (p : ExecutionPlan) (state : GraphState) (n : PlanNode) : List OutputRecord :=
  match n.config with
  | .condition _ => []
  | .join | .subworkflow _ =>
    (state.outputs.filter fun r => r.nodeId != n.id && !publishes p r.nodeId).map fun r =>
      ⟨"consume:" ++ r.nodeId, r.nodeId, none, state.executions + 1⟩
  | _ => consumed p state n.id

/-- The record an activation leaves. -/
def outputRecord (state : GraphState) (activationId : String) (n : PlanNode) (text : String) : OutputRecord :=
  ⟨activationId, n.id, some text, state.executions + 1⟩

/-- A node function: its update of `outputs`, which a Condition does not write. -/
def activate (p : ExecutionPlan) (state : GraphState) (activationId answer id : String) :
    Except String (Option (List OutputRecord)) :=
  if p.maxStepExecutions ≤ state.executions then .error "execution_limit_exceeded"
  else match findNode p id with
    | none => .error "langgraph_plan_invalid"
    | some n => do
      match ← nodeOutput p state answer n with
      | none => .ok none
      | some text =>
        let updates := tombstones p state n ++ [outputRecord state activationId n text]
        let _ ← prospectiveContextState p state updates
        .ok (some updates)

/-! ### Runs -/

/-- `order` lists the active nodes as their updates are merged. -/
structure Environment where
  answer : ℕ → String → String
  task : ℕ → String → String
  order : ℕ → (active : Finset String) → { l : List String // l.Nodup ∧ ∀ id, id ∈ l ↔ id ∈ active }
  lower : String → String

structure Config where
  control : State String
  graph : GraphState

/-- The reducers of the state, one node after the other. -/
def applyWrites (state : GraphState) (writes : List (Option (List OutputRecord))) : GraphState :=
  { state with
    outputs := writes.foldl (fun outputs write => (write.map (mergeOutputs outputs)).getD outputs) state.outputs
    executions := state.executions + writes.length }

/-- The route of a Condition.  Its router reads the state after the node, which has the same records. -/
def outcomeOf (lower : String → String) (p : ExecutionPlan) (state : GraphState) (id : String) : Bool :=
  match findNode p id, nodeInput p state id with
  | some ⟨_, .condition config⟩, .ok text => evaluateCondition lower config text
  | _, _ => false

def superstep (env : Environment) (p : ExecutionPlan) (n : ℕ) (c : Config) : Except String Config := do
  let writes ← (env.order n c.control.active).1.mapM fun id =>
    activate p c.graph (env.task n id) (env.answer n id) id
  .ok ⟨p.stateGraph.step (outcomeOf env.lower p c.graph) c.control, applyWrites c.graph writes⟩

/-- The configuration before superstep `n`, unless a node function failed before. -/
def run (env : Environment) (p : ExecutionPlan) (initialInput : String) : ℕ → Except String Config
  | 0 => .ok ⟨p.stateGraph.start, { initialInput := initialInput }⟩
  | n + 1 => do
    let c ← run env p initialInput n
    superstep env p n c

section Outputs

variable (env : Environment) (p : ExecutionPlan) (input : String)

/-- The output of the activation of a node in superstep `n`. -/
def outputAt (n : ℕ) (id : String) : Option String :=
  match run env p input n, findNode p id with
  | .ok c, some node =>
    match nodeOutput p c.graph (env.answer n id) node with
    | .ok output => output
    | .error _ => none
  | _, _ => none

/-- The output of the most recent activation of a node before superstep `n`. -/
def lastOutput : ℕ → String → Option String
  | 0, _ => none
  | n + 1, s =>
    match run env p input n with
    | .ok c => if s ∈ c.control.active then outputAt env p input n s else lastOutput n s
    | .error _ => none

end Outputs

/-! ### One spec lemma per function -/

section Spec

variable {env : Environment} {p : ExecutionPlan} {st : GraphState}

theorem activate_ok {task answer id : String} {write : Option (List OutputRecord)}
    (h : activate p st task answer id = .ok write) :
    ∃ n text, findNode p id = some n ∧ nodeOutput p st answer n = .ok text ∧
      write = text.map fun t => tombstones p st n ++ [outputRecord st task n t] := by
  unfold activate at h
  split_ifs at h
  split at h
  · cases h
  · rename_i n hn
    obtain ⟨text, htext, h⟩ := except_bind_ok.mp h
    refine ⟨n, text, hn, htext, ?_⟩
    cases text with
    | none => cases h; rfl
    | some t =>
      obtain ⟨_, -, h⟩ := except_bind_ok.mp h
      cases h
      rfl

theorem run_succ {input : String} {n : ℕ} {c' : Config} (h : run env p input (n + 1) = .ok c') :
    ∃ c, run env p input n = .ok c ∧ superstep env p n c = .ok c' := except_bind_ok.mp h

theorem superstep_ok {n : ℕ} {c c' : Config} (h : superstep env p n c = .ok c') :
    ∃ writes, List.Forall₂ (fun id write => activate p c.graph (env.task n id) (env.answer n id) id = .ok write)
        (env.order n c.control.active).1 writes ∧
      c'.control = p.stateGraph.step (outcomeOf env.lower p c.graph) c.control ∧
      c'.graph = applyWrites c.graph writes := by
  obtain ⟨writes, hw, h⟩ := except_bind_ok.mp h
  cases h
  exact ⟨writes, mapM_ok hw, rfl, rfl⟩

theorem tombstones_spec {n : PlanNode} : ∀ r ∈ tombstones p st n, r.output = none ∧ publishes p r.nodeId = false := by
  intro r hr
  unfold tombstones at hr
  split at hr
  · simp at hr
  · obtain ⟨x, hx, rfl⟩ := List.mem_map.mp hr
    simp only [List.mem_filter, Bool.and_eq_true, Bool.not_eq_true'] at hx
    exact ⟨rfl, hx.2.2⟩
  · obtain ⟨x, hx, rfl⟩ := List.mem_map.mp hr
    simp only [List.mem_filter, Bool.and_eq_true, Bool.not_eq_true'] at hx
    exact ⟨rfl, hx.2.2⟩
  · obtain ⟨x, hx, rfl⟩ := List.mem_map.mp hr
    simp only [List.mem_filter, Bool.and_eq_true, Bool.not_eq_true'] at hx
    exact ⟨rfl, hx.2.1⟩

theorem findNode_id {id : String} {n : PlanNode} (h : findNode p id = some n) : n ∈ p.nodes ∧ n.id = id :=
  ⟨List.mem_of_find?_eq_some h, by simpa using List.find?_some h⟩

theorem nodeOutput_none_iff {answer : String} {n : PlanNode} {text : Option String}
    (h : nodeOutput p st answer n = .ok text) : text = none ↔ n.blockType = "condition" := by
  unfold nodeOutput at h
  split at h <;> obtain ⟨x, -, h⟩ := except_bind_ok.mp h <;> cases h <;>
    simp_all [PlanNode.blockType, BlockConfig.blockType]

end Spec

end ADT.Runtime
