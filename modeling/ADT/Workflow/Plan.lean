import ADT.Lib.Superstep
import ADT.Workflow.TopologyFacts

/-!
# Workflow.Plan — the execution plan and its state graph

`compileWorkflowV2ExecutionPlan` and `projectExecutionPlanForRuntime` of `lib/workflow-definitions.ts`,
and the edges `compileGenericStateGraph` of `adt-runtime/src/langgraph.ts` adds to the graph builder.
`GraphOf` says what the state graph has to do with the definition, and `GraphOf.structured` that it is
structured in the sense of `Lib.Superstep`.
-/

namespace ADT.Workflow

open Search Superstep

def BlockConfig.blockType : BlockConfig → String
  | .agentV1 .. | .agentV2 .. | .agentV3 .. => "agent"
  | .condition .. => "condition"
  | .approval .. => "approval"
  | .publishGitHubPr .. => "publish-github-pr"
  | .subworkflow .. => "subworkflow"
  | .join => "join"

structure PlanNode where
  id : String
  config : BlockConfig
  deriving DecidableEq

def PlanNode.blockType (n : PlanNode) : String := n.config.blockType

structure ExecutionPlan where
  nodes : List PlanNode
  edges : List ResolvedEdge
  entryNodeId : String
  terminalNodeId : String
  maxStepExecutions : ℕ
  deriving DecidableEq

/-- Why no plan comes out: the issues of a schema, or a thrown message. -/
inductive PlanError where
  | schema (issues : List Issue)
  | thrown (message : String)
  deriving DecidableEq

def thrown {α : Type} : Except String α → Except PlanError α
  | .ok a => .ok a
  | .error m => .error (.thrown m)

theorem thrown_ok {α : Type} {x : Except String α} {a : α} : thrown x = .ok a ↔ x = .ok a := by
  cases x <;> simp [thrown]

/-! ### The entry node -/

/-- `outgoing.get(id)`: the targets of the edges as they stand. -/
def edgeTargets (edges : List WorkflowEdge) (id : String) : List String :=
  (edges.filter (·.source == id)).map (·.target)

/-- The targets of the Condition edges that lie on a cycle. -/
def entryCandidates (nodes : List WorkflowNode) (edges : List WorkflowEdge) : List String :=
  (edges.filter fun e => (nodes.reverse.find? (·.id == e.source)).map (·.blockType) == some "condition" &&
    (search (fun id => if id == e.source then some true else none) (fun _ => false) (fun n => n)
      (edgeTargets edges) (nodes.length + 1) [] e.target).1).map (·.target)

/-- Both callers pass edges between the given nodes. -/
def graphEntryNode (nodes : List WorkflowNode) (edges : List WorkflowEdge) : Except String String :=
  match (nodes.map (·.id)).eraseDups.filter fun id => edges.all (·.target != id) with
  | [root] => .ok root
  | _ =>
    match entryCandidates nodes edges with
    | [] => .error "unsupported_workflow_topology:ambiguous_entry"
    | c :: cs => if cs.all (· == c) then .ok c else .error "unsupported_workflow_topology:ambiguous_entry"

/-! ### Compilation -/

def AgentContext.active (c : AgentContext) : Bool :=
  c.publishOutput || c.includeRunInput || !c.includeNodeOutputs.isEmpty

/-- The lowest agent version that carries what is left. -/
def agentConfig (agentId : String) (context : Option AgentContext) : BlockConfig :=
  if context.any (·.active) then .agentV2 agentId context else .agentV1 agentId

/-- An agent keeps its conversation, or else its context if it has one that matters. -/
def planConfig : BlockConfig → BlockConfig
  | .agentV2 a context => agentConfig a context
  | .agentV3 a context (some conversation) => .agentV3 a context (some conversation)
  | .agentV3 a context none => agentConfig a context
  | config => config

/-- `genericPlanNode`. -/
def planConfigSchema : BlockConfig → Bool
  | .agentV1 a => definitionId a
  | .agentV2 a context => definitionId a && contextSchema context
  | .agentV3 a context conversation => definitionId a && contextSchema context && conversation.all definitionId
  | .condition c => 1 ≤ utf16Length c.value && utf16Length c.value ≤ 4096
  | .approval message => trimmedText approvalMessageMaxLength message
  | .publishGitHubPr c => definitionId c.sourceNodeId && trimmedText 256 c.title && utf16Length c.body ≤ 65536
  | .subworkflow _ => false
  | .join => true
where
  contextSchema (context : Option AgentContext) : Bool := context.all fun c =>
    c.includeNodeOutputs.all definitionId && c.includeNodeOutputs.length ≤ maxAgentContextSources

/-- `genericWorkflowExecutionPlanSchema`. -/
def planSchema (p : ExecutionPlan) : Bool :=
  !p.nodes.isEmpty && p.nodes.length ≤ maxWorkflowSteps &&
  p.nodes.all (fun n => definitionId n.id && planConfigSchema n.config) &&
  p.edges.length ≤ stepExecutionsMax &&
  p.edges.all (fun e => definitionId e.source && definitionId e.sourcePort && definitionId e.target &&
    definitionId e.targetPort) &&
  definitionId p.entryNodeId && definitionId p.terminalNodeId &&
  1 ≤ p.maxStepExecutions && p.maxStepExecutions ≤ stepExecutionsMax

def parsePlan (p : ExecutionPlan) : Except PlanError ExecutionPlan :=
  if planSchema p then .ok p else .error (.schema [⟨"Invalid", []⟩])

/-- The first agent a node refers to that is not among `agents`. -/
def checkAgents (agents : List String) : List WorkflowNode → Except String Unit
  | [] => .ok ()
  | n :: ns => do
    let config ← references n.blockType n.blockVersion n.config
    match config.agentIds.find? (!agents.contains ·) with
    | some agentId => .error ("missing_agent:" ++ agentId)
    | none => checkAgents agents ns

def planNode (n : WorkflowNode) : Except String PlanNode := do
  let config ← validate n.blockType n.blockVersion n.config
  .ok ⟨n.id, planConfig config⟩

/-- `agents` are the ids of the agents. -/
def compileWorkflowV2ExecutionPlan (workflow : WorkflowDefinitionV2) (agents : List String) :
    Except PlanError ExecutionPlan := do
  let parsed ← match workflow.parse with
    | .ok p => .ok p
    | .error issues => .error (.schema issues)
  thrown (checkAgents agents parsed.nodes)
  let nodes ← thrown (parsed.nodes.mapM planNode)
  let edges ← thrown (parsed.edges.mapM parsed.resolveEdge)
  let entryNodeId ← thrown (graphEntryNode parsed.nodes parsed.edges)
  match (parsed.nodes.map (·.id)).eraseDups.find? fun id => parsed.edges.all (·.source != id) with
  | none => .error (.thrown "TypeError")
  | some terminalNodeId => parsePlan ⟨nodes, edges, entryNodeId, terminalNodeId, parsed.maxStepExecutions⟩

/-- An agent without its conversation. -/
def runtimeConfig : BlockConfig → BlockConfig
  | .agentV3 a context _ => agentConfig a context
  | config => config

/-- The plan without its conversations. -/
def runtimePlan (p : ExecutionPlan) : ExecutionPlan :=
  { p with nodes := p.nodes.map fun n => { n with config := runtimeConfig n.config } }

def projectExecutionPlanForRuntime (p : ExecutionPlan) : Except PlanError ExecutionPlan :=
  parsePlan (runtimePlan p)

def maxGraphFrontier : ℕ := 3

namespace ExecutionPlan

variable (p : ExecutionPlan)

/-- `byId.get(id)?.blockType`. -/
def blockTypeOf (id : String) : Option String := (p.nodes.reverse.find? (·.id == id)).map (·.blockType)

def nonJoin (id : String) : List ResolvedEdge :=
  p.edges.filter fun e => e.source == id && p.blockTypeOf e.target != some "join"

/-- `routes`, a later edge overwriting an earlier one of the same port. -/
def routeFor (id port : String) : Option String :=
  (((p.nonJoin id).filter (·.sourcePort == port)).getLast?).map (·.target)

/-- The name the router of a Condition returns. -/
def outcomePort (b : Bool) : String := if b then "true" else "false"

def stateGraph : StateGraph String Bool where
  entry := p.entryNodeId
  plain := p.nodes.flatMap fun n =>
    if n.blockType == "condition" then [] else (p.nonJoin n.id).map fun e => (n.id, e.target)
  route id b :=
    if p.nodes.any (fun n => n.id == id && n.blockType == "condition") then p.routeFor id (outcomePort b) else none
  waiting := (p.nodes.filter (·.blockType == "join")).map fun n =>
    (((p.edges.filter (·.target == n.id)).map (·.source)).eraseDups, n.id)

end ExecutionPlan

/-- `compileGenericStateGraph`: which node triggers which. -/
def compileGenericStateGraph (p : ExecutionPlan) : Except String (StateGraph String Bool) :=
  if (p.nodes.map (·.id)).Nodup ∧ p.entryNodeId ∈ p.nodes.map (·.id) ∧ p.terminalNodeId ∈ p.nodes.map (·.id) then
    .ok p.stateGraph
  else .error "langgraph_plan_invalid"

/-- The graph the runtime builds for a plan. -/
def runtimeGraph (p : ExecutionPlan) : Except PlanError (StateGraph String Bool) := do
  let projected ← projectExecutionPlanForRuntime p
  thrown (compileGenericStateGraph projected)

/-! ### What compilation keeps -/

section Keeps

variable {w : WorkflowDefinitionV2} {p : ExecutionPlan}

theorem validate_blockType {type : String} {version : ℕ} {config : Json} {c : BlockConfig}
    (h : validate type version config = .ok c) : c.blockType = type := by
  cases configRead h <;> rfl

theorem planConfig_blockType (c : BlockConfig) : (planConfig c).blockType = c.blockType := by
  unfold planConfig agentConfig
  split <;> (try split) <;> rfl

theorem runtimeConfig_blockType (c : BlockConfig) : (runtimeConfig c).blockType = c.blockType := by
  unfold runtimeConfig agentConfig
  split <;> (try split) <;> rfl

/-- The plan has the nodes, edges, entry, terminal and limit of the definition. -/
structure PlanOf (w : WorkflowDefinitionV2) (p : ExecutionPlan) : Prop where
  nodes : p.nodes.map (fun n => (n.id, n.blockType)) = w.nodes.map fun n => (n.id, n.blockType)
  edges : p.edges = w.resolvedEdges
  entry : w.entries = [p.entryNodeId]
  terminal : w.terminals = [p.terminalNodeId]
  limit : p.maxStepExecutions = w.maxStepExecutions

theorem PlanOf.blockTypeOf (h : PlanOf w p) (id : String) : p.blockTypeOf id = w.blockTypeOf id := by
  have hfind := congrArg (fun l => (l.reverse.find? (fun x : String × String => x.1 == id)).map (·.2)) h.nodes
  simpa [← List.map_reverse, List.find?_map, Option.map_map, Function.comp_def, ExecutionPlan.blockTypeOf,
    WorkflowDefinitionV2.blockTypeOf, WorkflowDefinitionV2.byId] using hfind

variable {q : ExecutionPlan} {agents : List String}

theorem parsePlan_ok (h : parsePlan p = .ok q) : q = p ∧ planSchema p = true := by
  unfold parsePlan at h
  split_ifs at h with hs
  cases h
  exact ⟨rfl, hs⟩

theorem planNode_ok {n : WorkflowNode} {m : PlanNode} (h : planNode n = .ok m) :
    (m.id, m.blockType) = (n.id, n.blockType) := by
  obtain ⟨c, hc, h⟩ := except_bind_ok.mp h
  cases h
  rw [PlanNode.blockType, planConfig_blockType, validate_blockType hc]

theorem planNodes_ok {ns : List WorkflowNode} {ms : List PlanNode}
    (h : List.Forall₂ (fun n m => planNode n = .ok m) ns ms) :
    ms.map (fun m => (m.id, m.blockType)) = ns.map fun n => (n.id, n.blockType) := by
  induction h with
  | nil => rfl
  | cons hx _ ih => rw [List.map_cons, List.map_cons, ih, planNode_ok hx]

theorem filterMap_of_forall₂ {α β : Type} {f : α → Except String β} {xs : List α} {ys : List β}
    (h : List.Forall₂ (fun x y => f x = .ok y) xs ys) : xs.filterMap (fun x => (f x).toOption) = ys := by
  induction h with
  | nil => rfl
  | cons hx _ ih => rw [List.filterMap_cons, hx, ← ih]; rfl

/-! The entry and the terminal of the plan are those the validator found. -/

theorem edgeTargets_eq (h : w.Facts) (id : String) : edgeTargets w.edges id = w.targets id := by
  have hall : ∀ es : List WorkflowEdge, (∀ e ∈ es, ∃ r, w.resolveEdge e = .ok r) →
      edgeTargets es id =
        ((es.filterMap fun e => (w.resolveEdge e).toOption).filter (·.source == id)).map (·.target) := by
    intro es hes
    induction es with
    | nil => rfl
    | cons e es ih =>
      obtain ⟨r, hr⟩ := hes e (by simp)
      obtain ⟨hs, ht, -⟩ := WorkflowDefinitionV2.resolveEdge_ok hr
      have ih' := ih fun e' he' => hes e' (by simp [he'])
      unfold edgeTargets at ih' ⊢
      rw [List.filterMap_cons, hr]
      show _ = ((r :: _).filter _).map _
      by_cases hid : e.source = id
      · rw [List.filter_cons_of_pos (by simp [hid]), List.filter_cons_of_pos (by simp [hs, hid]),
          List.map_cons, List.map_cons, ih', ht]
      · rw [List.filter_cons_of_neg (by simp [hid]), List.filter_cons_of_neg (by simp [hs, hid]), ih']
  exact hall w.edges h.resolves

theorem ends_all_ne {of : WorkflowEdge → String} {of' : ResolvedEdge → String}
    (hends : ∀ e r, w.resolveEdge e = .ok r → of' r = of e) (h : w.Facts) (id : String) :
    (w.edges.all (of · != id)) = (w.resolvedEdges.filter (of' · == id)).isEmpty := by
  rw [Bool.eq_iff_iff, List.all_eq_true, List.isEmpty_iff, List.filter_eq_nil_iff]
  constructor
  · intro hall r hr
    obtain ⟨e, he, hres⟩ := WorkflowDefinitionV2.mem_resolvedEdges.mp hr
    have hne := hall e he
    rw [← hends e r hres] at hne
    simpa using hne
  · intro hno e he
    obtain ⟨r, hr⟩ := h.resolves e he
    have hne := hno r (WorkflowDefinitionV2.mem_resolvedEdges.mpr ⟨e, he, hr⟩)
    rw [hends e r hr] at hne
    simpa using hne

theorem target_all_ne_iff (h : w.Facts) (id : String) :
    (w.edges.all (·.target != id)) = (w.incoming id).isEmpty :=
  ends_all_ne (fun _ _ hr => (WorkflowDefinitionV2.resolveEdge_ok hr).2.1) h id

theorem source_all_ne_iff (h : w.Facts) (id : String) :
    (w.edges.all (·.source != id)) = (w.outgoing id).isEmpty :=
  ends_all_ne (fun _ _ hr => (WorkflowDefinitionV2.resolveEdge_ok hr).1) h id

theorem entryCandidates_eq (h : w.Facts) : entryCandidates w.nodes w.edges = w.cycleRoots := by
  have htargets : edgeTargets w.edges = w.targets := funext (edgeTargets_eq h)
  unfold entryCandidates WorkflowDefinitionV2.cycleRoots WorkflowDefinitionV2.canReach
  rw [htargets]
  rfl

theorem eraseDups_eq_singleton {c e : String} {cs : List String} (h : (c :: cs).eraseDups = [e]) :
    c = e ∧ cs.all (· == c) = true := by
  rw [List.eraseDups_cons, List.cons.injEq] at h
  refine ⟨h.1, List.all_eq_true.mpr fun x hx => ?_⟩
  by_contra hne
  have hmem : x ∈ (cs.filter fun b => !b == c).eraseDups := by
    rw [List.mem_eraseDups, List.mem_filter]
    exact ⟨hx, by simpa using hne⟩
  rw [h.2] at hmem
  cases hmem

theorem graphEntryNode_eq (h : w.Facts) {e : String} (he : w.entries = [e]) :
    graphEntryNode w.nodes w.edges = .ok e := by
  have hroots : (w.nodes.map (·.id)).eraseDups.filter (fun id => w.edges.all (·.target != id)) = w.roots :=
    List.filter_congr fun id _ => target_all_ne_iff h id
  unfold graphEntryNode
  rw [hroots, entryCandidates_eq h]
  unfold WorkflowDefinitionV2.entries at he
  split at he
  · rename_i hempty
    rw [List.isEmpty_iff.mp hempty]
    cases hcr : w.cycleRoots with
    | nil => rw [hcr] at he; cases he
    | cons c cs =>
      rw [hcr] at he
      obtain ⟨rfl, hall⟩ := eraseDups_eq_singleton he
      simp only [hall, if_true]
  · rw [he]

theorem compile_ok (hw : w.Accepted) (h : compileWorkflowV2ExecutionPlan w agents = .ok p) :
    List.Forall₂ (fun n m => planNode n = .ok m) w.nodes p.nodes ∧
    List.Forall₂ (fun e r => w.resolveEdge e = .ok r) w.edges p.edges ∧
    graphEntryNode w.nodes w.edges = .ok p.entryNodeId ∧
    w.nodeIds.find? (fun id => w.edges.all (·.source != id)) = some p.terminalNodeId ∧
    p.maxStepExecutions = w.maxStepExecutions ∧ planSchema p = true := by
  unfold compileWorkflowV2ExecutionPlan at h
  rw [parse_accepted hw] at h
  obtain ⟨_, hparsed, h⟩ := except_bind_ok.mp h
  cases hparsed
  obtain ⟨_, -, h⟩ := except_bind_ok.mp h
  obtain ⟨nodes, hnodes, h⟩ := except_bind_ok.mp h
  obtain ⟨edges, hedges, h⟩ := except_bind_ok.mp h
  obtain ⟨entry, hentry, h⟩ := except_bind_ok.mp h
  split at h
  · cases h
  · rename_i t ht
    obtain ⟨rfl, hschema⟩ := parsePlan_ok h
    exact ⟨mapM_ok (thrown_ok.mp hnodes), mapM_ok (thrown_ok.mp hedges), thrown_ok.mp hentry, ht, rfl, hschema⟩

/-- **What compilation keeps.** -/
theorem planOf_compile (hw : w.Accepted) (h : compileWorkflowV2ExecutionPlan w agents = .ok p) : PlanOf w p := by
  obtain ⟨hnodes, hedges, hentry, hterm, hlimit, -⟩ := compile_ok hw h
  obtain ⟨e, he⟩ := hw.facts.entry
  obtain ⟨t, ht⟩ := hw.facts.terminal
  rw [graphEntryNode_eq hw.facts he, Except.ok.injEq] at hentry
  refine ⟨planNodes_ok hnodes, (filterMap_of_forall₂ hedges).symm, hentry ▸ he, ?_, hlimit⟩
  have hhead : w.terminals.head? = some p.terminalNodeId := by
    rw [WorkflowDefinitionV2.terminals, List.head?_filter, ← hterm]
    exact congrArg (fun f => List.find? f w.nodeIds) (funext fun id => (source_all_ne_iff hw.facts id).symm)
  rw [ht] at hhead
  cases hhead
  exact ht

theorem planOf_project (h : PlanOf w p) (hq : projectExecutionPlanForRuntime p = .ok q) : PlanOf w q := by
  obtain ⟨rfl, -⟩ := parsePlan_ok hq
  refine ⟨?_, h.edges, h.entry, h.terminal, h.limit⟩
  rw [← h.nodes, runtimePlan, List.map_map]
  exact List.map_congr_left fun n _ => by simp [PlanNode.blockType, runtimeConfig_blockType]

end Keeps

end ADT.Workflow
