import ADT.Lib.JsonSize
import ADT.Runtime.RuntimePlan

/-!
# Runtime.PlanSchema — every accepted definition compiles to a plan the runtime accepts

The plan part of `graphExecutionSchema` of `adt-runtime/src/langgraph.ts`, which is stated there once more, and what the
plan that reaches the runtime has in common with the definition and with the plan the Worker keeps.
-/

namespace ADT.Runtime

open Search Workflow WorkflowDefinitionV2

/-- `z.string().min(1).max(256)` -/
def bounded (s : String) : Bool := 1 ≤ utf16Length s && utf16Length s ≤ 256

/-- The configurations of `genericNode`. -/
def genericNode : BlockConfig → Bool
  | .agentV1 agentId => bounded agentId
  | .agentV2 agentId context => bounded agentId && context.all fun c =>
      c.includeNodeOutputs.all bounded && c.includeNodeOutputs.length ≤ 16
  | .agentV3 .. => false
  | .condition c => 1 ≤ utf16Length c.value && utf16Length c.value ≤ 4096
  | .approval message => trimmedText 2000 message
  | .publishGitHubPr c => bounded c.sourceNodeId && trimmedText 256 c.title && utf16Length c.body ≤ 65536
  | .subworkflow _ => false
  | .join => true

def genericEdge (e : ResolvedEdge) : Bool :=
  bounded e.source && bounded e.sourcePort && bounded e.target && bounded e.targetPort

/-- `graphExecutionSchema.plan` -/
def graphPlanSchema (p : ExecutionPlan) : Bool :=
  1 ≤ p.nodes.length && p.nodes.length ≤ 32 && p.nodes.all (fun n => bounded n.id && genericNode n.config) &&
    p.edges.length ≤ 128 && p.edges.all genericEdge && bounded p.entryNodeId && bounded p.terminalNodeId &&
    1 ≤ p.maxStepExecutions && p.maxStepExecutions ≤ 128

/-! ### What the two plans have in common -/

/-- The context of an agent, with the schema's defaults where it has none. -/
def fullContext (c : BlockConfig) : AgentContext := (contextOf c).getD ⟨false, false, []⟩

structure SameNode (m n : PlanNode) : Prop where
  id : n.id = m.id
  blockType : n.blockType = m.blockType
  agentIds : n.config.agentIds = m.config.agentIds
  context : fullContext n.config = fullContext m.config
  config : m.blockType ≠ "agent" → n.config = m.config

structure SamePlan (p q : ExecutionPlan) : Prop where
  nodes : List.Forall₂ SameNode p.nodes q.nodes
  edges : q.edges = p.edges
  entry : q.entryNodeId = p.entryNodeId
  terminal : q.terminalNodeId = p.terminalNodeId
  limit : q.maxStepExecutions = p.maxStepExecutions

theorem inactive_eq {c : AgentContext} (h : c.active = false) : c = ⟨false, false, []⟩ := by
  obtain ⟨publishOutput, includeRunInput, includeNodeOutputs⟩ := c
  simp only [AgentContext.active, Bool.or_eq_false_iff, Bool.not_eq_false', List.isEmpty_iff] at h
  obtain ⟨⟨rfl, rfl⟩, rfl⟩ := h
  rfl

theorem fullContext_agentConfig (a : String) (context : Option AgentContext) :
    fullContext (agentConfig a context) = context.getD ⟨false, false, []⟩ := by
  unfold agentConfig
  split
  · rfl
  · next hinactive =>
    cases context with
    | none => rfl
    | some c =>
      have hc : c.active = false := by simpa using hinactive
      exact (inactive_eq hc).symm

theorem agentIds_agentConfig (a : String) (context : Option AgentContext) : (agentConfig a context).agentIds = [a] := by
  unfold agentConfig
  split <;> rfl

theorem sameNode_runtime (n : PlanNode) : SameNode n { n with config := runtimeConfig n.config } where
  id := rfl
  blockType := runtimeConfig_blockType n.config
  agentIds := by
    obtain ⟨id, config⟩ := n
    cases config with
    | agentV3 a context conversation => exact agentIds_agentConfig a context
    | _ => rfl
  context := by
    obtain ⟨id, config⟩ := n
    cases config with
    | agentV3 a context conversation => exact fullContext_agentConfig a context
    | _ => rfl
  config := by
    obtain ⟨id, config⟩ := n
    intro htype
    cases config with
    | agentV3 a context conversation => exact absurd rfl htype
    | _ => rfl

theorem samePlan_runtime (p : ExecutionPlan) : SamePlan p (runtimePlan p) where
  nodes := by
    show List.Forall₂ SameNode p.nodes (p.nodes.map _)
    rw [List.forall₂_map_right_iff]
    exact List.forall₂_same.mpr fun n _ => sameNode_runtime n
  edges := rfl
  entry := rfl
  terminal := rfl
  limit := rfl

/-! ### What the schemas have in common -/

theorem bounded_of_definitionId {s : String} (h : definitionId s = true) : bounded s = true := by
  simp only [definitionId, Bool.and_eq_true, decide_eq_true_eq] at h
  obtain ⟨hmatch, hlength⟩ := h
  have hne : s ≠ "" := by
    rintro rfl
    cases hmatch
  have hpos : utf16Length s ≠ 0 := fun h0 => hne (utf16Length_eq_zero.mp h0)
  simp only [bounded, Bool.and_eq_true, decide_eq_true_eq]
  omega

theorem strField_some {j : Json} {k s : String} {check : String → Bool} (h : strField j k check = some s) :
    check s = true := by
  rw [strField, Option.filter_eq_some_iff] at h
  exact h.2

theorem trimmedText_trim {max : ℕ} {s : String} (h : trimmedText max s = true) : trimmedText max (trim s) = true := by
  rw [trimmedText, trim_trim]
  exact h

theorem contextSchema_of_field {j : Json} {context : Option AgentContext}
    (h : optField j "context" agentContextSchema = some context) : planConfigSchema.contextSchema context = true := by
  cases context with
  | none => rfl
  | some c =>
    obtain ⟨v, -, hv⟩ := Option.bind_eq_some_iff.mp (optField_some h).symm
    obtain ⟨hall, hlength⟩ := (agentContextSchema_some hv).ids
    simp only [planConfigSchema.contextSchema, Option.all_some, hall, Bool.true_and, decide_eq_true_eq]
    exact hlength

theorem conversation_of_field {j : Json} {conversation : Option String}
    (h : optField j "conversation" agentConversationSchema = some conversation) :
    conversation.all definitionId = true := by
  cases conversation with
  | none => rfl
  | some s =>
    obtain ⟨v, -, hv⟩ := Option.bind_eq_some_iff.mp (optField_some h).symm
    rw [agentConversationSchema, Option.ite_none_right_eq_some] at hv
    exact strField_some hv.2

theorem planConfigSchema_agentConfig {a : String} {context : Option AgentContext} (ha : definitionId a = true)
    (hcontext : planConfigSchema.contextSchema context = true) : planConfigSchema (agentConfig a context) = true := by
  unfold agentConfig
  split
  · simp only [planConfigSchema, ha, hcontext, Bool.and_self]
  · exact ha

theorem planConfigSchema_of_validate {type : String} {version : ℕ} {config : Json} {c : BlockConfig}
    (h : validate type version config = .ok c) (htype : type ≠ "subworkflow") :
    planConfigSchema (planConfig c) = true := by
  cases configRead h with
  | agentV1 ha => exact strField_some ha
  | agentV2 ha hcontext => exact planConfigSchema_agentConfig (strField_some ha) (contextSchema_of_field hcontext)
  | @agentV3 a context conversation ha hcontext hconversation =>
    have hread := contextSchema_of_field hcontext
    cases conversation with
    | none => exact planConfigSchema_agentConfig (strField_some ha) hread
    | some s =>
      have hs : definitionId s = true := conversation_of_field hconversation
      simp only [planConfig, planConfigSchema, strField_some ha, hread, Option.all_some, hs, Bool.and_self]
  | condition hvalue _ => exact strField_some hvalue
  | approval hmessage => exact trimmedText_trim (strField_some hmessage)
  | publish hsource htitle hbody _ =>
    simp only [planConfig, planConfigSchema, strField_some hsource, trimmedText_trim (strField_some htitle),
      Bool.true_and]
    exact strField_some hbody
  | subworkflow _ => exact absurd rfl htype
  | join => rfl

theorem genericNode_runtime {c : BlockConfig} (h : planConfigSchema c = true) : genericNode (runtimeConfig c) = true := by
  have hcontext : ∀ context, planConfigSchema.contextSchema context = true →
      (context.all fun c => c.includeNodeOutputs.all bounded && decide (c.includeNodeOutputs.length ≤ 16)) = true := by
    intro context hread
    cases context with
    | none => rfl
    | some c =>
      simp only [planConfigSchema.contextSchema, Option.all_some, Bool.and_eq_true, List.all_eq_true,
        decide_eq_true_eq] at hread ⊢
      exact ⟨fun s hs => bounded_of_definitionId (hread.1 s hs), hread.2⟩
  cases c with
  | agentV1 a => exact bounded_of_definitionId h
  | agentV2 a context =>
    simp only [planConfigSchema, Bool.and_eq_true] at h
    simp only [runtimeConfig, genericNode, bounded_of_definitionId h.1, hcontext context h.2, Bool.and_self]
  | agentV3 a context conversation =>
    simp only [planConfigSchema, Bool.and_eq_true] at h
    show genericNode (agentConfig a context) = true
    unfold agentConfig
    split
    · simp only [genericNode, bounded_of_definitionId h.1.1, hcontext context h.1.2, Bool.and_self]
    · exact bounded_of_definitionId h.1.1
  | condition config => exact h
  | approval message => exact h
  | publishGitHubPr config =>
    simp only [planConfigSchema, Bool.and_eq_true] at h
    simp only [runtimeConfig, genericNode, bounded_of_definitionId h.1.1, h.1.2, h.2, Bool.and_self]
  | subworkflow id => cases h
  | join => rfl

theorem graphPlanSchema_runtime {p : ExecutionPlan} (h : planSchema p = true) :
    graphPlanSchema (runtimePlan p) = true := by
  simp only [planSchema, Bool.and_eq_true, List.all_eq_true, decide_eq_true_eq, Bool.not_eq_true',
    List.isEmpty_eq_false_iff] at h
  obtain ⟨⟨⟨⟨⟨⟨⟨⟨hne, hlength⟩, hnodes⟩, hedgeCount⟩, hedges⟩, hentry⟩, hterminal⟩, hpos⟩, hlimit⟩ := h
  have hsome : 1 ≤ p.nodes.length := List.length_pos_iff.mpr hne
  simp only [graphPlanSchema, runtimePlan, Bool.and_eq_true, List.all_eq_true, decide_eq_true_eq, List.length_map]
  refine ⟨⟨⟨⟨⟨⟨⟨⟨hsome, hlength⟩, fun n hn => ?_⟩, decide_eq_true hedgeCount⟩, fun e he => ?_⟩,
    bounded_of_definitionId hentry⟩,
    bounded_of_definitionId hterminal⟩, decide_eq_true hpos⟩, decide_eq_true hlimit⟩
  · obtain ⟨m, hm, rfl⟩ := List.mem_map.mp hn
    exact ⟨bounded_of_definitionId (hnodes m hm).1, genericNode_runtime (hnodes m hm).2⟩
  · obtain ⟨⟨⟨hsource, hsourcePort⟩, htarget⟩, htargetPort⟩ := hedges e he
    simp only [genericEdge, bounded_of_definitionId hsource, bounded_of_definitionId hsourcePort,
      bounded_of_definitionId htarget, bounded_of_definitionId htargetPort, Bool.and_self]

/-! ### The plan of an accepted definition is in the schema -/

section Compiles

variable {w : WorkflowDefinitionV2} {p : ExecutionPlan} {agents : List String}

/-- What the checks of the single fields say about the graph. -/
structure FieldFacts (w : WorkflowDefinitionV2) : Prop where
  some_node : w.nodes ≠ []
  nodes_le : w.nodes.length ≤ maxWorkflowSteps
  node_id : ∀ n ∈ w.nodes, definitionId n.id = true
  edges_le : w.edges.length ≤ stepExecutionsMax
  edge_ends : ∀ e ∈ w.edges, definitionId e.source = true ∧ definitionId e.target = true
  limit_pos : 1 ≤ w.maxStepExecutions
  limit_le : w.maxStepExecutions ≤ stepExecutionsMax

theorem fieldFacts (hw : w.Accepted) : FieldFacts w := by
  have hi := hw.2
  simp only [issues, fieldIssues, List.append_eq_nil_iff, issueIf_eq_nil, List.flatMap_eq_nil_iff,
    Bool.or_eq_false_iff, decide_eq_false_iff_not, not_lt, List.isEmpty_eq_false_iff, beq_eq_false_iff_ne] at hi
  obtain ⟨⟨⟨⟨⟨⟨⟨⟨-, hlength⟩, hnodes⟩, hcount⟩, hedges⟩, hlimit⟩, -⟩, -⟩, -⟩ := hi
  refine ⟨hlength.1, hlength.2, fun n hn => ?_, hcount, fun e he => ?_, Nat.one_le_iff_ne_zero.mpr hlimit.1, hlimit.2⟩
  · obtain ⟨i, hi⟩ := List.getElem?_of_mem hn
    have hissues := hnodes (n, i) (List.mk_mem_zipIdx_iff_getElem?.mpr hi)
    simp only [nodeFieldIssues, List.append_eq_nil_iff, issueIf_eq_nil, Bool.not_eq_false'] at hissues
    exact hissues.1.1
  · obtain ⟨i, hi⟩ := List.getElem?_of_mem he
    have hissues := hedges (e, i) (List.mk_mem_zipIdx_iff_getElem?.mpr hi)
    simp only [edgeFieldIssues, List.append_eq_nil_iff, issueIf_eq_nil, Bool.not_eq_false'] at hissues
    exact ⟨hissues.1.1.1.2, hissues.1.2⟩

theorem definitionId_ports : ∀ b ∈ blocks, ∀ port ∈ b.inputs ++ b.outputs, definitionId port.id = true := by
  decide +kernel

theorem definitionId_port {ports : List BlockPort} {kind s : String} {port : Option String} {b : RegisteredBlock}
    (hb : b ∈ blocks) (hports : ports ⊆ b.inputs ++ b.outputs) (h : portIn ports kind port = .ok s) :
    definitionId s = true := by
  obtain ⟨q, hq, rfl⟩ := List.mem_map.mp (portIn_mem h)
  exact definitionId_ports b hb q (hports hq)

theorem resolved_definitionIds (hw : w.Accepted) {e : WorkflowEdge} {r : ResolvedEdge} (he : e ∈ w.edges)
    (hr : w.resolveEdge e = .ok r) : (definitionId r.source && definitionId r.sourcePort && definitionId r.target &&
      definitionId r.targetPort) = true := by
  obtain ⟨hsource, htarget, s, t, -, -, hout, hin⟩ := resolveEdge_ok hr
  obtain ⟨b, hb, hout⟩ := except_bind_ok.mp hout
  obtain ⟨c, hc, hin⟩ := except_bind_ok.mp hin
  obtain ⟨hends, hende⟩ := (fieldFacts hw).edge_ends e he
  rw [hsource, htarget, hends, hende,
    definitionId_port (resolve_mem hb).1 (List.subset_append_right _ _) hout,
    definitionId_port (resolve_mem hc).1 (List.subset_append_left _ _) hin]
  rfl

/-- The agents the nodes of a definition refer to. -/
def referencedAgents (w : WorkflowDefinitionV2) : List String := w.nodes.flatMap fun n =>
  match references n.blockType n.blockVersion n.config with
  | .ok c => c.agentIds
  | .error _ => []

theorem checkAgents_ok : ∀ {ns : List WorkflowNode},
    (∀ n ∈ ns, ∃ c, validate n.blockType n.blockVersion n.config = .ok c ∧ ∀ a ∈ c.agentIds, a ∈ agents) →
      checkAgents agents ns = .ok ()
  | [], _ => rfl
  | n :: ns, h => by
    obtain ⟨c, hc, hagents⟩ := h n (List.mem_cons_self ..)
    have hrest : checkAgents agents ns = .ok () := checkAgents_ok fun m hm => h m (List.mem_cons_of_mem _ hm)
    have hnone : c.agentIds.find? (!agents.contains ·) = none := by
      rw [List.find?_eq_none]
      intro a ha
      simpa using hagents a ha
    rw [checkAgents]
    refine except_bind_ok.mpr ⟨c, hc, ?_⟩
    rw [hnone]
    exact hrest

theorem mapM_of_forall {α β : Type} {f : α → Except String β} : ∀ {xs : List α}, (∀ x ∈ xs, ∃ y, f x = .ok y) →
    ∃ ys, xs.mapM f = .ok ys
  | [], _ => ⟨[], rfl⟩
  | x :: xs, h => by
    obtain ⟨y, hy⟩ := h x (List.mem_cons_self ..)
    obtain ⟨ys, hys⟩ := mapM_of_forall fun x' hx' => h x' (List.mem_cons_of_mem _ hx')
    refine ⟨y :: ys, ?_⟩
    rw [List.mapM_cons, hy, hys]
    rfl

theorem definitionId_mem (hw : w.Accepted) {id : String} (h : id ∈ w.nodeIds) : definitionId id = true := by
  obtain ⟨n, hn, rfl⟩ := mem_nodeIds.mp h
  exact (fieldFacts hw).node_id n hn

/-- An accepted definition without sub-workflows compiles. -/
theorem compile_exists (hw : w.Accepted) (hsub : ∀ n ∈ w.nodes, n.blockType ≠ "subworkflow")
    (hagents : referencedAgents w ⊆ agents) : ∃ p, compileWorkflowV2ExecutionPlan w agents = .ok p := by
  have hfacts := hw.facts
  have hfields := fieldFacts hw
  obtain ⟨e, he⟩ := hfacts.entry
  obtain ⟨t, ht⟩ := hfacts.terminal
  have hcheck : checkAgents agents w.nodes = .ok () := by
    refine checkAgents_ok fun n hn => ?_
    obtain ⟨c, hc⟩ := hfacts.valid n hn
    refine ⟨c, hc, fun a ha => hagents (List.mem_flatMap.mpr ⟨n, hn, ?_⟩)⟩
    rw [references, hc]
    exact ha
  obtain ⟨nodes, hnodes⟩ : ∃ nodes, w.nodes.mapM planNode = .ok nodes := by
    refine mapM_of_forall fun n hn => ?_
    obtain ⟨c, hc⟩ := hfacts.valid n hn
    refine ⟨⟨n.id, planConfig c⟩, ?_⟩
    rw [planNode, hc]
    rfl
  obtain ⟨edges, hedges⟩ := mapM_of_forall hfacts.resolves
  have hentry := graphEntryNode_eq hfacts he
  have hterminal : w.nodeIds.find? (fun id => w.edges.all (·.source != id)) = some t := by
    have hhead : w.terminals.head? = some t := by rw [ht]; rfl
    rw [terminals, List.head?_filter] at hhead
    rw [← hhead]
    exact congrArg (fun f => List.find? f w.nodeIds) (funext fun id => source_all_ne_iff hfacts id)
  have hforall := mapM_ok hnodes
  have hresolved := mapM_ok hedges
  have hschema : planSchema ⟨nodes, edges, e, t, w.maxStepExecutions⟩ = true := by
    have hlength : nodes.length = w.nodes.length := hforall.length_eq.symm
    have hcount : edges.length = w.edges.length := hresolved.length_eq.symm
    have hne : w.nodes.length ≠ 0 := fun h => hfields.some_node (List.length_eq_zero_iff.mp h)
    simp only [planSchema, Bool.and_eq_true, List.all_eq_true, decide_eq_true_eq, Bool.not_eq_true',
      List.isEmpty_eq_false_iff]
    refine ⟨⟨⟨⟨⟨⟨⟨⟨?_, hlength ▸ hfields.nodes_le⟩, fun n hn => ?_⟩, hcount ▸ hfields.edges_le⟩, fun r hr => ?_⟩,
      definitionId_mem hw (hfacts.entry_spec he).1⟩, definitionId_mem hw ?_⟩, hfields.limit_pos⟩, hfields.limit_le⟩
    · intro hnil
      rw [hnil] at hlength
      exact hne hlength.symm
    · obtain ⟨m, hm, hmn⟩ := exists_of_forall₂_right hforall hn
      obtain ⟨c, hc, hread⟩ := except_bind_ok.mp hmn
      cases hread
      exact ⟨hfields.node_id m hm, planConfigSchema_of_validate hc (hsub m hm)⟩
    · obtain ⟨d, hd, hdr⟩ := exists_of_forall₂_right hresolved hr
      simpa only [Bool.and_eq_true] using resolved_definitionIds hw hd hdr
    · have hmem : t ∈ w.terminals := by rw [ht]; exact List.mem_singleton_self t
      exact List.mem_of_mem_filter hmem
  refine ⟨⟨nodes, edges, e, t, w.maxStepExecutions⟩, ?_⟩
  unfold compileWorkflowV2ExecutionPlan
  rw [parse_accepted hw]
  refine except_bind_ok.mpr ⟨w, rfl, except_bind_ok.mpr ⟨(), thrown_ok.mpr hcheck, ?_⟩⟩
  refine except_bind_ok.mpr ⟨nodes, thrown_ok.mpr hnodes, except_bind_ok.mpr ⟨edges, thrown_ok.mpr hedges, ?_⟩⟩
  refine except_bind_ok.mpr ⟨e, thrown_ok.mpr hentry, ?_⟩
  have hfind : (w.nodes.map (·.id)).eraseDups.find? (fun id => w.edges.all (·.source != id)) = some t := hterminal
  rw [hfind]
  show parsePlan _ = _
  rw [parsePlan, if_pos hschema]

theorem planSchema_runtime (h : planSchema p = true) : planSchema (runtimePlan p) = true := by
  have hconfig : ∀ c, planConfigSchema c = true → planConfigSchema (runtimeConfig c) = true := by
    intro c hc
    cases c with
    | agentV3 a context conversation =>
      simp only [planConfigSchema, Bool.and_eq_true] at hc
      exact planConfigSchema_agentConfig hc.1.1 hc.1.2
    | _ => exact hc
  simp only [planSchema, runtimePlan, Bool.and_eq_true, List.all_eq_true, decide_eq_true_eq, Bool.not_eq_true',
    List.isEmpty_eq_false_iff, List.length_map, ne_eq, List.map_eq_nil_iff] at h ⊢
  obtain ⟨⟨⟨⟨⟨⟨⟨⟨hne, hlength⟩, hnodes⟩, hedgeCount⟩, hedges⟩, hentry⟩, hterminal⟩, hpos⟩, hlimit⟩ := h
  refine ⟨⟨⟨⟨⟨⟨⟨⟨hne, hlength⟩, fun n hn => ?_⟩, decide_eq_true hedgeCount⟩, hedges⟩, hentry⟩, hterminal⟩,
    decide_eq_true hpos⟩, decide_eq_true hlimit⟩
  obtain ⟨m, hm, rfl⟩ := List.mem_map.mp hn
  exact ⟨(hnodes m hm).1, hconfig m.config (hnodes m hm).2⟩

end Compiles

/-- What the definition, the plan of the Worker and the plan of the runtime have in common: the entry from which every
node is reached, the terminal, which is the one node no edge leaves, and the plan's nodes and edges. -/
structure Delivered (w : WorkflowDefinitionV2) (p q : ExecutionPlan) : Prop where
  reached : w.entries = [p.entryNodeId] ∧ ∀ id ∈ w.nodeIds, id ∈ visited w.targets w.fuel p.entryNodeId
  terminal : ∀ id, id ∈ w.nodeIds ∧ w.outgoing id = [] ↔ id = p.terminalNodeId
  nodes : p.nodes.map (fun n => (n.id, n.blockType)) = w.nodes.map fun n => (n.id, n.blockType)
  edges : p.edges = w.resolvedEdges
  accepted : graphPlanSchema q = true
  same : SamePlan p q

/-- **Accepted definitions compile, and the runtime accepts the plan.** -/
theorem accepted_delivered {w : WorkflowDefinitionV2} {agents : List String} (hw : w.Accepted)
    (hsub : ∀ n ∈ w.nodes, n.blockType ≠ "subworkflow") (hagents : referencedAgents w ⊆ agents) :
    ∃ p q, compileWorkflowV2ExecutionPlan w agents = .ok p ∧ projectExecutionPlanForRuntime p = .ok q ∧
      Delivered w p q := by
  obtain ⟨p, hp⟩ := compile_exists hw hsub hagents
  obtain ⟨-, -, -, -, -, hschema⟩ := compile_ok hw hp
  have hplan := planOf_compile hw hp
  have hfacts := hw.facts
  refine ⟨p, runtimePlan p, hp, ?_, ?_⟩
  · rw [projectExecutionPlanForRuntime, parsePlan, if_pos (planSchema_runtime hschema)]
  · refine ⟨⟨hplan.entry, fun id hid => ?_⟩, fun id => ?_, hplan.nodes, hplan.edges,
      graphPlanSchema_runtime hschema, samePlan_runtime p⟩
    · have hreach := hfacts.reachable
      simp only [reachableIssues, hplan.entry, issueIf_eq_nil, bne_eq_false_iff_eq] at hreach
      exact hfacts.mem_of_length (visited_nodup _ _)
        (Facts.visited_subset (fun _ _ hb => target_mem_nodeIds hb) (hfacts.entry_spec hplan.entry).1) hreach hid
    · have hmem : id ∈ w.terminals ↔ id ∈ w.nodeIds ∧ w.outgoing id = [] := by
        rw [terminals, List.mem_filter, List.isEmpty_iff]
      rw [← hmem, hplan.terminal, List.mem_singleton]

theorem accepted_delivered_fanOut : ∃ p q, compileWorkflowV2ExecutionPlan closedFanOut ["a"] = .ok p ∧
    projectExecutionPlanForRuntime p = .ok q ∧ Delivered closedFanOut p q :=
  accepted_delivered (by decide +kernel) (by decide) (by decide +kernel)

end ADT.Runtime
