import ADT.Runtime.Run

/-!
# Runtime.RuntimePlan — the plan as the runtime gets it

What the projected plan of an accepted definition has to do with the definition: its node types and edges, that
no reusable workflow is left, and that every output an agent selects is published.
-/

namespace ADT.Runtime

open Workflow Superstep WorkflowDefinitionV2

/-- A plan as the runtime gets it: of an accepted definition, without reusable workflows, and with every
selected output published. -/
structure RuntimePlanOf (w : WorkflowDefinitionV2) (p : ExecutionPlan) : Prop extends PlanOf w p where
  primitive : ∀ n ∈ p.nodes, n.blockType ≠ "subworkflow"
  published : ∀ n ∈ p.nodes, ∀ agent ctx, n.config = .agentV2 agent (some ctx) →
    ∀ s ∈ ctx.includeNodeOutputs, publishes p s = true

section Plan

variable {w : WorkflowDefinitionV2} {p : ExecutionPlan}

theorem any_type_eq (hw : w.Facts) (hp : PlanOf w p) (type id : String) :
    (findNode p id).any (·.blockType == type) = w.isType type id := by
  cases hf : findNode p id with
  | some n =>
    obtain ⟨hn, rfl⟩ := findNode_id hf
    rw [isType_planNode hw hp hn]
    rfl
  | none =>
    symm
    rw [Option.any_none]
    by_contra hty
    obtain ⟨n, hn, rfl⟩ := exists_planNode hp (mem_nodeIds_of_isType (by simpa using hty))
    exact absurd (List.find?_eq_none.mp hf n hn) (by simp)

theorem isCondition_eq (hw : w.Facts) (hp : PlanOf w p) (id : String) :
    isCondition p id = w.isType "condition" id := any_type_eq hw hp "condition" id

theorem isJoin_eq (hw : w.Facts) (hp : PlanOf w p) (id : String) : isJoin p id = w.isType "join" id :=
  any_type_eq hw hp "join" id

theorem mem_joinSources (hp : PlanOf w p) {s j : String} : s ∈ joinSources p j ↔ s ∈ w.sources j := by
  rw [joinSources, List.mem_eraseDups, hp.edges]
  rfl

theorem exists_findNode (hp : PlanOf w p) {id : String} (h : id ∈ w.nodeIds) : ∃ n, findNode p id = some n := by
  obtain ⟨n, hn, rfl⟩ := exists_planNode hp h
  cases hf : findNode p n.id with
  | some m => exact ⟨m, rfl⟩
  | none => exact absurd (List.find?_eq_none.mp hf n hn) (by simp)

theorem leads_of_edge (hp : PlanOf w p) {s t : String} (h : t ∈ w.targets s) : Leads p s t := by
  obtain ⟨r, hr, rfl, rfl⟩ := mem_targets.mp h
  rw [← hp.edges] at hr
  exact .direct hr

theorem leads_through (hp : PlanOf w p) {s c t : String} (h : Leads p s c) (hc : isCondition p c = true)
    (ht : t ∈ w.targets c) : Leads p s t := by
  obtain ⟨r, hr, rfl, rfl⟩ := mem_targets.mp ht
  rw [← hp.edges] at hr
  exact .through h hc hr

theorem branch_consumes_nothing (hw : w.Facts) (hp : PlanOf w p) {o t : String} (hf : w.fansOut o = true)
    (hin : w.sources t = [o]) (st : GraphState) : consumed p st t = [] := by
  obtain ⟨hc, hlen⟩ := fansOut_iff.mp hf
  have honly : ∀ s, Leads p s t → s = o := by
    intro s hs
    generalize ht : t = t' at hs
    cases hs with
    | @direct e he =>
      have : e.source ∈ w.sources e.target := mem_sources.mpr ⟨e, hp.edges ▸ he, rfl, rfl⟩
      rw [← ht, hin, List.mem_singleton] at this
      exact this
    | @through _ e hl hce he =>
      have : e.source ∈ w.sources e.target := mem_sources.mpr ⟨e, hp.edges ▸ he, rfl, rfl⟩
      rw [← ht, hin, List.mem_singleton] at this
      rw [isCondition_eq hw hp, this, hc] at hce
      cases hce
  unfold consumed
  rw [List.map_eq_nil_iff, List.filter_eq_nil_iff]
  intro s hs
  rw [honly s (mem_effectiveSources.mp hs).2]
  have hcount : (p.edges.filter (·.source == o)).length = (w.targets o).length := by
    rw [hp.edges, targets, List.length_map]; rfl
  simp only [Bool.and_eq_true, beq_iff_eq, hcount, not_and]
  omega

end Plan

/-! ### From the definition to the runtime -/

section Project

variable {w : WorkflowDefinitionV2} {p q : ExecutionPlan}

/-- The context of an agent configuration. -/
def contextOf : BlockConfig → Option AgentContext
  | .agentV2 _ context => context
  | .agentV3 _ context _ => context
  | _ => none

theorem optField_some {α : Type} {j : Json} {k : String} {parse : Json → Option α} {o : Option α}
    (h : optField j k parse = some o) : o = (j.get? k).bind parse := by
  unfold optField at h
  split at h
  · rename_i hk
    cases h
    rw [hk]
    rfl
  · rename_i v hv
    rw [hv, Option.bind_some]
    obtain ⟨a, ha, rfl⟩ := Option.map_eq_some_iff.mp h
    exact ha.symm

theorem validate_context {type : String} {version : ℕ} {config : Json} {c : BlockConfig}
    (h : validate type version config = .ok c) :
    contextOf c = if type == "agent" && [2, 3].contains version then (config.get? "context").bind agentContextSchema
      else none := by
  cases configRead h with
  | agentV2 _ hcontext => exact optField_some hcontext
  | agentV3 _ hcontext _ => exact optField_some hcontext
  | _ => rfl

theorem validate_context_some {type : String} {version : ℕ} {config j : Json} {c : BlockConfig}
    (h : validate type version config = .ok c) (ht : (type == "agent" && [2, 3].contains version) = true)
    (hj : config.get? "context" = some j) : ∃ ctx, agentContextSchema j = some ctx := by
  have hread : ∀ {context}, optField config "context" agentContextSchema = some context →
      ∃ ctx, agentContextSchema j = some ctx := by
    intro context hcontext
    rw [optField, hj] at hcontext
    obtain ⟨ctx, hctx, -⟩ := Option.map_eq_some_iff.mp hcontext
    exact ⟨ctx, hctx⟩
  cases configRead h with
  | agentV2 _ hcontext => exact hread hcontext
  | agentV3 _ hcontext _ => exact hread hcontext
  | _ => cases ht

theorem runtime_context (c : BlockConfig) : contextOf (runtimeConfig (planConfig c)) = (contextOf c).filter (·.active) ∧
    ((contextOf c).any (·.active) = true → ∃ a, runtimeConfig (planConfig c) = .agentV2 a (contextOf c)) := by
  have hagent : ∀ a context, contextOf (agentConfig a context) = context.filter (·.active) ∧
      (context.any (·.active) = true → agentConfig a context = .agentV2 a context) ∧
      runtimeConfig (agentConfig a context) = agentConfig a context := by
    intro a context
    unfold agentConfig
    cases context with
    | none => exact ⟨rfl, by simp, rfl⟩
    | some ctx =>
      by_cases hact : ctx.active = true
      · simp [hact, contextOf, runtimeConfig, Option.filter]
      · simp [hact, contextOf, runtimeConfig, Option.filter]
  cases c with
  | agentV2 a context =>
    obtain ⟨h1, h2, h3⟩ := hagent a context
    simp only [planConfig, h3, contextOf]
    exact ⟨h1, fun h => ⟨a, h2 h⟩⟩
  | agentV3 a context conversation =>
    obtain ⟨h1, h2, h3⟩ := hagent a context
    cases conversation with
    | none =>
      simp only [planConfig, h3, contextOf]
      exact ⟨h1, fun h => ⟨a, h2 h⟩⟩
    | some v =>
      simp only [planConfig, runtimeConfig, contextOf]
      exact ⟨h1, fun h => ⟨a, h2 h⟩⟩
  | agentV1 a => exact ⟨rfl, by simp [contextOf]⟩
  | condition _ => exact ⟨rfl, by simp [contextOf]⟩
  | approval _ => exact ⟨rfl, by simp [contextOf]⟩
  | publishGitHubPr _ => exact ⟨rfl, by simp [contextOf]⟩
  | subworkflow _ => exact ⟨rfl, by simp [contextOf]⟩
  | join => exact ⟨rfl, by simp [contextOf]⟩

theorem mem_runtime_nodes (h : List.Forall₂ (fun n m => planNode n = .ok m) w.nodes p.nodes) {n : PlanNode}
    (hn : n ∈ (runtimePlan p).nodes) : ∃ m ∈ w.nodes, ∃ c, validate m.blockType m.blockVersion m.config = .ok c ∧
      n = ⟨m.id, runtimeConfig (planConfig c)⟩ := by
  obtain ⟨k, hk, rfl⟩ := List.mem_map.mp hn
  obtain ⟨m, hm, hmk⟩ := exists_of_forall₂_right h hk
  obtain ⟨c, hc, hk'⟩ := except_bind_ok.mp hmk
  cases hk'
  exact ⟨m, hm, c, hc, rfl⟩

theorem findNode_runtime (hw : w.Facts) (h : List.Forall₂ (fun n m => planNode n = .ok m) w.nodes p.nodes)
    {m : WorkflowNode} (hm : m ∈ w.nodes) : ∃ c, validate m.blockType m.blockVersion m.config = .ok c ∧
      findNode (runtimePlan p) m.id = some ⟨m.id, runtimeConfig (planConfig c)⟩ := by
  obtain ⟨k, hk, hmk⟩ := exists_of_forall₂_left h hm
  obtain ⟨c, hc, hk'⟩ := except_bind_ok.mp hmk
  cases hk'
  refine ⟨c, hc, ?_⟩
  have hmem : (⟨m.id, runtimeConfig (planConfig c)⟩ : PlanNode) ∈ (runtimePlan p).nodes :=
    List.mem_map.mpr ⟨_, hk, rfl⟩
  cases hf : findNode (runtimePlan p) m.id with
  | none => exact absurd (List.find?_eq_none.mp hf _ hmem) (by simp)
  | some n =>
    obtain ⟨hn, hid⟩ := findNode_id hf
    obtain ⟨m', hm', c', hc', rfl⟩ := mem_runtime_nodes h hn
    obtain rfl : m' = m := List.inj_on_of_nodup_map hw.ids_nodup hm' hm hid
    rw [hc] at hc'
    cases hc'
    rfl

theorem publishes_of_definition (hw : w.Facts)
    (h : List.Forall₂ (fun n m => planNode n = .ok m) w.nodes p.nodes) {m : WorkflowNode} (hm : m ∈ w.nodes)
    (hctx : isContextAgent m = true) (hpub : publishesOutput m = true) :
    publishes (runtimePlan p) m.id = true := by
  obtain ⟨c, hc, hf⟩ := findNode_runtime hw h hm
  have hcontext := validate_context hc
  rw [isContextAgent] at hctx
  rw [if_pos hctx] at hcontext
  unfold publishesOutput at hpub
  cases hj : m.config.get? "context" with
  | none => simp [hj] at hpub
  | some j =>
    rw [hj, Option.bind_some] at hcontext
    rw [hj, Option.bind_some, beq_iff_eq] at hpub
    -- the schema has read the context, since the configuration is valid
    obtain ⟨ctx, hparse⟩ : ∃ ctx, agentContextSchema j = some ctx := validate_context_some hc hctx hj
    have hfield := (agentContextSchema_some hparse).publishOutput
    have htrue : ctx.publishOutput = true := by
      unfold boolField at hfield
      cases hp : j.get? "publishOutput" with
      | none => simp [hp] at hpub
      | some v =>
        rw [hp] at hfield hpub
        rw [Option.bind_some] at hpub
        simp only [hpub, Option.some.injEq] at hfield
        exact hfield.symm
    rw [hparse] at hcontext
    obtain ⟨a, ha⟩ := (runtime_context c).2 (by simp [hcontext, AgentContext.active, htrue])
    rw [publishes, hf, ha, hcontext]
    exact htrue

/-- **The plan the runtime gets** for an accepted definition. -/
theorem runtimePlanOf_project {agents : List String} (hw : w.Accepted)
    (hp : compileWorkflowV2ExecutionPlan w agents = .ok p) (hq : projectExecutionPlanForRuntime p = .ok q) :
    RuntimePlanOf w q := by
  obtain ⟨hnodes, -⟩ := compile_ok hw hp
  have hplan := planOf_project (planOf_compile hw hp) hq
  obtain ⟨rfl, hschema⟩ := parsePlan_ok hq
  refine ⟨hplan, fun n hn => ?_, fun n hn agent ctx hcfg s hs => ?_⟩
  · have hall : ∀ n ∈ (runtimePlan p).nodes, (definitionId n.id && planConfigSchema n.config) = true := by
      simp only [planSchema, Bool.and_eq_true, List.all_eq_true] at hschema
      intro n hn
      simpa using hschema.1.1.1.1.1.1.2 n hn
    have hcfg := (Bool.and_eq_true _ _ ▸ hall n hn).2
    obtain ⟨id, config⟩ := n
    cases config <;> simp_all [PlanNode.blockType, BlockConfig.blockType, planConfigSchema]
  · obtain ⟨m, hm, c, hc, rfl⟩ := mem_runtime_nodes hnodes hn
    have hctx : contextOf c = some ctx := by
      have := (runtime_context c).1
      rw [show runtimeConfig (planConfig c) = .agentV2 agent (some ctx) from hcfg] at this
      exact (Option.filter_eq_some_iff.mp this.symm).1
    -- the output is selected in the definition, so its node publishes there
    have hval := validate_context hc
    rw [hctx] at hval
    split_ifs at hval with hagent
    obtain ⟨j, hj, hparse⟩ := Option.bind_eq_some_iff.mp hval.symm
    have houts := (agentContextSchema_some hparse).outputs_eq
    have hsel : s ∈ selectedOutputs m := by
      rw [selectedOutputs, hj, Option.bind_some, ← houts]
      exact hs
    have hissue := hw.facts.context m hm
    rw [contextIssues, if_pos (show isContextAgent m = true from hagent), List.flatMap_eq_nil_iff] at hissue
    have hsrc := hissue s hsel
    simp only [issueIf_eq_nil, Bool.or_eq_false_iff] at hsrc
    obtain ⟨⟨-, hsrc⟩, -⟩ := hsrc
    split at hsrc
    · cases hsrc
    · rename_i source hby
      obtain ⟨hsm, rfl⟩ := byId_some hby
      simp only [Bool.or_eq_false_iff, Bool.not_eq_false'] at hsrc
      exact publishes_of_definition hw.facts hnodes hsm hsrc.1 hsrc.2

end Project

theorem exists_runtimePlan (w : WorkflowDefinitionV2) (agents : List String)
    (h : (compileWorkflowV2ExecutionPlan w agents >>= projectExecutionPlanForRuntime).isOk = true) :
    ∃ p q, compileWorkflowV2ExecutionPlan w agents = .ok p ∧ projectExecutionPlanForRuntime p = .ok q := by
  obtain ⟨q, hq⟩ := exists_of_isOk h
  obtain ⟨p, hp, hq⟩ := except_bind_ok.mp hq
  exact ⟨p, q, hp, hq⟩

end ADT.Runtime
