import ADT.Lib.Substitution
import ADT.Workflow.Composition

/-!
# Workflow.Expansion — the meaning of a hierarchical workflow, and what an expansion does

`Invokes` gives the workflows a definition invokes, with the paths of their invocations, and `Lands` the execution
id at which an edge to or from a node ends.  The lemmas after them invert a run of `expand` step by step.
-/

namespace ADT.Workflow

variable {root workflow : WorkflowDefinitionV2} {available : String → Option VersionedWorkflowDefinition}
  {path : List InvocationSegment} {stack : List String} {s s' : Composer} {node : WorkflowNode}

/-- The workflow a node refers to. -/
def subworkflowOf (node : WorkflowNode) : Option String :=
  match references node.blockType node.blockVersion node.config with
  | .ok config => config.workflowIds.head?
  | .error _ => none

/-- The step an invocation path takes through a node. -/
def segmentOf (node : WorkflowNode) (child : WorkflowDefinitionV2) : InvocationSegment :=
  ⟨child.id, child.name, node.id⟩

/-- `Invokes path w path' w'`: the workflow `w` at `path` invokes `w'` at `path'`, itself or through its nodes. -/
inductive Invokes (available : String → Option VersionedWorkflowDefinition) :
    List InvocationSegment → WorkflowDefinitionV2 → List InvocationSegment → WorkflowDefinitionV2 → Prop
  | here {path : List InvocationSegment} {w : WorkflowDefinitionV2} : Invokes available path w path w
  | inside {path path' : List InvocationSegment} {w w' : WorkflowDefinitionV2} {node : WorkflowNode} {id : String}
      {v : VersionedWorkflowDefinition} (hnode : node ∈ w.nodes) (hid : subworkflowOf node = some id)
      (hv : available id = some v)
      (h : Invokes available (path ++ [segmentOf node v.definition]) v.definition path' w') :
      Invokes available path w path' w'

/-- The execution id an edge that ends at a node is redirected to: that of the node, or the one of the node that
`ends` gives for the workflow it invokes. -/
inductive Lands (available : String → Option VersionedWorkflowDefinition)
    (ends : WorkflowDefinitionV2 → List String) :
    List InvocationSegment → WorkflowDefinitionV2 → String → String → Prop
  | node {path : List InvocationSegment} {w : WorkflowDefinitionV2} {node : WorkflowNode} (hnode : node ∈ w.nodes)
      (hid : subworkflowOf node = none) : Lands available ends path w node.id (executionId .n path w.id node.id)
  | block {path : List InvocationSegment} {w : WorkflowDefinitionV2} {node : WorkflowNode} {id e x : String}
      {v : VersionedWorkflowDefinition} (hnode : node ∈ w.nodes) (hid : subworkflowOf node = some id)
      (hv : available id = some v) (he : ends v.definition = [e])
      (h : Lands available ends (path ++ [segmentOf node v.definition]) v.definition e x) :
      Lands available ends path w node.id x

/-- The node of the flat workflow a node becomes. -/
def expandedNode (path : List InvocationSegment) (workflowId : String) (node : WorkflowNode) : WorkflowNode :=
  { node with
    id := executionId .n path workflowId node.id
    config := executionConfig path workflowId node }

/-! ### Inversion -/

theorem subworkflowOf_of_references {config : BlockConfig}
    (h : references node.blockType node.blockVersion node.config = .ok config) :
    subworkflowOf node = config.workflowIds.head? := by
  unfold subworkflowOf
  rw [h]

theorem claim_ok {kind : IdKind} {generated key id : String} (h : claim kind generated key s = .ok (id, s')) :
    id = generated ∧ s'.provenance = s.provenance ∧ s'.used = s.used := by
  unfold claim at h
  obtain ⟨c, s₁, hget, h⟩ := stateT_bind_ok.mp h
  cases hget
  cases hfind : s.claimed.find? (·.1 == kind.letter ++ ":" ++ generated) with
  | none =>
    simp only [hfind] at h
    cases h
    exact ⟨rfl, rfl, rfl⟩
  | some previous =>
    simp only [hfind] at h
    by_cases hp : (previous.2 != "" && previous.2 != key) = true
    · rw [if_pos hp] at h
      cases h
    · rw [if_neg hp] at h
      cases h
      exact ⟨rfl, rfl, rfl⟩

variable {part : Part} {replacements : List Replacement}

theorem expandPrimitive_ok (h : expandPrimitive root workflow path node s = .ok (part, s')) :
    part = ⟨[expandedNode path workflow.id node], [], none⟩ ∧ s'.used = s.used ∧ ∃ label, nodeLabel node = .ok label ∧
        s'.provenance = s.provenance ++ [provenanceOf root path workflow node label] := by
  unfold expandPrimitive at h
  obtain ⟨id, s₁, hclaim, h⟩ := stateT_bind_ok.mp h
  obtain ⟨rfl, hprov, hused⟩ := claim_ok hclaim
  obtain ⟨label, hlabel, h⟩ := stateT_lift_bind_ok.mp h
  obtain ⟨_, s₂, hmodify, h⟩ := stateT_bind_ok.mp h
  cases hmodify
  cases h
  exact ⟨rfl, hused, label, hlabel, congrArg (· ++ _) hprov⟩

theorem expandBlock_ok {invoke : Expand} {childId : String}
    (h : expandBlock available invoke path stack node childId s = .ok (part, s')) :
    ∃ v refs Y s₁ entry terminal, available childId = some v ∧
      use ⟨childId, v.fileSha, v.definition, refs, v.accepted⟩ s = .ok ((), s₁) ∧
      invoke v.definition (path ++ [segmentOf node v.definition]) (stack ++ [childId]) s₁ = .ok (Y, s') ∧
      graphEntryNode Y.nodes Y.edges = .ok entry ∧
      Y.nodes.find? (fun n => Y.edges.all (·.source != n.id)) = some terminal ∧
      part = ⟨Y.nodes, Y.edges, some ⟨node.id, entry, terminal.id⟩⟩ := by
  unfold expandBlock at h
  by_cases hstack : stack.contains childId = true
  · rw [if_pos hstack] at h
    cases h
  rw [if_neg hstack] at h
  cases hv : available childId with
  | none =>
    simp only [hv] at h
    cases h
  | some v =>
  simp only [hv] at h
  by_cases hexposed : (v.definition.exposableAsBlock != some true) = true
  · rw [if_pos hexposed] at h
    cases h
  rw [if_neg hexposed] at h
  obtain ⟨refs, -, h⟩ := stateT_lift_bind_ok.mp h
  obtain ⟨_, s₁, huse, h⟩ := stateT_bind_ok.mp h
  obtain ⟨Y, s₂, hinvoke, h⟩ := stateT_bind_ok.mp h
  obtain ⟨entry, hentry, h⟩ := stateT_lift_bind_ok.mp h
  cases hterminal : Y.nodes.find? fun n => Y.edges.all (·.source != n.id) with
  | none =>
    simp only [hterminal] at h
    cases h
  | some terminal =>
  simp only [hterminal] at h
  cases h
  exact ⟨v, refs, Y, s₁, entry, terminal, rfl, huse, hinvoke, hentry, hterminal, rfl⟩

/-- **Inversion of a node.** -/
theorem expandNode_ok {invoke : Expand}
    (h : expandNode root available invoke workflow path stack node s = .ok (part, s')) :
    (subworkflowOf node = none ∧ expandPrimitive root workflow path node s = .ok (part, s')) ∨
      ∃ childId, subworkflowOf node = some childId ∧
        expandBlock available invoke path stack node childId s = .ok (part, s') := by
  unfold expandNode at h
  obtain ⟨config, hconfig, h⟩ := stateT_lift_bind_ok.mp h
  have hsub := subworkflowOf_of_references hconfig
  cases hids : config.workflowIds with
  | nil =>
    simp only [hids] at h
    exact .inl ⟨by rw [hsub, hids]; rfl, h⟩
  | cons childId rest =>
    simp only [hids] at h
    exact .inr ⟨childId, by rw [hsub, hids]; rfl, h⟩

/-- **Inversion of a workflow.** -/
theorem expand_ok {depth : ℕ} {X : WorkflowDefinitionV2}
    (h : expand root available (depth + 1) workflow path stack s = .ok (X, s')) :
    ∃ parts edges s₁,
      workflow.nodes.mapM (expandNode root available (expand root available depth) workflow path stack) s =
        .ok (parts, s₁) ∧
      workflow.edges.mapM (expandEdge workflow path (parts.filterMap (·.replacement))) s₁ = .ok (edges, s') ∧
      X.nodes = parts.flatMap (·.nodes) ∧ X.edges = parts.flatMap (·.edges) ++ edges ∧ X.name = workflow.name := by
  unfold expand at h
  obtain ⟨parts, s₁, hparts, h⟩ := stateT_bind_ok.mp h
  obtain ⟨edges, s₂, hedges, h⟩ := stateT_bind_ok.mp h
  cases h
  exact ⟨parts, edges, s₁, hparts, hedges, rfl, rfl, rfl⟩

/-- Every provenance names the execution id of what it describes. -/
def Labelled (s : Composer) : Prop :=
  ∀ q ∈ s.provenance, q.executionNodeId = executionId .n q.invocationPath q.workflowId q.semanticNodeId

theorem endpoint_ok {replaced : Option String} {id x : String}
    (h : endpoint workflow path replaced id s = .ok (x, s')) :
    s' = s ∧ (Labelled s → x = replaced.getD (executionId .n path workflow.id id)) := by
  unfold endpoint at h
  cases replaced with
  | some y =>
    cases h
    exact ⟨rfl, fun _ => rfl⟩
  | none =>
  by_cases hpath : path.isEmpty = true
  · simp only [if_pos hpath] at h
    cases h
    exact ⟨rfl, fun _ => by rw [Option.getD_none, executionId, if_pos hpath]⟩
  simp only [if_neg hpath] at h
  obtain ⟨c, s₁, hget, h⟩ := stateT_bind_ok.mp h
  cases hget
  cases hitem : s.provenance.find? fun item =>
      item.workflowId == workflow.id && item.semanticNodeId == id && item.invocationPath == path with
  | none =>
    simp only [hitem] at h
    cases h
  | some item =>
    simp only [hitem] at h
    have hfound := List.find?_some hitem
    simp only [Bool.and_eq_true, beq_iff_eq] at hfound
    obtain ⟨⟨hw, hid⟩, hp⟩ := hfound
    cases h
    refine ⟨rfl, fun hs => ?_⟩
    rw [hs item (List.mem_of_find?_eq_some hitem), hw, hid, hp]
    rfl

def redirected (path : List InvocationSegment) (workflowId : String) (replacements : List Replacement)
    (e : WorkflowEdge) : WorkflowEdge :=
  { e with
    id := executionId .e path workflowId e.id
    source := ((replacementOf replacements e.source).map (·.terminal)).getD (executionId .n path workflowId e.source)
    target := ((replacementOf replacements e.target).map (·.entry)).getD (executionId .n path workflowId e.target) }

theorem expandEdge_ok {e e' : WorkflowEdge} (h : expandEdge workflow path replacements e s = .ok (e', s')) :
    s'.provenance = s.provenance ∧ s'.used = s.used ∧
      (Labelled s → e' = redirected path workflow.id replacements e) := by
  unfold expandEdge at h
  obtain ⟨source, s₁, hsource, h⟩ := stateT_bind_ok.mp h
  obtain ⟨target, s₂, htarget, h⟩ := stateT_bind_ok.mp h
  obtain ⟨id, s₃, hclaim, h⟩ := stateT_bind_ok.mp h
  obtain ⟨hs₁, hsource⟩ := endpoint_ok hsource
  obtain ⟨hs₂, htarget⟩ := endpoint_ok htarget
  obtain ⟨rfl, hprov, hused⟩ := claim_ok hclaim
  cases h
  refine ⟨by rw [hprov, hs₂, hs₁], by rw [hused, hs₂, hs₁], fun hs => ?_⟩
  rw [hsource hs, htarget (by rwa [hs₁])]
  rfl

theorem mapM_expandEdge_ok {edges edges' : List WorkflowEdge}
    (h : edges.mapM (expandEdge workflow path replacements) s = .ok (edges', s')) :
    s'.provenance = s.provenance ∧ s'.used = s.used ∧
      (Labelled s → edges' = edges.map (redirected path workflow.id replacements)) := by
  obtain ⟨⟨hprov, hused⟩, hall⟩ := stateT_mapM_ok (I := fun t => t.provenance = s.provenance ∧ t.used = s.used)
    (fun _ _ _ _ ht h => ⟨(expandEdge_ok h).1.trans ht.1, (expandEdge_ok h).2.1.trans ht.2⟩) ⟨rfl, rfl⟩ h
  refine ⟨hprov, hused, fun hs => ?_⟩
  clear h
  induction hall with
  | nil => rfl
  | cons he _ ih =>
    obtain ⟨s₁, s₂, ht, he⟩ := he
    have hs₁ : Labelled s₁ := by
      unfold Labelled
      rwa [ht.1]
    rw [List.map_cons, ← ih, (expandEdge_ok he).2.2 hs₁]

end ADT.Workflow
