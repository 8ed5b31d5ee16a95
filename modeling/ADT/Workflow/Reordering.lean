import ADT.Lib.JsonOrder
import ADT.Workflow.Alike

/-!
# Workflow.Reordering — definitions up to the order of members

The members of an object of a configuration have no order that matters: the schemas of the blocks and the validator of the
graph read them by their keys.
-/

namespace ADT.Workflow

open Json.Same (Blind blind_asStr blind_asBool blind_asStrs)

/-! ### Configurations -/

variable {i j : Json}

theorem strField_same (h : i.Same j) (k : String) (check : String → Bool) : strField i k check = strField j k check := by
  rw [strField, strField, h.member k blind_asStr]

theorem boolField_same (h : i.Same j) (k : String) (fallback : Option Bool) :
    boolField i k fallback = boolField j k fallback := by
  have hrel := h.get? k
  rw [boolField, boolField]
  generalize i.get? k = x, j.get? k = y at hrel
  cases hrel with
  | none => rfl
  | some hxy => exact blind_asBool _ _ hxy

theorem optField_same {α : Type} {parse : Json → Option α} (h : i.Same j) (k : String) (hparse : Blind parse) :
    optField i k parse = optField j k parse := by
  have hrel := h.get? k
  rw [optField, optField]
  generalize i.get? k = x, j.get? k = y at hrel
  cases hrel with
  | none => rfl
  | some hxy => exact congrArg (Option.map some) (hparse _ _ hxy)

theorem blind_agentContextSchema : Blind agentContextSchema := by
  intro i j h
  have hrel := h.get? "includeNodeOutputs"
  rw [agentContextSchema, agentContextSchema, h.strictKeys, boolField_same h, boolField_same h]
  generalize i.get? "includeNodeOutputs" = x, j.get? "includeNodeOutputs" = y at hrel
  cases hrel with
  | none => rfl
  | some hxy =>
    dsimp only
    rw [blind_asStrs _ _ hxy]

theorem blind_agentConversationSchema : Blind agentConversationSchema := by
  intro i j h
  rw [agentConversationSchema, agentConversationSchema, h.strictKeys, strField_same h]

theorem configSchema_same {block : RegisteredBlock} (hblock : block ∈ blocks) (h : i.Same j) :
    block.configSchema i = block.configSchema j := by
  simp only [blocks, List.mem_cons, List.not_mem_nil, or_false] at hblock
  rcases hblock with rfl | rfl | rfl | rfl | rfl | rfl | rfl | rfl
  · simp only [agentBlockConfigSchema, h.strictKeys, strField_same h]
  · simp only [agentBlockV2ConfigSchema, h.strictKeys, strField_same h, optField_same h _ blind_agentContextSchema]
  · simp only [agentBlockV3ConfigSchema, h.strictKeys, strField_same h, optField_same h _ blind_agentContextSchema,
      optField_same h _ blind_agentConversationSchema]
  · simp only [conditionBlockConfigSchema, h.strictKeys, strField_same h, boolField_same h]
  · simp only [approvalBlockConfigSchema, h.strictKeys, strField_same h]
  · simp only [publishGitHubPrBlockConfigSchema, h.strictKeys, strField_same h, boolField_same h]
  · simp only [subworkflowBlockConfigSchema, h.strictKeys, strField_same h]
  · simp only [joinBlockConfigSchema, h.strictKeys]

theorem validate_same (h : i.Same j) (type : String) (version : ℕ) : validate type version i = validate type version j := by
  unfold validate
  cases hresolve : resolve type version with
  | error message => rfl
  | ok block =>
    simp only [bind, Except.bind]
    rw [configSchema_same (resolve_mem hresolve).1 h]

/-- The same node, with the members of its configuration in any order. -/
structure WorkflowNode.Same (n m : WorkflowNode) : Prop where
  id : n.id = m.id
  blockType : n.blockType = m.blockType
  blockVersion : n.blockVersion = m.blockVersion
  config : n.config.Same m.config

/-- A member of a member. -/
theorem nested_same {α : Type} {read : Json → Option α} (h : i.Same j) (k l : String) (hread : Blind read) :
    ((i.get? k).bind (·.get? l)).bind read = ((j.get? k).bind (·.get? l)).bind read := by
  rw [Option.bind_assoc, Option.bind_assoc]
  exact h.member k fun x y hxy => hxy.member l hread

theorem WorkflowNode.Same.alike {n m : WorkflowNode} (h : n.Same m) : WorkflowDefinitionV2.NodeAlike m n where
  id := h.id
  blockType := h.blockType
  blockVersion := h.blockVersion
  valid := by
    rw [h.blockType, h.blockVersion, validate_same h.config]
    exact fun hvalid => hvalid
  publish := fun _ => h.config.member _ blind_asStr
  context := fun _ => by
    rw [WorkflowDefinitionV2.selectedOutputs, WorkflowDefinitionV2.selectedOutputs, WorkflowDefinitionV2.publishesOutput,
      WorkflowDefinitionV2.publishesOutput, nested_same h.config _ _ blind_asStrs, nested_same h.config _ _ blind_asBool]
    exact ⟨rfl, rfl⟩
  conversation := by
    rw [WorkflowDefinitionV2.conversationSource, WorkflowDefinitionV2.conversationSource, h.blockType, h.blockVersion,
      nested_same h.config _ _ blind_asStr]

/-! ### Definitions -/

namespace WorkflowDefinitionV2

/-- The same definition, with the members of the configurations in any order. -/
structure Same (v w : WorkflowDefinitionV2) : Prop where
  rest : v = { w with nodes := v.nodes }
  nodes : List.Forall₂ WorkflowNode.Same v.nodes w.nodes

theorem resolveEdge_alike {v w : WorkflowDefinitionV2} (h : List.Forall₂ NodeAlike w.nodes v.nodes) (e : WorkflowEdge) :
    v.resolveEdge e = w.resolveEdge e := by
  have hsource := rel_byId h e.source
  have htarget := rel_byId h e.target
  unfold resolveEdge
  generalize w.byId e.source = s, v.byId e.source = s' at hsource
  generalize w.byId e.target = t, v.byId e.target = t' at htarget
  cases hsource with
  | none => rfl
  | some hs =>
    cases htarget with
    | none => rfl
    | some ht =>
      dsimp only
      rw [hs.blockType, hs.blockVersion, ht.blockType, ht.blockVersion]

namespace Same

variable {v w d : WorkflowDefinitionV2}

theorem normalise (h : v.Same w) : v.normalise.Same w.normalise where
  rest := by
    rw [h.rest]
    rfl
  nodes := by
    show List.Forall₂ WorkflowNode.Same (v.nodes.map _) (w.nodes.map _)
    rw [List.forall₂_map_left_iff, List.forall₂_map_right_iff]
    exact h.nodes.imp fun n m hnm => ⟨hnm.id, congrArg trim hnm.blockType, hnm.blockVersion, hnm.config⟩

theorem alike (h : v.Same w) : Alike w v where
  nodes := List.Forall₂.flip (h.nodes.imp fun _ _ hnm => hnm.alike)
  edges := by
    have hnodes : List.Forall₂ NodeAlike w.nodes v.nodes := List.Forall₂.flip (h.nodes.imp fun _ _ hnm => hnm.alike)
    have hedges : v.edges = w.edges := by rw [h.rest]
    rw [hedges, List.forall₂_same]
    exact fun e _ => ⟨rfl, rfl, rfl, resolveEdge_alike hnodes e⟩

theorem nodeFieldIssues {ns ms : List WorkflowNode} (h : List.Forall₂ WorkflowNode.Same ns ms) (i : ℕ) :
    (ns.zipIdx i).flatMap (fun p => WorkflowDefinitionV2.nodeFieldIssues p.1 p.2) =
      (ms.zipIdx i).flatMap fun p => WorkflowDefinitionV2.nodeFieldIssues p.1 p.2 := by
  induction h generalizing i with
  | nil => rfl
  | cons hnm _ ih =>
    rw [List.zipIdx_cons, List.zipIdx_cons, List.flatMap_cons, List.flatMap_cons, ih, WorkflowDefinitionV2.nodeFieldIssues,
      WorkflowDefinitionV2.nodeFieldIssues, hnm.id, hnm.blockType, hnm.blockVersion]

theorem issues (h : v.Same w) (hw : w.issues = []) : v.issues = [] := by
  have hfields : v.fieldIssues = w.fieldIssues := by
    have hlength : v.nodes.length = w.nodes.length := h.nodes.length_eq
    have hempty : v.nodes.isEmpty = w.nodes.isEmpty := by
      rw [Bool.eq_iff_iff, List.isEmpty_iff_length_eq_zero, List.isEmpty_iff_length_eq_zero, hlength]
    have hrest : { w with nodes := v.nodes }.fieldIssues = w.fieldIssues := by
      simp only [fieldIssues, hlength, hempty, nodeFieldIssues h.nodes]
    rw [← hrest, ← h.rest]
  have hedges : v.edges = w.edges := by rw [h.rest]
  simp only [WorkflowDefinitionV2.issues, List.append_eq_nil_iff] at hw ⊢
  obtain ⟨⟨⟨hw₁, hw₂⟩, hw₃⟩, hw₄⟩ := hw
  rw [hfields, hedges, h.alike.validateGraphTopology]
  exact ⟨⟨⟨hw₁, Alike.blockIssues h.alike.nodes hw₂⟩, hw₃⟩, hw₄⟩

/-- A definition is accepted in any order of members, and in the same form. -/
theorem parse (h : v.Same w) (hw : w.parse = .ok d) : v.parse = .ok v.normalise ∧ v.normalise.Same d := by
  obtain ⟨rfl, hissues⟩ := parse_normalise hw
  unfold WorkflowDefinitionV2.parse
  rw [h.normalise.issues hissues]
  exact ⟨rfl, h.normalise⟩

/-- A definition in a form that its schema does not change. -/
theorem normalised (h : v.Same w) (hnormal : v.Same w.normalise) : w.normalise = w := by
  have htypes : w.normalise.nodes.map (·.blockType) = w.nodes.map (·.blockType) :=
    (map_of_rel (fun _ _ hnm => hnm.blockType.symm) hnormal.nodes).trans
      (map_of_rel (fun _ _ hnm => hnm.blockType.symm) h.nodes).symm
  have hname : w.normalise.name = w.name := by
    rw [← show v.name = w.name by rw [h.rest], show v.name = w.normalise.name by rw [hnormal.rest]]
  rw [WorkflowDefinitionV2.normalise_eq_iff]
  refine ⟨hname, ?_⟩
  have hnodes : w.normalise.nodes = w.nodes.map fun n => { n with blockType := trim n.blockType } := rfl
  rw [hnodes, List.map_map, List.map_inj_left] at htypes
  exact htypes

end Same

end WorkflowDefinitionV2

end ADT.Workflow
