import ADT.Workflow.TopologyFacts

/-!
# Workflow.Alike — what the validator reads of a definition

Two definitions are alike when their nodes have the same ids, blocks and references and their edges resolve to the
same; the configurations themselves may be written differently.  The graph validator does not tell alike definitions
apart.
-/

namespace ADT.Workflow.WorkflowDefinitionV2

open Search

/-- What the validator reads of a node. -/
structure NodeAlike (n m : WorkflowNode) : Prop where
  id : m.id = n.id
  blockType : m.blockType = n.blockType
  blockVersion : m.blockVersion = n.blockVersion
  valid : (∃ c, validate n.blockType n.blockVersion n.config = .ok c) →
    ∃ c, validate m.blockType m.blockVersion m.config = .ok c
  publish : n.blockType = "publish-github-pr" →
    (m.config.get? "sourceNodeId").bind Json.asStr? = (n.config.get? "sourceNodeId").bind Json.asStr?
  context : isContextAgent n = true → selectedOutputs m = selectedOutputs n ∧ publishesOutput m = publishesOutput n
  conversation : conversationSource m = conversationSource n

/-- The same nodes and the same resolved edges, in the same order. -/
structure Alike (w v : WorkflowDefinitionV2) : Prop where
  nodes : List.Forall₂ NodeAlike w.nodes v.nodes
  edges : List.Forall₂ (fun e d => d.id = e.id ∧ d.source = e.source ∧ d.target = e.target ∧
    v.resolveEdge d = w.resolveEdge e) w.edges v.edges

theorem rel_find {α β : Type} {R : α → β → Prop} {f : α → Bool} {g : β → Bool} (hfg : ∀ a b, R a b → g b = f a) :
    ∀ {l : List α} {l' : List β}, List.Forall₂ R l l' → Option.Rel R (l.find? f) (l'.find? g)
  | [], [], _ => .none
  | a :: l, b :: l', .cons hab hl => by
    have hb := hfg a b hab
    by_cases ha : f a = true
    · rw [List.find?_cons_of_pos ha, List.find?_cons_of_pos (hb.trans ha)]
      exact .some hab
    · rw [List.find?_cons_of_neg ha, List.find?_cons_of_neg (by rw [hb]; exact ha)]
      exact rel_find hfg hl

theorem rel_findIdx {α β : Type} {R : α → β → Prop} {f : α → Bool} {g : β → Bool}
    (hfg : ∀ a b, R a b → g b = f a) :
    ∀ {l : List α} {l' : List β}, List.Forall₂ R l l' → l'.findIdx g = l.findIdx f
  | [], [], _ => rfl
  | a :: l, b :: l', .cons hab hl => by
    rw [List.findIdx_cons, List.findIdx_cons, hfg a b hab, rel_findIdx hfg hl]

theorem map_of_rel {α β γ : Type} {R : α → β → Prop} {f : α → γ} {g : β → γ} (hfg : ∀ a b, R a b → g b = f a) :
    ∀ {l : List α} {l' : List β}, List.Forall₂ R l l' → l'.map g = l.map f
  | [], [], _ => rfl
  | a :: l, b :: l', .cons hab hl => by
    rw [List.map_cons, List.map_cons, hfg a b hab, map_of_rel hfg hl]

theorem flatMap_of_rel {α β γ : Type} {R : α → β → Prop} {f : α → List γ} {g : β → List γ}
    (hfg : ∀ a b, R a b → g b = f a) {l : List α} {l' : List β} (h : List.Forall₂ R l l') :
    l'.flatMap g = l.flatMap f := by
  rw [List.flatMap_def, List.flatMap_def, map_of_rel hfg h]

theorem any_of_rel {α β : Type} {R : α → β → Prop} {f : α → Bool} {g : β → Bool} (hfg : ∀ a b, R a b → g b = f a) :
    ∀ {l : List α} {l' : List β}, List.Forall₂ R l l' → l'.any g = l.any f
  | [], [], _ => rfl
  | a :: l, b :: l', .cons hab hl => by
    rw [List.any_cons, List.any_cons, hfg a b hab, any_of_rel hfg hl]

theorem NodeAlike.isContextAgent {n m : WorkflowNode} (h : NodeAlike n m) :
    WorkflowDefinitionV2.isContextAgent m = WorkflowDefinitionV2.isContextAgent n := by
  simp only [WorkflowDefinitionV2.isContextAgent, h.blockType, h.blockVersion]

theorem rel_byId {w v : WorkflowDefinitionV2} (h : List.Forall₂ NodeAlike w.nodes v.nodes) (id : String) :
    Option.Rel NodeAlike (w.byId id) (v.byId id) :=
  rel_find (fun _ _ hnm => by rw [hnm.id]) (List.rel_reverse h)

namespace Alike

variable {w v : WorkflowDefinitionV2}

/-! ### The graph -/

section

variable (h : Alike w v)

include h

theorem length : v.nodes.length = w.nodes.length := h.nodes.length_eq.symm

theorem fuel : v.fuel = w.fuel := by
  simp only [WorkflowDefinitionV2.fuel, h.length]

theorem nodeIds : v.nodeIds = w.nodeIds := by
  simp only [WorkflowDefinitionV2.nodeIds, map_of_rel (fun _ _ hnm => hnm.id) h.nodes]

theorem nodePath : v.nodePath = w.nodePath := by
  funext id
  have hindex : v.nodes.reverse.findIdx (·.id == id) = w.nodes.reverse.findIdx (·.id == id) :=
    rel_findIdx (fun _ _ hnm => by rw [hnm.id]) (List.rel_reverse h.nodes)
  simp only [WorkflowDefinitionV2.nodePath, WorkflowDefinitionV2.nodeIndex, h.length, hindex]

theorem isType : v.isType = w.isType := by
  funext type id
  have hb : v.blockTypeOf id = w.blockTypeOf id := by
    have hrel := rel_byId h.nodes id
    unfold WorkflowDefinitionV2.blockTypeOf
    generalize w.byId id = x, v.byId id = y at hrel
    cases hrel with
    | none => rfl
    | some hnm => exact congrArg some hnm.blockType
  rw [WorkflowDefinitionV2.isType, WorkflowDefinitionV2.isType, hb]

theorem resolvedEdges : v.resolvedEdges = w.resolvedEdges := by
  unfold WorkflowDefinitionV2.resolvedEdges
  have hedges := h.edges
  generalize w.edges = es, v.edges = ds at hedges
  induction hedges with
  | nil => rfl
  | cons hed _ ih => rw [List.filterMap_cons, List.filterMap_cons, hed.2.2.2, ih]

theorem incoming : v.incoming = w.incoming := by
  funext id
  simp only [WorkflowDefinitionV2.incoming, h.resolvedEdges]

theorem outgoing : v.outgoing = w.outgoing := by
  funext id
  simp only [WorkflowDefinitionV2.outgoing, h.resolvedEdges]

theorem targets : v.targets = w.targets := by
  funext id
  simp only [WorkflowDefinitionV2.targets, h.outgoing]

theorem sources : v.sources = w.sources := by
  funext id
  simp only [WorkflowDefinitionV2.sources, h.incoming]

theorem canReach : v.canReach = w.canReach := by
  funext source target
  simp only [WorkflowDefinitionV2.canReach, h.targets, h.fuel]

end

variable {i : ℕ} {seen : List String}

theorem edgeIssues {semantic : List ResolvedEdge} {es ds : List WorkflowEdge}
    (hed : List.Forall₂ (fun e d => d.id = e.id ∧ d.source = e.source ∧ d.target = e.target ∧
      v.resolveEdge d = w.resolveEdge e) es ds) : v.edgeIssues i semantic ds = w.edgeIssues i semantic es := by
  induction hed generalizing i semantic with
  | nil => rfl
  | @cons e d es ds hed _ ih =>
    rw [WorkflowDefinitionV2.edgeIssues, WorkflowDefinitionV2.edgeIssues, hed.2.2.2]
    cases w.resolveEdge e with
    | error message => simp only [ih]
    | ok r => simp only [ih]

theorem entries (h : Alike w v) : v.entries = w.entries := by
  have hroots : v.roots = w.roots := by simp only [roots, h.nodeIds, h.incoming]
  have hcycle : v.cycleRoots = w.cycleRoots := by
    unfold cycleRoots
    rw [h.isType, h.canReach]
    have hedges := h.edges
    generalize w.edges = es, v.edges = ds at hedges
    induction hedges with
    | nil => rfl
    | cons hed _ ih =>
      rw [List.filter_cons, List.filter_cons, hed.2.1, hed.2.2.1]
      split
      · rw [List.map_cons, List.map_cons, ih, hed.2.2.1]
      · exact ih
  simp only [WorkflowDefinitionV2.entries, hroots, hcycle]

theorem terminals (h : Alike w v) : v.terminals = w.terminals := by
  simp only [WorkflowDefinitionV2.terminals, h.nodeIds, h.outgoing]

theorem structured (h : Alike w v) : v.structured = w.structured := by
  have horigin : v.originOf = w.originOf := by
    funext id
    simp only [originOf, h.incoming]
  funext id
  simp only [WorkflowDefinitionV2.structured, horigin, h.sources, h.isType, h.outgoing, h.targets]

theorem mergeIssues (h : Alike w v) : v.mergeIssues = w.mergeIssues := by
  funext id
  have hexclusive : v.exclusive id = w.exclusive id := by
    refine any_of_rel (fun n m hnm => ?_) h.nodes
    simp only [hnm.id, hnm.blockType, h.outgoing, h.sources, h.targets, h.fuel]
  have hcycle : v.controlledCycleMerge id = w.controlledCycleMerge id := by
    simp only [controlledCycleMerge, h.incoming, h.isType, h.targets, h.fuel]
  simp only [WorkflowDefinitionV2.mergeIssues, hexclusive, hcycle, h.incoming, h.nodePath]

theorem fanOutIssues (h : Alike w v) : v.fanOutIssues = w.fanOutIssues := by
  have hjoins : v.joinsFor = w.joinsFor := by
    funext start
    simp only [joinsFor, h.isType, h.targets, h.fuel]
  have hcommon : v.commonJoins = w.commonJoins := by
    funext id
    simp only [commonJoins, h.targets, hjoins]
  have happroval : v.containsApproval = w.containsApproval := by
    funext join start
    simp only [containsApproval, h.isType, h.targets, h.fuel]
  funext id
  simp only [WorkflowDefinitionV2.fanOutIssues, h.outgoing, hcommon, happroval, h.targets, h.nodePath]

theorem nodeIssues (h : Alike w v) : v.nodeIssues = w.nodeIssues := by
  funext id
  simp only [WorkflowDefinitionV2.nodeIssues, conditionIssues, joinIssues, h.isType, h.incoming, h.outgoing,
    h.nodePath, h.structured, h.mergeIssues, h.fanOutIssues]

/-! ### The references between nodes -/

section

variable (h : Alike w v)

include h

theorem publishIssues {n m : WorkflowNode} (hnm : NodeAlike n m) :
    v.publishIssues m = w.publishIssues n := by
  unfold WorkflowDefinitionV2.publishIssues
  rw [hnm.blockType]
  by_cases hp : (n.blockType == "publish-github-pr") = true
  · rw [if_pos hp, if_pos hp, hnm.publish (beq_iff_eq.mp hp)]
    simp only [hnm.id, h.isType, h.sources, h.nodePath]
  · rw [if_neg hp, if_neg hp]

theorem contextIssues {n m : WorkflowNode} (hnm : NodeAlike n m) :
    v.contextIssues m = w.contextIssues n := by
  unfold WorkflowDefinitionV2.contextIssues
  rw [hnm.isContextAgent]
  by_cases hc : WorkflowDefinitionV2.isContextAgent n = true
  swap
  · rw [if_neg hc, if_neg hc]
  rw [if_pos hc, if_pos hc, (hnm.context hc).1, hnm.id, h.canReach, h.nodePath]
  congr 1
  funext sourceId
  have hrel := rel_byId h.nodes sourceId
  generalize w.byId sourceId = x, v.byId sourceId = y at hrel
  cases hrel with
  | none => rfl
  | @some source other hsource =>
    have hpublishes : (!WorkflowDefinitionV2.isContextAgent other || !publishesOutput other) =
        (!WorkflowDefinitionV2.isContextAgent source || !publishesOutput source) := by
      rw [hsource.isContextAgent]
      cases hs : WorkflowDefinitionV2.isContextAgent source with
      | false => rfl
      | true => rw [(hsource.context hs).2]
    simp only [hpublishes]

theorem conversationNodes : List.Forall₂ NodeAlike w.conversationNodes v.conversationNodes :=
  List.rel_filter (fun n m hnm => by
    show (conversationSource n).isSome = true ↔ (conversationSource m).isSome = true
    rw [hnm.conversation]) h.nodes

theorem parent : v.parent = w.parent := by
  funext id
  have hrel : Option.Rel NodeAlike (w.conversationNodes.reverse.find? (·.id == id))
      (v.conversationNodes.reverse.find? (·.id == id)) :=
    rel_find (fun _ _ hnm => by rw [hnm.id]) (List.rel_reverse h.conversationNodes)
  unfold WorkflowDefinitionV2.parent
  generalize w.conversationNodes.reverse.find? (·.id == id) = x,
    v.conversationNodes.reverse.find? (·.id == id) = y at hrel
  cases hrel with
  | none => rfl
  | some hnm => exact hnm.conversation

theorem conversationCycle : ∀ fuel seen cursor,
    v.conversationCycle fuel seen cursor = w.conversationCycle fuel seen cursor
  | 0, _, _ => rfl
  | fuel + 1, seen, cursor => by
    rw [WorkflowDefinitionV2.conversationCycle, WorkflowDefinitionV2.conversationCycle, h.parent]
    cases w.parent cursor with
    | none => rfl
    | some next => exact congrArg (seen.contains cursor || ·) (conversationCycle fuel _ _)

theorem conversationRootFrom : ∀ fuel seen value,
    v.conversationRootFrom fuel seen value = w.conversationRootFrom fuel seen value
  | 0, _, _ => rfl
  | fuel + 1, seen, value => by
    rw [WorkflowDefinitionV2.conversationRootFrom, WorkflowDefinitionV2.conversationRootFrom, h.parent]
    cases w.parent value with
    | none => rfl
    | some next => simp only [conversationRootFrom fuel]

theorem conversationIssues {n m : WorkflowNode} (hnm : NodeAlike n m) :
    v.conversationIssues m = w.conversationIssues n := by
  unfold WorkflowDefinitionV2.conversationIssues
  rw [hnm.conversation]
  cases conversationSource n with
  | none => rfl
  | some sourceId => simp only [hnm.id, h.isType, h.canReach, h.nodePath, h.fuel, h.conversationCycle]

theorem lineageIssues {ns ms : List WorkflowNode} (hnm : List.Forall₂ NodeAlike ns ms) :
    v.lineageIssues ms = w.lineageIssues ns := by
  have hroot : ∀ id, v.conversationRoot id = w.conversationRoot id := fun id => by
    rw [conversationRoot, conversationRoot, h.fuel, h.conversationRootFrom]
  induction hnm with
  | nil => rfl
  | cons hab hrest ih =>
    rw [WorkflowDefinitionV2.lineageIssues, WorkflowDefinitionV2.lineageIssues, ih]
    congr 1
    refine flatMap_of_rel (fun n m hnm => ?_) hrest
    simp only [hroot, hab.id, hnm.id, h.canReach, h.nodePath]

end

/-! ### The whole graph -/

theorem strong (h : Alike w v) : ∀ fuel (t : Tarjan) id, v.strong fuel t id = w.strong fuel t id
  | 0, _, _ => rfl
  | fuel + 1, t, id => by
    rw [WorkflowDefinitionV2.strong, WorkflowDefinitionV2.strong, h.targets]
    simp only [h.strong fuel]

theorem components (h : Alike w v) : v.components = w.components := by
  simp only [WorkflowDefinitionV2.components, h.nodeIds, h.fuel, h.strong]

theorem componentIssues (h : Alike w v) : v.componentIssues = w.componentIssues := by
  funext component
  simp only [WorkflowDefinitionV2.componentIssues, h.targets, h.isType]

/-- **Alike definitions have the same issues** with the graph. -/
theorem validateGraphTopology (h : Alike w v) : v.validateGraphTopology = w.validateGraphTopology := by
  have hpublish : v.nodes.flatMap v.publishIssues = w.nodes.flatMap w.publishIssues :=
    flatMap_of_rel (fun _ _ hnm => h.publishIssues hnm) h.nodes
  have hcontext : v.nodes.flatMap v.contextIssues = w.nodes.flatMap w.contextIssues :=
    flatMap_of_rel (fun _ _ hnm => h.contextIssues hnm) h.nodes
  have hconversation :
      v.conversationNodes.flatMap v.conversationIssues = w.conversationNodes.flatMap w.conversationIssues :=
    flatMap_of_rel (fun _ _ hnm => h.conversationIssues hnm) h.conversationNodes
  have hterminal : v.terminalIssues = w.terminalIssues := by
    simp only [terminalIssues, h.terminals, h.isType]
  have hreachable : v.reachableIssues = w.reachableIssues := by
    simp only [reachableIssues, h.entries, h.targets, h.fuel, h.length]
  have hleads : v.leadsIssues = w.leadsIssues := by
    simp only [leadsIssues, h.terminals, h.sources, h.fuel, h.length]
  simp only [WorkflowDefinitionV2.validateGraphTopology, edgeIssues h.edges, h.entries, h.terminals, h.nodeIds,
    h.nodeIssues, hpublish, hcontext, hconversation, h.lineageIssues h.conversationNodes, hterminal, hreachable,
    hleads, h.components, h.componentIssues]

theorem blockIssues {ns ms : List WorkflowNode} (hnm : List.Forall₂ NodeAlike ns ms)
    (h : blockIssues i seen ns = []) : WorkflowDefinitionV2.blockIssues i seen ms = [] := by
  induction hnm generalizing i seen with
  | nil => rfl
  | @cons n m ns ms hab _ ih =>
    obtain ⟨-, hvalid⟩ := blockIssues_nil h
    obtain ⟨c, hc⟩ := hab.valid (hvalid n (List.mem_cons_self ..)).2
    simp only [WorkflowDefinitionV2.blockIssues, List.append_eq_nil_iff] at h ⊢
    rw [hab.id, hc]
    exact ⟨⟨h.1.1, rfl⟩, ih h.2⟩

theorem edgeIdIssues {es ds : List WorkflowEdge} (hed : List.Forall₂ (fun e d : WorkflowEdge => d.id = e.id) es ds) :
    edgeIdIssues i seen ds = WorkflowDefinitionV2.edgeIdIssues i seen es := by
  induction hed generalizing i seen with
  | nil => rfl
  | cons hid _ ih => rw [WorkflowDefinitionV2.edgeIdIssues, WorkflowDefinitionV2.edgeIdIssues, hid, ih]

end Alike

end ADT.Workflow.WorkflowDefinitionV2
