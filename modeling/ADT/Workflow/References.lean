import ADT.Workflow.Conversations
import ADT.Workflow.Renaming

/-!
# Workflow.References — references survive composition

The references of a configuration to other nodes of its workflow, what an expansion makes of them, and which checks of
the flat workflow they pass there.  All of them are made to execution ids but the source of a block that publishes a pull
request, which stays what it is in the workflow that is invoked.
-/

namespace ADT.Workflow

open Substitution Search
open WorkflowDefinitionV2 (isContextAgent selectedOutputs publishesOutput conversationSource)

/-! ### References -/

/-- `sourceNodeId` of a block that publishes a pull request. -/
def publishSource (node : WorkflowNode) : Option String :=
  if node.blockType == "publish-github-pr" then (node.config.get? "sourceNodeId").bind Json.asStr? else none

/-- The ids of other nodes in a configuration. -/
def nodeReferences (node : WorkflowNode) : List String :=
  (if isContextAgent node then selectedOutputs node else []) ++ (conversationSource node).toList ++
    (publishSource node).toList

namespace WorkflowDefinitionV2

variable (w : WorkflowDefinitionV2)

/-- The issues of the fields, the blocks and the edges. -/
def plainIssues : List Issue :=
  w.fieldIssues ++ blockIssues 0 [] w.nodes ++ edgeIdIssues 0 [] w.edges ++ w.edgeIssues 0 [] w.edges

/-- The issues of references between nodes. -/
def referenceIssues : List Issue :=
  w.nodes.flatMap w.publishIssues ++ w.nodes.flatMap w.contextIssues ++
    w.conversationNodes.flatMap w.conversationIssues ++ w.lineageIssues w.conversationNodes

end WorkflowDefinitionV2

/-- **What becomes of references** in the expansion `X` of a workflow. -/
structure ReferencesSurvive (available : String → Option VersionedWorkflowDefinition) (root X : WorkflowDefinitionV2) :
    Prop where
  /-- They are made to execution ids of the same invocation. -/
  renamed : ∀ o, Occurs available [] root o →
    nodeReferences o.expanded = (nodeReferences o.node).map (executionId .n o.path o.workflow.id)
  /-- They are to nodes of the same invocation, which are there. -/
  found : ∀ o, Occurs available [] root o → ∀ id ∈ nodeReferences o.node,
    ∃ m, Occurs available [] root ⟨o.path, o.workflow, m⟩ ∧ m.id = id ∧
      NodeOccurrence.expanded ⟨o.path, o.workflow, m⟩ ∈ X.nodes
  /-- Every configuration is one its block accepts. -/
  fits : ∀ o, Occurs available [] root o →
    ∃ c, validate o.expanded.blockType o.expanded.blockVersion o.expanded.config = .ok c
  /-- They are no reason to refuse the flat workflow. -/
  accepted : X.plainIssues = [] → X.referenceIssues = []

/-- Every block that publishes a pull request names a source whose execution id is that very name. -/
def OwnSources (available : String → Option VersionedWorkflowDefinition) (root : WorkflowDefinitionV2) : Prop :=
  ∀ o, Occurs available [] root o → ∀ id, publishSource o.node = some id →
    executionId .n o.path o.workflow.id id = id

variable {available : String → Option VersionedWorkflowDefinition} {path : List InvocationSegment}
  {w X : WorkflowDefinitionV2} {node : WorkflowNode}

/-! ### The references of a node -/

variable (o : NodeOccurrence) {root : WorkflowDefinitionV2}

theorem isContextAgent_expanded : isContextAgent o.expanded = isContextAgent o.node := rfl

theorem nodeReferences_publish (h : node.blockType = "publish-github-pr") :
    nodeReferences node = ((node.config.get? "sourceNodeId").bind Json.asStr?).toList := by
  have hcontext : isContextAgent node = false := by
    rw [isContextAgent, h]
    rfl
  have hsource : conversationSource node = none := by
    rw [conversationSource, h]
    rfl
  rw [nodeReferences, hcontext, hsource, publishSource, if_pos (beq_iff_eq.mpr h)]
  rfl

theorem nodeReferences_other (h : node.blockType ≠ "publish-github-pr") : nodeReferences node =
    (if isContextAgent node then selectedOutputs node else []) ++ (conversationSource node).toList := by
  have hsource : publishSource node = none := if_neg (by rwa [beq_iff_eq])
  rw [nodeReferences, hsource, Option.toList_none, List.append_nil]

theorem nodeReferences_expanded (h : o.node.blockType ≠ "publish-github-pr") :
    nodeReferences o.expanded = (nodeReferences o.node).map (executionId .n o.path o.workflow.id) := by
  have htype : o.expanded.blockType ≠ "publish-github-pr" := h
  rw [nodeReferences_other htype, nodeReferences_other h, List.map_append, ← Option.toList_map,
    isContextAgent_expanded, NodeOccurrence.expanded, conversationSource_expanded]
  congr 1
  split
  · next hcontext => exact selectedOutputs_expanded hcontext
  · rfl

theorem publishSource_expanded : publishSource o.expanded = publishSource o.node := by
  unfold publishSource
  show (if o.node.blockType == "publish-github-pr" then _ else none) = _
  by_cases h : o.node.blockType = "publish-github-pr"
  · have hcontext : isContextAgent o.node = false := by
      rw [isContextAgent, h]
      rfl
    rw [NodeOccurrence.expanded, expandedNode]
    dsimp only
    rw [executionConfig_eq, hcontext]
    rfl
  · rw [if_neg (by rwa [beq_iff_eq]), if_neg (by rwa [beq_iff_eq])]

theorem renamed_publish_iff (h : o.node.blockType = "publish-github-pr") :
    nodeReferences o.expanded = (nodeReferences o.node).map (executionId .n o.path o.workflow.id) ↔
      ∀ id, publishSource o.node = some id → executionId .n o.path o.workflow.id id = id := by
  have hsame := publishSource_expanded o
  have hown : publishSource o.node = (o.node.config.get? "sourceNodeId").bind Json.asStr? := if_pos (beq_iff_eq.mpr h)
  have hexpanded : publishSource o.expanded = (o.expanded.config.get? "sourceNodeId").bind Json.asStr? :=
    if_pos (beq_iff_eq.mpr h)
  have htype : o.expanded.blockType = "publish-github-pr" := h
  rw [nodeReferences_publish htype, nodeReferences_publish h, ← hown, ← hexpanded, hsame]
  cases publishSource o.node with
  | none => simp
  | some id => simp [eq_comm]

theorem reference_agent (hw : w.Facts) (hnode : node ∈ w.nodes) {id : String} (hid : id ∈ nodeReferences node) :
    w.isType "agent" id = true := by
  rw [nodeReferences, List.mem_append, List.mem_append] at hid
  rcases hid with (hid | hid) | hid
  · split at hid
    · next hcontext =>
      have hissues := hw.context node hnode
      rw [WorkflowDefinitionV2.contextIssues, if_pos hcontext, List.flatMap_eq_nil_iff] at hissues
      have hissue := hissues id hid
      rw [issueIf_eq_nil, Bool.or_eq_false_iff, Bool.or_eq_false_iff] at hissue
      cases hsource : w.byId id with
      | none =>
        rw [hsource] at hissue
        cases hissue.1.2
      | some source =>
        rw [hsource] at hissue
        have hagent := hissue.1.2
        rw [Bool.or_eq_false_iff, Bool.not_eq_false', isContextAgent, Bool.and_eq_true, beq_iff_eq] at hagent
        exact WorkflowDefinitionV2.isType_iff.mpr ⟨source, hsource, hagent.1.1⟩
    · cases hid
  · have hsome : conversationSource node = some id := Option.mem_toList.mp hid
    have hmem : node ∈ w.conversationNodes := List.mem_filter.mpr ⟨hnode, by rw [hsome]; rfl⟩
    have hissues := hw.conversation node hmem
    rw [WorkflowDefinitionV2.conversationIssues, hsome, List.append_eq_nil_iff, issueIf_eq_nil,
      Bool.or_eq_false_iff, Bool.or_eq_false_iff, Bool.not_eq_false'] at hissues
    exact hissues.1.1.2
  · have hsome : publishSource node = some id := Option.mem_toList.mp hid
    have hissues := hw.publish node hnode
    unfold publishSource at hsome
    split at hsome
    · next htype =>
      rw [WorkflowDefinitionV2.publishIssues, if_pos htype, hsome, issueIf_eq_nil, Bool.or_eq_false_iff,
        Bool.or_eq_false_iff, Bool.not_eq_false'] at hissues
      exact hissues.1.2
    · cases hsome

theorem occurs_agent {o : NodeOccurrence} (ho : Occurs available [] root o) {id : String}
    (h : o.workflow.isType "agent" id = true) :
    ∃ m, Occurs available [] root ⟨o.path, o.workflow, m⟩ ∧ m.id = id ∧ m.blockType = "agent" := by
  obtain ⟨m, hm, htype⟩ := WorkflowDefinitionV2.isType_iff.mp h
  obtain ⟨hmem, hid⟩ := WorkflowDefinitionV2.byId_some hm
  refine ⟨m, ⟨ho.1, hmem, ?_⟩, hid, htype⟩
  cases hsub : subworkflowOf m with
  | none => rfl
  | some childId =>
    have hsubtype := blockType_of_subworkflow hsub
    rw [htype] at hsubtype
    exact absurd hsubtype (by decide)

/-! ### Paths -/

/-- **A path between two nodes** of a workflow that is invoked is one between their execution ids. -/
theorem expand_lifts {root : WorkflowDefinitionV2} : ∀ {depth : ℕ} {workflow : WorkflowDefinitionV2}
    {path : List InvocationSegment} {stack : List String} {s s' : Composer} {X : WorkflowDefinitionV2}, workflow.Accepted →
    Labelled s → (X.nodes.map (·.id)).Nodup → expand root available depth workflow path stack s = .ok (X, s') →
    ∀ (path' : List InvocationSegment) (w : WorkflowDefinitionV2), Invokes available path workflow path' w →
    ∀ a b : WorkflowNode, a ∈ w.nodes → subworkflowOf a = none → b ∈ w.nodes → subworkflowOf b = none →
      Relation.ReflTransGen (Joins w.edges) a.id b.id →
      Relation.ReflTransGen (Joins X.edges) (executionId .n path' w.id a.id) (executionId .n path' w.id b.id)
  | 0, _, _, _, _, _, _, _, _, _, h => by cases h
  | depth + 1, workflow, path, stack, s, s', X, hw, hs, hnd, h => by
    obtain ⟨parts, -, hedges, hall⟩ := expand_parts (fun hw hs hnd h => expand_grown hw hs hnd h) hs hnd h
    obtain ⟨hlen, hzip⟩ := List.forall₂_iff_zip.mp hall
    have hfst : (workflow.nodes.zip parts).map (·.1) = workflow.nodes := List.map_fst_zip hlen.le
    have hsnd : (workflow.nodes.zip parts).map (·.2) = parts := List.map_snd_zip hlen.ge
    intro path' w hinv a b ha hasub hb hbsub hpath
    rw [hedges]
    rcases hinv with _ | ⟨hnode, hid, hv, hinv⟩
    · -- in the workflow itself a part is a single node
      obtain ⟨entryOf, exitOf, hgrown⟩ := ends_of_parts (ids_nodup_of_parts hw.facts hfst)
        fun l hl => (hzip (a := l.1) (b := l.2) hl).1
      obtain ⟨e, he⟩ := hw.facts.entry
      obtain ⟨t, ht⟩ := hw.facts.terminal
      have houter := definition_sound hw.facts he ht
      have hlift := Piece.subst_path houter (pieceAt_sound hw.facts hfst hgrown e t) (a := a.id) ⟨a, ha, rfl⟩ hpath
      rw [← assembled_graph hw.facts hfst hgrown e t, hsnd] at hlift
      obtain ⟨la, hla, haid⟩ := part_of_node hfst ⟨a, ha, rfl⟩
      obtain ⟨lb, hlb, hbid⟩ := part_of_node hfst ⟨b, hb, rfl⟩
      have hentry := (hgrown la hla).enters
      have hexit := (hgrown lb hlb).leaves
      rw [haid] at hentry
      rw [hbid] at hexit
      rw [← lands_unique hentry (.node ha hasub) hw, ← lands_unique hexit (.node hb hbsub) hw]
      exact hlift
    · rename_i node id v
      obtain ⟨l, hl, hlid⟩ := part_of_node hfst ⟨node, hnode, rfl⟩
      obtain ⟨hlnode, hlpart⟩ := List.of_mem_zip (a := l.1) (b := l.2) hl
      obtain rfl : l.1 = node := List.inj_on_of_nodup_map hw.facts.ids_nodup hlnode hnode hlid
      obtain ⟨-, hpartnd, t₁, t₂, ht₁, hn⟩ := hzip (a := l.1) (b := l.2) hl
      rcases expandNode_ok hn with ⟨hnone, -⟩ | ⟨childId, hsub, hn⟩
      · rw [hid] at hnone
        cases hnone
      · rw [hid] at hsub
        cases hsub
        obtain ⟨v', refs, Y, s₁, entry, terminal, hv', huse, hY, -, -, hpart⟩ := expandBlock_ok hn
        rw [hv] at hv'
        obtain rfl := Option.some.inj hv'
        have hs₁ : Labelled s₁ := by
          cases huse
          exact ht₁
        rw [hpart] at hpartnd
        have hinner := expand_lifts v.accepted hs₁ hpartnd hY path' w hinv a b ha hasub hb hbsub hpath
        refine Relation.ReflTransGen.mono (fun x y hxy => ?_) _ _ hinner
        obtain ⟨d, hd, hxy⟩ := hxy
        refine ⟨d, List.mem_append_left _ (List.mem_flatMap.mpr ⟨l.2, hlpart, ?_⟩), hxy⟩
        rw [hpart]
        exact hd

/-! ### The flat workflow -/

theorem Invokes.trans {path' path'' : List InvocationSegment} {w' w'' : WorkflowDefinitionV2}
    (h : Invokes available path w path' w') (h' : Invokes available path' w' path'' w'') :
    Invokes available path w path'' w'' := by
  induction h with
  | here => exact h'
  | inside hnode hid hv _ ih => exact .inside hnode hid hv (ih h')

theorem lands_occurs {ends : WorkflowDefinitionV2 → List String} {id x : String}
    (h : Lands available ends path w id x) (hinv : Invokes available [] root path w) :
    ∃ o, Occurs available [] root o ∧ o.expanded.id = x ∧
      ((o.path = path ∧ o.workflow = w ∧ o.node.id = id) ∨ ends o.workflow = [o.node.id]) := by
  induction h with
  | @node path w node hnode hid => exact ⟨⟨path, w, node⟩, ⟨hinv, hnode, hid⟩, rfl, .inl ⟨rfl, rfl, rfl⟩⟩
  | block hnode hid hv he _ ih =>
    obtain ⟨o, ho, hx, hend⟩ := ih (hinv.trans (.inside hnode hid hv .here))
    refine ⟨o, ho, hx, .inr ?_⟩
    rcases hend with ⟨-, hw, hnode⟩ | hend
    · rw [hw, hnode]
      exact he
    · exact hend

/-- An expansion in which the checks of fields, blocks and edges have no issues. -/
structure Flat (available : String → Option VersionedWorkflowDefinition) (root X : WorkflowDefinitionV2) : Prop where
  mem : ∀ o, Occurs available [] root o → o.expanded ∈ X.nodes
  occurs : ∀ n ∈ X.nodes, ∃ o, Occurs available [] root o ∧ o.expanded = n
  accepted : ∀ o, Occurs available [] root o → o.workflow.Accepted
  distinct : ∀ o o', Occurs available [] root o → Occurs available [] root o' → o.expanded.id = o'.expanded.id → o = o'
  ids_nodup : (X.nodes.map (·.id)).Nodup
  resolves : ∀ e ∈ X.edges, ∃ r, X.resolveEdge e = .ok r
  edges_nodup : X.resolvedEdges.Nodup
  redirected : ∀ e ∈ X.edges, ∃ o, EdgeOccurs available [] root o ∧ Redirects available o e
  redirects : ∀ o, EdgeOccurs available [] root o → ∃ e ∈ X.edges, Redirects available o e
  lifts : ∀ path w, Invokes available [] root path w → ∀ a b : WorkflowNode, a ∈ w.nodes → subworkflowOf a = none →
    b ∈ w.nodes → subworkflowOf b = none → Relation.ReflTransGen (Joins w.edges) a.id b.id →
    Relation.ReflTransGen (Joins X.edges) (executionId .n path w.id a.id) (executionId .n path w.id b.id)

/-- An expansion without issues of fields, blocks and edges is flat. -/
theorem flat_of_plain {root : VersionedWorkflowDefinition} {versions : List VersionedWorkflowDefinition} {s : Composer}
    (hX : expandRoot root.definition versions = .ok (X, s)) (hplain : X.plainIssues = []) :
    Flat (availableIn versions) root.definition X := by
  simp only [WorkflowDefinitionV2.plainIssues, List.append_eq_nil_iff] at hplain
  obtain ⟨⟨⟨-, hblocks⟩, -⟩, hedges⟩ := hplain
  obtain ⟨hnd, -⟩ := WorkflowDefinitionV2.blockIssues_nil hblocks
  obtain ⟨hresolves, hedgesnd, -⟩ := WorkflowDefinitionV2.edgeIssues_nil hedges
  obtain ⟨occ, hnodes, -, hmem, hacc⟩ := expandRoot_nodes hX
  have hlabelled : Labelled {} := fun q hq => by cases hq
  obtain ⟨x, y, hgrown⟩ := expand_grown root.accepted hlabelled hnd hX
  obtain ⟨eocc, hforall, heocc⟩ := hgrown.redirects
  refine ⟨?_, ?_, fun o ho => (hacc o ((hmem o).mpr ho)).1, ?_, hnd, hresolves, hedgesnd, ?_, ?_, ?_⟩
  · intro o ho
    rw [hnodes]
    exact List.mem_map_of_mem ((hmem o).mpr ho)
  · intro n hn
    rw [hnodes] at hn
    obtain ⟨o, ho, rfl⟩ := List.mem_map.mp hn
    exact ⟨o, (hmem o).mp ho, rfl⟩
  · intro o o' ho ho' hid
    rw [hnodes, List.map_map] at hnd
    exact List.inj_on_of_nodup_map hnd ((hmem o).mpr ho) ((hmem o').mpr ho') hid
  · intro e he
    obtain ⟨o, ho, hr⟩ := exists_of_forall₂_right hforall he
    exact ⟨o, (heocc o).mp ho, hr⟩
  · intro o ho
    exact exists_of_forall₂_left hforall ((heocc o).mpr ho)
  · exact expand_lifts root.accepted hlabelled hnd hX

namespace Flat

variable {root : WorkflowDefinitionV2} (F : Flat available root X) {o : NodeOccurrence}

include F

theorem byId_eq (ho : Occurs available [] root o) : X.byId o.expanded.id = some o.expanded :=
  WorkflowDefinitionV2.byId_eq F.ids_nodup (F.mem o ho)

theorem canReach {m m' : WorkflowNode} (ho : Occurs available [] root ⟨path, w, m⟩)
    (ho' : Occurs available [] root ⟨path, w, m'⟩) (h : w.canReach m.id m'.id = true) :
    X.canReach (executionId .n path w.id m.id) (executionId .n path w.id m'.id) = true := by
  have hw := (F.accepted _ ho).facts
  have hpath : Relation.ReflTransGen (Edge w.targets) m.id m'.id :=
    (search_target_iff (U := w.nodeIds) (fun _ _ _ hb => WorkflowDefinitionV2.target_mem_nodeIds hb)
      (WorkflowDefinitionV2.mem_nodeIds.mpr ⟨m, ho.2.1, rfl⟩)
      (by rw [hw.nodeIds_eq, List.length_map]; exact Nat.lt_succ_self _)).mp h
  have hlift := F.lifts path w ho.1 m m' ho.2.1 ho.2.2 ho'.2.1 ho'.2.2
    (Relation.ReflTransGen.mono (fun _ _ hab => (joins_iff hw).mpr hab) _ _ hpath)
  have hnodeIds : X.nodeIds = X.nodes.map (·.id) := eraseDups_of_nodup F.ids_nodup
  refine (search_target_iff (U := X.nodeIds) (fun _ _ _ hb => WorkflowDefinitionV2.target_mem_nodeIds hb)
    (WorkflowDefinitionV2.mem_nodeIds.mpr ⟨_, F.mem _ ho, rfl⟩)
    (by rw [hnodeIds, List.length_map]; exact Nat.lt_succ_self _)).mpr ?_
  refine Relation.ReflTransGen.mono (fun a b hab => ?_) _ _ hlift
  obtain ⟨e, he, hs, ht⟩ := hab
  obtain ⟨r, hr⟩ := F.resolves e he
  obtain ⟨hrs, hrt, -⟩ := WorkflowDefinitionV2.resolveEdge_ok hr
  exact WorkflowDefinitionV2.mem_targets.mpr
    ⟨r, WorkflowDefinitionV2.mem_resolvedEdges.mpr ⟨e, he, hr⟩, hrs.trans hs, hrt.trans ht⟩

theorem isType_iff (ho : Occurs available [] root o) (type : String) :
    X.isType type o.expanded.id = true ↔ o.node.blockType = type := by
  rw [WorkflowDefinitionV2.isType_iff, F.byId_eq ho]
  constructor
  · rintro ⟨n, hn, htype⟩
    cases hn
    exact htype
  · intro htype
    exact ⟨_, rfl, htype⟩

theorem contextIssues (ho : Occurs available [] root o) : X.contextIssues o.expanded = [] := by
  obtain ⟨path, w, n⟩ := o
  have hw := (F.accepted _ ho).facts
  have hissues := hw.context n ho.2.1
  unfold WorkflowDefinitionV2.contextIssues at hissues ⊢
  rw [isContextAgent_expanded]
  split
  · next hcontext =>
    rw [if_pos hcontext, List.flatMap_eq_nil_iff] at hissues
    rw [List.flatMap_eq_nil_iff, NodeOccurrence.expanded, selectedOutputs_expanded hcontext]
    intro sourceId hsource
    obtain ⟨id, hid, rfl⟩ := List.mem_map.mp hsource
    have hissue := hissues id hid
    rw [issueIf_eq_nil, Bool.or_eq_false_iff, Bool.or_eq_false_iff, Bool.not_eq_false', beq_eq_false_iff_ne] at hissue
    obtain ⟨⟨hne, hsource⟩, hreach⟩ := hissue
    have hreference : id ∈ nodeReferences n := by
      rw [nodeReferences, if_pos hcontext]
      exact List.mem_append_left _ (List.mem_append_left _ hid)
    obtain ⟨m, hm, rfl, -⟩ := occurs_agent ho (reference_agent hw ho.2.1 hreference)
    rw [WorkflowDefinitionV2.byId_eq hw.ids_nodup hm.2.1] at hsource
    have hbyId : X.byId (executionId .n path w.id m.id) = some (NodeOccurrence.expanded ⟨path, w, m⟩) := F.byId_eq hm
    rw [issueIf_eq_nil, Bool.or_eq_false_iff, Bool.or_eq_false_iff, Bool.not_eq_false', beq_eq_false_iff_ne, hbyId]
    refine ⟨⟨fun heq => ?_, ?_⟩, F.canReach hm ho hreach⟩
    · have hsame := F.distinct _ _ hm ho heq
      exact hne (congrArg (fun o : NodeOccurrence => o.node.id) hsame)
    · show (!isContextAgent m || !publishesOutput (expandedNode path w.id m)) = false
      rw [publishesOutput_expanded]
      exact hsource
  · rfl

/-! ### Conversations -/

section

variable (ho : Occurs available [] root o)

include ho

theorem mirrors : WorkflowDefinitionV2.Mirrors o.workflow X
    (executionId .n o.path o.workflow.id)
    fun v => ∃ m, Occurs available [] root ⟨o.path, o.workflow, m⟩ ∧ m.id = v where
  parent := by
    rintro v ⟨m, hm, rfl⟩
    have hflat := WorkflowDefinitionV2.parent_eq F.ids_nodup (F.mem _ hm)
    rw [NodeOccurrence.expanded, conversationSource_expanded] at hflat
    rw [WorkflowDefinitionV2.parent_eq (F.accepted _ ho).facts.ids_nodup hm.2.1]
    exact hflat
  next := by
    rintro v u ⟨m, hm, rfl⟩ hnext
    have hw := (F.accepted _ ho).facts
    rw [WorkflowDefinitionV2.parent_eq hw.ids_nodup hm.2.1] at hnext
    have hreference : u ∈ nodeReferences m := by
      rw [nodeReferences, hnext]
      exact List.mem_append_left _ (List.mem_append_right _ (List.mem_singleton_self u))
    obtain ⟨m', hm', hid, -⟩ := occurs_agent hm (reference_agent hw hm.2.1 hreference)
    exact ⟨m', hm', hid⟩
  inj := by
    rintro u v ⟨m, hm, rfl⟩ ⟨m', hm', rfl⟩ heq
    exact congrArg (fun o : NodeOccurrence => o.node.id) (F.distinct _ _ hm hm' heq)

theorem conversationIssues : X.conversationIssues o.expanded = [] := by
  obtain ⟨path, w, n⟩ := o
  have hw := (F.accepted _ ho).facts
  unfold WorkflowDefinitionV2.conversationIssues
  rw [NodeOccurrence.expanded, conversationSource_expanded]
  cases hsource : conversationSource n with
  | none => rfl
  | some id =>
    have hmem : n ∈ w.conversationNodes := List.mem_filter.mpr ⟨ho.2.1, by rw [hsource]; rfl⟩
    have hissues := hw.conversation n hmem
    rw [WorkflowDefinitionV2.conversationIssues, hsource] at hissues
    rw [Option.map_some]
    dsimp only at hissues ⊢
    rw [List.append_eq_nil_iff, issueIf_eq_nil, issueIf_eq_nil, Bool.or_eq_false_iff, Bool.or_eq_false_iff,
      Bool.not_eq_false', Bool.not_eq_false', beq_eq_false_iff_ne] at hissues ⊢
    obtain ⟨⟨⟨hne, hagent⟩, hreach⟩, hcycle⟩ := hissues
    obtain ⟨m, hm, rfl, htype⟩ := occurs_agent ho hagent
    refine ⟨⟨⟨fun heq => ?_, (F.isType_iff hm "agent").mpr htype⟩, F.canReach hm ho hreach⟩, ?_⟩
    · have hsame := F.distinct _ _ hm ho heq
      exact hne (congrArg (fun o : NodeOccurrence => o.node.id) hsame)
    · -- the chain is the same, and there was fuel enough to see that it ends
      have hmirror := (F.mirrors ho).cycle X.fuel [n.id] m.id ⟨m, hm, rfl⟩ (by
        intro u hu
        rw [List.mem_singleton.mp hu]
        exact ⟨n, ho, rfl⟩)
      exact hmirror.trans (WorkflowDefinitionV2.conversationCycle_fuel
        (fun v u hvu => WorkflowDefinitionV2.parent_mem hvu) (WorkflowDefinitionV2.unmet_le _) hcycle X.fuel)

theorem unmet_lt_fuel : WorkflowDefinitionV2.unmet (o.workflow.conversationNodes.map (·.id)) [] < X.fuel := by
  have hw := (F.accepted _ ho).facts
  have hoccurs : ∀ n ∈ o.workflow.conversationNodes, Occurs available [] root ⟨o.path, o.workflow, n⟩ := by
    intro n hn
    obtain ⟨hmem, hsource⟩ := List.mem_filter.mp hn
    refine ⟨ho.1, hmem, ?_⟩
    cases hsub : subworkflowOf n with
    | none => rfl
    | some childId =>
      rw [conversationSource, blockType_of_subworkflow hsub] at hsource
      cases hsource
  have hnd : o.workflow.conversationNodes.Nodup := (hw.ids_nodup.of_map _).filter _
  have hids : (o.workflow.conversationNodes.map fun n =>
      (NodeOccurrence.expanded ⟨o.path, o.workflow, n⟩).id).Nodup := by
    refine hnd.map_on fun n hn m hm heq => ?_
    exact congrArg NodeOccurrence.node (F.distinct _ _ (hoccurs n hn) (hoccurs m hm) heq)
  have hsub : (o.workflow.conversationNodes.map fun n => (NodeOccurrence.expanded ⟨o.path, o.workflow, n⟩).id) ⊆
      X.nodes.map (·.id) := by
    intro id hid
    obtain ⟨n, hn, rfl⟩ := List.mem_map.mp hid
    exact List.mem_map_of_mem (F.mem _ (hoccurs n hn))
  have hlength := (hids.subperm hsub).length_le
  rw [List.length_map, List.length_map] at hlength
  have hfilter := List.length_filter_le (fun v => !([] : List String).contains v)
    (o.workflow.conversationNodes.map (·.id))
  rw [List.length_map] at hfilter
  unfold WorkflowDefinitionV2.unmet WorkflowDefinitionV2.fuel
  omega

theorem conversationRoot_eq : ∃ m, Occurs available [] root ⟨o.path, o.workflow, m⟩ ∧
    m.id = o.workflow.conversationRoot o.node.id ∧
      X.conversationRoot o.expanded.id = (NodeOccurrence.expanded ⟨o.path, o.workflow, m⟩).id := by
  obtain ⟨hroot, m, hm, hid⟩ := (F.mirrors ho).root X.fuel [] o.node.id ⟨o.node, ho, rfl⟩ (by
    intro u hu
    cases hu)
  have hfuel := WorkflowDefinitionV2.conversationRootFrom_fuel (v := o.node.id)
    (fun v u hvu => WorkflowDefinitionV2.parent_mem hvu) (F.unmet_lt_fuel ho) (WorkflowDefinitionV2.unmet_le [])
  rw [hfuel] at hroot hid
  refine ⟨m, hm, hid, ?_⟩
  show X.conversationRootFrom X.fuel [] (executionId .n o.path o.workflow.id o.node.id) =
    executionId .n o.path o.workflow.id m.id
  rw [hid]
  exact hroot

end

theorem lineageIssues : X.lineageIssues X.conversationNodes = [] := by
  rw [WorkflowDefinitionV2.lineageIssues_eq_nil]
  have hnd : X.conversationNodes.Nodup := (F.ids_nodup.of_map _).filter _
  refine hnd.pairwise_of_forall_ne fun a ha b hb hne hroots => ?_
  obtain ⟨⟨path, w, n⟩, ho, rfl⟩ := F.occurs a (List.mem_of_mem_filter ha)
  obtain ⟨⟨path', w', n'⟩, ho', rfl⟩ := F.occurs b (List.mem_of_mem_filter hb)
  obtain ⟨m, hm, hid, hroot⟩ := F.conversationRoot_eq ho
  obtain ⟨m', hm', hid', hroot'⟩ := F.conversationRoot_eq ho'
  rw [hroot, hroot'] at hroots
  -- a lineage stays in one invocation
  have hsame := F.distinct _ _ hm hm' hroots
  obtain ⟨rfl, rfl, rfl⟩ : path = path' ∧ w = w' ∧ m = m' := by
    injection hsame with h₁ h₂ h₃
    exact ⟨h₁, h₂, h₃⟩
  have hw := (F.accepted _ ho).facts
  have hsource : ∀ k : WorkflowNode, (conversationSource (expandedNode path w.id k)).isSome = true →
      (conversationSource k).isSome = true := by
    intro k hk
    rwa [conversationSource_expanded, Option.isSome_map] at hk
  have hn : n ∈ w.conversationNodes := List.mem_filter.mpr ⟨ho.2.1, hsource n (List.mem_filter.mp ha).2⟩
  have hn' : n' ∈ w.conversationNodes := List.mem_filter.mpr ⟨ho'.2.1, hsource n' (List.mem_filter.mp hb).2⟩
  have hpair := WorkflowDefinitionV2.lineageIssues_eq_nil.mp hw.lineage
  have hordered := hpair.forall hn hn' (fun heq => hne (by rw [heq])) (hid.symm.trans hid')
  rcases hordered with hreach | hreach
  · exact .inl (F.canReach ho ho' hreach)
  · exact .inr (F.canReach ho' ho hreach)

/-! ### Publications -/

theorem edge_expanded {m n : WorkflowNode} (hm : Occurs available [] root ⟨path, w, m⟩)
    (hn : Occurs available [] root ⟨path, w, n⟩) (h : m.id ∈ w.sources n.id) :
    ∃ r ∈ X.resolvedEdges, r.source = executionId .n path w.id m.id ∧ r.target = executionId .n path w.id n.id := by
  have hacc := F.accepted _ hn
  obtain ⟨r, hr, hrs, hrt⟩ := WorkflowDefinitionV2.mem_sources.mp h
  obtain ⟨d, hd, hdr⟩ := WorkflowDefinitionV2.mem_resolvedEdges.mp hr
  obtain ⟨hds, hdt, -⟩ := WorkflowDefinitionV2.resolveEdge_ok hdr
  obtain ⟨e, he, hredirect⟩ := F.redirects ⟨path, w, d⟩ ⟨hn.1, hd⟩
  have hsource : e.source = executionId .n path w.id m.id := by
    have hlands := hredirect.source
    rw [← hds, hrs] at hlands
    exact lands_unique hlands (.node hm.2.1 hm.2.2) hacc
  have htarget : e.target = executionId .n path w.id n.id := by
    have hlands := hredirect.target
    rw [← hdt, hrt] at hlands
    exact lands_unique hlands (.node hn.2.1 hn.2.2) hacc
  obtain ⟨r', hr'⟩ := F.resolves e he
  obtain ⟨hrs', hrt', -⟩ := WorkflowDefinitionV2.resolveEdge_ok hr'
  exact ⟨r', WorkflowDefinitionV2.mem_resolvedEdges.mpr ⟨e, he, hr'⟩, hrs'.trans hsource, hrt'.trans htarget⟩

theorem source_expanded {m n : WorkflowNode} (hm : Occurs available [] root ⟨path, w, m⟩)
    (hn : Occurs available [] root ⟨path, w, n⟩) (htype : m.blockType = "agent") (hsources : w.sources n.id = [m.id])
    {r : ResolvedEdge} (hr : r ∈ X.resolvedEdges) (hrt : r.target = executionId .n path w.id n.id) :
    r.source = executionId .n path w.id m.id := by
  have hacc := F.accepted _ hn
  have hw := hacc.facts
  obtain ⟨e, he, hres⟩ := WorkflowDefinitionV2.mem_resolvedEdges.mp hr
  obtain ⟨hes, het, -⟩ := WorkflowDefinitionV2.resolveEdge_ok hres
  obtain ⟨⟨path', w', d⟩, ⟨hinv, hd⟩, hredirect⟩ := F.redirected e he
  obtain ⟨o, ho, hx, hend⟩ := lands_occurs hredirect.target hinv
  have hsame : o = ⟨path, w, n⟩ := F.distinct _ _ ho hn (hx.trans (het.symm.trans hrt))
  subst hsame
  rcases hend with ⟨rfl, rfl, hid⟩ | hentry
  · obtain ⟨r₀, hr₀⟩ := hw.resolves d hd
    obtain ⟨hs₀, ht₀, -⟩ := WorkflowDefinitionV2.resolveEdge_ok hr₀
    have hmem : d.source ∈ w.sources n.id := WorkflowDefinitionV2.mem_sources.mpr
      ⟨r₀, WorkflowDefinitionV2.mem_resolvedEdges.mpr ⟨d, hd, hr₀⟩, hs₀, ht₀.trans hid.symm⟩
    rw [hsources, List.mem_singleton] at hmem
    have hlands := hredirect.source
    rw [hmem] at hlands
    rw [hes]
    exact lands_unique hlands (.node hm.2.1 hm.2.2) hacc
  · -- a workflow is not entered at such a node
    have hagent : w.isType "agent" m.id = true :=
      WorkflowDefinitionV2.isType_iff.mpr ⟨m, WorkflowDefinitionV2.byId_eq hw.ids_nodup hm.2.1, htype⟩
    rcases (hw.entry_spec hentry).2 with hnone | ⟨-, c, hc, hctarget⟩
    · rw [hsources] at hnone
      cases hnone
    · have hmem := WorkflowDefinitionV2.mem_sources_iff_mem_targets.mpr hctarget
      rw [hsources, List.mem_singleton] at hmem
      rw [hmem] at hc
      exact absurd (WorkflowDefinitionV2.isType_unique hc hagent) (by decide)

theorem sources_publish (ho : Occurs available [] root o) {m : WorkflowNode}
    (hm : Occurs available [] root ⟨o.path, o.workflow, m⟩) (htype : m.blockType = "agent")
    (hsources : o.workflow.sources o.node.id = [m.id]) :
    X.sources o.expanded.id = [executionId .n o.path o.workflow.id m.id] := by
  obtain ⟨path, w, n⟩ := o
  obtain ⟨r, hr, hrs, hrt⟩ := F.edge_expanded hm ho (by rw [hsources]; exact List.mem_singleton_self _)
  have hincoming : X.incoming (executionId .n path w.id n.id) = [r] := by
    refine eq_singleton_of_nodup (F.edges_nodup.filter _) fun r' => ?_
    show r' ∈ X.incoming (executionId .n path w.id n.id) ↔ r' = r
    rw [WorkflowDefinitionV2.mem_incoming]
    constructor
    · rintro ⟨hr', hrt'⟩
      have hrs' := F.source_expanded hm ho htype hsources hr' hrt'
      refine WorkflowDefinitionV2.resolvedEdge_ext hr' hr (hrs'.trans hrs.symm) (hrt'.trans hrt.symm) fun hc => ?_
      rw [hrs'] at hc
      have hctype := (F.isType_iff hm "condition").mp hc
      rw [htype] at hctype
      exact absurd hctype (by decide)
    · rintro rfl
      exact ⟨hr, hrt⟩
  show (X.incoming (executionId .n path w.id n.id)).map (·.source) = _
  rw [hincoming, List.map_singleton, hrs]

theorem publishIssues (ho : Occurs available [] root o)
    (hown : ∀ id, publishSource o.node = some id → executionId .n o.path o.workflow.id id = id) :
    X.publishIssues o.expanded = [] := by
  have hw := (F.accepted _ ho).facts
  have hissues := hw.publish o.node ho.2.1
  unfold WorkflowDefinitionV2.publishIssues at hissues ⊢
  show (if o.node.blockType == "publish-github-pr" then _ else []) = []
  split
  · next htype =>
    have hsame : (o.expanded.config.get? "sourceNodeId").bind Json.asStr? =
        (o.node.config.get? "sourceNodeId").bind Json.asStr? := by
      have h := publishSource_expanded o
      unfold publishSource at h
      rw [if_pos htype] at h
      exact (if_pos htype).symm.trans h
    rw [if_pos htype] at hissues
    rw [hsame]
    cases hsource : (o.node.config.get? "sourceNodeId").bind Json.asStr? with
    | none =>
      rw [hsource] at hissues
      dsimp only at hissues
      rw [issueIf_eq_nil] at hissues
      cases hissues
    | some id =>
      rw [hsource] at hissues
      dsimp only at hissues ⊢
      rw [issueIf_eq_nil, Bool.or_eq_false_iff, Bool.or_eq_false_iff, Bool.not_eq_false', bne_eq_false_iff_eq] at hissues ⊢
      obtain ⟨⟨hne, hagent⟩, hsources⟩ := hissues
      have hid : executionId .n o.path o.workflow.id id = id := hown id (by rw [publishSource, if_pos htype, hsource])
      obtain ⟨m, hm, rfl, hmtype⟩ := occurs_agent ho hagent
      refine ⟨⟨hne, ?_⟩, ?_⟩
      · rw [← hid]
        exact (F.isType_iff hm "agent").mpr hmtype
      · rw [F.sources_publish ho hm hmtype hsources, hid]
  · rfl

theorem referenceIssues (hown : OwnSources available root) : X.referenceIssues = [] := by
  unfold WorkflowDefinitionV2.referenceIssues
  rw [List.append_eq_nil_iff, List.append_eq_nil_iff, List.append_eq_nil_iff, List.flatMap_eq_nil_iff,
    List.flatMap_eq_nil_iff, List.flatMap_eq_nil_iff]
  refine ⟨⟨⟨fun n hn => ?_, fun n hn => ?_⟩, fun n hn => ?_⟩, F.lineageIssues⟩
  · obtain ⟨o, ho, rfl⟩ := F.occurs n hn
    exact F.publishIssues ho (hown o ho)
  · obtain ⟨o, ho, rfl⟩ := F.occurs n hn
    exact F.contextIssues ho
  · obtain ⟨o, ho, rfl⟩ := F.occurs n (List.mem_of_mem_filter hn)
    exact F.conversationIssues ho

end Flat

/-! ### The theorem -/

/-- **References survive composition** if and only if every block that publishes a pull request names a source whose
execution id is that very name: in a workflow that is invoked, no other source is made to its execution id. -/
theorem references_survive_iff {root : VersionedWorkflowDefinition} {versions : List VersionedWorkflowDefinition}
    {s : Composer} (hX : expandRoot root.definition versions = .ok (X, s)) :
    ReferencesSurvive (availableIn versions) root.definition X ↔ OwnSources (availableIn versions) root.definition := by
  obtain ⟨occ, hnodes, -, hmem, hacc⟩ := expandRoot_nodes hX
  constructor
  · intro h o ho id hid
    have htype : o.node.blockType = "publish-github-pr" := by
      unfold publishSource at hid
      split at hid
      · next htype => exact beq_iff_eq.mp htype
      · cases hid
    exact (renamed_publish_iff o htype).mp (h.renamed o ho) id hid
  · intro hown
    refine ⟨fun o ho => ?_, fun o ho id hid => ?_, fun o ho => ?_, fun hplain =>
      (flat_of_plain hX hplain).referenceIssues hown⟩
    · by_cases htype : o.node.blockType = "publish-github-pr"
      · exact (renamed_publish_iff o htype).mpr (hown o ho)
      · exact nodeReferences_expanded o htype
    · have hw := (hacc o ((hmem o).mpr ho)).1.facts
      obtain ⟨m, hm, hmid, -⟩ := occurs_agent ho (reference_agent hw ho.2.1 hid)
      refine ⟨m, hm, hmid, ?_⟩
      rw [hnodes]
      exact List.mem_map_of_mem ((hmem _).mpr hm)
    · obtain ⟨c, hc⟩ := (hacc o ((hmem o).mpr ho)).1.facts.valid o.node ho.2.1
      exact validate_expanded hc

/-- A publish block. -/
def publishNode (id source : String) : WorkflowNode := ⟨id, "publish-github-pr", 1, .obj [("sourceNodeId", .str source),
  ("title", .str "t"), ("body", .str ""), ("draft", .bool false)]⟩

/-- A review that is invoked, and an agent whose result is published. -/
def reviewed : VersionedWorkflowDefinition where
  definition := sample 32 [blockNode "q" "review", agentNode "r", publishNode "p" "r"] [edge "q" "r", edge "r" "p"]
  fileSha := "g"
  accepted := by decide +kernel

theorem reviewed_own : OwnSources (availableIn [review]) reviewed.definition := by
  have hplain : ∀ m ∈ review.definition.nodes, publishSource m = none ∧ subworkflowOf m = none := by decide
  intro o ho id hid
  obtain ⟨n, -, ⟨-, rfl⟩ | ⟨i, v, -, hv, hin⟩⟩ := occurs_iff.mp ho
  · rfl
  · obtain rfl : v = review := by simpa using List.mem_of_find?_eq_some hv
    obtain ⟨m, hm, ⟨-, rfl⟩ | ⟨j, u, hj, -, -⟩⟩ := occurs_iff.mp hin
    · rw [(hplain m hm).1] at hid
      cases hid
    · rw [(hplain m hm).2] at hj
      cases hj

theorem references_survive_reviewed : ∃ X s, expandRoot reviewed.definition [review] = .ok (X, s) ∧
    ReferencesSurvive (availableIn [review]) reviewed.definition X := by
  cases hX : expandRoot reviewed.definition [review] with
  | error e =>
    have hok : (expandRoot reviewed.definition [review]).isOk = true := by decide +kernel
    rw [hX] at hok
    cases hok
  | ok p => exact ⟨p.1, p.2, rfl, (references_survive_iff hX).mpr reviewed_own⟩

/-- An agent whose result is published. -/
def publication : VersionedWorkflowDefinition where
  definition := { sample 32 [agentNode "a", publishNode "p" "a"] [edge "a" "p"] with
    id := "publication"
    exposableAsBlock := some true }
  fileSha := "f"
  accepted := by decide +kernel

def publishing : VersionedWorkflowDefinition where
  definition := sample 32 [agentNode "r", blockNode "b" "publication"] [edge "r" "b"]
  fileSha := "g"
  accepted := by decide +kernel

/-- Both definitions are accepted, and the composition is refused for the one reference in the workflow invoked. -/
theorem publication_refused : composeVersionedWorkflowV2 publishing [publication] =
    .error (.schema [⟨"Publish GitHub PR must directly follow its configured Codex Agent source.",
      [.key "nodes", .index 2]⟩]) := by
  have hrefused : (composeVersionedWorkflowV2 publishing [publication]).map (fun _ => ()) =
      .error (.schema [⟨"Publish GitHub PR must directly follow its configured Codex Agent source.",
        [.key "nodes", .index 2]⟩]) := by decide +kernel
  cases h : composeVersionedWorkflowV2 publishing [publication] with
  | error e =>
    rw [h] at hrefused
    rw [Except.error.inj hrefused]
  | ok c =>
    rw [h] at hrefused
    cases hrefused

end ADT.Workflow
