import ADT.Workflow.Flattening
import ADT.Workflow.Recomposition

/-!
# Workflow.Preservation — composition preserves meaning

`compose_preserves`: whenever `composeVersionedWorkflowV2` returns, the flat workflow has the nodes and the edges of
every workflow that is invoked, is entered and left where the root is, and comes out again when the root is composed
from the dependencies that were recorded.
-/

namespace ADT.Workflow

open WorkflowDefinitionV2 (Accepted)

variable {root : VersionedWorkflowDefinition} {versions : List VersionedWorkflowDefinition} {c : ComposedWorkflowV2}
  {available : String → Option VersionedWorkflowDefinition} {path path' : List InvocationSegment}
  {w w' : WorkflowDefinitionV2}

/-! ### Paths -/

theorem invokes_accepted (h : Invokes available path w path' w') (hw : w.Accepted)
    (hpath : ∀ i ∈ path, trim i.workflowName = i.workflowName) :
    w'.Accepted ∧ ∀ i ∈ path', trim i.workflowName = i.workflowName := by
  induction h with
  | here => exact ⟨hw, hpath⟩
  | @inside path path' w w' node id v _ _ _ _ ih =>
    refine ih v.accepted fun i hi => ?_
    rcases List.mem_append.mp hi with hi | hi
    · exact hpath i hi
    · obtain rfl := List.mem_singleton.mp hi
      exact ((v.definition.normalise_eq_iff).mp v.accepted.1).1

theorem invokes_length (h : Invokes available path w path' w') : path <+: path' := by
  induction h with
  | here => exact List.prefix_rfl
  | inside _ _ _ _ ih => exact (List.prefix_append _ _).trans ih

theorem invokes_unique {w₁ w₂ : WorkflowDefinitionV2} (h₁ : Invokes available path w path' w₁)
    (h₂ : Invokes available path w path' w₂) (hw : w.Accepted) : w₁ = w₂ := by
  induction h₁ with
  | here =>
    rcases h₂ with _ | ⟨-, -, -, h₂⟩
    · rfl
    · have := (invokes_length h₂).length_le
      simp at this
  | @inside path path' w w₁ node id v hnode hid hv h₁ ih =>
    rcases h₂ with _ | ⟨hnode', hid', hv', h₂⟩
    · have := (invokes_length h₁).length_le
      simp at this
    · rename_i node' id' v'
      -- both invocations go through the same node
      have hseg : segmentOf node v.definition = segmentOf node' v'.definition := by
        have hp := List.prefix_of_prefix_length_le (invokes_length h₁) (invokes_length h₂) (by simp)
        have he := hp.eq_of_length (by simp)
        exact List.singleton_injective (List.append_cancel_left he)
      have hn : node = node' := List.inj_on_of_nodup_map hw.facts.ids_nodup hnode hnode'
        (congrArg InvocationSegment.invocationNodeId hseg)
      subst hn
      rw [hid] at hid'
      cases hid'
      rw [hv] at hv'
      cases hv'
      exact ih h₂ v.accepted

theorem lands_unique {ends : WorkflowDefinitionV2 → List String} {id x x' : String}
    (h : Lands available ends path w id x) (h' : Lands available ends path w id x') (hw : w.Accepted) : x = x' := by
  induction h generalizing x' with
  | @node path w node hnode hsub =>
    generalize hid : node.id = id at h'
    rcases h' with ⟨hnode', hsub'⟩ | ⟨hnode', hsub', -⟩
    · rfl
    · rw [List.inj_on_of_nodup_map hw.facts.ids_nodup hnode hnode' hid, hsub'] at hsub
      cases hsub
  | @block path w node id e x v hnode hsub hv he h ih =>
    generalize hid : node.id = id₀ at h'
    rcases h' with ⟨hnode', hsub'⟩ | ⟨hnode', hsub', hv', he', h'⟩
    · rw [List.inj_on_of_nodup_map hw.facts.ids_nodup hnode hnode' hid, hsub'] at hsub
      cases hsub
    · have hn := List.inj_on_of_nodup_map hw.facts.ids_nodup hnode hnode' hid
      subst hn
      rw [hsub] at hsub'
      cases hsub'
      rw [hv] at hv'
      cases hv'
      rw [he] at he'
      cases he'
      exact ih h' v.accepted

/-! ### What a composition went through -/

theorem edgeIdIssues_nil : ∀ {es : List WorkflowEdge} {i : ℕ} {seen : List String},
    WorkflowDefinitionV2.edgeIdIssues i seen es = [] → (es.map (·.id)).Nodup ∧ ∀ e ∈ es, e.id ∉ seen
  | [], _, _, _ => by simp
  | e :: es, i, seen, h => by
    simp only [WorkflowDefinitionV2.edgeIdIssues, List.append_eq_nil_iff, issueIf_eq_nil] at h
    obtain ⟨hseen, hrest⟩ := h
    obtain ⟨hnd, hall⟩ := edgeIdIssues_nil hrest
    refine ⟨?_, ?_⟩
    · rw [List.map_cons, List.nodup_cons]
      refine ⟨fun hmem => ?_, hnd⟩
      obtain ⟨d, hd, hid⟩ := List.mem_map.mp hmem
      exact hall d hd (by simp [hid])
    · intro d hd
      rcases List.mem_cons.mp hd with rfl | hd
      · simpa using hseen
      · exact fun hs => hall d hd (by simp [hs])

theorem edge_ids_nodup (h : w.Accepted) : (w.edges.map (·.id)).Nodup := by
  have hi := h.2
  simp only [WorkflowDefinitionV2.issues, List.append_eq_nil_iff] at hi
  exact (edgeIdIssues_nil hi.1.2).1

theorem freeze_ok {X : WorkflowDefinitionV2} {s : Composer} (h : freeze X s = .ok c) :
    checkFlat X = .ok () ∧ X.parse = .ok c.workflow ∧
      parseSnapshot ⟨sortedDependencies s, s.provenance⟩ = .ok c.composition := by
  unfold freeze at h
  obtain ⟨_, hcheck, h⟩ := except_bind_ok.mp h
  cases hparse : X.parse with
  | error issues =>
    rw [hparse] at h
    cases h
  | ok parsed =>
    rw [hparse] at h
    obtain ⟨workflow, hworkflow, h⟩ := except_bind_ok.mp h
    cases hworkflow
    obtain ⟨composition, hsnapshot, h⟩ := except_bind_ok.mp h
    cases h
    exact ⟨hcheck, rfl, hsnapshot⟩

theorem compose_ok_iff : composeVersionedWorkflowV2 root versions = .ok c ↔
    ∃ X s, expandRoot root.definition versions = .ok (X, s) ∧ freeze X s = .ok c := by
  unfold composeVersionedWorkflowV2
  rw [except_bind_ok]
  constructor
  · rintro ⟨⟨X, s⟩, hX, h⟩
    exact ⟨X, s, thrown_ok.mp hX, h⟩
  · rintro ⟨X, s, hX, h⟩
    exact ⟨(X, s), thrown_ok.mpr hX, h⟩

theorem parse_ok {X : WorkflowDefinitionV2} (hX : X.normalise = X) (h : X.parse = .ok w) : w = X ∧ X.Accepted := by
  obtain ⟨rfl, hissues⟩ := parse_normalise h
  rw [hX] at hissues
  exact ⟨hX, hX, hissues⟩

theorem parseSnapshot_ok {s s' : WorkflowCompositionSnapshot} (h : parseSnapshot s = .ok s') :
    s'.dependencies = s.dependencies ∧ s'.nodes = s.nodes.map NodeProvenance.normalise ∧
      (s.dependencies.map (·.workflowId)).Nodup := by
  unfold parseSnapshot at h
  split_ifs at h with hissues
  cases h
  refine ⟨rfl, rfl, ?_⟩
  simp only [snapshotIssues, List.isEmpty_iff, List.append_eq_nil_iff, issueIf_eq_nil] at hissues
  simpa using hissues.1.2

theorem normalise_provenance {o : NodeOccurrence} (hw : o.workflow.Accepted)
    (hpath : ∀ i ∈ o.path, trim i.workflowName = i.workflowName) :
    (o.provenance root.definition).normalise = o.provenance root.definition := by
  have hname : trim o.workflow.name = o.workflow.name := ((o.workflow.normalise_eq_iff).mp hw.1).1
  have hsegments : o.path.map (fun s => { s with workflowName := trim s.workflowName }) = o.path := by
    conv_rhs => rw [← List.map_id o.path]
    refine List.map_congr_left fun i hi => ?_
    rw [hpath i hi]
    rfl
  unfold NodeProvenance.normalise NodeOccurrence.provenance provenanceOf
  simp only [hname, hsegments]

/-! ### The theorem -/

/-- What a composition has to do with the hierarchical workflow it comes from. -/
structure Preserves (root : VersionedWorkflowDefinition) (versions : List VersionedWorkflowDefinition)
    (c : ComposedWorkflowV2) : Prop where
  /-- Nothing is left to invoke. -/
  flat : ∀ n ∈ c.workflow.nodes, n.blockType ≠ "subworkflow"
  /-- The execution ids are unique, and the provenance has one entry for every node. -/
  ids : (c.workflow.nodes.map (·.id)).Nodup ∧
    c.composition.nodes.map (·.executionNodeId) = c.workflow.nodes.map (·.id)
  /-- The entries are in bijection with the nodes that invoke nothing, at the paths they are invoked at. -/
  occurrences : Set.BijOn (fun q => (q.invocationPath, q.semanticNodeId)) {q | q ∈ c.composition.nodes}
    {p | ∃ w, Invokes (availableIn versions) [] root.definition p.1 w ∧
      ∃ n ∈ w.nodes, n.id = p.2 ∧ subworkflowOf n = none}
  /-- Every node is the one its entry names, under its execution id. -/
  nodes : ∀ q ∈ c.composition.nodes, ∃ w, Invokes (availableIn versions) [] root.definition q.invocationPath w ∧
    ∃ n ∈ w.nodes, n.id = q.semanticNodeId ∧ q.executionNodeId = executionId .n q.invocationPath w.id n.id ∧
      expandedNode q.invocationPath w.id n ∈ c.workflow.nodes
  /-- Every edge is one edge of one invoked workflow, redirected. -/
  edges : ∀ e ∈ c.workflow.edges, ∃! o, EdgeOccurs (availableIn versions) [] root.definition o ∧
    Redirects (availableIn versions) o e
  /-- Every edge of an invoked workflow is there once. -/
  allEdges : ∀ o, EdgeOccurs (availableIn versions) [] root.definition o →
    ∃! e, e ∈ c.workflow.edges ∧ Redirects (availableIn versions) o e
  /-- The flat workflow is entered where the root is. -/
  entry : ∃ e x, root.definition.entries = [e] ∧
    (∀ x', Lands (availableIn versions) WorkflowDefinitionV2.entries [] root.definition e x' ↔ x' = x) ∧
    graphEntryNode c.workflow.nodes c.workflow.edges = .ok x ∧ c.workflow.entries = [x]
  /-- It ends where the root does. -/
  terminal : ∃ t x, root.definition.terminals = [t] ∧
    (∀ x', Lands (availableIn versions) WorkflowDefinitionV2.terminals [] root.definition t x' ↔ x' = x) ∧
    c.workflow.terminals = [x]
  /-- Composing the root from the dependencies recorded gives the same. -/
  recomposed : composeVersionedWorkflowV2 root (frozenVersions c.composition) = .ok c

section Theorem

variable {X : WorkflowDefinitionV2} {s : Composer}

theorem expandRoot_nodes (hX : expandRoot root.definition versions = .ok (X, s)) :
    ∃ occ : List NodeOccurrence, X.nodes = occ.map (·.expanded) ∧
      s.provenance = occ.map (·.provenance root.definition) ∧
      (∀ o, o ∈ occ ↔ Occurs (availableIn versions) [] root.definition o) ∧
      ∀ o ∈ occ, o.workflow.Accepted ∧ (o.provenance root.definition).normalise = o.provenance root.definition := by
  obtain ⟨occ, hnodes, hprov, hmem⟩ := expand_collects maxCompositeDepth hX
  refine ⟨occ, hnodes, hprov, hmem, fun o ho => ?_⟩
  obtain ⟨hw, hpath⟩ := invokes_accepted ((hmem o).mp ho).1 root.accepted (by simp)
  exact ⟨hw, normalise_provenance hw hpath⟩

theorem expandRoot_normal (hX : expandRoot root.definition versions = .ok (X, s)) : X.normalise = X := by
  obtain ⟨occ, hnodes, -, hmem, hacc⟩ := expandRoot_nodes hX
  obtain ⟨_, _, _, _, _, _, _, hname⟩ := expand_ok hX
  refine X.normalise_eq_iff.mpr ⟨?_, fun n hn => ?_⟩
  · rw [hname]
    exact (root.definition.normalise_eq_iff.mp root.accepted.1).1
  · rw [hnodes] at hn
    obtain ⟨o, ho, rfl⟩ := List.mem_map.mp hn
    exact (o.workflow.normalise_eq_iff.mp (hacc o ho).1.1).2 o.node ((hmem o).mp ho).2.1

theorem checkFlat_ok (h : checkFlat X = .ok ()) : ∀ n ∈ X.nodes, n.blockType ≠ "subworkflow" := by
  intro n hn hc
  unfold checkFlat at h
  split_ifs at h with _ hbad
  refine hbad ?_
  rw [Bool.or_eq_true]
  exact .inr (List.any_eq_true.mpr ⟨n, hn, by simp [hc]⟩)

theorem redirects_unique {es : List WorkflowEdge} (hnd : (es.map (·.id)).Nodup) {occ : List EdgeOccurrence}
    (hocc : List.Forall₂ (Redirects available) occ es) {P : EdgeOccurrence → Prop} (hmem : ∀ o, o ∈ occ ↔ P o) :
    (∀ e ∈ es, ∃! o, P o ∧ Redirects available o e) ∧ ∀ o, P o → ∃! e, e ∈ es ∧ Redirects available o e := by
  have hid : ∀ {o e}, Redirects available o e → e.id = executionId .e o.path o.workflow.id o.edge.id :=
    fun h => by rw [h.eq]
  have hkeys : es.map (·.id) = occ.map fun o => executionId .e o.path o.workflow.id o.edge.id := by
    clear hnd hmem
    induction hocc with
    | nil => rfl
    | cons h _ ih => rw [List.map_cons, List.map_cons, ih, hid h]
  refine ⟨fun e he => ?_, fun o ho => ?_⟩
  · obtain ⟨o, ho, hr⟩ := exists_of_forall₂_right hocc he
    refine ⟨o, ⟨(hmem o).mp ho, hr⟩, fun o' ⟨ho', hr'⟩ => ?_⟩
    rw [hkeys] at hnd
    exact List.inj_on_of_nodup_map hnd ((hmem o').mpr ho') ho ((hid hr').symm.trans (hid hr))
  · obtain ⟨e, he, hr⟩ := exists_of_forall₂_left hocc ((hmem o).mpr ho)
    refine ⟨e, ⟨he, hr⟩, fun e' ⟨he', hr'⟩ => ?_⟩
    exact List.inj_on_of_nodup_map hnd he' he ((hid hr').trans (hid hr).symm)

end Theorem

/-- **Composition preserves meaning**, whenever it returns. -/
theorem compose_preserves (root : VersionedWorkflowDefinition) (versions : List VersionedWorkflowDefinition)
    (c : ComposedWorkflowV2) (h : composeVersionedWorkflowV2 root versions = .ok c) : Preserves root versions c := by
  obtain ⟨X, s, hX, hfreeze⟩ := compose_ok_iff.mp h
  obtain ⟨hcheck, hparse, hsnapshot⟩ := freeze_ok hfreeze
  obtain ⟨hworkflow, haccepted⟩ := parse_ok (expandRoot_normal hX) hparse
  obtain ⟨hdeps, hprov, hdepsnd⟩ := parseSnapshot_ok hsnapshot
  obtain ⟨occ, hnodes, hprovenance, hmem, hacc⟩ := expandRoot_nodes hX
  have hfacts := haccepted.facts
  have hcnodes : c.composition.nodes = occ.map (·.provenance root.definition) := by
    rw [hprov]
    simp only [hprovenance, List.map_map]
    exact List.map_congr_left fun o ho => (hacc o ho).2
  have hids : c.composition.nodes.map (·.executionNodeId) = c.workflow.nodes.map (·.id) := by
    rw [hcnodes, hworkflow, hnodes, List.map_map, List.map_map]
    rfl
  have hnd : (c.workflow.nodes.map (·.id)).Nodup := by
    rw [hworkflow]
    exact hfacts.ids_nodup
  obtain ⟨x, y, hgrown⟩ := expand_grown root.accepted (fun q hq => by cases hq) hfacts.ids_nodup hX
  obtain ⟨eocc, hredirects, heocc⟩ := hgrown.redirects
  obtain ⟨hedges, hall⟩ := redirects_unique (edge_ids_nodup haccepted) hredirects heocc
  refine ⟨?_, ⟨hnd, hids⟩, ⟨?_, ?_, ?_⟩, ?_, ?_, ?_, ?_, ?_, ?_⟩
  · rw [hworkflow]
    exact checkFlat_ok hcheck
  · intro q hq
    rw [Set.mem_ofPred_eq, hcnodes] at hq
    obtain ⟨o, ho, rfl⟩ := List.mem_map.mp hq
    obtain ⟨hinv, hnode, hsub⟩ := (hmem o).mp ho
    exact ⟨o.workflow, hinv, o.node, hnode, rfl, hsub⟩
  · intro q hq q' hq' heq
    rw [Set.mem_ofPred_eq] at hq hq'
    -- entries of one path and node name one execution id
    refine List.inj_on_of_nodup_map (f := (·.executionNodeId)) (by rw [hids]; exact hnd) hq hq' ?_
    rw [hcnodes] at hq hq'
    obtain ⟨o, ho, rfl⟩ := List.mem_map.mp hq
    obtain ⟨o', ho', rfl⟩ := List.mem_map.mp hq'
    obtain ⟨hpath, hnode⟩ : o.path = o'.path ∧ o.node.id = o'.node.id := Prod.mk.inj heq
    have hinv := ((hmem o').mp ho').1
    rw [← hpath] at hinv
    have hw := invokes_unique ((hmem o).mp ho).1 hinv root.accepted
    show executionId .n o.path o.workflow.id o.node.id = executionId .n o'.path o'.workflow.id o'.node.id
    rw [hpath, hw, hnode]
  · rintro ⟨path, id⟩ ⟨w, hinv, n, hn, hid, hsub⟩
    have ho : (⟨path, w, n⟩ : NodeOccurrence) ∈ occ := (hmem _).mpr ⟨hinv, hn, hsub⟩
    refine ⟨NodeOccurrence.provenance root.definition ⟨path, w, n⟩, ?_, Prod.ext rfl hid⟩
    rw [Set.mem_ofPred_eq, hcnodes]
    exact List.mem_map_of_mem ho
  · intro q hq
    rw [hcnodes] at hq
    obtain ⟨o, ho, rfl⟩ := List.mem_map.mp hq
    refine ⟨o.workflow, ((hmem o).mp ho).1, o.node, ((hmem o).mp ho).2.1, rfl, rfl, ?_⟩
    rw [hworkflow, hnodes]
    exact List.mem_map_of_mem (f := NodeOccurrence.expanded) ho
  · rw [hworkflow]
    exact hedges
  · rw [hworkflow]
    exact hall
  · obtain ⟨e, he, hlands⟩ := hgrown.enters
    obtain ⟨r, hr⟩ := hfacts.entry
    have hrx : r = x := graphEntryNode_of_sound hfacts.ids_nodup hgrown.sound hgrown.enterable
      (graphEntryNode_eq hfacts hr)
    refine ⟨e, x, he, fun x' => ⟨fun h => lands_unique h hlands root.accepted, fun h => h ▸ hlands⟩, ?_, ?_⟩
    · rw [hworkflow, ← hrx]
      exact graphEntryNode_eq hfacts hr
    · rw [hworkflow, hr, hrx]
  · obtain ⟨t, ht, hlands⟩ := hgrown.leaves
    obtain ⟨r, hr⟩ := hfacts.terminal
    have hrm : r ∈ X.terminals := by rw [hr]; simp
    have hry : r = y := by
      obtain ⟨hmemr, hempty⟩ := List.mem_filter.mp hrm
      rw [← source_all_ne_iff hfacts, List.all_eq_true] at hempty
      refine hgrown.sound.eq_exit r (WorkflowDefinitionV2.mem_nodeIds.mp hmemr) ?_
      rintro b ⟨e, he, hsource, -⟩
      simpa [hsource] using hempty e he
    refine ⟨t, y, ht, fun x' => ⟨fun h => lands_unique h hlands root.accepted, fun h => h ▸ hlands⟩, ?_⟩
    rw [hworkflow, hr, hry]
  · have hfrozen : Frozen (availableIn versions) s := expand_frozen (fun d hd => by cases hd) hX
    have hdep : ∀ d, d ∈ c.composition.dependencies ↔ d ∈ s.used := by
      intro d
      rw [hdeps]
      exact List.mem_insertionSort _
    have hcovered := covered_frozen hfrozen hdep (by rw [hdeps]; exact hdepsnd)
    exact compose_ok_iff.mpr ⟨X, s, (expand_follows maxCompositeDepth _ _ _ _ _ _ hX hcovered).1, hfreeze⟩

def blockNode (id workflowId : String) : WorkflowNode :=
  ⟨id, "subworkflow", 1, .obj [("workflowId", .str workflowId)]⟩

/-- Two agents, one after the other. -/
def review : VersionedWorkflowDefinition where
  definition := { sample 32 [agentNode "x", agentNode "y"] [edge "x" "y"] with
    id := "review"
    exposableAsBlock := some true }
  fileSha := "f"
  accepted := by decide +kernel

/-- A workflow that invokes it twice in a row. -/
def reviewedTwice : VersionedWorkflowDefinition where
  definition := sample 32 [agentNode "r", blockNode "p" "review", blockNode "q" "review", agentNode "t"]
    [edge "r" "p", edge "p" "q", edge "q" "t"]
  fileSha := "g"
  accepted := by decide +kernel

theorem reviewedTwice_preserved : ∃ c, composeVersionedWorkflowV2 reviewedTwice [review] = .ok c ∧
    c.workflow.nodes.length = 6 ∧ Preserves reviewedTwice [review] c := by
  have hlength : (composeVersionedWorkflowV2 reviewedTwice [review]).toOption.map (·.workflow.nodes.length) =
      some 6 := by decide +kernel
  cases h : composeVersionedWorkflowV2 reviewedTwice [review] with
  | error e =>
    rw [h] at hlength
    cases hlength
  | ok c =>
    rw [h] at hlength
    exact ⟨c, rfl, Option.some.inj hlength, compose_preserves reviewedTwice [review] c h⟩

end ADT.Workflow
