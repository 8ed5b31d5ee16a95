import ADT.Workflow.Expansion

/-!
# Workflow.Flattening — what the flat workflow has to do with the hierarchical one

The nodes of an expansion are the nodes of the invoked workflows that invoke nothing, and its edges are those of
the invoked workflows, redirected.  Its graph is the graph of the definition with the graphs of the invoked
workflows in place of the nodes that invoke them, so that it has no other entry and no other terminal than the
definition has.
-/

namespace ADT.Workflow

open Substitution Search

variable {root workflow : WorkflowDefinitionV2} {available : String → Option VersionedWorkflowDefinition}
  {path : List InvocationSegment} {stack : List String} {s s' : Composer} {node : WorkflowNode}

/-! ### Nodes -/

/-- A node of an invoked workflow. -/
structure NodeOccurrence where
  path : List InvocationSegment
  workflow : WorkflowDefinitionV2
  node : WorkflowNode

namespace NodeOccurrence

def expanded (o : NodeOccurrence) : WorkflowNode := expandedNode o.path o.workflow.id o.node

def label (o : NodeOccurrence) : String :=
  match nodeLabel o.node with
  | .ok label => label
  | .error _ => ""

def provenance (root : WorkflowDefinitionV2) (o : NodeOccurrence) : NodeProvenance :=
  provenanceOf root o.path o.workflow o.node o.label

end NodeOccurrence

/-- The node invokes nothing, in a workflow that `w` at `path` invokes. -/
def Occurs (available : String → Option VersionedWorkflowDefinition) (path : List InvocationSegment)
    (w : WorkflowDefinitionV2) (o : NodeOccurrence) : Prop :=
  Invokes available path w o.path o.workflow ∧ o.node ∈ o.workflow.nodes ∧ subworkflowOf o.node = none

/-- What becomes of one node: itself, or what occurs in the workflow it invokes. -/
def OccursAt (available : String → Option VersionedWorkflowDefinition) (path : List InvocationSegment)
    (w : WorkflowDefinitionV2) (node : WorkflowNode) (o : NodeOccurrence) : Prop :=
  (subworkflowOf node = none ∧ o = ⟨path, w, node⟩) ∨
    ∃ id v, subworkflowOf node = some id ∧ available id = some v ∧
      Occurs available (path ++ [segmentOf node v.definition]) v.definition o

theorem occurs_iff {o : NodeOccurrence} :
    Occurs available path workflow o ↔ ∃ n ∈ workflow.nodes, OccursAt available path workflow n o := by
  constructor
  · rintro ⟨hinv, hnode, hid⟩
    rcases hinv with _ | ⟨hn, hsub, hv, hinv⟩
    · exact ⟨o.node, hnode, .inl ⟨hid, rfl⟩⟩
    · exact ⟨_, hn, .inr ⟨_, _, hsub, hv, hinv, hnode, hid⟩⟩
  · rintro ⟨n, hn, ⟨hid, rfl⟩ | ⟨id, v, hid, hv, hinv, hnode, hsub⟩⟩
    · exact ⟨.here, hn, hid⟩
    · exact ⟨.inside hn hid hv hinv, hnode, hsub⟩

variable {part : Part}

theorem expandPrimitive_occurs (hid : subworkflowOf node = none)
    (h : expandPrimitive root workflow path node s = .ok (part, s')) :
    ∃ occ : List NodeOccurrence, part.nodes = occ.map (·.expanded) ∧
      s'.provenance = s.provenance ++ occ.map (·.provenance root) ∧
      ∀ o, o ∈ occ ↔ OccursAt available path workflow node o := by
  obtain ⟨rfl, -, label, hlabel, hprov⟩ := expandPrimitive_ok h
  refine ⟨[⟨path, workflow, node⟩], rfl, ?_, fun o => ?_⟩
  · have hl : (⟨path, workflow, node⟩ : NodeOccurrence).label = label := by
      simp only [NodeOccurrence.label, hlabel]
    rw [hprov, List.map_singleton, NodeOccurrence.provenance, hl]
  · simp [OccursAt, hid]

theorem mapM_occurs {f : WorkflowNode → Composing Part} {At : WorkflowNode → NodeOccurrence → Prop}
    (hf : ∀ n s part s', f n s = .ok (part, s') → ∃ occ : List NodeOccurrence, part.nodes = occ.map (·.expanded) ∧
      s'.provenance = s.provenance ++ occ.map (·.provenance root) ∧ ∀ o, o ∈ occ ↔ At n o) :
    ∀ {nodes : List WorkflowNode} {s : Composer} {parts : List Part}, nodes.mapM f s = .ok (parts, s') →
    ∃ occ : List NodeOccurrence, parts.flatMap (·.nodes) = occ.map (·.expanded) ∧
      s'.provenance = s.provenance ++ occ.map (·.provenance root) ∧ ∀ o, o ∈ occ ↔ ∃ n ∈ nodes, At n o
  | [], s, parts, h => by
    rw [List.mapM_nil] at h
    cases h
    exact ⟨[], rfl, by simp, by simp⟩
  | n :: nodes, s, parts, h => by
    rw [List.mapM_cons] at h
    obtain ⟨part, s₁, hpart, h⟩ := stateT_bind_ok.mp h
    obtain ⟨rest, s₂, hrest, h⟩ := stateT_bind_ok.mp h
    cases h
    obtain ⟨occ, hnodes, hprov, hmem⟩ := hf n s part s₁ hpart
    obtain ⟨occ', hnodes', hprov', hmem'⟩ := mapM_occurs hf hrest
    refine ⟨occ ++ occ', ?_, ?_, fun o => ?_⟩
    · rw [List.flatMap_cons, hnodes, hnodes', List.map_append]
    · rw [hprov', hprov, List.map_append, List.append_assoc]
    · rw [List.mem_append, hmem, hmem']
      simp

theorem Labelled.append (hs : Labelled s) {occ : List NodeOccurrence}
    (h : s'.provenance = s.provenance ++ occ.map (·.provenance root)) : Labelled s' := by
  intro q hq
  rw [h, List.mem_append] at hq
  rcases hq with hq | hq
  · exact hs q hq
  · obtain ⟨o, -, rfl⟩ := List.mem_map.mp hq
    rfl

/-- What an expansion collects: its nodes and their provenance. -/
def Collects (root : WorkflowDefinitionV2) (available : String → Option VersionedWorkflowDefinition)
    (invoke : Expand) : Prop :=
  ∀ {workflow : WorkflowDefinitionV2} {path : List InvocationSegment} {stack : List String} {s s' : Composer}
    {X : WorkflowDefinitionV2}, invoke workflow path stack s = .ok (X, s') →
    ∃ occ : List NodeOccurrence, X.nodes = occ.map (·.expanded) ∧
      s'.provenance = s.provenance ++ occ.map (·.provenance root) ∧ ∀ o, o ∈ occ ↔ Occurs available path workflow o

theorem expandNode_occurs {invoke : Expand} (hinvoke : Collects root available invoke)
    (h : expandNode root available invoke workflow path stack node s = .ok (part, s')) :
    ∃ occ : List NodeOccurrence, part.nodes = occ.map (·.expanded) ∧
      s'.provenance = s.provenance ++ occ.map (·.provenance root) ∧
      ∀ o, o ∈ occ ↔ OccursAt available path workflow node o := by
  rcases expandNode_ok h with ⟨hid, h⟩ | ⟨childId, hid, h⟩
  · exact expandPrimitive_occurs hid h
  · obtain ⟨v, refs, Y, s₁, entry, terminal, hv, huse, hY, -, -, rfl⟩ := expandBlock_ok h
    obtain ⟨occ, hocc, hprov, hmem⟩ := hinvoke hY
    cases huse
    exact ⟨occ, hocc, hprov, fun o => (hmem o).trans (by simp [OccursAt, hid, hv])⟩

/-- **The nodes of an expansion**, with what is recorded of them. -/
theorem expand_collects (depth : ℕ) : Collects root available (expand root available depth) := by
  induction depth with
  | zero =>
    intro _ _ _ _ _ _ h
    cases h
  | succ depth ih =>
    intro workflow path stack s s' X h
    obtain ⟨parts, edges, s₁, hparts, hedges, hnodes, -, -⟩ := expand_ok h
    obtain ⟨occ, hocc, hprov, hmem⟩ := mapM_occurs (fun _ _ _ _ h => expandNode_occurs ih h) hparts
    refine ⟨occ, hnodes.trans hocc, ?_, fun o => (hmem o).trans occurs_iff.symm⟩
    rw [(mapM_expandEdge_ok hedges).1, hprov]

theorem expandNode_labelled {depth : ℕ} (hs : Labelled s)
    (h : expandNode root available (expand root available depth) workflow path stack node s = .ok (part, s')) :
    Labelled s' := by
  obtain ⟨occ, -, hprov, -⟩ := expandNode_occurs (expand_collects depth) h
  exact hs.append hprov

/-! ### Graphs -/

/-- An edge leads from `a` to `b`. -/
def Joins (edges : List WorkflowEdge) (a b : String) : Prop := ∃ e ∈ edges, e.source = a ∧ e.target = b

/-- The graph of nodes and edges. -/
def graphOf (nodes : List WorkflowNode) (edges : List WorkflowEdge) (entry exit : String) : Piece String where
  nodes := {x | ∃ n ∈ nodes, n.id = x}
  edge := Joins edges
  entry := entry
  exit := exit

/-- A Condition that `x` leads to has an edge back to it. -/
def LoopEntry (nodes : List WorkflowNode) (edges : List WorkflowEdge) (x : String) : Prop :=
  ∃ e ∈ edges, e.target = x ∧ (∃ n ∈ nodes, n.id = e.source ∧ n.blockType = "condition") ∧
    Relation.ReflTransGen (Joins edges) x e.source

/-- Where a graph may be entered: at a node without an edge in, or at the start of a loop. -/
def Enterable (nodes : List WorkflowNode) (edges : List WorkflowEdge) (x : String) : Prop :=
  (∀ y, ¬Joins edges y x) ∨ LoopEntry nodes edges x

section Graphs

variable {nodes : List WorkflowNode} {edges : List WorkflowEdge} {x y r : String}

theorem mem_edgeTargets {a b : String} : b ∈ edgeTargets edges a ↔ Joins edges a b := by
  simp [edgeTargets, Joins, and_assoc]

theorem loopEntry_mem (hnd : (nodes.map (·.id)).Nodup) (hs : (graphOf nodes edges x y).Sound)
    (h : LoopEntry nodes edges x) : x ∈ entryCandidates nodes edges := by
  obtain ⟨e, he, htarget, ⟨n, hn, hid, htype⟩, hpath⟩ := h
  refine List.mem_map.mpr ⟨e, List.mem_filter.mpr ⟨he, ?_⟩, htarget⟩
  have hfind : nodes.reverse.find? (·.id == e.source) = some n := by
    cases hf : nodes.reverse.find? (·.id == e.source) with
    | none => exact absurd (List.find?_eq_none.mp hf n (by simpa using hn)) (by simp [hid])
    | some m =>
      have hm : m ∈ nodes := by simpa using List.mem_of_find?_eq_some hf
      have hmid : m.id = e.source := by simpa using List.find?_some hf
      rw [List.inj_on_of_nodup_map hnd hm hn (hmid.trans hid.symm)]
  have hsearch := search_target_iff (U := nodes.map (·.id)) (x := e.target) (t := e.source)
    (fun a _ b (hb : b ∈ edgeTargets edges a) => by
      obtain ⟨m, hm, hmid⟩ := (hs.within (mem_edgeTargets.mp hb)).2
      exact List.mem_map.mpr ⟨m, hm, hmid⟩)
    (by
      obtain ⟨m, hm, hmid⟩ := hs.entry_mem
      exact List.mem_map.mpr ⟨m, hm, hmid.trans htarget.symm⟩)
    (by simp : (nodes.map (·.id)).length < nodes.length + 1)
  simp only [hfind, Option.map_some, htype, beq_self_eq_true, Bool.true_and]
  refine hsearch.mpr ?_
  rw [htarget]
  exact Relation.ReflTransGen.mono (fun _ _ h => mem_edgeTargets.mpr h) _ _ hpath

theorem graphEntryNode_of_sound (hnd : (nodes.map (·.id)).Nodup) (hs : (graphOf nodes edges x y).Sound)
    (henter : Enterable nodes edges x) (h : graphEntryNode nodes edges = .ok r) : r = x := by
  have hroots : ∀ z, z ∈ (nodes.map (·.id)).eraseDups.filter (fun id => edges.all (·.target != id)) → z = x := by
    intro z hz
    rw [List.mem_filter, List.mem_eraseDups, List.all_eq_true] at hz
    obtain ⟨n, hn, hid⟩ := List.mem_map.mp hz.1
    refine hs.eq_entry z ⟨n, hn, hid⟩ ?_
    rintro a ⟨e, he, -, ht⟩
    simpa [ht] using hz.2 e he
  unfold graphEntryNode at h
  split at h
  · rename_i z hz
    cases h
    exact hroots r (by rw [hz]; simp)
  · rename_i hne
    have hmem : x ∈ entryCandidates nodes edges := by
      rcases henter with hno | hloop
      · -- the entry would have been the only root
        refine absurd (eq_singleton_of_nodup (a := x) ?_ fun z => ⟨hroots z, ?_⟩) (hne x)
        · rw [eraseDups_of_nodup hnd]
          exact hnd.filter _
        · rintro rfl
          obtain ⟨n, hn, hid⟩ := hs.entry_mem
          rw [List.mem_filter, List.mem_eraseDups, List.all_eq_true]
          refine ⟨List.mem_map.mpr ⟨n, hn, hid⟩, fun e he => ?_⟩
          simpa using fun ht => hno e.source ⟨e, he, rfl, ht⟩
      · exact loopEntry_mem hnd hs hloop
    split at h
    · cases h
    · rename_i c cs hc
      split_ifs at h with hall
      cases h
      rw [hc] at hmem
      rcases List.mem_cons.mp hmem with rfl | hx
      · rfl
      · exact (by simpa using List.all_eq_true.mp hall x hx : x = r).symm

theorem terminal_of_sound (hs : (graphOf nodes edges x y).Sound) {n : WorkflowNode}
    (h : nodes.find? (fun n => edges.all (·.source != n.id)) = some n) : n.id = y := by
  refine hs.eq_exit n.id ⟨n, List.mem_of_find?_eq_some h, rfl⟩ ?_
  rintro b ⟨e, he, hsource, -⟩
  have hall := List.find?_some h
  rw [List.all_eq_true] at hall
  simpa [hsource] using hall e he

variable {w : WorkflowDefinitionV2} {e t : String}

theorem joins_iff (h : w.Facts) {a b : String} : Joins w.edges a b ↔ Edge w.targets a b := by
  rw [← mem_edgeTargets, edgeTargets_eq h]
  rfl

/-- **The graph of a definition** is sound. -/
theorem definition_sound (h : w.Facts) (he : w.entries = [e]) (ht : w.terminals = [t]) :
    (graphOf w.nodes w.edges e t).Sound := by
  have htm : t ∈ w.nodeIds := (List.mem_filter.mp (show t ∈ w.terminals by rw [ht]; simp)).1
  have hnode : ∀ {id}, id ∈ w.nodeIds ↔ id ∈ (graphOf w.nodes w.edges e t).nodes := WorkflowDefinitionV2.mem_nodeIds
  refine ⟨hnode.mp (h.entry_spec he).1, hnode.mp htm, ?_, ?_, ?_, ?_⟩
  · intro a b hab
    have hab' := (joins_iff h).mp hab
    exact ⟨hnode.mp (WorkflowDefinitionV2.source_mem_nodeIds (WorkflowDefinitionV2.mem_sources_iff_mem_targets.mpr hab')),
      hnode.mp (WorkflowDefinitionV2.target_mem_nodeIds hab')⟩
  · intro a ha hno
    have hroot : a ∈ w.roots := by
      refine List.mem_filter.mpr ⟨hnode.mpr ha, ?_⟩
      rw [← target_all_ne_iff h, List.all_eq_true]
      intro d hd
      simpa using fun htd => hno d.source ⟨d, hd, rfl, htd⟩
    rw [WorkflowDefinitionV2.entries, if_neg (by simpa using List.ne_nil_of_mem hroot)] at he
    exact (by simpa [he] using hroot : a = e)
  · intro a ha hno
    refine (WorkflowDefinitionV2.Facts.terminal_spec ht a (hnode.mpr ha)).mp ?_
    rw [List.eq_nil_iff_forall_not_mem]
    exact fun b hb => hno b ((joins_iff h).mpr hb)
  · exact Relation.ReflTransGen.mono (fun _ _ hab => (joins_iff h).mpr hab) _ _ (h.reach_entry he htm)

theorem definition_enterable (h : w.Facts) (he : w.entries = [e]) : Enterable w.nodes w.edges e := by
  have hmem : e ∈ w.entries := by rw [he]; simp
  unfold WorkflowDefinitionV2.entries at hmem
  split at hmem
  · rw [List.mem_eraseDups, WorkflowDefinitionV2.cycleRoots, List.mem_map] at hmem
    obtain ⟨d, hd, rfl⟩ := hmem
    rw [List.mem_filter, Bool.and_eq_true] at hd
    obtain ⟨n, hn, htype⟩ := WorkflowDefinitionV2.isType_iff.mp hd.2.1
    obtain ⟨hnode, hid⟩ := WorkflowDefinitionV2.byId_some hn
    have hreach : Relation.ReflTransGen (Edge w.targets) d.target d.source :=
      (search_target_iff (U := w.nodeIds) (fun _ _ _ hb => WorkflowDefinitionV2.target_mem_nodeIds hb)
        (h.entry_spec he).1 (by rw [h.nodeIds_eq, List.length_map]; exact Nat.lt_succ_self _)).mp hd.2.2
    exact .inr ⟨d, hd.1, rfl, ⟨n, hnode, hid, htype⟩,
      Relation.ReflTransGen.mono (fun _ _ hab => (joins_iff h).mpr hab) _ _ hreach⟩
  · rw [WorkflowDefinitionV2.roots, List.mem_filter, ← target_all_ne_iff h, List.all_eq_true] at hmem
    refine .inl ?_
    rintro a ⟨d, hd, -, ht⟩
    simpa [ht] using hmem.2 d hd

end Graphs

/-! ### Edges -/

/-- An edge of an invoked workflow. -/
structure EdgeOccurrence where
  path : List InvocationSegment
  workflow : WorkflowDefinitionV2
  edge : WorkflowEdge

def EdgeOccurs (available : String → Option VersionedWorkflowDefinition) (path : List InvocationSegment)
    (w : WorkflowDefinitionV2) (o : EdgeOccurrence) : Prop :=
  Invokes available path w o.path o.workflow ∧ o.edge ∈ o.workflow.edges

/-- `e` is the edge of `o`, from where its source is left to where its target is entered. -/
structure Redirects (available : String → Option VersionedWorkflowDefinition) (o : EdgeOccurrence)
    (e : WorkflowEdge) : Prop where
  eq : e = { o.edge with
    id := executionId .e o.path o.workflow.id o.edge.id, source := e.source, target := e.target }
  source : Lands available WorkflowDefinitionV2.terminals o.path o.workflow o.edge.source e.source
  target : Lands available WorkflowDefinitionV2.entries o.path o.workflow o.edge.target e.target

/-- What an expansion of `w` at `path` is, as edges and as a graph. -/
structure Grown (available : String → Option VersionedWorkflowDefinition) (path : List InvocationSegment)
    (w : WorkflowDefinitionV2) (nodes : List WorkflowNode) (edges : List WorkflowEdge) (entry exit : String) :
    Prop where
  redirects : ∃ occ, List.Forall₂ (Redirects available) occ edges ∧ ∀ o, o ∈ occ ↔ EdgeOccurs available path w o
  enters : ∃ e, w.entries = [e] ∧ Lands available WorkflowDefinitionV2.entries path w e entry
  leaves : ∃ t, w.terminals = [t] ∧ Lands available WorkflowDefinitionV2.terminals path w t exit
  sound : (graphOf nodes edges entry exit).Sound
  enterable : Enterable nodes edges entry

/-- What a node of `w` at `path` becomes. -/
structure PartGrown (available : String → Option VersionedWorkflowDefinition) (path : List InvocationSegment)
    (w : WorkflowDefinitionV2) (n : WorkflowNode) (part : Part) (entry exit : String) : Prop where
  redirects : ∃ occ, List.Forall₂ (Redirects available) occ part.edges ∧ ∀ o, o ∈ occ ↔
    ∃ id v, subworkflowOf n = some id ∧ available id = some v ∧
      EdgeOccurs available (path ++ [segmentOf n v.definition]) v.definition o
  enters : Lands available WorkflowDefinitionV2.entries path w n.id entry
  leaves : Lands available WorkflowDefinitionV2.terminals path w n.id exit
  sound : (graphOf part.nodes part.edges entry exit).Sound
  enterable : Enterable part.nodes part.edges entry
  replaced : ∀ r, part.replacement = some r → r = ⟨n.id, entry, exit⟩
  kept : part.replacement = none → entry = executionId .n path w.id n.id ∧ exit = executionId .n path w.id n.id
  condition : n.blockType = "condition" → ∃ m ∈ part.nodes, m.id = exit ∧ m.blockType = "condition"

theorem blockType_of_subworkflow {id : String} (h : subworkflowOf node = some id) : node.blockType = "subworkflow" := by
  unfold subworkflowOf at h
  split at h
  · rename_i config hconfig
    rw [← validate_blockType hconfig]
    cases config <;> first | rfl | cases h
  · cases h

theorem primitive_grown (hnode : node ∈ workflow.nodes) (hid : subworkflowOf node = none)
    (h : expandPrimitive root workflow path node s = .ok (part, s')) :
    PartGrown available path workflow node part (executionId .n path workflow.id node.id)
      (executionId .n path workflow.id node.id) := by
  obtain ⟨rfl, -, -⟩ := expandPrimitive_ok h
  have hgraph : graphOf [expandedNode path workflow.id node] [] (executionId .n path workflow.id node.id)
      (executionId .n path workflow.id node.id) = Piece.single (executionId .n path workflow.id node.id) := by
    ext a b
    · simp [graphOf, Piece.single, expandedNode, eq_comm]
    · simp [graphOf, Piece.single, Joins]
    · rfl
    · rfl
  refine ⟨⟨[], .nil, fun o => ?_⟩, .node hnode hid, .node hnode hid, ?_, .inl ?_, ?_, fun _ => ⟨rfl, rfl⟩, ?_⟩
  · simp [hid]
  · show (graphOf _ _ _ _).Sound
    rw [hgraph]
    exact Piece.single_sound _
  · rintro y ⟨e, he, -⟩
    cases he
  · rintro r ⟨⟩
  · exact fun hc => ⟨_, List.mem_singleton_self _, rfl, hc⟩

theorem block_grown {invoke : Expand} {childId : String} (hnode : node ∈ workflow.nodes)
    (hid : subworkflowOf node = some childId) (hnd : (part.nodes.map (·.id)).Nodup) (hs : Labelled s)
    (hinvoke : ∀ {w : WorkflowDefinitionV2} {path : List InvocationSegment} {stack : List String} {s s' : Composer}
      {X : WorkflowDefinitionV2}, w.Accepted → Labelled s → (X.nodes.map (·.id)).Nodup →
      invoke w path stack s = .ok (X, s') → ∃ x y, Grown available path w X.nodes X.edges x y)
    (h : expandBlock available invoke path stack node childId s = .ok (part, s')) :
    ∃ x y, PartGrown available path workflow node part x y := by
  obtain ⟨v, refs, Y, s₁, entry, terminal, hv, huse, hY, hentry, hterminal, rfl⟩ := expandBlock_ok h
  have hs₁ : Labelled s₁ := by
    cases huse
    exact hs
  obtain ⟨x, y, hgrown⟩ := hinvoke v.accepted hs₁ hnd hY
  obtain ⟨e, he, henter⟩ := hgrown.enters
  obtain ⟨t, ht, hleave⟩ := hgrown.leaves
  have hx : entry = x := graphEntryNode_of_sound hnd hgrown.sound hgrown.enterable hentry
  have hy : terminal.id = y := terminal_of_sound hgrown.sound hterminal
  obtain ⟨occ, hredirects, hmem⟩ := hgrown.redirects
  refine ⟨x, y, ⟨occ, hredirects, fun o => (hmem o).trans ?_⟩, .block hnode hid hv he henter,
    .block hnode hid hv ht hleave, hgrown.sound, hgrown.enterable, ?_, ?_, ?_⟩
  · simp [hid, hv]
  · rintro r ⟨⟩
    rw [hx, hy]
  · rintro ⟨⟩
  · intro hc
    rw [blockType_of_subworkflow hid] at hc
    exact absurd hc (by decide)

/-! ### Assembly -/

/-- The part of a node, by its id. -/
def partAt (L : List (WorkflowNode × Part)) (id : String) : Part :=
  ((L.find? (·.1.id == id)).map (·.2)).getD ⟨[], [], none⟩

section Assembly

variable {L : List (WorkflowNode × Part)} {entryOf exitOf : String → String}
variable {l : WorkflowNode × Part}

theorem partAt_eq (hids : (L.map (·.1.id)).Nodup) (hl : l ∈ L) : partAt L l.1.id = l.2 := by
  unfold partAt
  cases hf : L.find? (·.1.id == l.1.id) with
  | none => exact absurd (List.find?_eq_none.mp hf l hl) (by simp)
  | some l' =>
    have hid : l'.1.id = l.1.id := by simpa using List.find?_some hf
    rw [List.inj_on_of_nodup_map hids (List.mem_of_find?_eq_some hf) hl hid]
    rfl

theorem replacementOf_eq (hids : (L.map (·.1.id)).Nodup)
    (hgrown : ∀ l ∈ L, PartGrown available path workflow l.1 l.2 (entryOf l.1.id) (exitOf l.1.id)) (hl : l ∈ L) :
    replacementOf ((L.map (·.2)).filterMap (·.replacement)) l.1.id = l.2.replacement := by
  have hmem : ∀ r, r ∈ (L.map (·.2)).filterMap (·.replacement) → r.nodeId = l.1.id → l.2.replacement = some r := by
    intro r hr hid
    obtain ⟨part, hpart, hr⟩ := List.mem_filterMap.mp hr
    obtain ⟨l', hl', rfl⟩ := List.mem_map.mp hpart
    have hr' := (hgrown l' hl').replaced r hr
    rw [hr'] at hid
    rwa [← List.inj_on_of_nodup_map hids hl' hl hid]
  unfold replacementOf
  cases hf : ((L.map (·.2)).filterMap (·.replacement)).reverse.find? (·.nodeId == l.1.id) with
  | some r => exact (hmem r (by simpa using List.mem_of_find?_eq_some hf) (by simpa using List.find?_some hf)).symm
  | none =>
    cases hr : l.2.replacement with
    | none => rfl
    | some r =>
      have hin : r ∈ ((L.map (·.2)).filterMap (·.replacement)).reverse :=
        List.mem_reverse.mpr (List.mem_filterMap.mpr ⟨l.2, List.mem_map_of_mem hl, hr⟩)
      have hnodeId : r.nodeId = l.1.id := by rw [(hgrown l hl).replaced r hr]
      exact absurd (List.find?_eq_none.mp hf r hin) (by simp [hnodeId])

theorem redirected_ends (hids : (L.map (·.1.id)).Nodup)
    (hgrown : ∀ l ∈ L, PartGrown available path workflow l.1 l.2 (entryOf l.1.id) (exitOf l.1.id))
    {e : WorkflowEdge} (hsource : ∃ l ∈ L, l.1.id = e.source) (htarget : ∃ l ∈ L, l.1.id = e.target) :
    (redirected path workflow.id ((L.map (·.2)).filterMap (·.replacement)) e).source = exitOf e.source ∧
      (redirected path workflow.id ((L.map (·.2)).filterMap (·.replacement)) e).target = entryOf e.target := by
  obtain ⟨l, hl, hs⟩ := hsource
  obtain ⟨l', hl', ht⟩ := htarget
  simp only [redirected, ← hs, ← ht, replacementOf_eq hids hgrown hl, replacementOf_eq hids hgrown hl']
  refine ⟨?_, ?_⟩
  · cases hr : l.2.replacement with
    | none => exact ((hgrown l hl).kept hr).2.symm
    | some r => simp [(hgrown l hl).replaced r hr]
  · cases hr : l'.2.replacement with
    | none => exact ((hgrown l' hl').kept hr).1.symm
    | some r => simp [(hgrown l' hl').replaced r hr]

theorem ends_of_edge (hw : workflow.Facts) (hL : L.map (·.1) = workflow.nodes) {d : WorkflowEdge}
    (hd : d ∈ workflow.edges) : (∃ l ∈ L, l.1.id = d.source) ∧ ∃ l ∈ L, l.1.id = d.target := by
  obtain ⟨r, hr⟩ := hw.resolves d hd
  obtain ⟨hs, ht, -⟩ := WorkflowDefinitionV2.resolveEdge_ok hr
  have hmem := WorkflowDefinitionV2.ends_mem (WorkflowDefinitionV2.mem_resolvedEdges.mpr ⟨d, hd, hr⟩)
  rw [hs, ht, WorkflowDefinitionV2.mem_nodeIds, WorkflowDefinitionV2.mem_nodeIds, ← hL] at hmem
  simpa using hmem

theorem ids_nodup_of_parts (hw : workflow.Facts) (hL : L.map (·.1) = workflow.nodes) : (L.map (·.1.id)).Nodup := by
  have hids := hw.ids_nodup
  rwa [← hL, List.map_map] at hids

/-- The graph put in place of a node. -/
def pieceAt (L : List (WorkflowNode × Part)) (entryOf exitOf : String → String) (id : String) : Piece String :=
  graphOf (partAt L id).nodes (partAt L id).edges (entryOf id) (exitOf id)

theorem part_of_node (hL : L.map (·.1) = workflow.nodes) {id : String} (h : ∃ n ∈ workflow.nodes, n.id = id) :
    ∃ l ∈ L, l.1.id = id := by
  rw [← hL] at h
  simpa using h

theorem pieceAt_sound (hw : workflow.Facts) (hL : L.map (·.1) = workflow.nodes)
    (hgrown : ∀ l ∈ L, PartGrown available path workflow l.1 l.2 (entryOf l.1.id) (exitOf l.1.id)) (e t : String) :
    ∀ a ∈ (graphOf workflow.nodes workflow.edges e t).nodes, (pieceAt L entryOf exitOf a).Sound := by
  intro a ha
  obtain ⟨l, hl, rfl⟩ := part_of_node hL ha
  unfold pieceAt
  rw [partAt_eq (ids_nodup_of_parts hw hL) hl]
  exact (hgrown l hl).sound

/-- The edges of an assembled expansion. -/
def assembledEdges (path : List InvocationSegment) (w : WorkflowDefinitionV2) (parts : List Part) :
    List WorkflowEdge :=
  parts.flatMap (·.edges) ++ w.edges.map (redirected path w.id (parts.filterMap (·.replacement)))

section

variable (hw : workflow.Facts) (hL : L.map (·.1) = workflow.nodes)
  (hgrown : ∀ l ∈ L, PartGrown available path workflow l.1 l.2 (entryOf l.1.id) (exitOf l.1.id))

include hw hL hgrown

/-- **The graph of an expansion** is the graph of the definition with a graph in place of every node. -/
theorem assembled_graph (e t : String) :
    graphOf ((L.map (·.2)).flatMap (·.nodes)) (assembledEdges path workflow (L.map (·.2))) (entryOf e) (exitOf t) =
      (graphOf workflow.nodes workflow.edges e t).subst (pieceAt L entryOf exitOf) := by
  have hids := ids_nodup_of_parts hw hL
  have hnode : ∀ {id}, (∃ n ∈ workflow.nodes, n.id = id) ↔ ∃ l ∈ L, l.1.id = id := by
    intro id
    rw [← hL]
    simp
  ext a b
  · show (∃ n ∈ (L.map (·.2)).flatMap (·.nodes), n.id = a) ↔
      ∃ id, (∃ n ∈ workflow.nodes, n.id = id) ∧ ∃ n ∈ (partAt L id).nodes, n.id = a
    constructor
    · rintro ⟨n, hn, rfl⟩
      obtain ⟨part, hpart, hn⟩ := List.mem_flatMap.mp hn
      obtain ⟨l, hl, rfl⟩ := List.mem_map.mp hpart
      exact ⟨l.1.id, hnode.mpr ⟨l, hl, rfl⟩, n, by rwa [partAt_eq hids hl], rfl⟩
    · rintro ⟨id, hid, n, hn, rfl⟩
      obtain ⟨l, hl, rfl⟩ := hnode.mp hid
      rw [partAt_eq hids hl] at hn
      exact ⟨n, List.mem_flatMap.mpr ⟨l.2, List.mem_map_of_mem hl, hn⟩, rfl⟩
  · show Joins (assembledEdges path workflow (L.map (·.2))) a b ↔
      (∃ id, (∃ n ∈ workflow.nodes, n.id = id) ∧ Joins (partAt L id).edges a b) ∨
        ∃ c d, Joins workflow.edges c d ∧ exitOf c = a ∧ entryOf d = b
    constructor
    · rintro ⟨d, hd, rfl, rfl⟩
      rcases List.mem_append.mp hd with hd | hd
      · obtain ⟨part, hpart, hd⟩ := List.mem_flatMap.mp hd
        obtain ⟨l, hl, rfl⟩ := List.mem_map.mp hpart
        exact .inl ⟨l.1.id, hnode.mpr ⟨l, hl, rfl⟩, d, by rwa [partAt_eq hids hl], rfl, rfl⟩
      · obtain ⟨c, hc, rfl⟩ := List.mem_map.mp hd
        obtain ⟨h1, h2⟩ := redirected_ends hids hgrown (ends_of_edge hw hL hc).1 (ends_of_edge hw hL hc).2
        exact .inr ⟨c.source, c.target, ⟨c, hc, rfl, rfl⟩, h1.symm, h2.symm⟩
    · rintro (⟨id, hid, d, hd, rfl, rfl⟩ | ⟨_, _, ⟨c, hc, rfl, rfl⟩, rfl, rfl⟩)
      · obtain ⟨l, hl, rfl⟩ := hnode.mp hid
        rw [partAt_eq hids hl] at hd
        exact ⟨d, List.mem_append_left _ (List.mem_flatMap.mpr ⟨l.2, List.mem_map_of_mem hl, hd⟩), rfl, rfl⟩
      · obtain ⟨h1, h2⟩ := redirected_ends hids hgrown (ends_of_edge hw hL hc).1 (ends_of_edge hw hL hc).2
        exact ⟨_, List.mem_append_right _ (List.mem_map_of_mem hc), h1, h2⟩
  · rfl
  · rfl

/-- The assembled graph is entered at the entry of its entry block. -/
theorem assembled_enterable
    (hnd : (((L.map (·.2)).flatMap (·.nodes)).map (·.id)).Nodup) {e t : String} (he : workflow.entries = [e])
    (ht : workflow.terminals = [t]) :
    Enterable ((L.map (·.2)).flatMap (·.nodes)) (assembledEdges path workflow (L.map (·.2))) (entryOf e) := by
  have hids := ids_nodup_of_parts hw hL
  have hnode : ∀ {id}, (∃ n ∈ workflow.nodes, n.id = id) → ∃ l ∈ L, l.1.id = id := fun h => part_of_node hL h
  have hgraph := assembled_graph hw hL hgrown e t
  have houter := definition_sound hw he ht
  have hinner := pieceAt_sound hw hL hgrown e t
  have hedge : ∀ {a b}, ((graphOf workflow.nodes workflow.edges e t).subst (pieceAt L entryOf exitOf)).edge a b ↔
      Joins (assembledEdges path workflow (L.map (·.2))) a b := by
    intro a b
    rw [← hgraph]
    rfl
  rcases definition_enterable hw he with hroot | ⟨d, hd, hde, ⟨c, hc, hcid, hctype⟩, hpath⟩
  · obtain ⟨l, hl, hle⟩ := hnode houter.entry_mem
    have hpart : partAt L e = l.2 := by
      have := partAt_eq hids hl
      rwa [hle] at this
    have henter := (hgrown l hl).enterable
    rw [hle] at henter
    rcases henter with hno | ⟨d, hd, hde, ⟨c, hc, hcid, hctype⟩, hpath⟩
    · -- distinct parts share no node, so nothing else leads to the entry
      refine .inl fun y hy => ?_
      refine Piece.subst_isolated houter hinner ?_ hroot ?_ y (hedge.mpr hy)
      · rintro a ha b hb x hxa hxb
        obtain ⟨l₁, hl₁, rfl⟩ := hnode ha
        obtain ⟨l₂, hl₂, rfl⟩ := hnode hb
        unfold pieceAt at hxa hxb
        rw [partAt_eq hids hl₁] at hxa
        rw [partAt_eq hids hl₂] at hxb
        obtain ⟨n₁, hn₁, rfl⟩ := hxa
        obtain ⟨n₂, hn₂, hn⟩ := hxb
        have hdisj := hnd
        rw [List.map_flatMap, List.flatMap_map] at hdisj
        rw [eq_of_mem_flatMap hdisj hl₁ hl₂ (List.mem_map_of_mem hn₁) (List.mem_map.mpr ⟨n₂, hn₂, hn⟩)]
      · intro y hy
        have hjoins : Joins (partAt L e).edges y (entryOf e) := hy
        rw [hpart] at hjoins
        exact hno y hjoins
    · refine .inr ⟨d, ?_, hde, ⟨c, List.mem_flatMap.mpr ⟨l.2, List.mem_map_of_mem hl, hc⟩, hcid, hctype⟩, ?_⟩
      · exact List.mem_append_left _ (List.mem_flatMap.mpr ⟨l.2, List.mem_map_of_mem hl, hd⟩)
      · refine Relation.ReflTransGen.mono (fun a b ⟨d', hd', hab⟩ => ⟨d', ?_, hab⟩) _ _ hpath
        exact List.mem_append_left _ (List.mem_flatMap.mpr ⟨l.2, List.mem_map_of_mem hl, hd'⟩)
  · -- the Condition that closes the loop invokes nothing, and the path to it is lifted
    have hends := hedge.mp (.inr ⟨d.source, d.target, ⟨d, hd, rfl, rfl⟩, rfl, rfl⟩)
    obtain ⟨d', hd', hsource, htarget⟩ := hends
    obtain ⟨l, hl, hlid⟩ := hnode ⟨c, hc, rfl⟩
    obtain rfl : l.1 = c := List.inj_on_of_nodup_map hw.ids_nodup (hL ▸ List.mem_map_of_mem hl) hc hlid
    obtain ⟨m, hm, hmid, hmtype⟩ := (hgrown l hl).condition hctype
    have hexit : exitOf d.source = d'.source := hsource.symm
    have hentry : entryOf e = d'.target := by rw [← hde]; exact htarget.symm
    refine .inr ⟨d', hd', hentry.symm, ⟨m, List.mem_flatMap.mpr ⟨l.2, List.mem_map_of_mem hl, hm⟩, ?_, hmtype⟩, ?_⟩
    · rw [hmid, hcid, hexit]
    · have hlift := Piece.subst_path houter hinner (a := e) houter.entry_mem hpath
      rw [← hexit]
      exact Relation.ReflTransGen.mono (fun _ _ h => hedge.mp h) _ _ hlift

end

theorem edgeOccurs_iff {o : EdgeOccurrence} : EdgeOccurs available path workflow o ↔
    (∃ n ∈ workflow.nodes, ∃ id v, subworkflowOf n = some id ∧ available id = some v ∧
      EdgeOccurs available (path ++ [segmentOf n v.definition]) v.definition o) ∨
    ∃ e ∈ workflow.edges, o = ⟨path, workflow, e⟩ := by
  constructor
  · rintro ⟨hinv, hedge⟩
    rcases hinv with _ | ⟨hn, hsub, hv, hinv⟩
    · exact .inr ⟨o.edge, hedge, rfl⟩
    · exact .inl ⟨_, hn, _, _, hsub, hv, hinv, hedge⟩
  · rintro (⟨n, hn, id, v, hid, hv, hinv, hedge⟩ | ⟨e, he, rfl⟩)
    · exact ⟨.inside hn hid hv hinv, hedge⟩
    · exact ⟨.here, he⟩

theorem parts_redirect {A : WorkflowNode → EdgeOccurrence → Prop} : ∀ {L : List (WorkflowNode × Part)},
    (∀ l ∈ L, ∃ occ, List.Forall₂ (Redirects available) occ l.2.edges ∧ ∀ o, o ∈ occ ↔ A l.1 o) →
    ∃ occ, List.Forall₂ (Redirects available) occ ((L.map (·.2)).flatMap (·.edges)) ∧
      ∀ o, o ∈ occ ↔ ∃ l ∈ L, A l.1 o
  | [], _ => ⟨[], .nil, by simp⟩
  | l :: L, h => by
    obtain ⟨occ, hocc, hmem⟩ := h l (by simp)
    obtain ⟨occ', hocc', hmem'⟩ := parts_redirect (L := L) fun l' hl' => h l' (by simp [hl'])
    refine ⟨occ ++ occ', List.rel_append hocc hocc', fun o => ?_⟩
    rw [List.mem_append, hmem, hmem']
    simp

/-- **The edges of an expansion** are those of the workflows invoked, redirected. -/
theorem assembled_redirects (hw : workflow.Facts) (hL : L.map (·.1) = workflow.nodes)
    (hgrown : ∀ l ∈ L, PartGrown available path workflow l.1 l.2 (entryOf l.1.id) (exitOf l.1.id)) :
    ∃ occ, List.Forall₂ (Redirects available) occ (assembledEdges path workflow (L.map (·.2))) ∧
      ∀ o, o ∈ occ ↔ EdgeOccurs available path workflow o := by
  have hids := ids_nodup_of_parts hw hL
  obtain ⟨occ, hocc, hmem⟩ := parts_redirect (L := L) (A := fun n o => ∃ id v, subworkflowOf n = some id ∧
    available id = some v ∧ EdgeOccurs available (path ++ [segmentOf n v.definition]) v.definition o)
    fun l hl => (hgrown l hl).redirects
  refine ⟨occ ++ workflow.edges.map fun e => ⟨path, workflow, e⟩, List.rel_append hocc ?_, fun o => ?_⟩
  · rw [List.forall₂_map_left_iff, List.forall₂_map_right_iff, List.forall₂_same]
    intro e he
    obtain ⟨hs, ht⟩ := ends_of_edge hw hL he
    obtain ⟨hsource, htarget⟩ := redirected_ends hids hgrown hs ht
    obtain ⟨l, hl, hls⟩ := hs
    obtain ⟨l', hl', hlt⟩ := ht
    refine ⟨rfl, ?_, ?_⟩
    · rw [hsource, ← hls]
      exact (hgrown l hl).leaves
    · rw [htarget, ← hlt]
      exact (hgrown l' hl').enters
  · rw [List.mem_append, hmem, edgeOccurs_iff, ← hL]
    simp only [List.mem_map, exists_exists_and_eq_and, eq_comm (a := o)]

end Assembly

theorem ends_of_parts {L : List (WorkflowNode × Part)} (hids : (L.map (·.1.id)).Nodup)
    (hparts : ∀ l ∈ L, ∃ x y, PartGrown available path workflow l.1 l.2 x y) : ∃ entryOf exitOf : String → String,
      ∀ l ∈ L, PartGrown available path workflow l.1 l.2 (entryOf l.1.id) (exitOf l.1.id) := by
  have hchoice : ∀ id, ∃ x y, ∀ l ∈ L, l.1.id = id → PartGrown available path workflow l.1 l.2 x y := by
    intro id
    by_cases hid : ∃ l ∈ L, l.1.id = id
    · obtain ⟨l, hl, rfl⟩ := hid
      obtain ⟨x, y, hxy⟩ := hparts l hl
      refine ⟨x, y, fun l' hl' hid => ?_⟩
      rw [List.inj_on_of_nodup_map hids hl' hl hid]
      exact hxy
    · exact ⟨"", "", fun l hl hl' => absurd ⟨l, hl, hl'⟩ hid⟩
  choose entryOf exitOf hends using hchoice
  exact ⟨entryOf, exitOf, fun l hl => hends l.1.id l hl rfl⟩

/-- **What an expansion is.** -/
theorem grown_of_parts (hw : workflow.Facts) {parts : List Part}
    (hnd : ((parts.flatMap (·.nodes)).map (·.id)).Nodup)
    (hparts : List.Forall₂ (fun n part => ∃ x y, PartGrown available path workflow n part x y) workflow.nodes parts) :
    ∃ x y, Grown available path workflow (parts.flatMap (·.nodes)) (assembledEdges path workflow parts) x y := by
  obtain ⟨hlen, hzip⟩ := List.forall₂_iff_zip.mp hparts
  have hfst : (workflow.nodes.zip parts).map (·.1) = workflow.nodes := List.map_fst_zip hlen.le
  have hsnd : (workflow.nodes.zip parts).map (·.2) = parts := List.map_snd_zip hlen.ge
  obtain ⟨entryOf, exitOf, hgrown⟩ := ends_of_parts (ids_nodup_of_parts hw hfst) fun l hl => hzip (a := l.1) (b := l.2) hl
  obtain ⟨e, he⟩ := hw.entry
  obtain ⟨t, ht⟩ := hw.terminal
  have houter := definition_sound hw he ht
  have hinner := pieceAt_sound hw hfst hgrown e t
  have hgraph := assembled_graph hw hfst hgrown e t
  have henter := assembled_enterable hw hfst hgrown (by rwa [hsnd]) he ht
  have hredirects := assembled_redirects hw hfst hgrown
  rw [hsnd] at hgraph henter hredirects
  obtain ⟨le, hle, hleid⟩ := part_of_node hfst houter.entry_mem
  obtain ⟨lt, hlt, hltid⟩ := part_of_node hfst houter.exit_mem
  refine ⟨entryOf e, exitOf t, hredirects, ⟨e, he, ?_⟩, ⟨t, ht, ?_⟩, ?_, henter⟩
  · have hlands := (hgrown le hle).enters
    rwa [hleid] at hlands
  · have hlands := (hgrown lt hlt).leaves
    rwa [hltid] at hlands
  · rw [hgraph]
    exact Piece.subst_sound houter hinner

theorem expand_parts {depth : ℕ} {X : WorkflowDefinitionV2} (hinvoke : ∀ {w : WorkflowDefinitionV2}
      {path : List InvocationSegment} {stack : List String} {s s' : Composer} {X : WorkflowDefinitionV2}, w.Accepted →
      Labelled s → (X.nodes.map (·.id)).Nodup → expand root available depth w path stack s = .ok (X, s') →
      ∃ x y, Grown available path w X.nodes X.edges x y)
    (hs : Labelled s) (hnd : (X.nodes.map (·.id)).Nodup)
    (h : expand root available (depth + 1) workflow path stack s = .ok (X, s')) :
    ∃ parts, X.nodes = parts.flatMap (·.nodes) ∧ X.edges = assembledEdges path workflow parts ∧
      List.Forall₂ (fun n part => (∃ x y, PartGrown available path workflow n part x y) ∧
        (part.nodes.map (·.id)).Nodup ∧ ∃ t t', Labelled t ∧
          expandNode root available (expand root available depth) workflow path stack n t = .ok (part, t'))
        workflow.nodes parts := by
  obtain ⟨parts, edges, s₁, hparts, hedges, hnodes, hX, -⟩ := expand_ok h
  obtain ⟨hs₁, hall⟩ := stateT_mapM_ok (fun _ _ _ _ ht h => expandNode_labelled ht h) hs hparts
  rw [(mapM_expandEdge_ok hedges).2.2 hs₁] at hX
  refine ⟨parts, hnodes, hX, ?_⟩
  rw [hnodes] at hnd
  refine List.forall₂_iff_zip.mpr ⟨hall.length_eq, fun {n part} hmem => ?_⟩
  obtain ⟨t₁, t₂, ht₁, hn⟩ := (List.forall₂_iff_zip.mp hall).2 hmem
  have hnode := (List.of_mem_zip hmem).1
  have hpart : (part.nodes.map (·.id)).Nodup := by
    rw [List.map_flatMap, List.nodup_flatMap] at hnd
    exact hnd.1 part (List.of_mem_zip hmem).2
  refine ⟨?_, hpart, t₁, t₂, ht₁, hn⟩
  rcases expandNode_ok hn with ⟨hid, hn⟩ | ⟨childId, hid, hn⟩
  · exact ⟨_, _, primitive_grown hnode hid hn⟩
  · exact block_grown hnode hid hpart ht₁ hinvoke hn

/-- **Every expansion** of an accepted workflow whose nodes have distinct ids. -/
theorem expand_grown : ∀ {depth : ℕ} {workflow : WorkflowDefinitionV2} {path : List InvocationSegment}
    {stack : List String} {s s' : Composer} {X : WorkflowDefinitionV2}, workflow.Accepted → Labelled s →
    (X.nodes.map (·.id)).Nodup → expand root available depth workflow path stack s = .ok (X, s') →
    ∃ x y, Grown available path workflow X.nodes X.edges x y
  | 0, _, _, _, _, _, _, _, _, _, h => by cases h
  | depth + 1, workflow, path, stack, s, s', X, hw, hs, hnd, h => by
    obtain ⟨parts, hnodes, hedges, hall⟩ := expand_parts (fun hw hs hnd h => expand_grown hw hs hnd h) hs hnd h
    rw [hnodes, hedges]
    rw [hnodes] at hnd
    exact grown_of_parts hw.facts hnd (hall.imp fun _ _ h => h.1)

end ADT.Workflow
