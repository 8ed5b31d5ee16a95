import ADT.Workflow.Topology

/-!
# Workflow.TopologyFacts — what an accepted definition guarantees

The rules of `validateGraphTopology` read back from an empty list of issues, in terms of the resolved
edges: node ids are unique, every edge resolves and no two are the same, there is one entry and one
terminal, a Join closes one fan-out, and every node lies between entry and terminal.
-/

namespace ADT.Workflow.WorkflowDefinitionV2

open Search

variable {w : WorkflowDefinitionV2}

theorem blockIssues_nil : ∀ {ns : List WorkflowNode} {i : ℕ} {seen : List String}, blockIssues i seen ns = [] →
    (ns.map (·.id)).Nodup ∧ ∀ n ∈ ns, n.id ∉ seen ∧ ∃ c, validate n.blockType n.blockVersion n.config = .ok c
  | [], _, _, _ => by simp
  | n :: ns, i, seen, h => by
    simp only [blockIssues, List.append_eq_nil_iff, issueIf_eq_nil] at h
    obtain ⟨⟨hseen, hval⟩, hrest⟩ := h
    obtain ⟨hnd, hall⟩ := blockIssues_nil hrest
    have hok : ∃ c, validate n.blockType n.blockVersion n.config = .ok c := by
      split at hval
      · exact ⟨_, by assumption⟩
      · simp at hval
    refine ⟨?_, ?_⟩
    · rw [List.map_cons, List.nodup_cons]
      refine ⟨fun hmem => ?_, hnd⟩
      obtain ⟨m, hm, he⟩ := List.mem_map.mp hmem
      exact (hall m hm).1 (by simp [he])
    · intro m hm
      rcases List.mem_cons.mp hm with rfl | hm
      · exact ⟨by simpa using hseen, hok⟩
      · exact ⟨fun hs => (hall m hm).1 (by simp [hs]), (hall m hm).2⟩

variable {id : String} {r : ResolvedEdge} {s t : String}

theorem byId_some {n : WorkflowNode} (h : w.byId id = some n) : n ∈ w.nodes ∧ n.id = id :=
  ⟨by simpa using List.mem_of_find?_eq_some h, by simpa using List.find?_some h⟩

theorem mem_nodeIds : id ∈ w.nodeIds ↔ ∃ n ∈ w.nodes, n.id = id := by
  simp [nodeIds]

theorem byId_eq (hnd : (w.nodes.map (·.id)).Nodup) {n : WorkflowNode} (hn : n ∈ w.nodes) :
    w.byId n.id = some n := by
  cases hf : w.byId n.id with
  | none => exact absurd (List.find?_eq_none.mp hf n (by simpa using hn)) (by simp)
  | some m =>
    obtain ⟨hm, he⟩ := byId_some hf
    rw [List.inj_on_of_nodup_map hnd hm hn he]

theorem isType_iff {type : String} : w.isType type id = true ↔ ∃ n, w.byId id = some n ∧ n.blockType = type := by
  simp [isType, blockTypeOf]

/-! ### Edges -/

theorem resolveEdge_ok {e : WorkflowEdge} (h : w.resolveEdge e = .ok r) :
    r.source = e.source ∧ r.target = e.target ∧ ∃ s t, w.byId r.source = some s ∧ w.byId r.target = some t ∧
      outputPort s.blockType s.blockVersion e.sourcePort = .ok r.sourcePort ∧
      inputPort t.blockType t.blockVersion e.targetPort = .ok r.targetPort := by
  unfold resolveEdge at h
  split at h
  · rename_i s t hs ht
    obtain ⟨p, hp, h⟩ := except_bind_ok.mp h
    obtain ⟨q, hq, h⟩ := except_bind_ok.mp h
    cases h
    exact ⟨rfl, rfl, s, t, hs, ht, hp, hq⟩
  · cases h

theorem mem_resolvedEdges : r ∈ w.resolvedEdges ↔ ∃ e ∈ w.edges, w.resolveEdge e = .ok r := by
  simp only [resolvedEdges, List.mem_filterMap]
  refine exists_congr fun e => and_congr_right fun _ => ?_
  cases w.resolveEdge e <;> simp [Except.toOption]

theorem edgeIssues_nil : ∀ {es : List WorkflowEdge} {i : ℕ} {semantic : List ResolvedEdge},
    w.edgeIssues i semantic es = [] → (∀ e ∈ es, ∃ r, w.resolveEdge e = .ok r) ∧
      (es.filterMap fun e => (w.resolveEdge e).toOption).Nodup ∧
      ∀ r ∈ es.filterMap (fun e => (w.resolveEdge e).toOption), r ∉ semantic
  | [], _, _, _ => by simp
  | e :: es, i, semantic, h => by
    unfold edgeIssues at h
    split at h
    · cases h
    · rename_i r hr
      rw [List.append_eq_nil_iff, issueIf_eq_nil] at h
      obtain ⟨hnew, hrest⟩ := h
      obtain ⟨h1, h2, h3⟩ := edgeIssues_nil hrest
      have hcons : (e :: es).filterMap (fun e => (w.resolveEdge e).toOption) =
          r :: es.filterMap fun e => (w.resolveEdge e).toOption := by
        rw [List.filterMap_cons, hr]; rfl
      rw [hcons]
      refine ⟨?_, List.nodup_cons.mpr ⟨fun hm => h3 r hm (by simp), h2⟩, ?_⟩
      · intro x hx
        rcases List.mem_cons.mp hx with rfl | hx
        · exact ⟨r, hr⟩
        · exact h1 x hx
      · intro x hx
        rcases List.mem_cons.mp hx with rfl | hx
        · simpa using hnew
        · exact fun hs => h3 x hx (by simp [hs])

theorem mem_outgoing : r ∈ w.outgoing id ↔ r ∈ w.resolvedEdges ∧ r.source = id := by
  simp [outgoing]

theorem mem_incoming : r ∈ w.incoming id ↔ r ∈ w.resolvedEdges ∧ r.target = id := by
  simp [incoming]

theorem mem_targets : t ∈ w.targets s ↔ ∃ r ∈ w.resolvedEdges, r.source = s ∧ r.target = t := by
  simp [targets, outgoing, and_assoc]

theorem mem_sources : s ∈ w.sources t ↔ ∃ r ∈ w.resolvedEdges, r.source = s ∧ r.target = t := by
  simp only [sources, incoming, List.mem_map, List.mem_filter, beq_iff_eq]
  exact exists_congr fun r => by tauto

theorem mem_sources_iff_mem_targets : s ∈ w.sources t ↔ t ∈ w.targets s := by
  rw [mem_sources, mem_targets]

theorem ends_mem (h : r ∈ w.resolvedEdges) : r.source ∈ w.nodeIds ∧ r.target ∈ w.nodeIds := by
  obtain ⟨e, -, he⟩ := mem_resolvedEdges.mp h
  obtain ⟨-, -, s, t, hs, ht, -⟩ := resolveEdge_ok he
  exact ⟨mem_nodeIds.mpr ⟨s, byId_some hs⟩, mem_nodeIds.mpr ⟨t, byId_some ht⟩⟩

theorem target_mem_nodeIds (h : t ∈ w.targets s) : t ∈ w.nodeIds := by
  obtain ⟨r, hr, -, rfl⟩ := mem_targets.mp h
  exact (ends_mem hr).2

theorem source_mem_nodeIds (h : s ∈ w.sources t) : s ∈ w.nodeIds := by
  obtain ⟨r, hr, rfl, -⟩ := mem_sources.mp h
  exact (ends_mem hr).1

theorem resolvedEdge_ext {r' : ResolvedEdge} (h : r ∈ w.resolvedEdges) (h' : r' ∈ w.resolvedEdges)
    (hs : r.source = r'.source) (ht : r.target = r'.target)
    (hp : w.isType "condition" r.source = true → r.sourcePort = r'.sourcePort) : r = r' := by
  obtain ⟨e, -, he⟩ := mem_resolvedEdges.mp h
  obtain ⟨e', -, he'⟩ := mem_resolvedEdges.mp h'
  obtain ⟨-, -, s, t, hbs, hbt, ho, hi⟩ := resolveEdge_ok he
  obtain ⟨-, -, s', t', hbs', hbt', ho', hi'⟩ := resolveEdge_ok he'
  rw [← hs, hbs] at hbs'
  rw [← ht, hbt] at hbt'
  cases hbs'
  cases hbt'
  have hport : r.sourcePort = r'.sourcePort := by
    by_cases hc : s.blockType = "condition"
    · exact hp (isType_iff.mpr ⟨s, hbs, hc⟩)
    · exact outputPort_unique hc ho ho'
  have hin : r.targetPort = r'.targetPort := inputPort_unique hi hi'
  cases r; cases r'
  simp_all

/-- A node that feeds several targets at once. -/
def fansOut (w : WorkflowDefinitionV2) (id : String) : Bool :=
  !w.isType "condition" id && 1 < (w.targets id).length

theorem fansOut_iff : w.fansOut id = true ↔ w.isType "condition" id = false ∧ 1 < (w.targets id).length := by
  simp [fansOut]

theorem mem_nodeIds_of_fansOut (h : w.fansOut id = true) : id ∈ w.nodeIds := by
  obtain ⟨t, ht⟩ := List.exists_mem_of_length_pos (Nat.lt_of_succ_lt (fansOut_iff.mp h).2)
  exact source_mem_nodeIds (mem_sources_iff_mem_targets.mpr ht)

/-- All targets of the node feed one Join. -/
def closedByJoin (w : WorkflowDefinitionV2) (id : String) : Bool :=
  w.nodeIds.any fun j => w.isType "join" j && (w.targets id).all fun t => (w.targets t).contains j

theorem closedByJoin_iff :
    w.closedByJoin id = true ↔ ∃ j, w.isType "join" j = true ∧ ∀ t ∈ w.targets id, j ∈ w.targets t := by
  simp only [closedByJoin, List.any_eq_true, Bool.and_eq_true, List.all_eq_true, List.contains_iff_mem]
  constructor
  · rintro ⟨j, -, hj⟩
    exact ⟨j, hj⟩
  · rintro ⟨j, hj, h⟩
    obtain ⟨n, hn, -⟩ := isType_iff.mp hj
    exact ⟨j, mem_nodeIds.mpr ⟨n, byId_some hn⟩, hj, h⟩

/-! ### The facts -/

/-- **What acceptance gives**, in terms of the graph. -/
structure Facts (w : WorkflowDefinitionV2) : Prop where
  ids_nodup : (w.nodes.map (·.id)).Nodup
  valid : ∀ n ∈ w.nodes, ∃ c, validate n.blockType n.blockVersion n.config = .ok c
  resolves : ∀ e ∈ w.edges, ∃ r, w.resolveEdge e = .ok r
  edges_nodup : w.resolvedEdges.Nodup
  entry : ∃ e, w.entries = [e]
  terminal : ∃ t, w.terminals = [t]
  node : ∀ id ∈ w.nodeIds, w.nodeIssues id = []
  publish : ∀ n ∈ w.nodes, w.publishIssues n = []
  context : ∀ n ∈ w.nodes, w.contextIssues n = []
  conversation : ∀ n ∈ w.conversationNodes, w.conversationIssues n = []
  lineage : w.lineageIssues w.conversationNodes = []
  terminalType : w.terminalIssues = []
  reachable : w.reachableIssues = []
  leads : w.leadsIssues = []
  component : ∀ c ∈ w.components, w.componentIssues c = []

theorem Accepted.facts (h : w.Accepted) : w.Facts := by
  have hi := h.2
  simp only [issues, validateGraphTopology, List.append_eq_nil_iff, issueIf_eq_nil, List.flatMap_eq_nil_iff,
    bne_eq_false_iff_eq] at hi
  obtain ⟨⟨⟨-, hb⟩, -⟩, ⟨⟨⟨⟨⟨⟨⟨⟨⟨⟨⟨he, hen⟩, hte⟩, hno⟩, hpu⟩, hcx⟩, hco⟩, hli⟩, htt⟩, hre⟩, hle⟩, hcm⟩⟩ := hi
  obtain ⟨hnd, hval⟩ := blockIssues_nil hb
  obtain ⟨hres, hed, -⟩ := edgeIssues_nil he
  exact ⟨hnd, fun n hn => (hval n hn).2, hres, hed, List.length_eq_one_iff.mp hen,
    List.length_eq_one_iff.mp hte, hno, hpu, hcx, hco, hli, htt, hre, hle, hcm⟩

theorem mem_nodeIds_of_isType {type : String} (h : w.isType type id = true) : id ∈ w.nodeIds := by
  obtain ⟨n, hn, -⟩ := isType_iff.mp h
  exact mem_nodeIds.mpr ⟨n, byId_some hn⟩

theorem isType_unique {type type' : String} (h : w.isType type id = true) (h' : w.isType type' id = true) :
    type = type' := by
  obtain ⟨n, hn, rfl⟩ := isType_iff.mp h
  obtain ⟨m, hm, rfl⟩ := isType_iff.mp h'
  rw [hn] at hm
  cases hm
  rfl

namespace Facts

variable {id j : String}

theorem condition (h : w.Facts) (hc : w.isType "condition" id = true) :
    (w.incoming id).length = 1 ∧ (w.outgoing id).length = 2 ∧
      (((w.outgoing id).map (·.sourcePort)).filter (· == "true")).length = 1 ∧
      (((w.outgoing id).map (·.sourcePort)).filter (· == "false")).length = 1 := by
  have hn := h.node id (mem_nodeIds_of_isType hc)
  simp only [nodeIssues, hc, if_true, List.append_eq_nil_iff, conditionIssues, issueIf_eq_nil,
    bne_eq_false_iff_eq, Bool.or_eq_false_iff] at hn
  exact ⟨hn.1.1, hn.1.2.1.1, hn.1.2.1.2, hn.1.2.2⟩

theorem route (h : w.Facts) (hc : w.isType "condition" id = true) (b : Bool) :
    ∃! r, r ∈ w.outgoing id ∧ r.sourcePort = (if b then "true" else "false") := by
  have hone : ((w.outgoing id).filter (·.sourcePort == (if b then "true" else "false"))).length = 1 := by
    have := h.condition hc
    rw [List.filter_map, List.length_map, List.filter_map, List.length_map] at this
    cases b
    · exact this.2.2.2
    · exact this.2.2.1
  obtain ⟨r, hr⟩ := List.length_eq_one_iff.mp hone
  have hmem : ∀ x, x ∈ w.outgoing id ∧ x.sourcePort = (if b then "true" else "false") ↔ x = r := by
    intro x
    have hx : x ∈ [r] ↔ x = r := List.mem_singleton
    rw [← hx, ← hr, List.mem_filter, beq_iff_eq]
  exact ⟨r, (hmem r).mpr rfl, fun x hx => (hmem x).mp hx⟩

theorem condition_port {r : ResolvedEdge} (hr : r ∈ w.resolvedEdges) (hc : w.isType "condition" r.source = true) :
    r.sourcePort = "true" ∨ r.sourcePort = "false" := by
  obtain ⟨e, -, he⟩ := mem_resolvedEdges.mp hr
  obtain ⟨-, -, s, t, hs, -, ho, -⟩ := resolveEdge_ok he
  obtain ⟨n, hn, hty⟩ := isType_iff.mp hc
  rw [hs] at hn
  cases hn
  obtain ⟨b, hres, hp⟩ := except_bind_ok.mp ho
  obtain ⟨hb, hbt, -⟩ := resolve_mem hres
  have hm := portIn_mem hp
  rw [hty] at hbt
  simp only [blocks, List.mem_cons, List.not_mem_nil, or_false] at hb
  rcases hb with rfl | rfl | rfl | rfl | rfl | rfl | rfl | rfl <;> simp_all

/-! ### Fan-outs and Joins -/

theorem targets_nodup (h : w.Facts) (hc : w.isType "condition" id = false) : (w.targets id).Nodup := by
  refine List.Nodup.map_on ?_ (h.edges_nodup.filter _)
  intro r hr r' hr' ht
  rw [mem_outgoing] at hr hr'
  refine resolvedEdge_ext hr.1 hr'.1 (hr.2.trans hr'.2.symm) ht fun hc' => ?_
  rw [hr.2, hc] at hc'
  cases hc'

theorem fanOut (h : w.Facts) (hid : id ∈ w.nodeIds) (hc : w.isType "condition" id = false) :
    (w.targets id).length ≤ 3 ∧ (1 < (w.targets id).length → ∃ j, w.isType "join" j = true ∧
      (∀ t ∈ w.targets id, j ∈ w.joinsFor t) ∧ ∀ t ∈ w.targets id, w.containsApproval j t = false) := by
  have hn := h.node id hid
  simp only [nodeIssues, hc, Bool.false_eq_true, if_false, List.append_eq_nil_iff, issueIf_eq_nil,
    decide_eq_false_iff_not, not_lt] at hn
  obtain ⟨-, hlen, hfan⟩ := hn
  have hl : (w.targets id).length = (w.outgoing id).length := by simp [targets]
  refine ⟨by omega, fun hgt => ?_⟩
  rw [fanOutIssues, if_pos (by omega)] at hfan
  split at hfan
  · cases hfan
  · rename_i j js hj
    have hjm : j ∈ w.commonJoins id := by rw [hj]; simp
    rw [issueIf_eq_nil, List.any_eq_false] at hfan
    unfold commonJoins at hjm
    split at hjm
    · simp at hjm
    · rename_i t ts hts
      simp only [List.mem_filter, List.all_eq_true, List.contains_iff_mem] at hjm
      refine ⟨j, ?_, fun x hx => hjm.2 x (by rwa [hts] at hx), fun x hx => by simpa using hfan x hx⟩
      exact (List.mem_filter.mp hjm.1).2

theorem join_rules (h : w.Facts) (hj : w.isType "join" j = true) :
    2 ≤ (w.sources j).length ∧ (w.outgoing j).length = 1 ∧ w.structured j = true := by
  have hn := h.node j (mem_nodeIds_of_isType hj)
  have hc : w.isType "condition" j = false := by
    by_contra hc
    exact absurd (isType_unique hj (by simpa using hc)) (by decide)
  simp only [nodeIssues, hc, hj, Bool.false_eq_true, if_false, if_true, List.append_eq_nil_iff, joinIssues,
    issueIf_eq_nil, decide_eq_false_iff_not, not_lt, bne_eq_false_iff_eq, Bool.not_eq_false'] at hn
  exact ⟨by simpa [sources] using hn.1.1.1, hn.1.1.2, hn.1.2⟩

/-- `j` closes the fan-out of `o`: its branches are exactly what `o` feeds, they have no other way in and
no other way out. -/
structure JoinCloses (w : WorkflowDefinitionV2) (j o : String) : Prop where
  origin_type : w.isType "condition" o = false
  two : 2 ≤ (w.sources j).length
  targets_iff : ∀ t, t ∈ w.targets o ↔ t ∈ w.sources j
  only_in : ∀ t ∈ w.sources j, w.sources t = [o]
  only_out : ∀ t ∈ w.sources j, w.targets t = [j]

theorem originOf_eq {o : String} (h : w.originOf id = some o) : w.sources id = [o] := by
  unfold originOf at h
  split at h
  · rename_i e he
    cases h
    simp [sources, he]
  · cases h

theorem sources_nodup (h : w.Facts) (hout : ∀ t ∈ w.sources j, w.targets t = [j]) : (w.sources j).Nodup := by
  refine List.Nodup.map_on ?_ (h.edges_nodup.filter _)
  intro r hr r' hr' hs
  have hr1 := mem_incoming.mp hr
  have hr2 := mem_incoming.mp hr'
  -- the branch has one edge out, and both are it
  have hlen : (w.outgoing r.source).length = 1 := by
    have := congrArg List.length (hout r.source (List.mem_map.mpr ⟨r, hr, rfl⟩))
    simpa [targets] using this
  exact mem_unique_of_length hlen (mem_outgoing.mpr ⟨hr1.1, rfl⟩) (mem_outgoing.mpr ⟨hr2.1, hs.symm⟩)

/-- **A Join closes one fan-out.** -/
theorem joinCloses (h : w.Facts) (hj : w.isType "join" j = true) : ∃ o, JoinCloses w j o := by
  obtain ⟨htwo, -, hst⟩ := h.join_rules hj
  simp only [structured] at hst
  split at hst
  · cases hst
  · rename_i o ho
    simp only [Bool.and_eq_true, List.all_eq_true, beq_iff_eq, Bool.not_eq_true'] at hst
    obtain ⟨⟨⟨horig, hty⟩, hlen⟩, hout⟩ := hst
    have hin : ∀ t ∈ w.sources j, w.sources t = [o] := fun t ht => originOf_eq (horig t ht)
    have hsub : w.sources j ⊆ w.targets o := fun t ht => by
      rw [← mem_sources_iff_mem_targets, hin t ht]; simp
    have hperm : (w.sources j).Perm (w.targets o) :=
      ((h.sources_nodup hout).subperm hsub).perm_of_length_le (by simp [targets, hlen])
    exact ⟨o, hty, htwo, fun t => hperm.symm.mem_iff, hin, hout⟩

/-! ### Entry and terminal -/

theorem nodeIds_eq (h : w.Facts) : w.nodeIds = w.nodes.map (·.id) := eraseDups_of_nodup h.ids_nodup

theorem entry_spec (h : w.Facts) {e : String} (he : w.entries = [e]) :
    e ∈ w.nodeIds ∧ (w.sources e = [] ∨ w.roots = [] ∧ ∃ c, w.isType "condition" c = true ∧ e ∈ w.targets c) := by
  have hmem : e ∈ w.entries := by rw [he]; simp
  unfold entries at hmem
  split at hmem
  · rename_i hroots
    rw [List.mem_eraseDups, cycleRoots, List.mem_map] at hmem
    obtain ⟨d, hd, rfl⟩ := hmem
    rw [List.mem_filter, Bool.and_eq_true] at hd
    obtain ⟨r, hr⟩ := h.resolves d hd.1
    obtain ⟨hs, ht, -⟩ := resolveEdge_ok hr
    have hrm : r ∈ w.resolvedEdges := mem_resolvedEdges.mpr ⟨d, hd.1, hr⟩
    refine ⟨ht ▸ (ends_mem hrm).2, .inr ⟨by simpa using hroots, d.source, hd.2.1, ?_⟩⟩
    exact mem_targets.mpr ⟨r, hrm, hs, ht⟩
  · rw [roots, List.mem_filter, List.isEmpty_iff] at hmem
    exact ⟨hmem.1, .inl (by rw [sources, hmem.2, List.map_nil])⟩

theorem terminal_spec {t : String} (ht : w.terminals = [t]) : ∀ id ∈ w.nodeIds, w.targets id = [] ↔ id = t := by
  intro id hid
  have hiff : id ∈ w.terminals ↔ id = t := by rw [ht, List.mem_singleton]
  rw [← hiff, terminals, List.mem_filter, List.isEmpty_iff, targets, List.map_eq_nil_iff]
  exact ⟨fun h => ⟨hid, h⟩, fun h => h.2⟩

theorem mem_of_length (h : w.Facts) {l : List String} (hnd : l.Nodup) (hsub : l ⊆ w.nodeIds)
    (hlen : l.length = w.nodes.length) (hid : id ∈ w.nodeIds) : id ∈ l := by
  have hperm := (hnd.subperm hsub).perm_of_length_le (by rw [h.nodeIds_eq, List.length_map, hlen])
  exact hperm.mem_iff.mpr hid

theorem visited_subset {succ : String → List String} (hsucc : ∀ a, ∀ b ∈ succ a, b ∈ w.nodeIds) {x : String}
    (hx : x ∈ w.nodeIds) : visited succ w.fuel x ⊆ w.nodeIds := by
  intro y hy
  have hp := reach_of_mem_visited hy
  rcases hp.cases_tail with rfl | ⟨z, -, hz⟩
  · exact hx
  · exact hsucc z y hz

theorem reach_entry (h : w.Facts) {e : String} (he : w.entries = [e]) (hid : id ∈ w.nodeIds) :
    Relation.ReflTransGen (Edge w.targets) e id := by
  have hr := h.reachable
  simp only [reachableIssues, he, issueIf_eq_nil, bne_eq_false_iff_eq] at hr
  exact reach_of_mem_visited (h.mem_of_length (visited_nodup _ _)
    (visited_subset (fun _ _ hb => target_mem_nodeIds hb) (h.entry_spec he).1) hr hid)

theorem leads_terminal (h : w.Facts) {t : String} (ht : w.terminals = [t]) (hid : id ∈ w.nodeIds) :
    Relation.ReflTransGen (Edge w.targets) id t := by
  have hl := h.leads
  simp only [leadsIssues, ht, issueIf_eq_nil, bne_eq_false_iff_eq] at hl
  have htm : t ∈ w.nodeIds := (List.mem_filter.mp (show t ∈ w.terminals by rw [ht]; simp)).1
  have hp := reach_of_mem_visited (h.mem_of_length (visited_nodup _ _)
    (visited_subset (fun _ _ hb => source_mem_nodeIds hb) htm) hl hid)
  exact Relation.ReflTransGen.mono (fun a b hab => mem_sources_iff_mem_targets.mp hab) _ _
    (Relation.reflTransGen_swap.mpr hp)

end Facts

end ADT.Workflow.WorkflowDefinitionV2
