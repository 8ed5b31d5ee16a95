import ADT.Workflow.Plan

/-!
# Workflow.Supersteps — the runs of an accepted definition

The state graph of a compiled plan is structured, so `Lib.Superstep` applies.  Two laws follow.

* Token discipline: a run keeps to one active node, or to branches of one fan-out that feed one Join,
  exactly as long as every fan-out it runs is closed directly by a Join.
* Conversations: two agents are active in one superstep of some run exactly when they diverge in the graph.

The validator guarantees neither: it accepts fan-outs whose branches meet before the Join, and parallel
continuations of one conversation inside a loop.
-/

namespace ADT.Workflow

open Search Superstep WorkflowDefinitionV2

/-- What the state graph has to do with the definition. -/
structure GraphOf (w : WorkflowDefinitionV2) (g : StateGraph String Bool) : Prop where
  entry : w.entries = [g.entry]
  plain_iff : ∀ a t, (a, t) ∈ g.plain ↔
    w.isType "condition" a = false ∧ t ∈ w.targets a ∧ w.isType "join" t = false
  route_iff : ∀ a b t, g.route a b = some t ↔ w.isType "condition" a = true ∧
    ∃ r ∈ w.outgoing a, r.sourcePort = ExecutionPlan.outcomePort b ∧ r.target = t
  waiting_iff : ∀ b, b ∈ g.waiting ↔ w.isType "join" b.2 = true ∧ b.1 = (w.sources b.2).eraseDups

section Build

variable {w : WorkflowDefinitionV2} {p : ExecutionPlan}

theorem isType_planNode (hw : w.Facts) (hp : PlanOf w p) {n : PlanNode} (hn : n ∈ p.nodes) (type : String) :
    w.isType type n.id = (n.blockType == type) := by
  have hmem : (n.id, n.blockType) ∈ w.nodes.map fun m => (m.id, m.blockType) := by
    rw [← hp.nodes]; exact List.mem_map.mpr ⟨n, hn, rfl⟩
  obtain ⟨m, hm, he⟩ := List.mem_map.mp hmem
  have hid : m.id = n.id := congrArg Prod.fst he
  have hty : m.blockType = n.blockType := congrArg Prod.snd he
  rw [isType, WorkflowDefinitionV2.blockTypeOf, ← hid, byId_eq hw.ids_nodup hm, ← hty]
  rfl

theorem exists_planNode (hp : PlanOf w p) {id : String} (h : id ∈ w.nodeIds) : ∃ n ∈ p.nodes, n.id = id := by
  obtain ⟨m, hm, rfl⟩ := mem_nodeIds.mp h
  have hmem : (m.id, m.blockType) ∈ p.nodes.map fun n => (n.id, n.blockType) := by
    rw [hp.nodes]; exact List.mem_map.mpr ⟨m, hm, rfl⟩
  obtain ⟨n, hn, he⟩ := List.mem_map.mp hmem
  exact ⟨n, hn, congrArg Prod.fst he⟩

theorem mem_nonJoin (hp : PlanOf w p) {id : String} {e : ResolvedEdge} :
    e ∈ p.nonJoin id ↔ e ∈ w.outgoing id ∧ w.isType "join" e.target = false := by
  rw [ExecutionPlan.nonJoin, List.mem_filter, hp.edges, mem_outgoing, Bool.and_eq_true, hp.blockTypeOf, isType,
    beq_iff_eq, and_assoc, bne, Bool.not_eq_true']

theorem not_join_of_condition (hw : w.Facts) {c t : String} (hc : w.isType "condition" c = true)
    (ht : t ∈ w.targets c) : w.isType "join" t = false := by
  by_contra hj
  obtain ⟨o, ho⟩ := hw.joinCloses (by simpa using hj)
  have hone := ho.only_out c (mem_sources_iff_mem_targets.mpr ht)
  have htwo := (hw.condition hc).2.1
  have : (w.targets c).length = (w.outgoing c).length := by simp [targets]
  rw [hone, htwo] at this
  simp at this

theorem routeFor_eq (hw : w.Facts) (hp : PlanOf w p) {a t : String} {b : Bool}
    (hc : w.isType "condition" a = true) : p.routeFor a (ExecutionPlan.outcomePort b) = some t ↔
      ∃ r ∈ w.outgoing a, r.sourcePort = ExecutionPlan.outcomePort b ∧ r.target = t := by
  obtain ⟨r, ⟨hr, hport⟩, huniq⟩ := hw.route hc b
  have hmem : ∀ x, x ∈ (p.nonJoin a).filter (·.sourcePort == ExecutionPlan.outcomePort b) ↔ x = r := by
    intro x
    rw [List.mem_filter, mem_nonJoin hp, beq_iff_eq]
    constructor
    · rintro ⟨⟨hx, -⟩, hxp⟩
      exact huniq x ⟨hx, hxp⟩
    · rintro rfl
      exact ⟨⟨hr, not_join_of_condition hw hc (List.mem_map.mpr ⟨x, hr, rfl⟩)⟩, hport⟩
  have hlast : ((p.nonJoin a).filter (·.sourcePort == ExecutionPlan.outcomePort b)).getLast? = some r := by
    have hne : (p.nonJoin a).filter (·.sourcePort == ExecutionPlan.outcomePort b) ≠ [] :=
      List.ne_nil_of_mem ((hmem r).mpr rfl)
    rw [List.getLast?_eq_some_getLast hne, (hmem _).mp (List.getLast_mem hne)]
  rw [ExecutionPlan.routeFor, hlast, Option.map_some, Option.some.injEq]
  constructor
  · rintro rfl
    exact ⟨r, hr, hport, rfl⟩
  · rintro ⟨x, hx, hxp, rfl⟩
    rw [huniq x ⟨hx, hxp⟩]

/-- The state graph of a plan is the graph of its definition. -/
theorem graphOf_stateGraph (hw : w.Facts) (hp : PlanOf w p) : GraphOf w p.stateGraph where
  entry := hp.entry
  plain_iff a t := by
    simp only [ExecutionPlan.stateGraph, List.mem_flatMap]
    constructor
    · rintro ⟨n, hn, hmem⟩
      split_ifs at hmem with hty
      · simp at hmem
      · obtain ⟨e, he, heq⟩ := List.mem_map.mp hmem
        cases heq
        obtain ⟨hout, hj⟩ := (mem_nonJoin hp).mp he
        rw [isType_planNode hw hp hn]
        exact ⟨by simpa using hty, List.mem_map.mpr ⟨e, hout, rfl⟩, hj⟩
    · rintro ⟨hc, ht, hj⟩
      obtain ⟨n, hn, rfl⟩ := exists_planNode hp (source_mem_nodeIds (mem_sources_iff_mem_targets.mpr ht))
      obtain ⟨e, he, rfl⟩ := List.mem_map.mp ht
      rw [isType_planNode hw hp hn] at hc
      refine ⟨n, hn, ?_⟩
      rw [if_neg (by simpa using hc)]
      exact List.mem_map.mpr ⟨e, (mem_nonJoin hp).mpr ⟨he, hj⟩, rfl⟩
  route_iff a b t := by
    have hany : (p.nodes.any fun n => n.id == a && n.blockType == "condition") = w.isType "condition" a := by
      rw [Bool.eq_iff_iff, List.any_eq_true]
      constructor
      · rintro ⟨n, hn, hcond⟩
        rw [Bool.and_eq_true, beq_iff_eq] at hcond
        rw [← hcond.1, isType_planNode hw hp hn, hcond.2]
      · intro hc
        obtain ⟨n, hn, rfl⟩ := exists_planNode hp (mem_nodeIds_of_isType hc)
        rw [isType_planNode hw hp hn] at hc
        exact ⟨n, hn, by simpa using hc⟩
    simp only [ExecutionPlan.stateGraph, hany]
    by_cases hc : w.isType "condition" a = true
    · rw [if_pos hc, routeFor_eq hw hp hc]
      simp [hc]
    · rw [if_neg hc]
      simp [hc]
  waiting_iff b := by
    have hsrc : ∀ j, (p.edges.filter (·.target == j)).map (·.source) = w.sources j := fun j => by
      rw [hp.edges]; rfl
    simp only [ExecutionPlan.stateGraph, List.mem_map, List.mem_filter, hsrc]
    constructor
    · rintro ⟨n, ⟨hn, hty⟩, rfl⟩
      exact ⟨by rw [isType_planNode hw hp hn]; exact hty, rfl⟩
    · rintro ⟨hj, hb⟩
      obtain ⟨n, hn, hid⟩ := exists_planNode hp (mem_nodeIds_of_isType hj)
      rw [← hid, isType_planNode hw hp hn] at hj
      exact ⟨n, ⟨hn, hj⟩, by rw [hid, ← hb]⟩

theorem graphOf_runtime {agents : List String} {g : StateGraph String Bool} (hw : w.Accepted)
    (hp : compileWorkflowV2ExecutionPlan w agents = .ok p) (hg : runtimeGraph p = .ok g) : GraphOf w g := by
  obtain ⟨q, hq, hg⟩ := except_bind_ok.mp hg
  rw [thrown_ok, compileGenericStateGraph] at hg
  split_ifs at hg
  cases hg
  exact graphOf_stateGraph hw.facts (planOf_project (planOf_compile hw hp) hq)

end Build

namespace GraphOf

variable {w : WorkflowDefinitionV2} {g : StateGraph String Bool}

theorem not_condition_of_feeds_join (hw : w.Facts) {a j : String} (hj : w.isType "join" j = true)
    (ha : j ∈ w.targets a) : w.isType "condition" a = false := by
  by_contra hc
  rw [not_join_of_condition hw (by simpa using hc) ha] at hj
  cases hj

section

variable (hw : w.Facts) (hg : GraphOf w g)

include hw hg

theorem feeds_iff {a t : String} :
    g.Feeds a t ↔ w.isType "condition" a = false ∧ t ∈ w.targets a := by
  unfold StateGraph.Feeds
  rw [hg.plain_iff]
  constructor
  · rintro (h | ⟨b, hb, rfl, ha⟩)
    · exact ⟨h.1, h.2.1⟩
    · obtain ⟨hj, hb⟩ := (hg.waiting_iff b).mp hb
      rw [hb, List.mem_eraseDups, mem_sources_iff_mem_targets] at ha
      exact ⟨not_condition_of_feeds_join hw hj ha, ha⟩
  · rintro ⟨hc, ht⟩
    by_cases hj : w.isType "join" t = true
    · refine .inr ⟨((w.sources t).eraseDups, t), (hg.waiting_iff _).mpr ⟨hj, rfl⟩, rfl, ?_⟩
      rw [List.mem_eraseDups, mem_sources_iff_mem_targets]
      exact ht
    · exact .inl ⟨hc, ht, by simpa using hj⟩

theorem arc_iff {a t : String} : g.Arc a t ↔ t ∈ w.targets a := by
  unfold StateGraph.Arc
  rw [hg.feeds_iff hw]
  constructor
  · rintro (h | ⟨b, h⟩)
    · exact h.2
    · obtain ⟨-, r, hr, -, rfl⟩ := (hg.route_iff a b t).mp h
      exact List.mem_map.mpr ⟨r, hr, rfl⟩
  · intro ht
    by_cases hc : w.isType "condition" a = true
    · obtain ⟨r, hr, rfl⟩ := List.mem_map.mp ht
      obtain ⟨hrm, hrs⟩ := mem_outgoing.mp hr
      refine .inr ?_
      rcases Facts.condition_port hrm (hrs ▸ hc) with hport | hport
      · exact ⟨true, (hg.route_iff _ _ _).mpr ⟨hc, r, hr, hport, rfl⟩⟩
      · exact ⟨false, (hg.route_iff _ _ _).mpr ⟨hc, r, hr, hport, rfl⟩⟩
    · exact .inl ⟨by simpa using hc, ht⟩

theorem closes {b : List String × String} (hb : b ∈ g.waiting) {o : String}
    (ho : Facts.JoinCloses w b.2 o) : g.Closes b o := by
  obtain ⟨hj, hsrc⟩ := (hg.waiting_iff b).mp hb
  have hmem : ∀ t, t ∈ b.1 ↔ t ∈ w.sources b.2 := fun t => by rw [hsrc, List.mem_eraseDups]
  refine ⟨?_, ?_, ?_, ?_, ?_, ?_⟩
  · obtain ⟨t, ht⟩ := List.exists_mem_of_length_pos (Nat.lt_of_lt_of_le Nat.zero_lt_two ho.two)
    exact List.ne_nil_of_mem ((hmem t).mpr ht)
  · intro t
    rw [hg.feeds_iff hw, hmem, ← ho.targets_iff]
    exact and_iff_right ho.origin_type
  · intro t ht a ha
    have hs := ho.only_in t ((hmem t).mp ht)
    have := mem_sources_iff_mem_targets.mpr ((hg.arc_iff hw).mp ha)
    rwa [hs, List.mem_singleton] at this
  · intro t ht u hu
    have := (hg.arc_iff hw).mp hu
    rwa [ho.only_out t ((hmem t).mp ht), List.mem_singleton] at this
  · rintro t ht rfl
    have hs := ho.only_in _ ((hmem _).mp ht)
    rcases (hw.entry_spec hg.entry).2 with hnil | ⟨-, c, hc, hct⟩
    · rw [hs] at hnil; cases hnil
    · have hco := mem_sources_iff_mem_targets.mpr hct
      rw [hs, List.mem_singleton] at hco
      rw [hco, ho.origin_type] at hc
      cases hc
  · rintro t ht b' hb' rfl
    obtain ⟨hj', -⟩ := (hg.waiting_iff b').mp hb'
    have htwo := (hw.join_rules hj').1
    rw [ho.only_in _ ((hmem _).mp ht)] at htwo
    simp at htwo

/-- **The state graph of an accepted definition is structured.** -/
theorem structured : g.Structured where
  closes b hb := by
    obtain ⟨o, ho⟩ := hw.joinCloses ((hg.waiting_iff b).mp hb).1
    exact ⟨o, hg.closes hw hb ho⟩
  choice a b t h u hu := by
    have hc := ((hg.route_iff a b t).mp h).1
    rw [((hg.feeds_iff hw).mp hu).1] at hc
    cases hc

theorem fanOut_iff {o : String} : g.FanOut o ↔ w.fansOut o = true := by
  unfold StateGraph.FanOut
  simp only [hg.feeds_iff hw]
  rw [fansOut_iff]
  constructor
  · rintro ⟨t, u, hne, ⟨hc, ht⟩, -, hu⟩
    refine ⟨hc, ?_⟩
    by_contra hlen
    have hpos := List.length_pos_of_mem ht
    exact hne (mem_unique_of_length (by omega) ht hu)
  · rintro ⟨hc, hlen⟩
    have hnd := hw.targets_nodup hc
    obtain ⟨t, u, l, hl⟩ : ∃ t u l, w.targets o = t :: u :: l := by
      match hm : w.targets o with
      | [] | [_] => simp [hm] at hlen
      | t :: u :: l => exact ⟨t, u, l, rfl⟩
    rw [hl] at hnd
    exact ⟨t, u, fun h => (List.nodup_cons.mp hnd).1 (by simp [h]), ⟨hc, by simp [hl]⟩, hc, by simp [hl]⟩

theorem closed_iff {o : String} (hf : w.fansOut o = true) :
    g.Closed o ↔ w.closedByJoin o = true := by
  unfold StateGraph.Closed
  rw [closedByJoin_iff]
  simp only [hg.feeds_iff hw]
  constructor
  · rintro ⟨b, hb, hall⟩
    obtain ⟨hj, hsrc⟩ := (hg.waiting_iff b).mp hb
    refine ⟨b.2, hj, fun t ht => ?_⟩
    have := hall t ⟨(fansOut_iff.mp hf).1, ht⟩
    rwa [hsrc, List.mem_eraseDups, mem_sources_iff_mem_targets] at this
  · rintro ⟨j, hj, hall⟩
    refine ⟨((w.sources j).eraseDups, j), (hg.waiting_iff _).mpr ⟨hj, rfl⟩, fun t ht => ?_⟩
    rw [List.mem_eraseDups, mem_sources_iff_mem_targets]
    exact hall t ht.2

end

/-! ### Token discipline -/

/-- The discipline of a superstep: at most one active node (none once the terminal has run) or branches of
one fan-out that all feed one Join; no node but a Join triggered by two nodes; few enough active nodes; and
an Approval only on its own. -/
structure TokenDiscipline (w : WorkflowDefinitionV2) (g : StateGraph String Bool) (s : State String) : Prop where
  shape : s.active.card ≤ 1 ∨ ∃ o j, w.fansOut o = true ∧ w.isType "join" j = true ∧
    ∀ t ∈ s.active, t ∈ w.targets o ∧ j ∈ w.targets t
  trigger : ∀ outcome, ∀ a ∈ s.active, ∀ a' ∈ s.active, ∀ t, t ∈ g.triggers outcome a →
    t ∈ g.triggers outcome a' → w.isType "join" t = false → a = a'
  bound : s.active.card ≤ maxGraphFrontier
  approval : ∀ a ∈ s.active, w.isType "approval" a = true → s.active = {a}

theorem disciplined_iff_shape (hw : w.Facts) (hg : GraphOf w g) {s : State String} :
    StateGraph.Disciplined g s ↔ (s.active.card ≤ 1 ∨ ∃ o j, w.fansOut o = true ∧ w.isType "join" j = true ∧
      ∀ t ∈ s.active, t ∈ w.targets o ∧ j ∈ w.targets t) := by
  unfold StateGraph.Disciplined
  simp only [hg.feeds_iff hw]
  constructor
  · rintro (h | ⟨o, b, hb, hall⟩)
    · exact .inl h
    · by_cases hcard : s.active.card ≤ 1
      · exact .inl hcard
      · obtain ⟨t, ht, u, hu, hne⟩ := Finset.one_lt_card.mp (not_le.mp hcard)
        obtain ⟨hj, hsrc⟩ := (hg.waiting_iff b).mp hb
        have hf : w.fansOut o = true := (hg.fanOut_iff hw).mp
          ⟨t, u, hne, (hg.feeds_iff hw).mpr (hall t ht).1, (hg.feeds_iff hw).mpr (hall u hu).1⟩
        refine .inr ⟨o, b.2, hf, hj, fun x hx => ⟨(hall x hx).1.2, ?_⟩⟩
        have := (hall x hx).2
        rwa [hsrc, List.mem_eraseDups, mem_sources_iff_mem_targets] at this
  · rintro (h | ⟨o, j, hf, hj, hall⟩)
    · exact .inl h
    · refine .inr ⟨o, ((w.sources j).eraseDups, j), (hg.waiting_iff _).mpr ⟨hj, rfl⟩, fun t ht => ?_⟩
      rw [List.mem_eraseDups, mem_sources_iff_mem_targets]
      exact ⟨⟨(fansOut_iff.mp hf).1, (hall t ht).1⟩, (hall t ht).2⟩

theorem branch_not_approval (hw : w.Facts) {o j t : String} (hf : w.fansOut o = true)
    (hj : w.isType "join" j = true) (ht : t ∈ w.targets o) (htj : j ∈ w.targets t) :
    w.isType "approval" t = false := by
  obtain ⟨hc, hlen⟩ := fansOut_iff.mp hf
  obtain ⟨j', hj', -, happ⟩ := (hw.fanOut (mem_nodeIds_of_fansOut hf) hc).2 hlen
  obtain ⟨q, hq⟩ := hw.joinCloses hj
  -- a branch has one way in, so it is no Join itself
  have hne : (t == j') = false := by
    refine beq_false_of_ne fun h => ?_
    have htwo := (hw.join_rules hj').1
    rw [← h, hq.only_in t (mem_sources_iff_mem_targets.mpr htj)] at htwo
    simp at htwo
  have hno := happ t ht
  rw [containsApproval, fuel, search, if_neg (by simp [hne])] at hno
  by_contra happroval
  rw [Bool.not_eq_false] at happroval
  simp [happroval] at hno

theorem tokenDiscipline_of_shape (hw : w.Facts) (hg : GraphOf w g) {s : State String}
    (hd : StateGraph.Disciplined g s) : TokenDiscipline w g s := by
  have hshape := (disciplined_iff_shape hw hg).mp hd
  refine ⟨hshape, ?_, ?_, ?_⟩
  · intro outcome a ha a' ha' t ht _ hj
    refine StateGraph.trigger_unique (hg.structured hw) hd ha ha' ht fun b hb hbt => ?_
    rw [← hbt, ((hg.waiting_iff b).mp hb).1] at hj
    cases hj
  · rcases hshape with h | ⟨o, j, hf, -, hall⟩
    · exact h.trans (by decide)
    · have hsub : s.active ⊆ (w.targets o).toFinset := fun t ht => List.mem_toFinset.mpr (hall t ht).1
      calc s.active.card ≤ (w.targets o).toFinset.card := Finset.card_le_card hsub
        _ ≤ (w.targets o).length := List.toFinset_card_le _
        _ ≤ maxGraphFrontier := (hw.fanOut (mem_nodeIds_of_fansOut hf) (fansOut_iff.mp hf).1).1
  · intro a ha happ
    rcases hshape with h | ⟨o, j, hf, hj, hall⟩
    · exact Finset.eq_singleton_iff_unique_mem.mpr ⟨ha, fun x hx => Finset.card_le_one.mp h x hx a ha⟩
    · rw [branch_not_approval hw hf hj (hall a ha).1 (hall a ha).2] at happ
      cases happ

end GraphOf

open GraphOf in
/-- **Token discipline.**  A run of the graph of an accepted definition is disciplined in every superstep up
to `N` exactly when every fan-out it runs before is closed directly by a Join. -/
theorem tokenDiscipline_iff {w : WorkflowDefinitionV2} {agents : List String} {p : ExecutionPlan}
    {g : StateGraph String Bool} (hw : w.Accepted) (hp : compileWorkflowV2ExecutionPlan w agents = .ok p)
    (hg : runtimeGraph p = .ok g) (outcome : ℕ → String → Bool) (N : ℕ) :
    (∀ n ≤ N, TokenDiscipline w g (g.run outcome n)) ↔
      ∀ n < N, ∀ o ∈ (g.run outcome n).active, w.fansOut o = true → w.closedByJoin o = true := by
  have hgr := graphOf_runtime hw hp hg
  have hf := hw.facts
  have hiff := StateGraph.disciplined_iff (hgr.structured hf) outcome N
  constructor
  · intro h n hn o ho hfan
    refine (hgr.closed_iff hf hfan).mp (hiff.mp (fun m hm => ?_) n hn o ho ((hgr.fanOut_iff hf).mpr hfan))
    exact (disciplined_iff_shape hf hgr).mpr (h m hm).shape
  · intro h n hn
    refine tokenDiscipline_of_shape hf hgr (hiff.mpr (fun m hm o ho hfan => ?_) n hn)
    have hfan' := (hgr.fanOut_iff hf).mp hfan
    exact (hgr.closed_iff hf hfan').mpr (h m hm o ho hfan')

theorem exists_of_isOk {ε α : Type} {x : Except ε α} (h : x.isOk = true) : ∃ a, x = .ok a := by
  cases x with
  | error e => cases h
  | ok a => exact ⟨a, rfl⟩

theorem exists_runtimeGraph (w : WorkflowDefinitionV2) (agents : List String)
    (h : (compileWorkflowV2ExecutionPlan w agents >>= runtimeGraph).isOk = true) :
    ∃ p g, compileWorkflowV2ExecutionPlan w agents = .ok p ∧ runtimeGraph p = .ok g := by
  obtain ⟨g, hg⟩ := exists_of_isOk h
  obtain ⟨p, hp, hg⟩ := except_bind_ok.mp hg
  exact ⟨p, g, hp, hg⟩

/-- A fan-out closed by its Join. -/
def closedFanOut : WorkflowDefinitionV2 :=
  sample 32 [agentNode "o", agentNode "p", agentNode "q", joinNode "j", agentNode "t"]
    [edge "o" "p", edge "o" "q", edge "p" "j", edge "q" "j", edge "j" "t"]

theorem closedFanOut_disciplined : ∃ p g, compileWorkflowV2ExecutionPlan closedFanOut ["a"] = .ok p ∧
    runtimeGraph p = .ok g ∧ ∀ outcome N, ∀ n ≤ N, GraphOf.TokenDiscipline closedFanOut g (g.run outcome n) := by
  obtain ⟨p, g, hp, hg⟩ := exists_runtimeGraph closedFanOut ["a"] (by decide +kernel)
  refine ⟨p, g, hp, hg, fun outcome N =>
    (tokenDiscipline_iff (by decide +kernel) hp hg outcome N).mpr fun n _ o _ hf => ?_⟩
  have hall : ∀ id ∈ closedFanOut.nodeIds, closedFanOut.fansOut id = true → closedFanOut.closedByJoin id = true := by
    decide
  exact hall o (mem_nodeIds_of_fansOut hf) hf

/-- A Condition chooses between `d` and a fan-out whose branches both feed `m`, as `d` does. -/
def openFanOut : WorkflowDefinitionV2 :=
  sample 32 [agentNode "s", conditionNode "c", agentNode "f", agentNode "d", agentNode "a", agentNode "b",
      agentNode "m", agentNode "o", agentNode "p", agentNode "q", joinNode "j", agentNode "t"]
    [edge "s" "c", portEdge "c" "true" "f", portEdge "c" "false" "d", edge "f" "a", edge "f" "b", edge "a" "m",
      edge "b" "m", edge "d" "m", edge "m" "o", edge "o" "p", edge "o" "q", edge "p" "j", edge "q" "j",
      edge "j" "t"]

def samplePlan (w : WorkflowDefinitionV2) (entry terminal : String) : ExecutionPlan :=
  { nodes := w.nodes.filterMap fun n => (planNode n).toOption
    edges := w.resolvedEdges
    entryNodeId := entry
    terminalNodeId := terminal
    maxStepExecutions := w.maxStepExecutions }

theorem runtimeGraph_eq {p : ExecutionPlan} (hs : planSchema (runtimePlan p) = true)
    (hids : ((runtimePlan p).nodes.map (·.id)).Nodup ∧
      (runtimePlan p).entryNodeId ∈ (runtimePlan p).nodes.map (·.id) ∧
      (runtimePlan p).terminalNodeId ∈ (runtimePlan p).nodes.map (·.id)) : runtimeGraph p = .ok (runtimePlan p).stateGraph := by
  rw [runtimeGraph, projectExecutionPlanForRuntime, parsePlan, if_pos hs, except_bind_ok]
  exact ⟨_, rfl, by rw [thrown_ok, compileGenericStateGraph, if_pos hids]⟩

/-- In the fourth superstep `a` and `b` are active, and both trigger `m`. -/
theorem openFanOut_undisciplined : openFanOut.Accepted ∧ ∃ p g,
    compileWorkflowV2ExecutionPlan openFanOut ["a"] = .ok p ∧ runtimeGraph p = .ok g ∧
    ¬ GraphOf.TokenDiscipline openFanOut g (g.run (fun _ _ => true) 3) := by
  refine ⟨by decide +kernel, samplePlan openFanOut "s" "t", (runtimePlan (samplePlan openFanOut "s" "t")).stateGraph,
    by decide +kernel, runtimeGraph_eq (by decide +kernel) (by decide +kernel), fun h => ?_⟩
  have hab := h.trigger (fun _ => true) "a" (by decide +kernel) "b" (by decide +kernel) "m" (by decide +kernel)
    (by decide +kernel) (by decide +kernel)
  exact absurd hab (by decide)

/-! ### Conversations -/

/-- Two tokens that left one node by different edges and have never been at the same node since. -/
inductive Diverge (w : WorkflowDefinitionV2) : String → String → Prop
  | fork {o a b : String} : w.isType "condition" o = false → a ∈ w.targets o → b ∈ w.targets o → a ≠ b →
      Diverge w a b
  | step {x y a b : String} : Diverge w x y → a ∈ w.targets x → b ∈ w.targets y → a ≠ b → Diverge w a b

/-- Two agents whose conversation references lead to one root. -/
def SameConversation (w : WorkflowDefinitionV2) (a b : String) : Prop :=
  w.isType "agent" a = true ∧ w.isType "agent" b = true ∧ w.conversationRoot a = w.conversationRoot b

instance (w : WorkflowDefinitionV2) (a b : String) : Decidable (SameConversation w a b) :=
  inferInstanceAs (Decidable (_ ∧ _ ∧ _))

theorem GraphOf.diverge_iff {w : WorkflowDefinitionV2} {g : StateGraph String Bool} (hw : w.Facts)
    (hg : GraphOf w g) {a b : String} : StateGraph.Diverge g a b ↔ Diverge w a b := by
  constructor
  · intro h
    induction h with
    | fork _ ha hb hne =>
      rw [hg.feeds_iff hw] at ha hb
      exact .fork ha.1 ha.2 hb.2 hne
    | step _ ha hb hne ih => exact .step ih ((hg.arc_iff hw).mp ha) ((hg.arc_iff hw).mp hb) hne
  · intro h
    induction h with
    | @fork o a b hc ha hb hne =>
      have ho : o ∈ w.nodeIds := source_mem_nodeIds (mem_sources_iff_mem_targets.mpr ha)
      have hreach := Relation.ReflTransGen.mono (fun x y hxy => (hg.arc_iff hw).mpr hxy) _ _
        (hw.reach_entry hg.entry ho)
      exact .fork hreach ((hg.feeds_iff hw).mpr ⟨hc, ha⟩) ((hg.feeds_iff hw).mpr ⟨hc, hb⟩) hne
    | step _ ha hb hne ih => exact .step ih ((hg.arc_iff hw).mpr ha) ((hg.arc_iff hw).mpr hb) hne

/-- **Conversations are sequential** in every run exactly when no two agents of one conversation
diverge. -/
theorem conversationsSequential_iff {w : WorkflowDefinitionV2} {agents : List String} {p : ExecutionPlan}
    {g : StateGraph String Bool} (hw : w.Accepted) (hp : compileWorkflowV2ExecutionPlan w agents = .ok p)
    (hg : runtimeGraph p = .ok g) :
    (∀ outcome n a b, SameConversation w a b → a ≠ b →
      ¬ (a ∈ (g.run outcome n).active ∧ b ∈ (g.run outcome n).active)) ↔
      ∀ a b, SameConversation w a b → ¬ Diverge w a b := by
  have hgr := graphOf_runtime hw hp hg
  have hboth : ∀ a b, _ ↔ Diverge w a b := fun a b =>
    (StateGraph.both_active_iff (hgr.structured hw.facts)).trans (hgr.diverge_iff hw.facts)
  constructor
  · intro h a b hab hdiv
    obtain ⟨hne, outcome, n, hact⟩ := (hboth a b).mpr hdiv
    exact h outcome n a b hab hne hact
  · intro h outcome n a b hab hne hact
    exact h a b hab ((hboth a b).mp ⟨hne, outcome, n, hact⟩)

def continuingNode (id source : String) : WorkflowNode :=
  ⟨id, "agent", 3, .obj [("agentId", .str "a"), ("conversation", .obj [("sourceNodeId", .str source)])]⟩

/-- An agent and one that continues its conversation. -/
def continuation : WorkflowDefinitionV2 := sample 32 [agentNode "r", continuingNode "t" "r"] [edge "r" "t"]

theorem continuation_sequential : ∃ p g, compileWorkflowV2ExecutionPlan continuation ["a"] = .ok p ∧
    runtimeGraph p = .ok g ∧ SameConversation continuation "r" "t" ∧
    ∀ outcome n a b, SameConversation continuation a b → a ≠ b →
      ¬ (a ∈ (g.run outcome n).active ∧ b ∈ (g.run outcome n).active) := by
  obtain ⟨p, g, hp, hg⟩ := exists_runtimeGraph continuation ["a"] (by decide +kernel)
  refine ⟨p, g, hp, hg, by decide +kernel,
    (conversationsSequential_iff (by decide +kernel) hp hg).mpr ?_⟩
  rintro a b - hdiv
  have hno : ∀ id ∈ continuation.nodeIds, (continuation.targets id).length ≤ 1 := by decide
  induction hdiv with
  | fork _ ha hb hne =>
    have hlen := hno _ (source_mem_nodeIds (mem_sources_iff_mem_targets.mpr ha))
    have hpos := List.length_pos_of_mem ha
    exact hne (mem_unique_of_length (by omega) ha hb)
  | step _ _ _ _ ih => exact ih

/-- Two continuations of `r` in the branches of a fan-out inside a loop: each can reach the other around
the back edge. -/
def parallelContinuations : WorkflowDefinitionV2 :=
  sample 32 [agentNode "r", agentNode "o", continuingNode "p" "r", continuingNode "q" "r", joinNode "j",
      conditionNode "c", agentNode "t"]
    [edge "r" "o", edge "o" "p", edge "o" "q", edge "p" "j", edge "q" "j", edge "j" "c", portEdge "c" "true" "o",
      portEdge "c" "false" "t"]

theorem parallelContinuations_together : parallelContinuations.Accepted ∧ ∃ p g,
    compileWorkflowV2ExecutionPlan parallelContinuations ["a"] = .ok p ∧ runtimeGraph p = .ok g ∧
    SameConversation parallelContinuations "p" "q" ∧ "p" ≠ "q" ∧
    "p" ∈ (g.run (fun _ _ => true) 2).active ∧ "q" ∈ (g.run (fun _ _ => true) 2).active :=
  ⟨by decide +kernel, samplePlan parallelContinuations "r" "t",
    (runtimePlan (samplePlan parallelContinuations "r" "t")).stateGraph, by decide +kernel,
    runtimeGraph_eq (by decide +kernel) (by decide +kernel), by decide +kernel, by decide, by decide +kernel,
    by decide +kernel⟩

end ADT.Workflow
