import ADT.Runtime.Writes

/-!
# Runtime.Handoff — every node reads what was handed to it

In a disciplined run the token is at one node, or at the branches of one fan-out, or at the Join that closes
it.  `Inv` says for each of these what the records hold: the newest record is that of the nearest non-Condition
activation before the token, the branches have just written what the Join will read, and a published record is
that of the most recent activation of its node.  From it follows what every activation reads (`Handoff`), with
one exception: a node other than the entry that is reached through Conditions alone finds no record, and fails
if it has an effective source.
-/

namespace ADT.Runtime

open Workflow Superstep WorkflowDefinitionV2

section Spec

variable (env : Environment) (p : ExecutionPlan) (input : String)

/-- The nearest non-Condition activation before the activation of a node in superstep `n`, on the executed
path; none if the path from the entry has only Conditions. -/
inductive Nearest : ℕ → String → Option (ℕ × String) → Prop
  | start : Nearest 0 p.entryNodeId none
  | direct {n : ℕ} {c : Config} {a b : String} : run env p input n = .ok c → b ∈ c.control.active →
      p.stateGraph.Fires (outcomeOf env.lower p c.graph) b a → isCondition p b = false → Nearest (n + 1) a (some (n, b))
  | through {n : ℕ} {c : Config} {a b : String} {r : Option (ℕ × String)} : run env p input n = .ok c →
      b ∈ c.control.active → p.stateGraph.Fires (outcomeOf env.lower p c.graph) b a → isCondition p b = true →
      Nearest n b r → Nearest (n + 1) a r

/-- The text a node is handed by the nearest activation before it. -/
def handedOver : Option (ℕ × String) → Option String
  | none => some input
  | some (m, b) => outputAt env p input m b

/-- **What the activations of a superstep read**: every node but a Join the output of the nearest non-Condition
activation before it, a Join the outputs its branches produced in the superstep before, a selected output the
most recent one of its node; and no activation fails for want of an input. -/
structure Handoff (n : ℕ) (c : Config) : Prop where
  primary : ∀ a ∈ c.control.active, isJoin p a = false → ∃ r, Nearest env p input n a r ∧
    (∀ r', Nearest env p input n a r' → r' = r) ∧
    ∃ text, handedOver env p input r = some text ∧ nodeInput p c.graph a = .ok text
  join : ∀ j ∈ c.control.active, isJoin p j = true → ∃ m, n = m + 1 ∧ ∃ texts : String → String,
    (∀ s ∈ joinSources p j, ∃ c₀, run env p input m = .ok c₀ ∧ s ∈ c₀.control.active ∧
      outputAt env p input m s = some (texts s)) ∧
    joinText p c.graph j = aggregateJoinInputs ((joinSources p j).map fun s => (s, texts s))
  context : ∀ a ∈ c.control.active, ∀ node agent ctx, findNode p a = some node →
    node.config = .agentV2 agent (some ctx) → ∀ primary, renderAgentInput primary (some ctx) c.graph =
      renderItems primary (contextItems ctx input (lastOutput env p input n))
  available : ∀ a ∈ c.control.active, ∀ task answer message, activate p c.graph task answer a = .error message →
    message ≠ "graph_input_unavailable" ∧ message ≠ "join_input_unavailable"

end Spec

/-! ### The invariant -/

/-- What holds of the records whatever the token does. -/
structure Sound (env : Environment) (w : WorkflowDefinitionV2) (p : ExecutionPlan) (input : String) (n : ℕ)
    (c : Config) : Prop where
  keyed : Keyed c.graph.outputs
  initial : c.graph.initialInput = input
  outs : ∀ r ∈ c.graph.outputs, r.output ≠ none
  seq : ∀ r ∈ c.graph.outputs, r.sequence ≤ c.graph.executions
  together : StateGraph.AllOrNone p.stateGraph c.control
  nodes : ∀ a ∈ c.control.active, a ∈ w.nodeIds
  published : ∀ s, publishes p s = true →
    (lookup c.graph.outputs s).bind (·.output) = lastOutput env p input n s

/-- The record of the activation is there, and newer than all others. -/
def Newest (env : Environment) (p : ExecutionPlan) (input : String) (st : GraphState) : Option (ℕ × String) → Prop
  | none => st.outputs = []
  | some (m, b) => ∃ text, outputAt env p input m b = some text ∧ ∃ r ∈ st.outputs, r.nodeId = b ∧
      r.output = some text ∧ ∀ r' ∈ st.outputs, r' ≠ r → r'.sequence < r.sequence

/-- Where the token is: nowhere, at nodes all handed the same text, or at a Join whose branches have just
run. -/
inductive Token (env : Environment) (p : ExecutionPlan) (input : String) (n : ℕ) (c : Config) : Prop
  | idle : c.control.active = ∅ → Token env p input n c
  | ready (r : Option (ℕ × String)) : Newest env p input c.graph r →
      (∀ a ∈ c.control.active, isJoin p a = false ∧ Nearest env p input n a r ∧
        ∀ r', Nearest env p input n a r' → r' = r) → Token env p input n c
  | atJoin (m : ℕ) (j : String) (c₀ : Config) : n = m + 1 → c.control.active = {j} → isJoin p j = true →
      run env p input m = .ok c₀ →
      (∀ s ∈ joinSources p j, s ∈ c₀.control.active ∧ ∃ text, outputAt env p input m s = some text ∧
        (lookup c.graph.outputs s).bind (·.output) = some text) → Token env p input n c

section Invariant

variable {env : Environment} {w : WorkflowDefinitionV2} {p : ExecutionPlan} {input : String} {n : ℕ} {c c' : Config}

theorem not_condition_of_publishes {s : String} (h : publishes p s = true) : isCondition p s = false := by
  unfold publishes at h
  split at h
  · rename_i hf
    rw [isCondition, hf]
    rfl
  · cases h

theorem lastOutput_succ (hc : run env p input n = .ok c) (s : String) : lastOutput env p input (n + 1) s =
    if s ∈ c.control.active then outputAt env p input n s else lastOutput env p input n s := by
  simp only [lastOutput, hc]

theorem sound_start (hw : w.Facts) (hp : PlanOf w p) :
    Sound env w p input 0 ⟨p.stateGraph.start, { initialInput := input }⟩ where
  keyed := List.nodup_nil
  initial := rfl
  outs := by simp
  seq := by simp
  together := StateGraph.allOrNone_start ((graphOf_stateGraph hw hp).structured hw)
  nodes a ha := by
    have : a = p.entryNodeId := by simpa [StateGraph.start, ExecutionPlan.stateGraph] using ha
    rw [this]
    exact (hw.entry_spec hp.entry).1
  published _ _ := rfl

theorem mem_active (hw : w.Facts) (hp : PlanOf w p) (hS : Sound env w p input n c)
    (hs : superstep env p n c = .ok c') {t : String} : t ∈ c'.control.active ↔
      ∃ a ∈ c.control.active, p.stateGraph.Fires (outcomeOf env.lower p c.graph) a t := by
  obtain ⟨_, -, hcontrol, -⟩ := superstep_ok hs
  rw [hcontrol]
  exact StateGraph.mem_step ((graphOf_stateGraph hw hp).structured hw) hS.together

variable {outcome : String → Bool}

theorem target_of_fires (hw : w.Facts) (hp : PlanOf w p) {a t : String}
    (h : p.stateGraph.Fires outcome a t) : t ∈ w.targets a :=
  ((graphOf_stateGraph hw hp).arc_iff hw).mp h.arc

theorem written_cases (hW : Written env p input n c c') {r : OutputRecord} (hk : Keyed c.graph.outputs)
    (hr : r ∈ c'.graph.outputs) :
    (r.nodeId ∈ c.control.active ∧ isCondition p r.nodeId = false ∧ r.sequence = c.graph.executions + 1 ∧
      r.output ≠ none) ∨ r ∈ c.graph.outputs := by
  have hl : lookup c'.graph.outputs r.nodeId = some r := (lookup_iff hW.keyed).mpr ⟨hr, rfl⟩
  by_cases hact : r.nodeId ∈ c.control.active ∧ isCondition p r.nodeId = false
  · obtain ⟨text, -, hl'⟩ := hW.ran r.nodeId hact.1 hact.2
    rw [hl] at hl'
    refine .inl ⟨hact.1, hact.2, ?_, ?_⟩
    · rw [Option.some.inj hl']
    · rw [Option.some.inj hl']; simp
  · right
    rcases hW.kept r.nodeId (fun h => by simpa using fun hc => hact ⟨h, hc⟩) with h | ⟨h, -⟩
    · rw [hl] at h
      exact ((lookup_iff hk).mp h.symm).1
    · rw [hl] at h; cases h

theorem sound_succ (hw : w.Facts) (hp : PlanOf w p) (hc : run env p input n = .ok c)
    (hs : superstep env p n c = .ok c') (hS : Sound env w p input n c) (hW : Written env p input n c c') :
    Sound env w p input (n + 1) c' where
  keyed := hW.keyed
  initial := hW.initial.trans hS.initial
  outs r hr := by
    rcases written_cases hW hS.keyed hr with h | h
    · exact h.2.2.2
    · exact hS.outs r h
  seq r hr := by
    rw [hW.executions]
    rcases written_cases hW hS.keyed hr with ⟨hact, -, hseq, -⟩ | h
    · have := Finset.card_pos.mpr ⟨_, hact⟩
      omega
    · have := hS.seq r h
      omega
  together := by
    obtain ⟨_, -, hcontrol, -⟩ := superstep_ok hs
    rw [hcontrol]
    exact StateGraph.allOrNone_step ((graphOf_stateGraph hw hp).structured hw) hS.together _
  nodes t ht := by
    obtain ⟨a, -, hf⟩ := (mem_active hw hp hS hs).mp ht
    exact target_mem_nodeIds (target_of_fires hw hp hf)
  published s hpub := by
    have hcond := not_condition_of_publishes hpub
    rw [lastOutput_succ hc]
    by_cases hact : s ∈ c.control.active
    · obtain ⟨text, hout, hl⟩ := hW.ran s hact hcond
      rw [if_pos hact, hout, hl]
      rfl
    · rw [if_neg hact, ← hS.published s hpub]
      rcases hW.kept s (fun h => absurd h hact) with h | ⟨-, h⟩
      · rw [h]
      · rw [hpub] at h; cases h

theorem newest_single (hW : Written env p input n c c') (hS : Sound env w p input n c) {a : String}
    (ha : c.control.active = {a}) (hcond : isCondition p a = false) :
    Newest env p input c'.graph (some (n, a)) := by
  obtain ⟨text, hout, hl⟩ := hW.ran a (by simp [ha]) hcond
  obtain ⟨hr, -⟩ := lookup_some hl
  refine ⟨text, hout, _, hr, rfl, rfl, fun r' hr' hne => ?_⟩
  rcases written_cases hW hS.keyed hr' with ⟨hact, -⟩ | h
  · rw [ha, Finset.mem_singleton] at hact
    have hl' := (lookup_iff hW.keyed).mpr ⟨hr', hact⟩
    rw [hl] at hl'
    exact absurd (Option.some.inj hl').symm hne
  · have := hS.seq r' h
    show r'.sequence < c.graph.executions + 1
    omega

theorem not_join_of_single (hw : w.Facts) (hp : PlanOf w p) (hS : Sound env w p input n c) {a t : String}
    (ha : c.control.active = {a}) (hf : p.stateGraph.Fires outcome a t) : isJoin p t = false := by
  by_contra hj
  rw [Bool.not_eq_false, isJoin_eq hw hp] at hj
  have hg := graphOf_stateGraph hw hp
  obtain ⟨o, ho⟩ := hw.joinCloses hj
  have hsrc : a ∈ w.sources t := mem_sources_iff_mem_targets.mpr (target_of_fires hw hp hf)
  -- all branches of the Join are active with `a`, and there are two
  have hall : ∀ s ∈ w.sources t, s = a := by
    intro s hs
    rcases hS.together.together ((w.sources t).eraseDups, t) ((hg.waiting_iff _).mpr ⟨hj, rfl⟩) with h | h
    · simpa [ha] using h s (List.mem_eraseDups.mpr hs)
    · exact absurd (by simp [ha]) (h a (List.mem_eraseDups.mpr hsrc))
  have hone := eq_singleton_of_nodup (hw.sources_nodup ho.only_out) (a := a) fun x =>
    ⟨hall x, fun h => h ▸ hsrc⟩
  have htwo := ho.two
  rw [hone] at htwo
  simp at htwo

/-- The token moves on from a single active node. -/
theorem token_single (hw : w.Facts) (hp : PlanOf w p) (hc : run env p input n = .ok c)
    (hs : superstep env p n c = .ok c') (hS : Sound env w p input n c) (hT : Token env p input n c)
    (hW : Written env p input n c c') {a : String} (ha : c.control.active = {a}) :
    Token env p input (n + 1) c' := by
  have hact : ∀ {t}, t ∈ c'.control.active ↔ p.stateGraph.Fires (outcomeOf env.lower p c.graph) a t := by
    intro t
    rw [mem_active hw hp hS hs, ha]
    simp
  have hrun : ∀ {c₁}, run env p input n = .ok c₁ → c₁ = c := fun h => by
    rw [hc] at h; exact (Except.ok.inj h).symm
  by_cases hcond : isCondition p a = true
  · -- a Condition passes on what it was handed
    have hready : ∃ r, Newest env p input c.graph r ∧ Nearest env p input n a r ∧
        ∀ r', Nearest env p input n a r' → r' = r := by
      rcases hT with h | ⟨r, hnew, hall⟩ | ⟨m, j, _, -, hj, hjoin, -⟩
      · rw [ha] at h; simp at h
      · exact ⟨r, hnew, (hall a (by simp [ha])).2⟩
      · rw [ha, Finset.singleton_inj] at hj
        rw [isCondition_eq hw hp] at hcond
        rw [← hj, isJoin_eq hw hp] at hjoin
        exact absurd (isType_unique hcond hjoin) (by decide)
    obtain ⟨r, hnew, hnear, huniq⟩ := hready
    have hsame : c'.graph.outputs = c.graph.outputs := hW.quiet fun x hx => by
      rw [ha, Finset.mem_singleton] at hx; rwa [hx]
    refine .ready r ?_ fun t ht => ⟨not_join_of_single hw hp hS ha (hact.mp ht), ?_, ?_⟩
    · cases r with
      | none => exact hsame.trans hnew
      | some r => rw [Newest, hsame]; exact hnew
    · exact .through hc (by simp [ha]) (hact.mp ht) hcond hnear
    · intro r' hr'
      cases hr' with
      | direct hc₁ hb _ hbc =>
        rw [hrun hc₁, ha, Finset.mem_singleton] at hb
        rw [hb, hcond] at hbc
        cases hbc
      | through hc₁ hb _ _ hnear' =>
        rw [hrun hc₁, ha, Finset.mem_singleton] at hb
        exact huniq r' (hb ▸ hnear')
  · rw [Bool.not_eq_true] at hcond
    refine .ready (some (n, a)) (newest_single hW hS ha hcond) fun t ht =>
      ⟨not_join_of_single hw hp hS ha (hact.mp ht), .direct hc (by simp [ha]) (hact.mp ht) hcond, ?_⟩
    intro r' hr'
    cases hr' with
    | direct hc₁ hb _ _ =>
      rw [hrun hc₁, ha, Finset.mem_singleton] at hb
      rw [hb]
    | through hc₁ hb _ hbc _ =>
      rw [hrun hc₁, ha, Finset.mem_singleton] at hb
      rw [hb, hcond] at hbc
      cases hbc

/-- The branches of a fan-out that a Join closes. -/
structure Branches (w : WorkflowDefinitionV2) (active : Finset String) (o j : String) : Prop where
  fans : w.fansOut o = true
  join : w.isType "join" j = true
  only_in : ∀ t ∈ active, w.sources t = [o]
  only_out : ∀ t ∈ active, w.targets t = [j]
  not_condition : ∀ t ∈ active, w.isType "condition" t = false
  not_join : ∀ t ∈ active, w.isType "join" t = false

theorem branches_of_shape (hw : w.Facts) {active : Finset String} {o j : String} (hf : w.fansOut o = true)
    (hj : w.isType "join" j = true) (hall : ∀ t ∈ active, t ∈ w.targets o ∧ j ∈ w.targets t) :
    Branches w active o j := by
  obtain ⟨q, hq⟩ := hw.joinCloses hj
  have hsrc : ∀ t ∈ active, t ∈ w.sources j := fun t ht => mem_sources_iff_mem_targets.mpr (hall t ht).2
  have hin : ∀ t ∈ active, w.sources t = [o] := by
    intro t ht
    have ho := mem_sources_iff_mem_targets.mpr (hall t ht).1
    have hqt := hq.only_in t (hsrc t ht)
    rw [hqt, List.mem_singleton] at ho
    rw [hqt, ho]
  refine ⟨hf, hj, hin, fun t ht => hq.only_out t (hsrc t ht), fun t ht =>
    GraphOf.not_condition_of_feeds_join hw hj (hall t ht).2, fun t ht => ?_⟩
  by_contra htj
  have htwo := (hw.join_rules (by simpa using htj)).1
  rw [hin t ht] at htwo
  simp at htwo

theorem written_of_branches (hw : w.Facts) (hp : RuntimePlanOf w p) (hc : run env p input n = .ok c)
    (hs : superstep env p n c = .ok c') (hS : Sound env w p input n c) {o j : String}
    (hB : Branches w c.control.active o j) : Written env p input n c c' := by
  refine written_branches hc hs hS.keyed (fun a ha => ?_) fun a ha node hn => ?_
  · rw [isCondition_eq hw hp.toPlanOf]
    exact hB.not_condition a ha
  · obtain ⟨hmem, hid⟩ := findNode_id hn
    have htype : ∀ type, w.isType type a = (node.blockType == type) := fun type => by
      rw [← hid]; exact isType_planNode hw hp.toPlanOf hmem type
    have h1 := hB.not_condition a ha
    have h2 := hB.not_join a ha
    have h3 := hp.primitive node hmem
    rw [htype, beq_eq_false_iff_ne] at h1 h2
    have hcons := branch_consumes_nothing hw hp.toPlanOf hB.fans (hB.only_in a ha) c.graph
    unfold tombstones
    rw [hid, hcons]
    unfold PlanNode.blockType at h1 h2 h3
    split <;> simp_all [BlockConfig.blockType]

theorem token_branches (hw : w.Facts) (hp : PlanOf w p) (hc : run env p input n = .ok c)
    (hs : superstep env p n c = .ok c') (hS : Sound env w p input n c) (hW : Written env p input n c c')
    {o j : String} (hB : Branches w c.control.active o j) (hne : c.control.active.Nonempty) :
    Token env p input (n + 1) c' := by
  have hg := graphOf_stateGraph hw hp
  obtain ⟨t, ht⟩ := hne
  have hmemb : ((w.sources j).eraseDups, j) ∈ p.stateGraph.waiting := (hg.waiting_iff _).mpr ⟨hB.join, rfl⟩
  have htsrc : t ∈ w.sources j := mem_sources_iff_mem_targets.mpr (by rw [hB.only_out t ht]; simp)
  have hall : ∀ s ∈ w.sources j, s ∈ c.control.active := by
    intro s hsrc
    rcases hS.together.together _ hmemb with h | h
    · exact h s (List.mem_eraseDups.mpr hsrc)
    · exact absurd ht (h t (List.mem_eraseDups.mpr htsrc))
  have hactive : c'.control.active = {j} := by
    ext u
    rw [mem_active hw hp hS hs, Finset.mem_singleton]
    constructor
    · rintro ⟨a, ha, hf⟩
      have := target_of_fires hw hp hf
      rwa [hB.only_out a ha, List.mem_singleton] at this
    · rintro rfl
      exact ⟨t, ht, .inl (.inr ⟨_, hmemb, rfl, List.mem_eraseDups.mpr htsrc⟩)⟩
  refine .atJoin n j c rfl hactive (by rw [isJoin_eq hw hp]; exact hB.join) hc fun s hsrc => ?_
  have hact := hall s ((mem_joinSources hp).mp hsrc)
  obtain ⟨text, hout, hl⟩ := hW.ran s hact (by rw [isCondition_eq hw hp]; exact hB.not_condition s hact)
  exact ⟨hact, text, hout, by rw [hl]; rfl⟩

/-- **The invariant**: in every disciplined run the records are sound and the token is accounted for. -/
theorem invariant (hw : w.Facts) (hp : RuntimePlanOf w p) : ∀ (n : ℕ) (c : Config), run env p input n = .ok c →
    (∀ m < n, ∀ c₀, run env p input m = .ok c₀ → GraphOf.TokenDiscipline w p.stateGraph c₀.control) →
    Sound env w p input n c ∧ Token env p input n c
  | 0, c, h, _ => by
    cases h
    refine ⟨sound_start hw hp.toPlanOf, .ready none rfl fun a ha => ?_⟩
    obtain rfl : a = p.entryNodeId := by simpa [StateGraph.start, ExecutionPlan.stateGraph] using ha
    refine ⟨?_, .start, fun r' hr' => by cases hr'; rfl⟩
    -- the entry is no Join: a Join has a branch in front of it
    rw [isJoin_eq hw hp.toPlanOf]
    by_contra hj
    rw [Bool.not_eq_false] at hj
    obtain ⟨q, hq⟩ := hw.joinCloses hj
    obtain ⟨s, hs⟩ := List.exists_mem_of_length_pos (Nat.lt_of_lt_of_le Nat.zero_lt_two hq.two)
    rcases (hw.entry_spec hp.entry).2 with hnil | ⟨-, cnd, hcnd, ht⟩
    · rw [hnil] at hs; simp at hs
    · rw [not_join_of_condition hw hcnd ht] at hj
      cases hj
  | n + 1, c', h, hd => by
    obtain ⟨c, hc, hs⟩ := run_succ h
    obtain ⟨hS, hT⟩ := invariant hw hp n c hc fun m hm => hd m (by omega)
    by_cases hcard : c.control.active.card ≤ 1
    · rcases Finset.card_le_one_iff_subset_singleton.mp hcard with ⟨a, ha⟩
      rcases Finset.subset_singleton_iff.mp ha with hnone | hone
      · -- nothing is left to run
        have hW : Written env p input n c c' :=
          written_branches hc hs hS.keyed (by simp [hnone]) (by simp [hnone])
        refine ⟨sound_succ hw hp.toPlanOf hc hs hS hW, .idle ?_⟩
        refine Finset.eq_empty_of_forall_notMem fun t ht => ?_
        obtain ⟨b, hb, -⟩ := (mem_active hw hp.toPlanOf hS hs).mp ht
        simp [hnone] at hb
      · have hW := written_single hc hs hS.keyed hone
        exact ⟨sound_succ hw hp.toPlanOf hc hs hS hW, token_single hw hp.toPlanOf hc hs hS hT hW hone⟩
    · rcases (hd n (by omega) c hc).shape with h1 | ⟨o, j, hf, hj, hall⟩
      · exact absurd h1 hcard
      · have hB := branches_of_shape hw hf hj hall
        have hW := written_of_branches hw hp hc hs hS hB
        refine ⟨sound_succ hw hp.toPlanOf hc hs hS hW, token_branches hw hp.toPlanOf hc hs hS hW hB ?_⟩
        exact Finset.card_pos.mp (by omega)

end Invariant

/-! ### The handoff -/

section Handoff

variable {env : Environment} {w : WorkflowDefinitionV2} {p : ExecutionPlan} {input : String} {n : ℕ} {c : Config}

theorem latestOutput_eq {rs : List OutputRecord} (hk : Keyed rs) (s : String) :
    latestOutput rs s = (lookup rs s).bind (·.output) := by
  rw [latestOutput, latestRecord_eq hk]

theorem contextItems_congr {ctx : AgentContext} {f f' : String → Option String}
    (h : ∀ s ∈ ctx.includeNodeOutputs, f s = f' s) : contextItems ctx input f = contextItems ctx input f' := by
  unfold contextItems
  congr 1
  refine List.filterMap_congr fun s hs => ?_
  rw [List.mem_insertionSort, List.mem_eraseDups] at hs
  rw [h s hs]

theorem nearest_source (hw : w.Facts) (hp : PlanOf w p) {m : ℕ} {a b : String}
    (h : Nearest env p input n a (some (m, b))) : b ∈ effectiveSources p a := by
  generalize hr : some (m, b) = r at h
  induction h with
  | start => cases hr
  | direct _ _ hf hb =>
    cases hr
    exact mem_effectiveSources.mpr ⟨hb, leads_of_edge hp (target_of_fires hw hp hf)⟩
  | through _ _ hf hc _ ih =>
    obtain ⟨h1, h2⟩ := mem_effectiveSources.mp (ih hr)
    exact mem_effectiveSources.mpr ⟨h1, leads_through hp h2 hc (target_of_fires hw hp hf)⟩

theorem nodeInput_newest (hw : w.Facts) (hp : PlanOf w p) (hS : Sound env w p input n c) {m : ℕ} {a b : String}
    (hnear : Nearest env p input n a (some (m, b))) (hnew : Newest env p input c.graph (some (m, b))) :
    ∃ text, outputAt env p input m b = some text ∧ nodeInput p c.graph a = .ok text := by
  obtain ⟨text, hout, r, hr, rfl, htext, hmax⟩ := hnew
  have hsrc := nearest_source hw hp hnear
  refine ⟨text, hout, ?_⟩
  have hne : (effectiveSources p a).isEmpty = false := by
    rw [List.isEmpty_eq_false_iff]
    exact List.ne_nil_of_mem hsrc
  rw [nodeInput, if_neg (by simp [hne]), selectedRecord_eq hS.keyed hsrc hr hmax, Option.bind_some, htext]

theorem nodeInput_nil (hnil : c.graph.outputs = []) (a : String) : nodeInput p c.graph a =
    if (effectiveSources p a).isEmpty || a == p.entryNodeId then .ok c.graph.initialInput
      else .error "graph_input_unavailable" := by
  rw [nodeInput, selectedRecord_nil hnil, Option.bind_none]
  by_cases h : (effectiveSources p a).isEmpty = true
  · simp [h]
  · simp [h]

theorem joinText_eq (hS : Sound env w p input n c) {j : String} {texts : String → String}
    (h : ∀ s ∈ joinSources p j, (lookup c.graph.outputs s).bind (·.output) = some (texts s)) :
    joinText p c.graph j = aggregateJoinInputs ((joinSources p j).map fun s => (s, texts s)) := by
  have hmap : ∀ l : List String, (∀ s ∈ l, (lookup c.graph.outputs s).bind (·.output) = some (texts s)) →
      l.mapM (joinInput c.graph) = .ok (l.map fun s => (s, texts s)) := by
    intro l
    induction l with
    | nil => exact fun _ => rfl
    | cons s l ih =>
      intro hl
      have hs : joinInput c.graph s = .ok (s, texts s) := by
        rw [joinInput, latestOutput_eq hS.keyed, hl s (by simp)]
      rw [List.mapM_cons, hs, List.map_cons, except_bind_ok]
      exact ⟨_, rfl, except_bind_ok.mpr ⟨_, ih fun x hx => hl x (by simp [hx]), rfl⟩⟩
  rw [joinText, hmap _ h]
  rfl

variable {message : String} {st : GraphState}

theorem renderItems_error {primary : String} {items : List ContextItem}
    (h : renderItems primary items = .error message) : message = "agent_context_too_large" := by
  unfold renderItems at h
  simp only at h
  split_ifs at h
  cases h
  rfl

theorem aggregateJoinInputs_error {inputs : List (String × String)}
    (h : aggregateJoinInputs inputs = .error message) : message = "join_output_too_large" := by
  unfold aggregateJoinInputs at h
  simp only at h
  split_ifs at h
  cases h
  rfl

theorem joinText_nil (hnil : st.outputs = []) {j : String} (hne : joinSources p j ≠ []) :
    joinText p st j = .error "join_input_unavailable" := by
  obtain ⟨s, l, hl⟩ := List.exists_cons_of_ne_nil hne
  have hs : joinInput st s = .error "join_input_unavailable" := by
    rw [joinInput, hnil]
    rfl
  rw [joinText, hl, List.mapM_cons, hs]
  rfl

theorem agentInput_error {node : PlanNode} (h : agentInput p st node = .error message) :
    message = "agent_context_too_large" ∨ nodeInput p st node.id = .error message := by
  rcases except_bind_error.mp h with h | ⟨text, -, h⟩
  · exact .inr h
  · split at h
    · exact .inl (renderItems_error h)
    · cases h

theorem bind_ok_error {ε α β : Type} {x : Except ε α} {f : α → β} {e : ε} (h : (x >>= fun a => .ok (f a)) = .error e) :
    x = .error e := by
  rcases except_bind_error.mp h with h | ⟨_, -, h⟩
  · exact h
  · cases h

theorem nodeOutput_error {answer : String} {node : PlanNode}
    (h : nodeOutput p st answer node = .error message) (hprim : node.blockType ≠ "subworkflow") :
    message = "agent_context_too_large" ∨ (node.blockType ≠ "join" ∧ nodeInput p st node.id = .error message) ∨
      (node.blockType = "join" ∧ joinText p st node.id = .error message) := by
  obtain ⟨id, config⟩ := node
  have hnot : ∀ type : String, type ≠ "join" → (PlanNode.mk id config).blockType = type →
      (PlanNode.mk id config).blockType ≠ "join" := fun _ hne he => he ▸ hne
  cases config with
  | agentV1 _ => exact (agentInput_error (bind_ok_error h)).imp_right fun h => .inl ⟨hnot "agent" (by decide) rfl, h⟩
  | agentV2 _ _ => exact (agentInput_error (bind_ok_error h)).imp_right fun h => .inl ⟨hnot "agent" (by decide) rfl, h⟩
  | agentV3 _ _ _ => exact (agentInput_error (bind_ok_error h)).imp_right fun h => .inl ⟨hnot "agent" (by decide) rfl, h⟩
  | publishGitHubPr _ =>
    exact (agentInput_error (bind_ok_error h)).imp_right fun h => .inl ⟨hnot "publish-github-pr" (by decide) rfl, h⟩
  | condition _ => exact .inr (.inl ⟨hnot "condition" (by decide) rfl, bind_ok_error (f := fun _ => (none : Option String)) h⟩)
  | approval _ => exact .inr (.inl ⟨hnot "approval" (by decide) rfl, bind_ok_error h⟩)
  | join => exact .inr (.inr ⟨rfl, bind_ok_error h⟩)
  | subworkflow _ => exact absurd rfl hprim

theorem activate_error {a task answer : String} (h : activate p st task answer a = .error message)
    (hin : isJoin p a = false → ∃ text, nodeInput p st a = .ok text)
    (hjoin : isJoin p a = true → ∃ inputs, joinText p st a = aggregateJoinInputs inputs)
    (hprim : ∀ n ∈ p.nodes, n.blockType ≠ "subworkflow") :
    message ≠ "graph_input_unavailable" ∧ message ≠ "join_input_unavailable" := by
  unfold activate at h
  split_ifs at h with hlimit
  · cases h; decide
  · split at h
    · cases h; decide
    · rename_i node hn
      obtain ⟨hmem, hid⟩ := findNode_id hn
      have hty : isJoin p a = (node.blockType == "join") := by rw [isJoin, hn]; rfl
      rcases except_bind_error.mp h with h | ⟨output, -, h⟩
      · rcases nodeOutput_error h (hprim node hmem) with rfl | ⟨hj, h⟩ | ⟨hj, h⟩
        · decide
        · obtain ⟨text, ht⟩ := hin (by rw [hty]; simpa using hj)
          rw [hid, ht] at h
          cases h
        · obtain ⟨inputs, ht⟩ := hjoin (by rw [hty]; simpa using hj)
          rw [hid, ht] at h
          rw [aggregateJoinInputs_error h]
          decide
      · cases output with
        | none => cases h
        | some text =>
          rcases except_bind_error.mp h with h | ⟨_, -, h⟩
          · rw [prospectiveContextState] at h
            simp only at h
            split_ifs at h
            cases h
            decide
          · cases h

/-- In a disciplined superstep everything is handed over, unless a node other than the entry that has an
effective source runs before any record was written. -/
theorem handoff_iff_step (hw : w.Facts) (hp : RuntimePlanOf w p) (hS : Sound env w p input n c)
    (hT : Token env p input n c) : Handoff env p input n c ↔
      (c.graph.outputs = [] → ∀ a ∈ c.control.active, a = p.entryNodeId ∨ effectiveSources p a = []) := by
  constructor
  · intro hH hnil a ha
    by_cases hj : isJoin p a = true
    · -- a Join reads its branches
      obtain ⟨m, -, texts, hsrc, htext⟩ := hH.join a ha hj
      rw [isJoin_eq hw hp.toPlanOf] at hj
      obtain ⟨q, hq⟩ := hw.joinCloses hj
      obtain ⟨s, hs⟩ := List.exists_mem_of_length_pos (Nat.lt_of_lt_of_le Nat.zero_lt_two hq.two)
      have hne : joinSources p a ≠ [] := List.ne_nil_of_mem ((mem_joinSources hp.toPlanOf).mpr hs)
      rw [joinText_nil hnil hne] at htext
      exact absurd (aggregateJoinInputs_error htext.symm) (by decide)
    · obtain ⟨r, -, -, text, -, hin⟩ := hH.primary a ha (by simpa using hj)
      rw [nodeInput_nil hnil] at hin
      split_ifs at hin with hcase
      rw [Bool.or_eq_true, List.isEmpty_iff, beq_iff_eq] at hcase
      exact hcase.symm
  · intro hcond
    have hcontext : ∀ a ∈ c.control.active, ∀ node agent ctx, findNode p a = some node →
        node.config = .agentV2 agent (some ctx) → ∀ primary, renderAgentInput primary (some ctx) c.graph =
          renderItems primary (contextItems ctx input (lastOutput env p input n)) := by
      intro a _ node agent ctx hn hcfg primary
      have hsel : ∀ s ∈ ctx.includeNodeOutputs,
          latestOutput c.graph.outputs s = lastOutput env p input n s := fun s hs => by
        rw [latestOutput_eq hS.keyed]
        exact hS.published s (hp.published node (findNode_id hn).1 agent ctx hcfg s hs)
      rw [renderAgentInput, Option.map_some, Option.getD_some, hS.initial, contextItems_congr hsel]
    rcases hT with hidle | ⟨r, hnew, hall⟩ | ⟨m, j, c₀, hm, hj, hjoin, hc₀, hsrc⟩
    · exact ⟨by simp [hidle], by simp [hidle], hcontext, by simp [hidle]⟩
    · have hinput : ∀ a ∈ c.control.active, ∃ text, handedOver env p input r = some text ∧
          nodeInput p c.graph a = .ok text := by
        intro a ha
        cases r with
        | none =>
          refine ⟨input, rfl, ?_⟩
          rw [nodeInput_nil hnew, if_pos, hS.initial]
          rcases hcond hnew a ha with h | h
          · simp [h]
          · simp [h]
        | some r => exact nodeInput_newest hw hp.toPlanOf hS (hall a ha).2.1 hnew
      refine ⟨fun a ha _ => ⟨r, (hall a ha).2.1, (hall a ha).2.2, hinput a ha⟩, fun j hj hjoin => ?_, hcontext,
        fun a ha task answer message h => ?_⟩
      · rw [(hall j hj).1] at hjoin
        cases hjoin
      · refine activate_error h (fun _ => ?_) (fun hjoin => ?_) hp.primitive
        · obtain ⟨text, -, ht⟩ := hinput a ha
          exact ⟨text, ht⟩
        · rw [(hall a ha).1] at hjoin
          cases hjoin
    · have honly : ∀ a ∈ c.control.active, a = j := fun a ha => by simpa [hj] using ha
      have htexts : joinText p c.graph j = aggregateJoinInputs ((joinSources p j).map fun s =>
          (s, (outputAt env p input m s).getD "")) := joinText_eq hS fun s hs => by
        obtain ⟨-, text, hout, hl⟩ := hsrc s hs
        rw [hl, hout]
        rfl
      refine ⟨fun a ha hno => ?_, fun a ha _ => ?_, hcontext, fun a ha task answer message h => ?_⟩
      · rw [honly a ha, hjoin] at hno
        cases hno
      · rw [honly a ha]
        refine ⟨m, hm, fun s => (outputAt env p input m s).getD "", fun s hs => ?_, htexts⟩
        obtain ⟨hact, text, hout, -⟩ := hsrc s hs
        exact ⟨c₀, hc₀, hact, by simp [hout]⟩
      · rw [honly a ha] at h
        refine activate_error h (fun hno => ?_) (fun _ => ⟨_, htexts⟩) hp.primitive
        rw [hjoin] at hno
        cases hno

theorem nearest_none {a : String} {r : Option (ℕ × String)} (h : Nearest env p input n a r) (hr : r = none) :
    n = 0 ∧ a = p.entryNodeId ∨ isCondition p p.entryNodeId = true := by
  induction h with
  | start => exact .inl ⟨rfl, rfl⟩
  | direct => cases hr
  | through _ _ _ hc _ ih =>
    rcases ih hr with ⟨-, hb⟩ | h
    · exact .inr (hb ▸ hc)
    · exact .inr h

theorem records_of_entry (hT : Token env p input n c) (hentry : isCondition p p.entryNodeId = false)
    (hw : w.Facts) (hp : PlanOf w p) (hnil : c.graph.outputs = []) : ∀ a ∈ c.control.active, a = p.entryNodeId := by
  intro a ha
  rcases hT with hidle | ⟨r, hnew, hall⟩ | ⟨m, j, c₀, -, -, hjoin, -, hsrc⟩
  · simp [hidle] at ha
  · cases r with
    | none =>
      rcases nearest_none (hall a ha).2.1 rfl with h | h
      · exact h.2
      · rw [hentry] at h; cases h
    | some r =>
      obtain ⟨_, -, x, hx, -⟩ := hnew
      rw [hnil] at hx
      simp at hx
  · rw [isJoin_eq hw hp] at hjoin
    obtain ⟨q, hq⟩ := hw.joinCloses hjoin
    obtain ⟨s, hs⟩ := List.exists_mem_of_length_pos (Nat.lt_of_lt_of_le Nat.zero_lt_two hq.two)
    obtain ⟨-, text, -, hl⟩ := hsrc s ((mem_joinSources hp).mpr hs)
    rw [hnil] at hl
    simp [lookup] at hl

theorem runtime_disciplined (hw : w.Facts) (hp : PlanOf w p)
    (hclosed : ∀ o, w.fansOut o = true → w.closedByJoin o = true) : ∀ (n : ℕ) (c : Config),
      run env p input n = .ok c → StateGraph.AllOrNone p.stateGraph c.control ∧
        StateGraph.Disciplined p.stateGraph c.control
  | 0, c, h => by
    cases h
    exact ⟨StateGraph.allOrNone_start ((graphOf_stateGraph hw hp).structured hw), .inl (by simp [StateGraph.start])⟩
  | n + 1, c', h => by
    obtain ⟨c, hc, hs⟩ := run_succ h
    obtain ⟨_, -, hcontrol, -⟩ := superstep_ok hs
    obtain ⟨hall, hd⟩ := runtime_disciplined hw hp hclosed n c hc
    have hg := graphOf_stateGraph hw hp
    rw [hcontrol]
    refine ⟨StateGraph.allOrNone_step (hg.structured hw) hall _,
      StateGraph.disciplined_step (hg.structured hw) hall hd (fun o _ hf => ?_) _⟩
    have hf' := (hg.fanOut_iff hw).mp hf
    exact (hg.closed_iff hw hf').mpr (hclosed o hf')

end Handoff

/-- **Handoff.**  In a disciplined run of the plan of an accepted definition every activation up to superstep
`N` reads what was handed to it exactly when no node other than the entry that has an effective source runs
before any record was written. -/
theorem handoff_iff {w : WorkflowDefinitionV2} {agents : List String} {p q : ExecutionPlan} (hw : w.Accepted)
    (hp : compileWorkflowV2ExecutionPlan w agents = .ok p) (hq : projectExecutionPlanForRuntime p = .ok q)
    (env : Environment) (input : String) (N : ℕ)
    (hd : ∀ n ≤ N, ∀ c, run env q input n = .ok c → GraphOf.TokenDiscipline w q.stateGraph c.control) :
    (∀ n ≤ N, ∀ c, run env q input n = .ok c → Handoff env q input n c) ↔
      ∀ n ≤ N, ∀ c, run env q input n = .ok c → c.graph.outputs = [] →
        ∀ a ∈ c.control.active, a = q.entryNodeId ∨ effectiveSources q a = [] := by
  have hplan := runtimePlanOf_project hw hp hq
  have hinv : ∀ n ≤ N, ∀ c, run env q input n = .ok c → Sound env w q input n c ∧ Token env q input n c :=
    fun n hn c hc => invariant hw.facts hplan n c hc fun m hm => hd m (by omega)
  constructor
  · intro h n hn c hc
    obtain ⟨hS, hT⟩ := hinv n hn c hc
    exact (handoff_iff_step hw.facts hplan hS hT).mp (h n hn c hc)
  · intro h n hn c hc
    obtain ⟨hS, hT⟩ := hinv n hn c hc
    exact (handoff_iff_step hw.facts hplan hS hT).mpr (h n hn c hc)

theorem closedFanOut_handoff : ∃ p q, compileWorkflowV2ExecutionPlan closedFanOut ["a"] = .ok p ∧
    projectExecutionPlanForRuntime p = .ok q ∧ ∀ env input N, ∀ n ≤ N, ∀ c, run env q input n = .ok c →
      Handoff env q input n c := by
  obtain ⟨p, q, hp, hq⟩ := exists_runtimePlan closedFanOut ["a"] (by decide +kernel)
  have hw : closedFanOut.Accepted := by decide +kernel
  have hplan := runtimePlanOf_project hw hp hq
  have hclosed : ∀ id ∈ closedFanOut.nodeIds, closedFanOut.fansOut id = true →
      closedFanOut.closedByJoin id = true := by decide
  have hdisc : ∀ env input n c, run env q input n = .ok c →
      GraphOf.TokenDiscipline closedFanOut q.stateGraph c.control := fun env input n c hc =>
    GraphOf.tokenDiscipline_of_shape hw.facts (graphOf_stateGraph hw.facts hplan.toPlanOf)
      (runtime_disciplined hw.facts hplan.toPlanOf (fun o ho => hclosed o (mem_nodeIds_of_fansOut ho) ho) n c hc).2
  have hentry : isCondition q q.entryNodeId = false := by
    have he := hplan.entry
    rw [isCondition_eq hw.facts hplan.toPlanOf]
    rw [show closedFanOut.entries = ["o"] by decide, List.cons.injEq] at he
    rw [← he.1]
    decide
  refine ⟨p, q, hp, hq, fun env input N => (handoff_iff hw hp hq env input N fun n _ => hdisc env input n).mpr ?_⟩
  intro n _ c hc hnil a ha
  obtain ⟨-, hT⟩ := invariant hw.facts hplan n c hc fun m _ => hdisc env input m
  exact .inl (records_of_entry hT hentry hw.facts hplan.toPlanOf hnil a ha)

/-- An environment in which no provider says anything. -/
noncomputable def silent : Environment where
  answer _ _ := ""
  task _ _ := ""
  order _ active := ⟨active.toList, active.nodup_toList, fun _ => Finset.mem_toList⟩
  lower s := s

theorem superstep_single {env : Environment} {p : ExecutionPlan} {n : ℕ} {c : Config} {a : String}
    {write : Option (List OutputRecord)} (ha : c.control.active = {a})
    (hact : activate p c.graph (env.task n a) (env.answer n a) a = .ok write) :
    superstep env p n c =
      .ok ⟨p.stateGraph.step (outcomeOf env.lower p c.graph) c.control, applyWrites c.graph [write]⟩ := by
  have hspec := (env.order n c.control.active).2
  have horder : (env.order n c.control.active).1 = [a] :=
    eq_singleton_of_nodup hspec.1 fun x => by rw [hspec.2, ha, Finset.mem_singleton]
  rw [superstep, horder, List.mapM_cons, hact]
  rfl

/-- The entry `e` is a Condition that can loop on itself; `a` follows it through the Condition `d` alone, but
also has the agent `b` in front of it. -/
def conditionEntry : WorkflowDefinitionV2 :=
  sample 32 [conditionNode "e", conditionNode "d", agentNode "b", agentNode "a"]
    [portEdge "e" "true" "e", portEdge "e" "false" "d", portEdge "d" "true" "b", portEdge "d" "false" "a",
      edge "b" "a"]

/-- Both Conditions come out false, and `a` fails for want of an input. -/
theorem conditionEntry_unavailable : conditionEntry.Accepted ∧ ∃ p q,
    compileWorkflowV2ExecutionPlan conditionEntry ["a"] = .ok p ∧ projectExecutionPlanForRuntime p = .ok q ∧
    (∀ n c, run silent q "" n = .ok c → GraphOf.TokenDiscipline conditionEntry q.stateGraph c.control) ∧
    ∃ c, run silent q "" 2 = .ok c ∧ c.control.active = {"a"} ∧
      activate q c.graph "" "" "a" = .error "graph_input_unavailable" ∧ ¬ Handoff silent q "" 2 c := by
  have hw : conditionEntry.Accepted := by decide +kernel
  have hp : compileWorkflowV2ExecutionPlan conditionEntry ["a"] = .ok (samplePlan conditionEntry "e" "a") := by
    decide +kernel
  have hq : projectExecutionPlanForRuntime (samplePlan conditionEntry "e" "a") =
      .ok (runtimePlan (samplePlan conditionEntry "e" "a")) := by decide +kernel
  have hplan := runtimePlanOf_project hw hp hq
  set q := runtimePlan (samplePlan conditionEntry "e" "a") with hqdef
  have hnone : ∀ id ∈ conditionEntry.nodeIds, conditionEntry.fansOut id = false := by decide
  refine ⟨hw, _, q, hp, hq, fun n c hc => ?_, ?_⟩
  · refine GraphOf.tokenDiscipline_of_shape hw.facts (graphOf_stateGraph hw.facts hplan.toPlanOf)
      (runtime_disciplined hw.facts hplan.toPlanOf (fun o ho => ?_) n c hc).2
    rw [hnone o (mem_nodeIds_of_fansOut ho)] at ho
    cases ho
  · have h1 : run silent q "" 1 = _ := superstep_single (a := "e") (by rw [hqdef]; decide +kernel)
      (show activate q _ _ _ _ = .ok none by rw [hqdef]; decide +kernel)
    have h2 : run silent q "" 2 = .ok _ := (congrArg (· >>= superstep silent q 1) h1).trans
      (superstep_single (a := "d") (by rw [hqdef]; decide +kernel)
        (show activate q _ _ _ _ = .ok none by rw [hqdef]; decide +kernel))
    have hactive : (q.stateGraph.step (outcomeOf silent.lower q (applyWrites { initialInput := "" } [none]))
        (q.stateGraph.step (outcomeOf silent.lower q { initialInput := "" }) q.stateGraph.start)).active = {"a"} := by
      rw [hqdef]; decide +kernel
    have herror : activate q (applyWrites (applyWrites { initialInput := "" } [none]) [none]) "" "" "a" =
        .error "graph_input_unavailable" := by rw [hqdef]; decide +kernel
    exact ⟨_, h2, hactive, herror, fun hH => (hH.available "a" (by rw [hactive]; simp) "" "" _ herror).1 rfl⟩

end ADT.Runtime
