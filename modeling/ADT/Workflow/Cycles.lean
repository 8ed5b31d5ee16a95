import ADT.Lib.Walk
import ADT.Workflow.TopologyFacts

/-!
# Workflow.Cycles — which cycles are controlled

The validator asks that every strongly connected component holds a Condition.  A cycle of its own can
still be without one: it then runs through a fan-out that no Join closes directly, and a branch of that
fan-out leads back to it past no Condition.  Every other cycle of an accepted definition is controlled,
because without a Condition and without such a fan-out nothing ever leaves the cycle, while every node
leads to the terminal.
-/

namespace ADT.Workflow.WorkflowDefinitionV2

open Search

variable {w : WorkflowDefinitionV2}

/-- Every simple cycle of the node graph contains a Condition. -/
def CyclesControlled (w : WorkflowDefinitionV2) : Prop :=
  ∀ c : Cycle String, c ≠ Cycle.nil → c.Nodup → c.Chain (Edge w.targets) →
    ∃ x ∈ c, w.isType "condition" x = true

/-- An edge that leaves no Condition. -/
def PlainEdge (w : WorkflowDefinitionV2) (a b : String) : Prop :=
  Edge w.targets a b ∧ w.isType "condition" a = false

/-- A branch of the fan-out `o` leads back to it past no Condition. -/
def LoopsBack (w : WorkflowDefinitionV2) (o : String) : Prop :=
  ∃ t ∈ w.targets o, Relation.ReflTransGen w.PlainEdge t o

theorem not_controlled_of_loopsBack {o : String} (hf : w.fansOut o = true) (hl : w.LoopsBack o) :
    ¬ w.CyclesControlled := by
  intro hall
  obtain ⟨t, ht, hp⟩ := hl
  obtain ⟨c, hne, hnd, hch⟩ := Walk.exists_cycle hp ⟨ht, (fansOut_iff.mp hf).1⟩
  obtain ⟨x, hx, hcond⟩ := hall c hne hnd (hch.imp fun _ _ h => h.1)
  obtain ⟨y, -, hxy, -⟩ := Walk.cycle_step (p := fun _ => True) hch (fun _ _ => trivial) hx
  rw [hxy.2] at hcond
  cases hcond

/-- The nodes of the cycle and the branches of its fan-outs. -/
def Ring (w : WorkflowDefinitionV2) (c : Cycle String) (x : String) : Prop :=
  x ∈ c ∨ ∃ o ∈ c, w.fansOut o = true ∧ x ∈ w.targets o

section Ring

variable {c : Cycle String} (hw : w.Facts) (hch : c.Chain (Edge w.targets))
  (hcond : ∀ x ∈ c, w.isType "condition" x = false)
  (hclosed : ∀ o ∈ c, w.fansOut o = true → w.closedByJoin o = true)

include hw hch hcond hclosed

theorem branch_targets {o x : String} (ho : o ∈ c) (hf : w.fansOut o = true) (hx : x ∈ w.targets o) :
    ∃ j ∈ c, w.targets x = [j] := by
  obtain ⟨j, hj, hall⟩ := closedByJoin_iff.mp (hclosed o ho hf)
  obtain ⟨q, hq⟩ := hw.joinCloses hj
  have hout : ∀ t ∈ w.targets o, w.targets t = [j] := fun t ht =>
    hq.only_out t (mem_sources_iff_mem_targets.mpr (hall t ht))
  -- the cycle goes on from `o` through one of its branches to `j`
  obtain ⟨y, hy, hoy, -⟩ := Walk.cycle_step hch hcond ho
  obtain ⟨z, hz, hyz, -⟩ := Walk.cycle_step hch hcond hy
  have hzj : z ∈ [j] := hout y hoy ▸ hyz
  obtain rfl := List.mem_singleton.mp hzj
  exact ⟨z, hz, hout x hx⟩

theorem ring_closed {x y : String} (hx : w.Ring c x) (hxy : y ∈ w.targets x) : w.Ring c y := by
  rcases hx with hx | ⟨o, ho, hf, hx⟩
  · by_cases hfx : w.fansOut x = true
    · exact .inr ⟨x, hx, hfx, hxy⟩
    · -- the only target of `x` is the next node of the cycle
      obtain ⟨z, hz, hxz, -⟩ := Walk.cycle_step hch hcond hx
      simp only [fansOut, hcond x hx, Bool.not_false, Bool.true_and, decide_eq_true_eq, not_lt] at hfx
      have hone : (w.targets x).length = 1 := le_antisymm hfx (List.length_pos_of_mem hxy)
      rw [mem_unique_of_length hone hxy hxz]
      exact .inl hz
  · obtain ⟨j, hj, ht⟩ := branch_targets hw hch hcond hclosed ho hf hx
    rw [ht, List.mem_singleton] at hxy
    exact .inl (hxy ▸ hj)

theorem ring_targets_ne_nil {x : String} (hx : w.Ring c x) : w.targets x ≠ [] := by
  rcases hx with hx | ⟨o, ho, hf, hx⟩
  · obtain ⟨y, -, hxy, -⟩ := Walk.cycle_step hch hcond hx
    exact List.ne_nil_of_mem hxy
  · obtain ⟨j, -, ht⟩ := branch_targets hw hch hcond hclosed ho hf hx
    simp [ht]

theorem no_closed_ring (hne : c ≠ Cycle.nil) : False := by
  obtain ⟨t, ht⟩ := hw.terminal
  obtain ⟨x, hx⟩ : ∃ x, x ∈ c := by
    induction c using Quotient.inductionOn' with
    | h l => exact List.exists_mem_of_ne_nil l fun hl => hne (by rw [hl]; rfl)
  obtain ⟨y, -, hxy, -⟩ := Walk.cycle_step hch hcond hx
  have hxn : x ∈ w.nodeIds := source_mem_nodeIds (mem_sources_iff_mem_targets.mpr hxy)
  have hring : ∀ y, Relation.ReflTransGen (Edge w.targets) x y → w.Ring c y := by
    intro y hp
    induction hp with
    | refl => exact .inl hx
    | tail _ he ih => exact ring_closed hw hch hcond hclosed ih he
  have htn : t ∈ w.nodeIds := (List.mem_filter.mp (show t ∈ w.terminals by rw [ht]; simp)).1
  exact ring_targets_ne_nil hw hch hcond hclosed (hring t (hw.leads_terminal ht hxn))
    ((Facts.terminal_spec ht t htn).mpr rfl)

end Ring

/-- **Every cycle of an accepted definition is controlled exactly when no branch of a fan-out that no
Join closes leads back to the fan-out past no Condition.** -/
theorem cyclesControlled_iff (h : w.Accepted) : w.CyclesControlled ↔
    ∀ o, w.fansOut o = true → w.closedByJoin o = false → ¬ w.LoopsBack o := by
  constructor
  · intro hall o hf _ hl
    exact not_controlled_of_loopsBack hf hl hall
  · intro hno c hne hnd hch
    by_contra hnone
    have hcond : ∀ x ∈ c, w.isType "condition" x = false := by
      intro x hx
      by_contra hc
      exact hnone ⟨x, hx, by simpa using hc⟩
    refine no_closed_ring h.facts hch hcond (fun o ho hf => ?_) hne
    by_contra hcl
    obtain ⟨t, -, hot, hback⟩ := Walk.cycle_step hch hcond ho
    exact hno o hf (by simpa using hcl) ⟨t, hot, hback⟩

/-- An agent whose result a Condition sends back to it. -/
def reviewLoop : WorkflowDefinitionV2 :=
  sample 32 [agentNode "a", conditionNode "c", agentNode "t"]
    [edge "a" "c", portEdge "c" "true" "a", portEdge "c" "false" "t"]

theorem reviewLoop_controlled : reviewLoop.CyclesControlled := by
  refine (cyclesControlled_iff (by decide +kernel)).mpr fun o hf => ?_
  have hno : ∀ id ∈ reviewLoop.nodeIds, reviewLoop.fansOut id = false := by decide
  rw [hno o (mem_nodeIds_of_fansOut hf)] at hf
  cases hf

/-- `f` fans out to `a` and `b`; `a` leads straight back, `b` through a Condition.  The component of `f`
holds the Condition, the cycle `f → a → f` does not. -/
def loopingBranch : WorkflowDefinitionV2 :=
  sample 32 [agentNode "s", agentNode "f", agentNode "a", agentNode "b", conditionNode "c", agentNode "o",
      agentNode "p", agentNode "q", joinNode "j", agentNode "t"]
    [edge "s" "f", edge "f" "a", edge "a" "f", edge "f" "b", edge "b" "c", portEdge "c" "true" "f",
      portEdge "c" "false" "o", edge "o" "p", edge "o" "q", edge "p" "j", edge "q" "j", edge "j" "t"]

theorem loopingBranch_accepted : loopingBranch.Accepted := by decide +kernel

theorem loopingBranch_not_controlled : loopingBranch.Accepted ∧ ¬ loopingBranch.CyclesControlled := by
  refine ⟨loopingBranch_accepted, fun hall => ?_⟩
  obtain ⟨x, hx, hc⟩ := hall (["f", "a"] : List String) (by simp) (by decide) (by
    rw [Cycle.chain_coe_cons]; simp only [List.cons_append, List.nil_append, List.isChain_cons_cons]
    exact ⟨by decide, by decide, .singleton _⟩)
  rw [Cycle.mem_coe_iff] at hx
  revert hc
  simp only [List.mem_cons, List.not_mem_nil, or_false] at hx
  rcases hx with rfl | rfl <;> decide

end ADT.Workflow.WorkflowDefinitionV2
