import ADT.Workflow.TopologyFacts

/-!
# Workflow.Conversations — the lineages of continued conversations

The references of agents that continue a conversation form chains.  What the validator computes along a chain does not
depend on its fuel, once there is enough, and is the same in a workflow in which the nodes have other names.
-/

namespace ADT.Workflow.WorkflowDefinitionV2

variable {w X : WorkflowDefinitionV2} {U seen : List String} {v : String}

/-! ### Fuel -/

/-- How many of `U` have not been met. -/
def unmet (U seen : List String) : ℕ := (U.filter fun v => !seen.contains v).length

theorem unmet_lt (hU : v ∈ U) (hseen : seen.contains v = false) : unmet U (v :: seen) < unmet U seen := by
  have hfilter : U.filter (fun u => !(v :: seen).contains u) =
      (U.filter fun u => !seen.contains u).filter fun u => u != v := by
    rw [List.filter_filter]
    congr 1
    funext u
    rw [List.contains_cons, Bool.not_or]
    rfl
  unfold unmet
  rw [hfilter]
  refine List.length_filter_lt_length_iff_exists.mpr ⟨v, List.mem_filter.mpr ⟨hU, by rw [hseen]; rfl⟩, by simp⟩

theorem conversationRootFrom_fuel (hU : ∀ v u, w.parent v = some u → v ∈ U) : ∀ {n m : ℕ} {seen : List String} {v : String},
    unmet U seen < n → unmet U seen < m → w.conversationRootFrom n seen v = w.conversationRootFrom m seen v
  | 0, _, _, _, hn, _ => absurd hn (Nat.not_lt_zero _)
  | _, 0, _, _, _, hm => absurd hm (Nat.not_lt_zero _)
  | n + 1, m + 1, seen, v, hn, hm => by
    unfold conversationRootFrom
    cases hv : w.parent v with
    | none => rfl
    | some next =>
      cases hseen : seen.contains v with
      | true => rfl
      | false =>
        have hless := unmet_lt (hU v next hv) hseen
        exact conversationRootFrom_fuel hU (by omega) (by omega)

theorem conversationCycle_fuel (hU : ∀ v u, w.parent v = some u → v ∈ U) : ∀ {n : ℕ} {seen : List String} {v : String},
    unmet U seen < n → w.conversationCycle n seen v = false → ∀ m, w.conversationCycle m seen v = false
  | 0, _, _, hn, _, _ => absurd hn (Nat.not_lt_zero _)
  | _, _, _, _, _, 0 => rfl
  | n + 1, seen, v, hn, h, m + 1 => by
    unfold conversationCycle at h ⊢
    cases hv : w.parent v with
    | none => rfl
    | some next =>
      rw [hv] at h
      dsimp only at h ⊢
      rw [Bool.or_eq_false_iff] at h ⊢
      have hless := unmet_lt (hU v next hv) h.1
      exact ⟨h.1, conversationCycle_fuel hU (by omega) h.2 m⟩

theorem parent_mem {u : String} (h : w.parent v = some u) : v ∈ w.conversationNodes.map (·.id) := by
  obtain ⟨n, hn, -⟩ := Option.bind_eq_some_iff.mp h
  have hid : n.id = v := by simpa using List.find?_some hn
  rw [← hid]
  exact List.mem_map_of_mem (List.mem_reverse.mp (List.mem_of_find?_eq_some hn))

theorem parent_eq (hnd : (w.nodes.map (·.id)).Nodup) {n : WorkflowNode} (hn : n ∈ w.nodes) :
    w.parent n.id = conversationSource n := by
  unfold parent
  cases hfind : w.conversationNodes.reverse.find? (·.id == n.id) with
  | some m =>
    have hm : m ∈ w.conversationNodes := List.mem_reverse.mp (List.mem_of_find?_eq_some hfind)
    have hid : m.id = n.id := by simpa using List.find?_some hfind
    rw [List.inj_on_of_nodup_map hnd (List.mem_of_mem_filter hm) hn hid]
    rfl
  | none =>
    cases hsource : conversationSource n with
    | none => rfl
    | some u =>
      have hm : n ∈ w.conversationNodes := List.mem_filter.mpr ⟨hn, by rw [hsource]; rfl⟩
      exact absurd (List.find?_eq_none.mp hfind n (List.mem_reverse.mpr hm)) (by simp)

theorem unmet_le (seen : List String) : unmet (w.conversationNodes.map (·.id)) seen < w.fuel := by
  have hfilter := List.length_filter_le (fun v => !seen.contains v) (w.conversationNodes.map (·.id))
  have hnodes : w.conversationNodes.length ≤ w.nodes.length := List.length_filter_le _ _
  rw [List.length_map] at hfilter
  unfold unmet fuel
  omega

/-! ### Other names -/

/-- The chains of `w` are in `X` under the names `f` gives. -/
structure Mirrors (w X : WorkflowDefinitionV2) (f : String → String) (P : String → Prop) : Prop where
  parent : ∀ v, P v → X.parent (f v) = (w.parent v).map f
  next : ∀ v u, P v → w.parent v = some u → P u
  inj : ∀ u v, P u → P v → f u = f v → u = v

namespace Mirrors

variable {f : String → String} {P : String → Prop}

theorem contains_map (h : Mirrors w X f P) (hv : P v) (hseen : ∀ u ∈ seen, P u) :
    (seen.map f).contains (f v) = seen.contains v := by
  rw [Bool.eq_iff_iff, List.contains_iff_mem, List.contains_iff_mem]
  constructor
  · intro hmem
    obtain ⟨u, hu, heq⟩ := List.mem_map.mp hmem
    rw [← h.inj u v (hseen u hu) hv heq]
    exact hu
  · exact List.mem_map_of_mem

theorem cycle (h : Mirrors w X f P) : ∀ (n : ℕ) (seen : List String) (v : String), P v → (∀ u ∈ seen, P u) →
    X.conversationCycle n (seen.map f) (f v) = w.conversationCycle n seen v
  | 0, _, _, _, _ => rfl
  | n + 1, seen, v, hv, hseen => by
    unfold conversationCycle
    rw [h.parent v hv]
    cases hnext : w.parent v with
    | none => rfl
    | some next =>
      have hrest := h.cycle n (v :: seen) next (h.next v next hv hnext)
        (List.forall_mem_cons.mpr ⟨hv, hseen⟩)
      rw [List.map_cons] at hrest
      rw [Option.map_some]
      dsimp only
      rw [h.contains_map hv hseen, hrest]

theorem root (h : Mirrors w X f P) : ∀ (n : ℕ) (seen : List String) (v : String), P v → (∀ u ∈ seen, P u) →
    X.conversationRootFrom n (seen.map f) (f v) = f (w.conversationRootFrom n seen v) ∧
      P (w.conversationRootFrom n seen v)
  | 0, _, _, hv, _ => ⟨rfl, hv⟩
  | n + 1, seen, v, hv, hseen => by
    unfold conversationRootFrom
    rw [h.parent v hv]
    cases hnext : w.parent v with
    | none => exact ⟨rfl, hv⟩
    | some next =>
      have hrest := h.root n (v :: seen) next (h.next v next hv hnext)
        (List.forall_mem_cons.mpr ⟨hv, hseen⟩)
      rw [List.map_cons] at hrest
      rw [Option.map_some]
      dsimp only
      rw [h.contains_map hv hseen]
      cases seen.contains v with
      | true => exact ⟨rfl, hv⟩
      | false => exact hrest

end Mirrors

/-- Two continuations of one lineage are ordered. -/
def Ordered (w : WorkflowDefinitionV2) (a b : WorkflowNode) : Prop :=
  w.conversationRoot a.id = w.conversationRoot b.id → w.canReach a.id b.id = true ∨ w.canReach b.id a.id = true

instance : Std.Symm w.Ordered where
  symm _ _ h heq := (h heq.symm).symm

theorem lineageIssues_eq_nil {l : List WorkflowNode} : w.lineageIssues l = [] ↔ l.Pairwise w.Ordered := by
  induction l with
  | nil => simp [lineageIssues]
  | cons a l ih =>
    rw [lineageIssues, List.append_eq_nil_iff, ih, List.pairwise_cons, List.flatMap_eq_nil_iff]
    refine and_congr_left fun _ => forall₂_congr fun b _ => ?_
    rw [issueIf_eq_nil, ← Bool.not_eq_true, Bool.and_eq_true, Bool.and_eq_true, beq_iff_eq, Bool.not_eq_true',
      Bool.not_eq_true']
    unfold Ordered
    cases w.canReach a.id b.id <;> cases w.canReach b.id a.id <;> simp

end ADT.Workflow.WorkflowDefinitionV2
