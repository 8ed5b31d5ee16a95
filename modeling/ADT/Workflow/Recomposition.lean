import ADT.Workflow.Expansion

/-!
# Workflow.Recomposition — composing a workflow from its own dependencies

An expansion looks up only the workflows it records as used, so that it goes the same way over any other versions
that agree on those.
-/

namespace ADT.Workflow

variable {root workflow : WorkflowDefinitionV2} {available available' : String → Option VersionedWorkflowDefinition}
  {path : List InvocationSegment} {stack : List String} {s s' : Composer} {node : WorkflowNode}

theorem stateT_mapM_congr {σ ε α β : Type} {f g : α → StateT σ (Except ε) β} {P : σ → Prop} {s' : σ}
    (hstep : ∀ x t y t', f x t = .ok (y, t') → P t' → g x t = .ok (y, t') ∧ P t) :
    ∀ {xs : List α} {ys : List β} {s : σ}, xs.mapM f s = .ok (ys, s') → P s' → xs.mapM g s = .ok (ys, s') ∧ P s
  | [], ys, s, h, hP => by
    rw [List.mapM_nil] at h ⊢
    cases h
    exact ⟨rfl, hP⟩
  | x :: xs, ys, s, h, hP => by
    rw [List.mapM_cons] at h ⊢
    obtain ⟨y, s₁, hy, h⟩ := stateT_bind_ok.mp h
    obtain ⟨zs, s₂, hzs, h⟩ := stateT_bind_ok.mp h
    cases h
    obtain ⟨hzs', hP₁⟩ := stateT_mapM_congr hstep hzs hP
    obtain ⟨hy', hP₀⟩ := hstep x s y s₁ hy hP₁
    exact ⟨stateT_bind_ok.mpr ⟨y, s₁, hy', stateT_bind_ok.mpr ⟨zs, s', hzs', rfl⟩⟩, hP₀⟩

/-! ### Agreement on what is used -/

/-- The versions agree on every workflow used so far. -/
def Covered (available available' : String → Option VersionedWorkflowDefinition) (s : Composer) : Prop :=
  ∀ d ∈ s.used, available' d.workflowId = available d.workflowId

theorem covered_congr (h : s'.used = s.used) (hs : Covered available available' s') :
    Covered available available' s := by
  intro d hd
  rw [← h] at hd
  exact hs d hd

theorem mem_use {d : CompositeDependency} (h : use d s = .ok ((), s')) :
    (∃ d' ∈ s'.used, d'.workflowId = d.workflowId) ∧
      ∀ d₀ ∈ s.used, ∃ d' ∈ s'.used, d'.workflowId = d₀.workflowId := by
  cases h
  dsimp only
  split
  · rename_i hany
    obtain ⟨d₁, hd₁, hid₁⟩ := List.any_eq_true.mp hany
    have hkeep : ∀ d₀ ∈ s.used, ∃ d' ∈ s.used.map (fun d₂ => if d₂.workflowId == d.workflowId then d else d₂),
        d'.workflowId = d₀.workflowId := by
      intro d₀ hd₀
      refine ⟨_, List.mem_map_of_mem hd₀, ?_⟩
      split
      · rename_i hid
        exact (by simpa using hid : d₀.workflowId = d.workflowId).symm
      · rfl
    refine ⟨?_, hkeep⟩
    obtain ⟨d', hd', hid'⟩ := hkeep d₁ hd₁
    exact ⟨d', hd', hid'.trans (by simpa using hid₁)⟩
  · exact ⟨⟨d, by simp, rfl⟩, fun d₀ hd₀ => ⟨d₀, by simp [hd₀], rfl⟩⟩

theorem covered_use {d : CompositeDependency} (h : use d s = .ok ((), s'))
    (hs : Covered available available' s') :
    Covered available available' s ∧ available' d.workflowId = available d.workflowId := by
  obtain ⟨⟨d', hd', hid⟩, hkeep⟩ := mem_use h
  refine ⟨fun d₀ hd₀ => ?_, hid ▸ hs d' hd'⟩
  obtain ⟨d₁, hd₁, hid₁⟩ := hkeep d₀ hd₀
  exact hid₁ ▸ hs d₁ hd₁

/-- `invoke'` goes the way of `invoke` wherever the versions agree on what was used. -/
def Follows (available available' : String → Option VersionedWorkflowDefinition) (invoke invoke' : Expand) : Prop :=
  ∀ w path stack s X s', invoke w path stack s = .ok (X, s') → Covered available available' s' →
    invoke' w path stack s = .ok (X, s') ∧ Covered available available' s

theorem expandBlock_covered {invoke invoke' : Expand} {childId : String} {part : Part}
    (hinvoke : Follows available available' invoke invoke')
    (h : expandBlock available invoke path stack node childId s = .ok (part, s'))
    (hs : Covered available available' s') :
    expandBlock available' invoke' path stack node childId s = .ok (part, s') ∧
      Covered available available' s := by
  unfold expandBlock at h ⊢
  by_cases hstack : stack.contains childId = true
  · rw [if_pos hstack] at h
    cases h
  rw [if_neg hstack] at h ⊢
  cases hv : available childId with
  | none =>
    simp only [hv] at h
    cases h
  | some v =>
  simp only [hv] at h
  by_cases hexposed : (v.definition.exposableAsBlock != some true) = true
  · rw [if_pos hexposed] at h
    cases h
  rw [if_neg hexposed] at h
  obtain ⟨refs, hrefs, h⟩ := stateT_lift_bind_ok.mp h
  obtain ⟨_, s₁, huse, h⟩ := stateT_bind_ok.mp h
  obtain ⟨Y, s₂, hY, h⟩ := stateT_bind_ok.mp h
  obtain ⟨entry, hentry, h⟩ := stateT_lift_bind_ok.mp h
  have hs₂ : s₂ = s' := by
    cases hterminal : Y.nodes.find? fun n => Y.edges.all (·.source != n.id) with
    | none =>
      simp only [hterminal] at h
      cases h
    | some terminal =>
      simp only [hterminal] at h
      cases h
      rfl
  obtain ⟨hY', hs₁⟩ := hinvoke _ _ _ _ _ _ hY (by rwa [hs₂])
  obtain ⟨hs₀, hchild⟩ := covered_use huse hs₁
  refine ⟨?_, hs₀⟩
  rw [show available' childId = some v from hchild.trans hv]
  simp only [if_neg hexposed]
  exact stateT_lift_bind_ok.mpr ⟨refs, hrefs, stateT_bind_ok.mpr ⟨_, s₁, huse, stateT_bind_ok.mpr ⟨Y, s₂, hY',
    stateT_lift_bind_ok.mpr ⟨entry, hentry, h⟩⟩⟩⟩

theorem expandNode_covered {invoke invoke' : Expand} {part : Part}
    (hinvoke : Follows available available' invoke invoke')
    (h : expandNode root available invoke workflow path stack node s = .ok (part, s'))
    (hs : Covered available available' s') :
    expandNode root available' invoke' workflow path stack node s = .ok (part, s') ∧
      Covered available available' s := by
  unfold expandNode at h ⊢
  obtain ⟨config, hconfig, h⟩ := stateT_lift_bind_ok.mp h
  cases hids : config.workflowIds with
  | nil =>
    simp only [hids] at h
    refine ⟨stateT_lift_bind_ok.mpr ⟨config, hconfig, by simpa only [hids] using h⟩, ?_⟩
    exact covered_congr (expandPrimitive_ok h).2.1 hs
  | cons childId rest =>
    simp only [hids] at h
    obtain ⟨h', hs₀⟩ := expandBlock_covered hinvoke h hs
    exact ⟨stateT_lift_bind_ok.mpr ⟨config, hconfig, by simpa only [hids] using h'⟩, hs₀⟩

/-- **An expansion goes the same way** over versions that agree on what it used. -/
theorem expand_follows (depth : ℕ) :
    Follows available available' (expand root available depth) (expand root available' depth) := by
  induction depth with
  | zero =>
    intro _ _ _ _ _ _ h
    cases h
  | succ depth ih =>
    intro workflow path stack s X s' h hs
    unfold expand at h ⊢
    obtain ⟨parts, s₁, hparts, h⟩ := stateT_bind_ok.mp h
    obtain ⟨edges, s₂, hedges, h⟩ := stateT_bind_ok.mp h
    cases h
    have hs₁ := covered_congr (mapM_expandEdge_ok hedges).2.1 hs
    have hstep : ∀ n t part t',
        expandNode root available (expand root available depth) workflow path stack n t = .ok (part, t') →
        Covered available available' t' →
        expandNode root available' (expand root available' depth) workflow path stack n t = .ok (part, t') ∧
          Covered available available' t := fun _ _ _ _ h ht => expandNode_covered ih h ht
    obtain ⟨hparts', hs₀⟩ := stateT_mapM_congr hstep hparts hs₁
    exact ⟨stateT_bind_ok.mpr ⟨parts, s₁, hparts', stateT_bind_ok.mpr ⟨edges, s', hedges, rfl⟩⟩, hs₀⟩

/-! ### Where the dependencies come from -/

/-- Every dependency is a version that was available. -/
def Frozen (available : String → Option VersionedWorkflowDefinition) (s : Composer) : Prop :=
  ∀ d ∈ s.used, available d.workflowId = some ⟨d.definition, d.revision, d.accepted⟩

theorem frozen_use {id : String} {v : VersionedWorkflowDefinition} {refs : List String}
    (hv : available id = some v) (h : use ⟨id, v.fileSha, v.definition, refs, v.accepted⟩ s = .ok ((), s'))
    (hs : Frozen available s) : Frozen available s' := by
  cases h
  intro d hd
  dsimp only at hd
  split at hd
  · obtain ⟨d₀, hd₀, rfl⟩ := List.mem_map.mp hd
    split
    · exact hv
    · exact hs d₀ hd₀
  · rcases List.mem_append.mp hd with hd | hd
    · exact hs d hd
    · obtain rfl := List.mem_singleton.mp hd
      exact hv

theorem expand_frozen : ∀ {depth : ℕ} {workflow : WorkflowDefinitionV2} {path : List InvocationSegment}
    {stack : List String} {s s' : Composer} {X : WorkflowDefinitionV2}, Frozen available s →
    expand root available depth workflow path stack s = .ok (X, s') → Frozen available s'
  | 0, _, _, _, _, _, _, _, h => by cases h
  | depth + 1, workflow, path, stack, s, s', X, hs, h => by
    obtain ⟨parts, edges, s₁, hparts, hedges, -⟩ := expand_ok h
    have hs₁ : Frozen available s₁ := by
      refine (stateT_mapM_ok (fun n t part t' ht hn => ?_) hs hparts).1
      rcases expandNode_ok hn with ⟨-, hn⟩ | ⟨childId, -, hn⟩
      · intro d hd
        rw [(expandPrimitive_ok hn).2.1] at hd
        exact ht d hd
      · obtain ⟨v, refs, Y, t₁, entry, terminal, hv, huse, hY, -⟩ := expandBlock_ok hn
        exact expand_frozen (frozen_use hv huse ht) hY
    intro d hd
    rw [(mapM_expandEdge_ok hedges).2.1] at hd
    exact hs₁ d hd

/-- The versions a composition froze. -/
def frozenVersions (c : WorkflowCompositionSnapshot) : List VersionedWorkflowDefinition :=
  c.dependencies.map fun d => ⟨d.definition, d.revision, d.accepted⟩

theorem covered_frozen {versions : List VersionedWorkflowDefinition} {c : WorkflowCompositionSnapshot}
    (hs : Frozen (availableIn versions) s) (hmem : ∀ d, d ∈ c.dependencies ↔ d ∈ s.used)
    (hnd : (c.dependencies.map (·.workflowId)).Nodup) :
    Covered (availableIn versions) (availableIn (frozenVersions c)) s := by
  have hid : ∀ d ∈ c.dependencies, d.definition.id = d.workflowId := by
    intro d hd
    have hfound := List.find?_some (hs d ((hmem d).mp hd))
    simpa using hfound
  intro d hd
  rw [hs d hd]
  have hdep := (hmem d).mpr hd
  unfold availableIn
  cases hf : (frozenVersions c).reverse.find? (·.definition.id == d.workflowId) with
  | none =>
    have hin : (⟨d.definition, d.revision, d.accepted⟩ : VersionedWorkflowDefinition) ∈ (frozenVersions c).reverse :=
      List.mem_reverse.mpr (List.mem_map.mpr ⟨d, hdep, rfl⟩)
    exact absurd (List.find?_eq_none.mp hf _ hin) (by simp [hid d hdep])
  | some v =>
    have hin : v ∈ frozenVersions c := by simpa using List.mem_of_find?_eq_some hf
    obtain ⟨d', hd', rfl⟩ := List.mem_map.mp hin
    have hsame : d'.workflowId = d.workflowId := by
      have hfound := List.find?_some hf
      rw [← hid d' hd']
      simpa using hfound
    rw [List.inj_on_of_nodup_map hnd hd' hdep hsame]

end ADT.Workflow
