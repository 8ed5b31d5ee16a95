import ADT.Runtime.State

/-!
# Runtime.Records — what the records say

The records of a state have distinct nodes, so they are a finite map: `lookup`.  Every update is described by
what it does to `lookup` (`lookup_mergeOutputs`), and what a node reads by `lookup` alone
(`latestRecord_eq`, `selectedRecord_eq`).  The effective sources are exactly the nodes that lead to a node
through Conditions (`mem_effectiveSources`).
-/

namespace ADT.Runtime

open Workflow

/-! ### Records as a finite map -/

def lookup (rs : List OutputRecord) (id : String) : Option OutputRecord := rs.find? (·.nodeId == id)

/-- No two records are of one node. -/
def Keyed (rs : List OutputRecord) : Prop := (rs.map (·.nodeId)).Nodup

variable {rs : List OutputRecord} {id : String} {r : OutputRecord} {m : List OutputRecord} {old : Option OutputRecord}
  {us : List OutputRecord} {p : ExecutionPlan}

theorem lookup_some (h : lookup rs id = some r) :
    r ∈ rs ∧ r.nodeId = id := ⟨List.mem_of_find?_eq_some h, by simpa using List.find?_some h⟩

theorem lookup_iff (hk : Keyed rs) : lookup rs id = some r ↔ r ∈ rs ∧ r.nodeId = id := by
  refine ⟨lookup_some, ?_⟩
  rintro ⟨hr, rfl⟩
  cases hf : lookup rs r.nodeId with
  | none => exact absurd (List.find?_eq_none.mp hf r hr) (by simp)
  | some x =>
    obtain ⟨hx, he⟩ := lookup_some hf
    rw [List.inj_on_of_nodup_map hk hx hr he]

theorem lookup_perm {rs' : List OutputRecord} (hk : Keyed rs) (hp : rs.Perm rs') (id : String) :
    lookup rs' id = lookup rs id := by
  have hk' : Keyed rs' := (hp.map _).nodup_iff.mp hk
  refine Option.ext fun r => ?_
  rw [lookup_iff hk', lookup_iff hk, hp.mem_iff]

theorem keyed_setRecord (hk : Keyed m) (r : OutputRecord) : Keyed (setRecord m r) := by
  unfold setRecord
  split_ifs with hany
  · have hmap : (m.map fun x => if x.nodeId == r.nodeId then r else x).map (·.nodeId) = m.map (·.nodeId) := by
      rw [List.map_map]
      refine List.map_congr_left fun x _ => ?_
      by_cases hx : x.nodeId = r.nodeId
      · simp [hx]
      · simp [hx]
    rw [Keyed, hmap]
    exact hk
  · rw [Keyed, List.map_append, List.nodup_append]
    refine ⟨hk, by simp, fun a ha b hb hab => hany ?_⟩
    obtain ⟨x, hx, rfl⟩ := List.mem_map.mp ha
    simp only [List.map_cons, List.map_nil, List.mem_singleton] at hb
    exact List.any_eq_true.mpr ⟨x, hx, by simp [hab, hb]⟩

theorem lookup_setRecord (r : OutputRecord) (id : String) :
    lookup (setRecord m r) id = if id = r.nodeId then some r else lookup m id := by
  unfold setRecord lookup
  split_ifs with hany hid hid
  · subst hid
    rw [List.find?_map]
    obtain ⟨x, hx, hxr⟩ := List.any_eq_true.mp hany
    have hsome : (m.find? ((fun y => y.nodeId == r.nodeId) ∘ fun y =>
        if (y.nodeId == r.nodeId) = true then r else y)).isSome := by
      rw [List.find?_isSome]
      exact ⟨x, hx, by simp only [Function.comp_apply, if_pos hxr]; simp⟩
    obtain ⟨y, hy⟩ := Option.isSome_iff_exists.mp hsome
    rw [hy, Option.map_some]
    have hyr := List.find?_some hy
    by_cases hyid : (y.nodeId == r.nodeId) = true
    · rw [if_pos hyid]
    · simp only [Function.comp_apply, if_neg hyid] at hyr
      exact absurd hyr hyid
  · rw [List.find?_map]
    have hcongr : (fun y : OutputRecord => y.nodeId == id) ∘ (fun y =>
        if (y.nodeId == r.nodeId) = true then r else y) = fun y => y.nodeId == id := by
      funext y
      by_cases hy : y.nodeId = r.nodeId
      · simp [hy]
      · simp [hy]
    rw [hcongr]
    cases hf : m.find? (fun y => y.nodeId == id) with
    | none => rfl
    | some y =>
      have hyid : y.nodeId = id := by simpa using List.find?_some hf
      rw [Option.map_some, if_neg (by simpa [hyid] using hid)]
  · subst hid
    have hnone : m.find? (·.nodeId == r.nodeId) = none := by
      rw [List.find?_eq_none]
      intro x hx hxr
      exact hany (List.any_eq_true.mpr ⟨x, hx, hxr⟩)
    rw [List.find?_append, hnone]
    simp
  · rw [List.find?_append]
    simp [Ne.symm hid]

theorem keyed_mergeRecord (hk : Keyed m) (r : OutputRecord) : Keyed (mergeRecord m r) := by
  unfold mergeRecord
  split_ifs
  · exact hk.sublist (List.Sublist.map _ List.filter_sublist)
  · exact keyed_setRecord hk r

theorem lookup_mergeRecord (r : OutputRecord) (id : String) : lookup (mergeRecord m r) id =
      if id = r.nodeId then (if r.output = none then none else some r) else lookup m id := by
  unfold mergeRecord
  by_cases hr : r.output = none
  · rw [if_pos hr, if_pos hr, lookup, List.find?_filter]
    by_cases hid : id = r.nodeId
    · rw [if_pos hid, List.find?_eq_none]
      intro x _
      simp [hid]
    · rw [if_neg hid]
      refine congrArg (fun f => List.find? f m) (funext fun x => ?_)
      by_cases hx : x.nodeId = id
      · simp [hx, hid]
      · simp [hx]
  · rw [if_neg hr, if_neg hr, lookup_setRecord]

/-- What an update leaves for a node: its last record there, if it has one that is no tombstone. -/
def updated (old : Option OutputRecord) (us : List OutputRecord) (id : String) : Option OutputRecord :=
  us.foldl (fun acc r => if id = r.nodeId then (if r.output = none then none else some r) else acc) old

theorem foldl_merge (us : List OutputRecord) (id : String) : ∀ {m : List OutputRecord}, Keyed m →
    Keyed (us.foldl mergeRecord m) ∧ lookup (us.foldl mergeRecord m) id = updated (lookup m id) us id := by
  induction us with
  | nil => exact fun hk => ⟨hk, rfl⟩
  | cons r us ih =>
    intro m hk
    obtain ⟨h1, h2⟩ := ih (keyed_mergeRecord hk r)
    exact ⟨h1, by rw [List.foldl_cons, h2, updated, updated, List.foldl_cons, lookup_mergeRecord]⟩

theorem foldl_set_of_keyed : ∀ (l m : List OutputRecord), Keyed (m ++ l) → l.foldl setRecord m = m ++ l
  | [], m, _ => by simp
  | r :: l, m, hk => by
    have hnew : m.any (·.nodeId == r.nodeId) = false := by
      rw [List.any_eq_false]
      intro x hx hxr
      rw [Keyed, List.map_append, List.nodup_append] at hk
      exact hk.2.2 _ (List.mem_map.mpr ⟨x, hx, rfl⟩) _ (List.mem_map.mpr ⟨r, by simp, rfl⟩) (by simpa using hxr)
    rw [List.foldl_cons, setRecord, if_neg (by simp [hnew]),
      foldl_set_of_keyed l (m ++ [r]) (by simpa using hk)]
    simp

/-- **An update, as seen by `lookup`.** -/
theorem lookup_mergeOutputs {l : List OutputRecord} (hk : Keyed l) (us : List OutputRecord) :
    Keyed (mergeOutputs l us) ∧ ∀ id, lookup (mergeOutputs l us) id = updated (lookup l id) us id := by
  have hbuild : l.foldl setRecord [] = l := foldl_set_of_keyed l [] (by simpa using hk)
  unfold mergeOutputs
  rw [hbuild]
  have hperm := (List.perm_insertionSort byNodeId (us.foldl mergeRecord l)).symm
  have hkey : Keyed (us.foldl mergeRecord l) := (foldl_merge us "" hk).1
  exact ⟨(hperm.map _).nodup_iff.mp hkey, fun id => by
    rw [lookup_perm hkey hperm, (foldl_merge us id hk).2]⟩

theorem updated_append (old : Option OutputRecord) (us vs : List OutputRecord) (id : String) :
    updated old (us ++ vs) id = updated (updated old us id) vs id := by
  rw [updated, List.foldl_append]; rfl

theorem updated_of_not_mem (h : ∀ r ∈ us, r.nodeId ≠ id) : updated old us id = old := by
  induction us generalizing old with
  | nil => rfl
  | cons r us ih =>
    rw [updated, List.foldl_cons, if_neg (Ne.symm (h r (by simp)))]
    exact ih fun x hx => h x (by simp [hx])

theorem updated_concat : updated old (us ++ [r]) id =
      if id = r.nodeId then (if r.output = none then none else some r) else updated old us id := by
  rw [updated_append]; rfl

theorem updated_tombstones (h : ∀ r ∈ us, r.output = none) :
    updated old us id = if ∃ r ∈ us, r.nodeId = id then none else old := by
  induction us generalizing old with
  | nil => simp [updated]
  | cons r us ih =>
    rw [updated, List.foldl_cons]
    have hrest := @ih (if id = r.nodeId then (if r.output = none then none else some r) else old)
      fun x hx => h x (by simp [hx])
    rw [updated] at hrest
    rw [hrest, h r (by simp)]
    by_cases hid : id = r.nodeId
    · simp [hid]
    · simp [hid, Ne.symm hid]

theorem latestRecord_eq (hk : Keyed rs) (id : String) : latestRecord rs id = lookup rs id := by
  have hlen : (rs.filter (·.nodeId == id)).length ≤ 1 := by
    have hnd : ((rs.filter (·.nodeId == id)).map (·.nodeId)).Nodup :=
      hk.sublist (List.Sublist.map _ List.filter_sublist)
    have hall : ∀ x ∈ (rs.filter (·.nodeId == id)).map (·.nodeId), x = id := by
      intro x hx
      obtain ⟨r, hr, rfl⟩ := List.mem_map.mp hx
      simpa using (List.mem_filter.mp hr).2
    rw [List.eq_replicate_of_mem hall, List.nodup_replicate, List.length_map] at hnd
    exact hnd
  have hlook : lookup rs id = (rs.filter (·.nodeId == id)).head? := by rw [List.head?_filter]; rfl
  rw [latestRecord, hlook]
  match hl : rs.filter (·.nodeId == id) with
  | [] => rw [hl]; rfl
  | [r] => rw [hl]; rfl
  | r :: r' :: l => simp [hl] at hlen

/-! ### Effective sources -/

/-- `s` leads to `id` by an edge, or by an edge to a Condition that does. -/
inductive Leads (p : ExecutionPlan) : String → String → Prop
  | direct {e : ResolvedEdge} : e ∈ p.edges → Leads p e.source e.target
  | through {s : String} {e : ResolvedEdge} : Leads p s e.source → isCondition p e.source = true → e ∈ p.edges →
      Leads p s e.target

section Sources

variable {p : ExecutionPlan}

theorem sourcesFrom_sound {visit : List String → String → List String × List String} {id : String}
    (hv : ∀ seen c, ∀ s ∈ (visit seen c).1, isCondition p s = false ∧ Leads p s c) :
    ∀ (es : List ResolvedEdge) (seen : List String), (∀ e ∈ es, e ∈ p.edges ∧ e.target = id) →
      ∀ s ∈ (sourcesFrom (isCondition p) visit seen es).1, isCondition p s = false ∧ Leads p s id
  | [], _, _, s, hs => by simp [sourcesFrom] at hs
  | e :: es, seen, he, s, hs => by
    obtain ⟨hmem, rfl⟩ := he e (by simp)
    simp only [sourcesFrom, List.mem_append] at hs
    rcases hs with hs | hs
    · by_cases hc : isCondition p e.source = true
      · rw [if_pos hc] at hs
        obtain ⟨h1, h2⟩ := hv _ _ s hs
        exact ⟨h1, .through h2 hc hmem⟩
      · rw [if_neg hc, List.mem_singleton] at hs
        rw [hs]
        exact ⟨by simpa using hc, .direct hmem⟩
    · exact sourcesFrom_sound hv es _ (fun x hx => he x (by simp [hx])) s hs

theorem effectiveSourcesFrom_sound : ∀ (fuel : ℕ) (seen : List String) (id : String),
    ∀ s ∈ (effectiveSourcesFrom p fuel seen id).1, isCondition p s = false ∧ Leads p s id
  | 0, _, _, s, hs => by simp [effectiveSourcesFrom] at hs
  | fuel + 1, seen, id, s, hs => by
    unfold effectiveSourcesFrom at hs
    split_ifs at hs
    · simp at hs
    · simp only [List.mem_insertionSort, List.mem_eraseDups] at hs
      refine sourcesFrom_sound (effectiveSourcesFrom_sound fuel) _ _ (fun e he => ?_) s hs
      simpa using List.mem_filter.mp he

/-- Every node added to the seen-set has its sources among the seen Conditions and the result. -/
def Covered (p : ExecutionPlan) (seen seen' found : List String) : Prop :=
  ∀ y ∈ seen', y ∉ seen → ∀ e ∈ p.edges, e.target = y →
    if isCondition p e.source then e.source ∈ seen' else e.source ∈ found

theorem Covered.mono {seen seen' seen'' found found' : List String} (h : Covered p seen seen' found)
    (hs : seen' ⊆ seen'') (hf : found ⊆ found') :
    ∀ y ∈ seen', y ∉ seen → ∀ e ∈ p.edges, e.target = y →
      if isCondition p e.source then e.source ∈ seen'' else e.source ∈ found' := by
  intro y hy hn e he ht
  have := h y hy hn e he ht
  split_ifs at this ⊢ with hc
  · exact hs this
  · exact hf this

variable {U : List String}

theorem sourcesFrom_complete {visit : List String → String → List String × List String} {fuel : ℕ}
    (hv : ∀ seen c, c ∈ U → Search.Enough U seen fuel →
      c ∈ (visit seen c).2 ∧ seen ⊆ (visit seen c).2 ∧ Covered p seen (visit seen c).2 (visit seen c).1) :
    ∀ (es : List ResolvedEdge) (seen : List String), (∀ e ∈ es, e.source ∈ U) → Search.Enough U seen fuel →
      seen ⊆ (sourcesFrom (isCondition p) visit seen es).2 ∧
      Covered p seen (sourcesFrom (isCondition p) visit seen es).2 (sourcesFrom (isCondition p) visit seen es).1 ∧
      ∀ e ∈ es, if isCondition p e.source then e.source ∈ (sourcesFrom (isCondition p) visit seen es).2
        else e.source ∈ (sourcesFrom (isCondition p) visit seen es).1
  | [], seen, _, _ => ⟨fun _ h => h, fun _ hy hn => absurd hy hn, by simp⟩
  | e :: es, seen, hU, hf => by
    simp only [sourcesFrom]
    set first := if isCondition p e.source then visit seen e.source else ([e.source], seen) with hfirst
    -- the first edge
    have h1 : seen ⊆ first.2 ∧ Covered p seen first.2 first.1 ∧
        if isCondition p e.source then e.source ∈ first.2 else e.source ∈ first.1 := by
      by_cases hc : isCondition p e.source = true
      · obtain ⟨a, b, c⟩ := hv seen e.source (hU e (by simp)) hf
        rw [hfirst, if_pos hc, if_pos hc]
        exact ⟨b, c, a⟩
      · rw [hfirst, if_neg hc, if_neg hc]
        exact ⟨fun _ h => h, fun _ hy hn => absurd hy hn, by simp⟩
    obtain ⟨i1, i2, i3⟩ := sourcesFrom_complete hv es first.2 (fun x hx => hU x (by simp [hx])) (hf.mono h1.1)
    set rest := sourcesFrom (isCondition p) visit first.2 es
    refine ⟨fun x hx => i1 (h1.1 hx), ?_, ?_⟩
    · intro y hy hn d hd ht
      by_cases hyf : y ∈ first.2
      · exact h1.2.1.mono i1 (List.subset_append_left _ _) y hyf hn d hd ht
      · exact i2.mono (fun _ h => h) (List.subset_append_right _ _) y hy hyf d hd ht
    · intro d hd
      rcases List.mem_cons.mp hd with rfl | hd
      · have := h1.2.2
        split_ifs at this ⊢
        · exact i1 this
        · exact List.mem_append_left _ this
      · have := i3 d hd
        split_ifs at this ⊢
        · exact this
        · exact List.mem_append_right _ this

theorem effectiveSourcesFrom_complete (hU : ∀ e ∈ p.edges, e.source ∈ U) :
    ∀ (fuel : ℕ) (seen : List String) (id : String), id ∈ U → Search.Enough U seen fuel →
      id ∈ (effectiveSourcesFrom p fuel seen id).2 ∧ seen ⊆ (effectiveSourcesFrom p fuel seen id).2 ∧
      Covered p seen (effectiveSourcesFrom p fuel seen id).2 (effectiveSourcesFrom p fuel seen id).1
  | 0, _, _, _, hf => absurd hf (by simp [Search.Enough])
  | fuel + 1, seen, id, hid, hf => by
    unfold effectiveSourcesFrom
    split_ifs with hseen
    · exact ⟨by simpa using hseen, fun _ h => h, fun _ hy hn => absurd hy hn⟩
    · obtain ⟨i1, i2, i3⟩ := sourcesFrom_complete (effectiveSourcesFrom_complete hU fuel)
        (p.edges.filter (·.target == id)) (id :: seen) (fun e he => hU e (List.mem_filter.mp he).1)
        (hf.cons hid (by simpa using hseen))
      refine ⟨i1 (by simp), fun x hx => i1 (by simp [hx]), ?_⟩
      intro y hy hn e he ht
      simp only [List.mem_insertionSort, List.mem_eraseDups]
      by_cases hyid : y = id
      · exact i3 e (List.mem_filter.mpr ⟨he, by simpa [hyid] using ht⟩)
      · exact i2 y hy (by simp [hyid, hn]) e he ht

/-- **The effective sources** are the nodes that lead to a node through Conditions alone. -/
theorem mem_effectiveSources {s id : String} :
    s ∈ effectiveSources p id ↔ isCondition p s = false ∧ Leads p s id := by
  refine ⟨effectiveSourcesFrom_sound _ _ _ s, ?_⟩
  rintro ⟨hs, hl⟩
  obtain ⟨h1, -, h3⟩ := effectiveSourcesFrom_complete (p := p) (U := id :: p.edges.map (·.source))
    (fun e he => by simp only [List.mem_cons, List.mem_map]; exact .inr ⟨e, he, rfl⟩)
    (p.edges.length + 2) [] id (by simp) (by simp [Search.Enough])
  -- every Condition on the way is seen
  have hall : ∀ s t, Leads p s t → isCondition p s = false →
      t ∈ (effectiveSourcesFrom p (p.edges.length + 2) [] id).2 → s ∈ effectiveSources p id := by
    intro s t ht
    induction ht with
    | direct he =>
      intro hs hseen
      have := h3 _ hseen (by simp) _ he rfl
      rwa [if_neg (by simp [hs])] at this
    | through _ hc he ih =>
      intro hs hseen
      have := h3 _ hseen (by simp) _ he rfl
      rw [if_pos hc] at this
      exact ih hs this
  exact hall s id hl hs h1

end Sources

/-! ### The selected record -/

instance : Std.Total later := ⟨fun a b => by
  unfold later
  rcases lt_trichotomy a.sequence b.sequence with h | h | h
  · exact .inr (.inl h)
  · rcases String.le_total b.activationId a.activationId with h' | h'
    · exact .inl (.inr ⟨h.symm, h'⟩)
    · exact .inr (.inr ⟨h, h'⟩)
  · exact .inl (.inl h)⟩

instance : IsTrans OutputRecord later := ⟨fun a b c hab hbc => by
  unfold later at *
  rcases hab with hab | ⟨hab, hab'⟩ <;> rcases hbc with hbc | ⟨hbc, hbc'⟩
  · exact .inl (by omega)
  · exact .inl (by omega)
  · exact .inl (by omega)
  · exact .inr ⟨by omega, String.le_trans hbc' hab'⟩⟩

theorem selectedRecord_eq {st : GraphState} (hk : Keyed st.outputs) (hs : r.nodeId ∈ effectiveSources p id)
    (hr : r ∈ st.outputs)
    (hmax : ∀ r' ∈ st.outputs, r' ≠ r → r'.sequence < r.sequence) : selectedRecord p st id = some r := by
  have hmem : ∀ x, x ∈ ((effectiveSources p id).filterMap (latestRecord st.outputs)).insertionSort later →
      x ∈ st.outputs := by
    intro x hx
    obtain ⟨s, -, hsx⟩ := List.mem_filterMap.mp ((List.mem_insertionSort later).mp hx)
    rw [latestRecord_eq hk] at hsx
    exact (lookup_some hsx).1
  have hrm : r ∈ ((effectiveSources p id).filterMap (latestRecord st.outputs)).insertionSort later := by
    rw [List.mem_insertionSort, List.mem_filterMap]
    exact ⟨r.nodeId, hs, by rw [latestRecord_eq hk, lookup_iff hk]; exact ⟨hr, rfl⟩⟩
  have hsorted := List.pairwise_insertionSort later ((effectiveSources p id).filterMap (latestRecord st.outputs))
  unfold selectedRecord
  generalize ((effectiveSources p id).filterMap (latestRecord st.outputs)).insertionSort later = l at *
  cases l with
  | nil => simp at hrm
  | cons x l =>
    show some x = some r
    by_contra hne
    have hxr : x ≠ r := fun h => hne (by rw [h])
    have hlt := hmax x (hmem x (by simp)) hxr
    rcases List.mem_cons.mp hrm with rfl | hrl
    · exact hxr rfl
    · have := (List.pairwise_cons.mp hsorted).1 r hrl
      unfold later at this
      omega

theorem selectedRecord_nil {st : GraphState} (h : st.outputs = []) (id : String) : selectedRecord p st id = none := by
  have hnil : (effectiveSources p id).filterMap (latestRecord st.outputs) = [] := by
    rw [List.filterMap_eq_nil_iff]
    intro s _
    rw [h]
    rfl
  rw [selectedRecord, hnil]
  rfl

end ADT.Runtime
