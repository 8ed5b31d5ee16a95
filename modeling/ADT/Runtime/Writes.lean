import ADT.Runtime.RuntimePlan

/-!
# Runtime.Writes — what a superstep writes

The updates of the nodes of a superstep are merged one after the other.  For the supersteps of a disciplined
run the result is `Written`: every node that ran and is no Condition has its new record, and of the other
records only unpublished ones are gone.
-/

namespace ADT.Runtime

open Workflow Superstep WorkflowDefinitionV2

section Writes

variable {env : Environment} {p : ExecutionPlan} {input : String}

/-- The updates of a superstep in the order they are merged. -/
def updates (writes : List (Option (List OutputRecord))) : List OutputRecord := writes.flatMap (·.getD [])

theorem applyWrites_spec (writes : List (Option (List OutputRecord))) : ∀ {st : GraphState}, Keyed st.outputs →
    Keyed (applyWrites st writes).outputs ∧
      ∀ id, lookup (applyWrites st writes).outputs id = updated (lookup st.outputs id) (updates writes) id := by
  induction writes with
  | nil => exact fun hk => ⟨hk, fun _ => rfl⟩
  | cons write writes ih =>
    intro st hk
    cases write with
    | none => exact ih hk
    | some us =>
      obtain ⟨hk', hl'⟩ := lookup_mergeOutputs hk us
      obtain ⟨i1, i2⟩ := @ih { st with outputs := mergeOutputs st.outputs us } hk'
      refine ⟨i1, fun id => ?_⟩
      have hcons : updates (some us :: writes) = us ++ updates writes := rfl
      rw [hcons, updated_append, ← hl']
      exact i2 id

/-- What the activation of a node in superstep `n` writes. -/
def writeAt (env : Environment) (p : ExecutionPlan) (input : String) (n : ℕ) (st : GraphState) (id : String) :
    Option (List OutputRecord) :=
  match findNode p id with
  | some node => (outputAt env p input n id).map fun text =>
      tombstones p st node ++ [outputRecord st (env.task n id) node text]
  | none => none

variable {id : String} {old : Option OutputRecord}

theorem activate_writeAt {n : ℕ} {c : Config} (hc : run env p input n = .ok c) {write : Option (List OutputRecord)}
    (h : activate p c.graph (env.task n id) (env.answer n id) id = .ok write) :
    write = writeAt env p input n c.graph id ∧ (outputAt env p input n id = none ↔ isCondition p id = true) := by
  obtain ⟨node, text, hn, hout, rfl⟩ := activate_ok h
  have hat : outputAt env p input n id = text := by simp only [outputAt, hc, hn, hout]
  refine ⟨by simp only [writeAt, hn, hat], ?_⟩
  rw [hat, nodeOutput_none_iff hout, isCondition, hn, Option.any_some, beq_iff_eq]

theorem writes_eq {n : ℕ} {c : Config} (hc : run env p input n = .ok c) :
    ∀ {l : List String} {writes : List (Option (List OutputRecord))},
      List.Forall₂ (fun id write => activate p c.graph (env.task n id) (env.answer n id) id = .ok write) l writes →
      writes = l.map (writeAt env p input n c.graph) ∧
        ∀ id ∈ l, (outputAt env p input n id = none ↔ isCondition p id = true)
  | [], _, .nil => ⟨rfl, by simp⟩
  | a :: l, _, .cons h hs => by
    obtain ⟨i1, i2⟩ := writes_eq hc hs
    obtain ⟨h1, h2⟩ := activate_writeAt hc h
    refine ⟨by rw [List.map_cons, ← h1, ← i1], fun id hid => ?_⟩
    rcases List.mem_cons.mp hid with rfl | hid
    · exact h2
    · exact i2 id hid

/-- The records after a disciplined superstep: every node that ran and is no Condition has its new record; of
the others only unpublished ones are gone. -/
structure Written (env : Environment) (p : ExecutionPlan) (input : String) (n : ℕ) (c c' : Config) : Prop where
  keyed : Keyed c'.graph.outputs
  initial : c'.graph.initialInput = c.graph.initialInput
  executions : c'.graph.executions = c.graph.executions + c.control.active.card
  ran : ∀ a ∈ c.control.active, isCondition p a = false → ∃ text, outputAt env p input n a = some text ∧
    lookup c'.graph.outputs a = some ⟨env.task n a, a, some text, c.graph.executions + 1⟩
  kept : ∀ id, (id ∈ c.control.active → isCondition p id = true) →
    lookup c'.graph.outputs id = lookup c.graph.outputs id ∨
      lookup c'.graph.outputs id = none ∧ publishes p id = false
  quiet : (∀ a ∈ c.control.active, isCondition p a = true) → c'.graph.outputs = c.graph.outputs

theorem order_length (env : Environment) (n : ℕ) (active : Finset String) :
    (env.order n active).1.length = active.card := by
  have hspec := (env.order n active).2
  have hfin : (env.order n active).1.toFinset = active := Finset.ext fun x => by
    rw [List.mem_toFinset, hspec.2]
  rw [← List.toFinset_card_of_nodup hspec.1, hfin]

theorem updated_single {us : List OutputRecord} {r : OutputRecord}
    (hus : ∀ x ∈ us, x.output = none ∧ publishes p x.nodeId = false) (hr : r.output ≠ none) :
    (id = r.nodeId → updated old (us ++ [r]) id = some r) ∧ (id ≠ r.nodeId → updated old (us ++ [r]) id = old ∨
      updated old (us ++ [r]) id = none ∧ publishes p id = false) := by
  rw [updated_concat]
  refine ⟨fun h => by rw [if_pos h, if_neg hr], fun h => ?_⟩
  rw [if_neg h, updated_tombstones fun x hx => (hus x hx).1]
  split_ifs with hex
  · obtain ⟨x, hx, rfl⟩ := hex
    exact .inr ⟨rfl, (hus x hx).2⟩
  · exact .inl rfl

theorem updated_records {f : String → OutputRecord} (hf : ∀ a, (f a).nodeId = a)
    (ho : ∀ a, (f a).output ≠ none) : ∀ {l : List String},
    updated old (l.map f) id = if id ∈ l then some (f id) else old := by
  intro l
  induction l using List.reverseRecOn with
  | nil => rfl
  | append_singleton l a ih =>
    rw [List.map_append, List.map_singleton, updated_concat, ih, hf, if_neg (ho a)]
    by_cases hid : id = a
    · simp [hid]
    · simp [hid]

section Cases

variable {n : ℕ} {c c' : Config} (hc : run env p input n = .ok c) (hs : superstep env p n c = .ok c')
  (hk : Keyed c.graph.outputs)

include hc hs hk

/-- **What a superstep records.** -/
theorem superstep_records : Keyed c'.graph.outputs ∧
    (∀ id, lookup c'.graph.outputs id = updated (lookup c.graph.outputs id)
      (updates ((env.order n c.control.active).1.map (writeAt env p input n c.graph))) id) ∧
    (∀ a ∈ c.control.active, outputAt env p input n a = none ↔ isCondition p a = true) ∧
    c'.graph.initialInput = c.graph.initialInput ∧
    c'.graph.executions = c.graph.executions + c.control.active.card ∧
    ((∀ a ∈ c.control.active, isCondition p a = true) → c'.graph.outputs = c.graph.outputs) := by
  obtain ⟨writes, hw, -, hg⟩ := superstep_ok hs
  obtain ⟨hwr, hout⟩ := writes_eq hc hw
  have hmem := (env.order n c.control.active).2.2
  obtain ⟨h1, h2⟩ := applyWrites_spec writes hk
  rw [hg]
  refine ⟨h1, fun id => by rw [h2, hwr], fun a ha => hout a ((hmem a).mpr ha), rfl, ?_, fun hcond => ?_⟩
  · show c.graph.executions + writes.length = _
    rw [hwr, List.length_map, order_length]
  · show writes.foldl _ c.graph.outputs = c.graph.outputs
    have hnone : ∀ write ∈ writes, write = none := by
      rw [hwr]
      intro write hwrite
      obtain ⟨a, ha, rfl⟩ := List.mem_map.mp hwrite
      rw [writeAt, (hout a ha).mpr (hcond a ((hmem a).mp ha))]
      split <;> rfl
    clear * - hnone
    induction writes with
    | nil => rfl
    | cons write writes ih =>
      rw [List.foldl_cons, hnone write (by simp)]
      exact ih fun x hx => hnone x (by simp [hx])

theorem written_single {a : String} (ha : c.control.active = {a}) : Written env p input n c c' := by
  obtain ⟨h1, h2, h3, h4, h5, h6⟩ := superstep_records hc hs hk
  have hspec := (env.order n c.control.active).2
  have horder : (env.order n c.control.active).1 = [a] :=
    eq_singleton_of_nodup hspec.1 fun x => by rw [hspec.2, ha, Finset.mem_singleton]
  rw [horder] at h2
  have hact : a ∈ c.control.active := by simp [ha]
  by_cases hcond : isCondition p a = true
  · -- a Condition writes nothing
    have hsame : c'.graph.outputs = c.graph.outputs := h6 fun x hx => by
      rw [ha, Finset.mem_singleton] at hx; rwa [hx]
    refine ⟨h1, h4, h5, fun x hx hxc => ?_, fun id _ => .inl (by rw [hsame]), h6⟩
    rw [ha, Finset.mem_singleton] at hx
    rw [hx, hcond] at hxc
    cases hxc
  · obtain ⟨writes, hw, -, -⟩ := superstep_ok hs
    rw [horder] at hw
    cases hw with
    | cons hact' _ =>
    obtain ⟨node, text, hn, hout, -⟩ := activate_ok hact'
    obtain ⟨t, ht⟩ : ∃ t, outputAt env p input n a = some t :=
      Option.ne_none_iff_exists'.mp fun hnone => hcond ((h3 a hact).mp hnone)
    obtain ⟨-, hid⟩ := findNode_id hn
    have hups : updates ([a].map (writeAt env p input n c.graph)) = tombstones p c.graph node ++
        [⟨env.task n a, a, some t, c.graph.executions + 1⟩] := by
      simp [updates, writeAt, hn, ht, outputRecord, hid]
    rw [hups] at h2
    refine ⟨h1, h4, h5, ?_, ?_, h6⟩
    · intro x hx _
      rw [ha, Finset.mem_singleton] at hx
      rw [hx]
      exact ⟨t, ht, by rw [h2]; exact (updated_single tombstones_spec (by simp)).1 rfl⟩
    · intro id hidc
      have hne : id ≠ a := fun h => hcond (h ▸ hidc (by simp [ha, h]))
      rw [h2]
      exact (updated_single tombstones_spec (by simp)).2 hne

/-- What a step without conditions and tombstones writes. -/
theorem written_branches (hno : ∀ a ∈ c.control.active, isCondition p a = false)
    (htomb : ∀ a ∈ c.control.active, ∀ node, findNode p a = some node → tombstones p c.graph node = []) :
    Written env p input n c c' := by
  obtain ⟨h1, h2, h3, h4, h5, h6⟩ := superstep_records hc hs hk
  have hmem := (env.order n c.control.active).2.2
  obtain ⟨writes, hw, -, -⟩ := superstep_ok hs
  let f : String → OutputRecord := fun a =>
    ⟨env.task n a, a, some ((outputAt env p input n a).getD ""), c.graph.executions + 1⟩
  have hout : ∀ a ∈ c.control.active, ∃ t, outputAt env p input n a = some t := fun a ha =>
    Option.ne_none_iff_exists'.mp fun hnone => by
      have := (h3 a ha).mp hnone
      rw [hno a ha] at this
      cases this
  have hwrite : ∀ a ∈ c.control.active, writeAt env p input n c.graph a = some [f a] := by
    intro a ha
    obtain ⟨t, ht⟩ := hout a ha
    obtain ⟨write, -, hact⟩ := exists_of_forall₂_left hw ((hmem a).mpr ha)
    obtain ⟨node, -, hn, -, -⟩ := activate_ok hact
    obtain ⟨-, hid⟩ := findNode_id hn
    simp [writeAt, hn, ht, htomb a ha node hn, outputRecord, hid, f]
  have hups : updates ((env.order n c.control.active).1.map (writeAt env p input n c.graph)) =
      (env.order n c.control.active).1.map f := by
    have hall : ∀ l : List String, (∀ a ∈ l, a ∈ c.control.active) →
        updates (l.map (writeAt env p input n c.graph)) = l.map f := by
      intro l hl
      induction l with
      | nil => rfl
      | cons a l ih =>
        have ih' := ih fun x hx => hl x (by simp [hx])
        rw [List.map_cons, List.map_cons, hwrite a (hl a (by simp)), ← ih']
        rfl
    exact hall _ fun a ha => (hmem a).mp ha
  have hlook : ∀ id, lookup c'.graph.outputs id =
      if id ∈ c.control.active then some (f id) else lookup c.graph.outputs id := by
    intro id
    rw [h2, hups, updated_records (fun _ => rfl) (fun a => by simp [f])]
    simp only [hmem]
  refine ⟨h1, h4, h5, ?_, ?_, h6⟩
  · intro a ha _
    obtain ⟨t, ht⟩ := hout a ha
    exact ⟨t, ht, by rw [hlook, if_pos ha]; simp [f, ht]⟩
  · intro id hid
    refine .inl ?_
    rw [hlook, if_neg]
    intro ha
    have := hid ha
    rw [hno id ha] at this
    cases this

end Cases

end Writes

end ADT.Runtime
