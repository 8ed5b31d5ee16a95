import ADT.Lib.JsonSize
import ADT.Runtime.Records

/-!
# Runtime.Budget — the size of a state that siblings write to

Each of the nodes of a superstep checks the state with its own update, and reserves room for the records of the others.
The reservation counts the bytes of an output, not those of its encoding: it is enough where the records of the others fit
as they are encoded (`budget_of_reserved`).
-/

namespace ADT.Runtime

open Workflow

/-! ### Siblings -/

def GraphState.own (state : GraphState) (u : List OutputRecord) : GraphState :=
  { state with outputs := mergeOutputs state.outputs u, executions := state.executions + 1 }

def GraphState.merged (state : GraphState) (us : List (List OutputRecord)) : GraphState :=
  { state with outputs := us.foldl mergeOutputs state.outputs, executions := state.executions + us.length }

/-- The state holds a published output. -/
def Publishes (p : ExecutionPlan) (state : GraphState) : Bool :=
  state.outputs.any fun r => r.output.isSome && publishes p r.nodeId

/-- The updates of one superstep, each of which `prospectiveContextState` accepts. -/
structure Siblings (p : ExecutionPlan) (state : GraphState) where
  updates : List (List OutputRecord)
  nonempty : updates ≠ []
  few : updates.length ≤ maxGraphFrontier
  short : ∀ u ∈ updates, ∀ r ∈ u, ∀ output ∈ r.output, byteLength output ≤ maxAgentInputBytes
  accepted : ∀ u ∈ updates, ∃ s, prospectiveContextState p state u = .ok s

/-- The bytes of records in an array, each with its comma. -/
def recordsSize (rs : List OutputRecord) : ℕ := (rs.map fun r => r.toJson.size + 1).sum

def GraphState.digits (state : GraphState) : ℕ := (Json.num state.executions).size

def parallelReservationBytes : ℕ := (maxGraphFrontier - 1) * maxOutputRecordBytes

namespace Siblings

variable {p : ExecutionPlan} {state : GraphState} (x : Siblings p state)

/-- The records that the siblings of the one at `i` write; a tombstone is not encoded. -/
def written (i : ℕ) : List OutputRecord := (x.updates.eraseIdx i).flatten.filter (·.output.isSome)

/-- The digits that the count of the executions gains after the first of the siblings. -/
def growth : ℕ := (Json.num (state.executions + x.updates.length)).size - (Json.num (state.executions + 1)).size

/-- **The reservation is enough** for a sibling whose check counts: the records of the others, with their outputs escaped,
take no more bytes than it reserves. -/
def Reserved : Prop :=
  ∃ i u, x.updates[i]? = some u ∧ Publishes p (state.own u) = true ∧
    recordsSize (x.written i) + x.growth ≤ parallelReservationBytes

/-- The records that others add to the state after an update, and those they replace or delete. -/
def added (u : List OutputRecord) : List OutputRecord :=
  (state.merged x.updates).outputs.filter fun r => !(state.own u).outputs.contains r

def removed (u : List OutputRecord) : List OutputRecord :=
  (state.own u).outputs.filter fun r => !(state.merged x.updates).outputs.contains r

end Siblings

/-! ### Records of a superstep -/

section

variable {l : List OutputRecord} {us : List (List OutputRecord)} {u : List OutputRecord} {id : String}

theorem keyed_foldl_set (l : List OutputRecord) : Keyed (l.foldl setRecord []) := by
  have hall : ∀ m : List OutputRecord, Keyed m → Keyed (l.foldl setRecord m) := by
    induction l with
    | nil => exact fun m hm => hm
    | cons r l ih => exact fun m hm => ih _ (keyed_setRecord hm r)
  exact hall [] List.nodup_nil

theorem mergeOutputs_map (l u : List OutputRecord) : mergeOutputs l u = mergeOutputs (l.foldl setRecord []) u := by
  have hbuild := foldl_set_of_keyed (l.foldl setRecord []) [] (by simpa using keyed_foldl_set l)
  unfold mergeOutputs
  rw [hbuild, List.nil_append]

theorem keyed_mergeOutputs (l u : List OutputRecord) : Keyed (mergeOutputs l u) := by
  rw [mergeOutputs_map]
  exact (lookup_mergeOutputs (keyed_foldl_set l) u).1

theorem lookup_foldl_merge (us : List (List OutputRecord)) (id : String) : ∀ {l : List OutputRecord}, Keyed l →
    Keyed (us.foldl mergeOutputs l) ∧ lookup (us.foldl mergeOutputs l) id = updated (lookup l id) us.flatten id := by
  induction us with
  | nil => exact fun hl => ⟨hl, rfl⟩
  | cons u us ih =>
    intro l hl
    obtain ⟨hkeyed, hlookup⟩ := lookup_mergeOutputs hl u
    obtain ⟨hkeyed', hlookup'⟩ := ih hkeyed
    refine ⟨hkeyed', ?_⟩
    rw [List.foldl_cons, hlookup', hlookup, List.flatten_cons, updated_append]

theorem updated_touched (h : ∃ r ∈ u, r.nodeId = id) (old old' : Option OutputRecord) :
    updated old u id = updated old' u id := by
  induction u using List.reverseRecOn with
  | nil =>
    obtain ⟨r, hr, -⟩ := h
    cases hr
  | append_singleton u r ih =>
    rw [updated_concat, updated_concat]
    by_cases hid : id = r.nodeId
    · rw [if_pos hid, if_pos hid]
    · rw [if_neg hid, if_neg hid]
      refine ih ?_
      obtain ⟨s, hs, hs'⟩ := h
      rcases List.mem_append.mp hs with hs | hs
      · exact ⟨s, hs, hs'⟩
      · rw [List.mem_singleton.mp hs] at hs'
        exact absurd hs'.symm hid

variable {old : Option OutputRecord}

theorem updated_some {r : OutputRecord} (h : updated old u id = some r) :
    (r ∈ u ∧ r.nodeId = id ∧ r.output.isSome = true) ∨ ((∀ s ∈ u, s.nodeId ≠ id) ∧ old = some r) := by
  induction u using List.reverseRecOn with
  | nil => exact .inr ⟨fun s hs => by simp at hs, h⟩
  | append_singleton u s ih =>
    rw [updated_concat] at h
    by_cases hid : id = s.nodeId
    · rw [if_pos hid] at h
      by_cases hs : s.output = none
      · rw [if_pos hs] at h
        cases h
      · rw [if_neg hs, Option.some.injEq] at h
        subst h
        exact .inl ⟨by simp, hid.symm, Option.isSome_iff_ne_none.mpr hs⟩
    · rw [if_neg hid] at h
      rcases ih h with ⟨hr, hkept⟩ | ⟨hskip, hold⟩
      · exact .inl ⟨List.mem_append_left _ hr, hkept⟩
      · refine .inr ⟨fun t ht => ?_, hold⟩
        rcases List.mem_append.mp ht with ht | ht
        · exact hskip t ht
        · rw [List.mem_singleton.mp ht]
          exact Ne.symm hid

/-- What all the updates leave for a node is what the one at `i` leaves there, or a record of another one. -/
theorem updated_flatten {i : ℕ} {r : OutputRecord} (hi : us[i]? = some u) (h : updated old us.flatten id = some r) :
    updated old u id = some r ∨ r ∈ (us.eraseIdx i).flatten.filter (·.output.isSome) := by
  obtain ⟨hlt, hget⟩ := List.getElem?_eq_some_iff.mp hi
  have hsplit : us.flatten = (us.take i).flatten ++ (u ++ (us.drop (i + 1)).flatten) := by
    rw [← List.flatten_cons, ← List.flatten_append, ← hget, List.getElem_cons_drop, List.take_append_drop]
  have hothers : ∀ v, v <+: (us.eraseIdx i).flatten ∨ v <:+ (us.eraseIdx i).flatten → r ∈ v → r.output.isSome = true →
      r ∈ (us.eraseIdx i).flatten.filter (·.output.isSome) := fun v hv hr hout =>
    List.mem_filter.mpr ⟨hv.elim (fun h => h.mem hr) fun h => h.mem hr, hout⟩
  rw [List.eraseIdx_eq_take_drop_succ, List.flatten_append] at hothers ⊢
  rw [hsplit, updated_append, updated_append] at h
  rcases updated_some h with ⟨hr, -, hout⟩ | ⟨-, h⟩
  · exact .inr (hothers _ (.inr (List.suffix_append _ _)) hr hout)
  rcases updated_some h with ⟨hr, hid, -⟩ | ⟨hskip, h⟩
  · rw [updated_touched ⟨r, hr, hid⟩ old, h]
    exact .inl rfl
  rcases updated_some h with ⟨hr, -, hout⟩ | ⟨-, rfl⟩
  · exact .inr (hothers _ (.inl (List.prefix_append _ _)) hr hout)
  · exact .inl (updated_of_not_mem hskip)

end

variable {state : GraphState} {us : List (List OutputRecord)} {p : ExecutionPlan} {u : List OutputRecord}
  (x : Siblings p state) (text : String) (n : ℕ)

theorem merged_outputs (hne : us ≠ []) :
    (state.merged us).outputs = us.foldl mergeOutputs (state.outputs.foldl setRecord []) := by
  cases us with
  | nil => exact absurd rfl hne
  | cons u us =>
    show us.foldl mergeOutputs (mergeOutputs state.outputs u) = us.foldl mergeOutputs (mergeOutputs _ u)
    rw [mergeOutputs_map]

theorem merged_keyed (hne : us ≠ []) : Keyed (state.merged us).outputs := by
  rw [merged_outputs hne]
  exact (lookup_foldl_merge us "" (keyed_foldl_set _)).1

/-! ### Sizes -/

theorem size_toJson (hne : state.outputs ≠ []) :
    state.toJson.size = escapedLength state.initialInput + recordsSize state.outputs + state.digits + 45 := by
  obtain ⟨r, rs, hrs⟩ := List.exists_cons_of_ne_nil hne
  have hlengths : escapedLength "initialInput" = 12 ∧ escapedLength "outputs" = 7 ∧ escapedLength "executions" = 10 := by
    decide +kernel
  have hrecords : (Json.arr (state.outputs.map (·.toJson))).size = 1 + recordsSize state.outputs := by
    rw [hrs, List.map_cons, Json.size_arr, ← List.map_cons (f := OutputRecord.toJson), List.map_map]
    rfl
  rw [GraphState.toJson, Json.size_obj]
  simp only [List.map_cons, List.map_nil, List.sum_cons, List.sum_nil, hlengths, hrecords, Json.size_str]
  show _ = _ + _ + (Json.num state.executions).size + 45
  omega

theorem sum_exchange {α : Type} [DecidableEq α] (cost : α → ℕ) {xs ys : List α} (hxs : xs.Nodup) (hys : ys.Nodup) :
    (xs.map cost).sum + ((ys.filter fun a => !xs.contains a).map cost).sum =
      (ys.map cost).sum + ((xs.filter fun a => !ys.contains a).map cost).sum := by
  have hsplit : ∀ as bs : List α, (as.map cost).sum =
      ((as.filter fun a => bs.contains a).map cost).sum + ((as.filter fun a => !bs.contains a).map cost).sum := by
    intro as bs
    have hperm := (List.filter_append_perm (fun a => bs.contains a) as).map cost
    rw [← hperm.sum_eq, List.map_append, List.sum_append]
  have hboth : ((xs.filter fun a => ys.contains a).map cost).sum = ((ys.filter fun a => xs.contains a).map cost).sum := by
    refine List.Perm.sum_eq (List.Perm.map _ ((List.perm_ext_iff_of_nodup (hxs.filter _) (hys.filter _)).mpr fun a => ?_))
    rw [List.mem_filter, List.mem_filter, List.contains_iff_mem, List.contains_iff_mem]
    exact and_comm
  rw [hsplit xs ys, hsplit ys xs, hboth]
  omega

theorem nodup_of_keyed {rs : List OutputRecord} (h : Keyed rs) : rs.Nodup := List.Nodup.of_map _ h

theorem outputs_ne_nil (h : Publishes p state = true) : state.outputs ≠ [] := by
  intro hnil
  rw [Publishes, hnil] at h
  cases h

theorem prospective_eq (p : ExecutionPlan) (state : GraphState) (u : List OutputRecord) :
    prospectiveContextState p state u =
      if !Publishes p (state.own u) then .ok (state.own u)
      else if (state.own u).toJson.size + parallelReservationBytes > maxContextGraphStateBytes then
        .error "context_graph_state_too_large"
      else .ok (state.own u) := rfl

theorem own_fits (h : ∃ s, prospectiveContextState p state u = .ok s) (hpublishes : Publishes p (state.own u) = true) :
    (state.own u).toJson.size + parallelReservationBytes ≤ maxContextGraphStateBytes := by
  obtain ⟨s, hs⟩ := h
  rw [prospective_eq, hpublishes, if_neg (by decide)] at hs
  exact not_lt.mp (of_ite_error hs).1

theorem size_merged (hmerged : Publishes p (state.merged x.updates) = true) (hown : Publishes p (state.own u) = true) :
    (state.merged x.updates).toJson.size + recordsSize (x.removed u) + (state.own u).digits =
      (state.own u).toJson.size + recordsSize (x.added u) + (state.merged x.updates).digits := by
  have hkeyed : Keyed (state.merged x.updates).outputs := merged_keyed x.nonempty
  have hexchange := sum_exchange (fun r : OutputRecord => r.toJson.size + 1) (nodup_of_keyed hkeyed)
    (nodup_of_keyed (keyed_mergeOutputs state.outputs u))
  have hadded : recordsSize (x.added u) = (((state.merged x.updates).outputs.filter fun a =>
      !(mergeOutputs state.outputs u).contains a).map fun r => r.toJson.size + 1).sum := rfl
  have hremoved : recordsSize (x.removed u) = (((mergeOutputs state.outputs u).filter fun a =>
      !(state.merged x.updates).outputs.contains a).map fun r => r.toJson.size + 1).sum := rfl
  have hrecords : recordsSize (state.own u).outputs = ((mergeOutputs state.outputs u).map fun r => r.toJson.size + 1).sum := rfl
  rw [size_toJson (outputs_ne_nil hmerged), size_toJson (outputs_ne_nil hown)]
  rw [← hadded, ← hremoved, ← hrecords] at hexchange
  have hall : recordsSize (state.merged x.updates).outputs =
      ((state.merged x.updates).outputs.map fun r => r.toJson.size + 1).sum := rfl
  have hinput : (state.merged x.updates).initialInput = (state.own u).initialInput := rfl
  rw [← hall] at hexchange
  rw [hinput]
  omega

theorem added_subset {i : ℕ} (hi : x.updates[i]? = some u) : x.added u ⊆ x.written i := by
  intro r hr
  obtain ⟨hmerged, hother⟩ := List.mem_filter.mp hr
  have hkeyed := keyed_foldl_set state.outputs
  have hfound := (lookup_iff (merged_keyed x.nonempty)).mpr ⟨hmerged, rfl⟩
  rw [merged_outputs x.nonempty, (lookup_foldl_merge x.updates r.nodeId hkeyed).2] at hfound
  refine (updated_flatten hi hfound).resolve_left fun hown => ?_
  have hmem : lookup (mergeOutputs (state.outputs.foldl setRecord []) u) r.nodeId = some r := by
    rw [(lookup_mergeOutputs hkeyed u).2, hown]
  rw [← mergeOutputs_map] at hmem
  have hin : r ∈ (state.own u).outputs := (lookup_some hmem).1
  rw [List.contains_iff_mem.mpr hin] at hother
  cases hother

theorem added_le {i : ℕ} (hi : x.updates[i]? = some u) : recordsSize (x.added u) ≤ recordsSize (x.written i) := by
  have hnodup : (x.added u).Nodup := (nodup_of_keyed (merged_keyed x.nonempty)).filter _
  obtain ⟨l, hperm, hsub⟩ := List.subperm_of_subset hnodup (added_subset x hi)
  unfold recordsSize
  rw [← (hperm.map _).sum_eq]
  exact (hsub.map _).sum_le_sum fun n _ => Nat.zero_le n

/-- **The budget of siblings** is kept where the reservation of one whose check counts is enough for what the others write,
as it is encoded. -/
theorem budget_of_reserved {p : ExecutionPlan} {state : GraphState} (x : Siblings p state) (hreserved : x.Reserved)
    (hmerged : Publishes p (state.merged x.updates) = true) :
    byteLength (state.merged x.updates).toJson.stringify ≤ maxContextGraphStateBytes := by
  obtain ⟨i, u, hi, hown, hfits⟩ := hreserved
  have hadded := added_le x hi
  have hchecked := own_fits (x.accepted u (List.mem_of_getElem? hi)) hown
  have hexchange := size_merged x hmerged hown
  have hgrowth : (state.merged x.updates).digits ≤ (state.own u).digits + x.growth := by
    unfold GraphState.digits Siblings.growth GraphState.merged GraphState.own
    push_cast
    omega
  show (state.merged x.updates).toJson.size ≤ _
  omega

/-! ### Line breaks -/

/-- Three branches between a start and a join; the first one publishes its output. -/
def branches : ExecutionPlan where
  nodes := [⟨"start", .agentV1 "writer"⟩, ⟨"a", .agentV2 "writer" (some ⟨true, false, []⟩)⟩, ⟨"b", .agentV1 "writer"⟩,
    ⟨"c", .agentV1 "writer"⟩, ⟨"join", .join⟩]
  edges := [⟨"start", "out", "a", "in"⟩, ⟨"start", "out", "b", "in"⟩, ⟨"start", "out", "c", "in"⟩,
    ⟨"a", "out", "join", "in"⟩, ⟨"b", "out", "join", "in"⟩, ⟨"c", "out", "join", "in"⟩]
  entryNodeId := "start"
  terminalNodeId := "join"
  maxStepExecutions := 5

def started : GraphState := ⟨"go", [⟨"t0", "start", some "ok", 1⟩], 1⟩

/-- What the branches write; the output of the second and of the third is `text`. -/
def branchUpdates (text : String) : List (List OutputRecord) :=
  [[⟨"t1", "a", some "ok", 2⟩], [⟨"t2", "b", some text, 2⟩], [⟨"t3", "c", some text, 2⟩]]

theorem branches_merged : (started.merged (branchUpdates text)).outputs =
    [⟨"t1", "a", some "ok", 2⟩, ⟨"t2", "b", some text, 2⟩, ⟨"t3", "c", some text, 2⟩, ⟨"t0", "start", some "ok", 1⟩] := by
  simp +decide [GraphState.merged, started, branchUpdates, mergeOutputs, mergeRecord, setRecord, byNodeId]

theorem size_record (activationId nodeId output : String) (sequence : ℕ) :
    (OutputRecord.mk activationId nodeId (some output) sequence).toJson.size =
      escapedLength activationId + escapedLength nodeId + escapedLength output + (Json.num sequence).size + 55 := by
  have hlengths : escapedLength "activationId" = 12 ∧ escapedLength "nodeId" = 6 ∧ escapedLength "output" = 6 ∧
      escapedLength "sequence" = 8 := by decide +kernel
  show (Json.obj [("activationId", .str activationId), ("nodeId", .str nodeId), ("output", .str output),
    ("sequence", .num sequence)]).size = _
  rw [Json.size_obj]
  simp only [List.map_cons, List.map_nil, List.sum_cons, List.sum_nil, Json.size_str, hlengths]
  omega

def lines (n : ℕ) : String := String.ofList (List.replicate n '\n')

theorem byteLength_lines : byteLength (lines n) = n := by
  have hone : Char.utf8Size '\n' = 1 := by decide
  rw [lines, byteLength_ofList, List.map_replicate, List.sum_replicate, hone, smul_eq_mul, Nat.mul_one]

theorem escapedLength_lines : escapedLength (lines n) = n * 2 := by
  have htwo : escapedSize '\n' = 2 := by decide
  rw [lines, escapedLength, String.toList_ofList, List.map_replicate, List.sum_replicate, htwo, smul_eq_mul]

theorem branches_accepted : ∀ u ∈ branchUpdates text, ∃ s, prospectiveContextState branches started u = .ok s := by
  have hplain : ∀ (activationId nodeId : String), nodeId = "b" ∨ nodeId = "c" →
      Publishes branches (started.own [⟨activationId, nodeId, some text, 2⟩]) = false := by
    intro activationId nodeId hid
    rcases hid with rfl | rfl
    · simp +decide [Publishes, GraphState.own, started, mergeOutputs, mergeRecord, setRecord, byNodeId, publishes,
        findNode, branches]
    · simp +decide [Publishes, GraphState.own, started, mergeOutputs, mergeRecord, setRecord, byNodeId, publishes,
        findNode, branches]
  intro u hu
  simp only [branchUpdates, List.mem_cons, List.not_mem_nil, or_false] at hu
  rcases hu with rfl | rfl | rfl
  · refine ⟨started.own [⟨"t1", "a", some "ok", 2⟩], ?_⟩
    decide +kernel
  · rw [prospective_eq, hplain "t2" "b" (.inl rfl)]
    exact ⟨_, rfl⟩
  · rw [prospective_eq, hplain "t3" "c" (.inr rfl)]
    exact ⟨_, rfl⟩

theorem branches_short {text : String} (htext : byteLength text ≤ maxAgentInputBytes) :
    ∀ u ∈ branchUpdates text, ∀ r ∈ u, ∀ output ∈ r.output, byteLength output ≤ maxAgentInputBytes := by
  intro u hu r hr output houtput
  simp only [branchUpdates, List.mem_cons, List.not_mem_nil, or_false] at hu
  rcases hu with rfl | rfl | rfl
  all_goals
    obtain rfl := List.mem_singleton.mp hr
    cases houtput
  · decide +kernel
  · exact htext
  · exact htext

/-- The branches, where two of them write `n` line breaks each. -/
def branchSiblings (n : ℕ) (hn : n ≤ maxAgentInputBytes) : Siblings branches started where
  updates := branchUpdates (lines n)
  nonempty := List.cons_ne_nil _ _
  few := Nat.le_refl 3
  short := branches_short ((byteLength_lines n).trans_le hn)
  accepted := branches_accepted _

theorem branches_publish : Publishes branches (started.merged (branchUpdates text)) = true := by
  have hpublishes : publishes branches "a" = true := by decide +kernel
  rw [Publishes, branches_merged, List.any_cons, hpublishes]
  rfl

/-- What the second and the third branch write. -/
theorem branches_written : recordsSize [⟨"t2", "b", some (lines n), 2⟩, ⟨"t3", "c", some (lines n), 2⟩] = n * 4 + 120 := by
  have hlengths : escapedLength "t2" = 2 ∧ escapedLength "b" = 1 ∧ escapedLength "t3" = 2 ∧ escapedLength "c" = 1 ∧
      (Json.num (2 : ℕ)).size = 1 := by decide +kernel
  simp only [recordsSize, List.map_cons, List.map_nil, List.sum_cons, List.sum_nil, size_record, escapedLength_lines, hlengths]
  omega

theorem branches_reserved {n : ℕ} (hn : n ≤ maxAgentInputBytes) (hfits : n * 4 + 120 ≤ parallelReservationBytes) :
    (branchSiblings n hn).Reserved := by
  refine ⟨0, [⟨"t1", "a", some "ok", 2⟩], rfl, by decide +kernel, ?_⟩
  have hgrowth : (branchSiblings n hn).growth = 0 := by
    show (Json.num ((1 : ℕ) + (3 : ℕ))).size - (Json.num ((1 : ℕ) + 1)).size = 0
    decide +kernel
  have hwritten : recordsSize ((branchSiblings n hn).written 0) = n * 4 + 120 := branches_written n
  rw [hwritten, hgrowth]
  exact hfits

theorem branches_size : n * 4 ≤ (started.merged (branchUpdates (lines n))).toJson.size := by
  have hwritten := branches_written n
  rw [size_toJson (by rw [branches_merged]; exact List.cons_ne_nil _ _), branches_merged]
  simp only [recordsSize, List.map_cons, List.map_nil, List.sum_cons, List.sum_nil] at hwritten ⊢
  omega

/-- Two outputs of 100,000 line breaks each fit, as encoded, what the first branch reserves. -/
theorem lines_fit : byteLength (started.merged (branchSiblings 100000 (by decide)).updates).toJson.stringify ≤
    maxContextGraphStateBytes :=
  budget_of_reserved (branchSiblings 100000 (by decide)) (branches_reserved _ (by decide)) (branches_publish (lines 100000))

/-- Two outputs of 250,000 line breaks each are accepted, and take a million bytes. -/
theorem lines_exceed : Publishes branches (started.merged (branchSiblings 250000 (by decide)).updates) = true ∧
    maxContextGraphStateBytes <
      byteLength (started.merged (branchSiblings 250000 (by decide)).updates).toJson.stringify :=
  ⟨branches_publish (lines 250000), Nat.lt_of_lt_of_le (by decide) (branches_size 250000)⟩

end ADT.Runtime
