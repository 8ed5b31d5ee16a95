import ADT.Storage.Effects

/-!
# Storage.History — the attempts of the steps, as the statements leave them

`History` says how the rows of `workflow_step_attempts` are numbered; every statement keeps it, a retry as long as it
is of one of the first nine attempts.  `Advances` says how a single row moves on.
-/

namespace ADT.Storage

/-- The first attempts of a step, one for each of its iterations. -/
def visits (rows : List StepAttempt) (stepId : String) : List StepAttempt :=
  rows.filter fun a => a.key.stepId == stepId && a.key.attempt == 1

/-- The attempts of one iteration of a step. -/
def attemptsOf (rows : List StepAttempt) (stepId : String) (iteration : ℕ) : List StepAttempt :=
  rows.filter fun a => a.key.stepId == stepId && a.key.iteration == iteration

/-- The numbering of the rows, which stand in the order of their creation. -/
structure History (rows : List StepAttempt) : Prop where
  keys : (rows.map (·.key)).Nodup
  /-- The iterations of a step are numbered from 1, in the order of their creation. -/
  visited : ∀ s, (visits rows s).map (·.key.iteration) = List.range' 1 (visits rows s).length
  /-- So are the attempts of an iteration. -/
  numbered : ∀ s i, (attemptsOf rows s i).map (·.key.attempt) = List.range' 1 (attemptsOf rows s i).length
  bounded : ∀ s i, (attemptsOf rows s i).length ≤ 10
  /-- All attempts of an iteration but its last one failed. -/
  failed : ∀ s i, ∀ a ∈ attemptsOf rows s i, a.key.attempt < (attemptsOf rows s i).length → a.status = .failed
  admitted : ∀ a ∈ rows, a.graphActivationId.isSome = true
  /-- An iteration of a step is one activation of it. -/
  activation : ∀ a ∈ rows, ∀ b ∈ rows, a.key.stepId = b.key.stepId →
    (a.graphActivationId = b.graphActivationId ↔ a.key.iteration = b.key.iteration)

theorem history_nil : History [] where
  keys := List.nodup_nil
  visited _ := rfl
  numbered _ _ := rfl
  bounded _ _ := Nat.zero_le _
  failed _ _ _ ha := absurd ha List.not_mem_nil
  admitted _ ha := absurd ha List.not_mem_nil
  activation _ ha := absurd ha List.not_mem_nil

variable {rows : List StepAttempt} {a b r : StepAttempt} {s : String} {i : ℕ}

@[simp] theorem mem_visits : a ∈ visits rows s ↔ a ∈ rows ∧ a.key.stepId = s ∧ a.key.attempt = 1 := by
  simp [visits]

@[simp] theorem mem_attemptsOf :
    a ∈ attemptsOf rows s i ↔ a ∈ rows ∧ a.key.stepId = s ∧ a.key.iteration = i := by
  simp [attemptsOf]

theorem visits_concat : visits (rows ++ [r]) s =
    visits rows s ++ if r.key.stepId = s ∧ r.key.attempt = 1 then [r] else [] := by
  simp [visits, List.filter_append, List.filter_cons]

theorem attemptsOf_concat : attemptsOf (rows ++ [r]) s i =
    attemptsOf rows s i ++ if r.key.stepId = s ∧ r.key.iteration = i then [r] else [] := by
  simp [attemptsOf, List.filter_append, List.filter_cons]

/-! ### What the numbering gives -/

namespace History

section

variable (h : History rows)

include h

theorem attempt_pos (ha : a ∈ rows) : 1 ≤ a.key.attempt := by
  have hmem : a.key.attempt ∈ (attemptsOf rows a.key.stepId a.key.iteration).map (·.key.attempt) :=
    List.mem_map_of_mem (mem_attemptsOf.2 ⟨ha, rfl, rfl⟩)
  rw [h.numbered, List.mem_range'_1] at hmem
  exact hmem.1

theorem attempt_le (ha : a ∈ rows) :
    a.key.attempt ≤ (attemptsOf rows a.key.stepId a.key.iteration).length := by
  have hmem : a.key.attempt ∈ (attemptsOf rows a.key.stepId a.key.iteration).map (·.key.attempt) :=
    List.mem_map_of_mem (mem_attemptsOf.2 ⟨ha, rfl, rfl⟩)
  rw [h.numbered, List.mem_range'_1] at hmem
  omega

theorem exists_attempt {n : ℕ} (hn : 1 ≤ n) (hle : n ≤ (attemptsOf rows s i).length) :
    ∃ b ∈ rows, b.key = ⟨s, i, n⟩ := by
  have hmem : n ∈ (attemptsOf rows s i).map (·.key.attempt) := by
    rw [h.numbered, List.mem_range'_1]
    omega
  obtain ⟨b, hb, rfl⟩ := List.mem_map.1 hmem
  obtain ⟨hrow, rfl, rfl⟩ := mem_attemptsOf.1 hb
  exact ⟨b, hrow, rfl⟩

theorem iteration_le (ha : a ∈ rows) :
    1 ≤ a.key.iteration ∧ a.key.iteration ≤ (visits rows a.key.stepId).length := by
  obtain ⟨b, hb, hbk⟩ := h.exists_attempt (Nat.le_refl 1) (Nat.le_trans (h.attempt_pos ha) (h.attempt_le ha))
  have hmem : b.key.iteration ∈ (visits rows a.key.stepId).map (·.key.iteration) :=
    List.mem_map_of_mem (mem_visits.2 ⟨hb, by rw [hbk], by rw [hbk]⟩)
  rw [h.visited, List.mem_range'_1, hbk] at hmem
  have hlt : a.key.iteration < 1 + (visits rows a.key.stepId).length := hmem.2
  exact ⟨hmem.1, by omega⟩

theorem exists_visit (hi : 1 ≤ i) (hle : i ≤ (visits rows s).length) :
    ∃ b ∈ rows, b.key.stepId = s ∧ b.key.iteration = i := by
  have hmem : i ∈ (visits rows s).map (·.key.iteration) := by
    rw [h.visited, List.mem_range'_1]
    omega
  obtain ⟨b, hb, rfl⟩ := List.mem_map.1 hmem
  obtain ⟨hb, hs, -⟩ := mem_visits.1 hb
  exact ⟨b, hb, hs, rfl⟩

theorem eq_of_key (ha : a ∈ rows) (hb : b ∈ rows) (hk : a.key = b.key) : a = b :=
  List.inj_on_of_nodup_map h.keys ha hb hk

theorem last_of_free (ha : a ∈ rows)
    (hfree : ∀ b ∈ rows, b.key ≠ AttemptInsert.nextKey a.key) :
    (attemptsOf rows a.key.stepId a.key.iteration).length = a.key.attempt := by
  refine Nat.le_antisymm (Nat.le_of_not_lt fun hlt => ?_) (h.attempt_le ha)
  obtain ⟨b, hb, hbk⟩ := h.exists_attempt (Nat.succ_le_succ (Nat.zero_le a.key.attempt)) hlt
  exact hfree b hb hbk

end

theorem map {f : StepAttempt → StepAttempt} (h : History rows) (hkey : ∀ a, (f a).key = a.key)
    (hact : ∀ a, (f a).graphActivationId = a.graphActivationId)
    (hfail : ∀ a, a.status = .failed → (f a).status = .failed) : History (rows.map f) := by
  have hvisits : ∀ s, visits (rows.map f) s = (visits rows s).map f := fun s => by
    simp only [visits, List.filter_map, Function.comp_def, hkey]
  have hof : ∀ s i, attemptsOf (rows.map f) s i = (attemptsOf rows s i).map f := fun s i => by
    simp only [attemptsOf, List.filter_map, Function.comp_def, hkey]
  refine ⟨?_, fun s => ?_, fun s i => ?_, fun s i => ?_, fun s i a ha hlt => ?_, fun a ha => ?_, fun a ha b hb => ?_⟩
  · simpa only [List.map_map, Function.comp_def, hkey] using h.keys
  · simpa only [hvisits, List.map_map, Function.comp_def, hkey, List.length_map] using h.visited s
  · simpa only [hof, List.map_map, Function.comp_def, hkey, List.length_map] using h.numbered s i
  · simpa only [hof, List.length_map] using h.bounded s i
  · rw [hof] at ha
    rw [hof, List.length_map] at hlt
    obtain ⟨b, hb, rfl⟩ := List.mem_map.1 ha
    rw [hkey] at hlt
    exact hfail b (h.failed s i b hb hlt)
  · obtain ⟨b, hb, rfl⟩ := List.mem_map.1 ha
    rw [hact]
    exact h.admitted b hb
  · obtain ⟨a', ha', rfl⟩ := List.mem_map.1 ha
    obtain ⟨b', hb', rfl⟩ := List.mem_map.1 hb
    simp only [hkey, hact]
    exact h.activation a' ha' b' hb'

/-! ### Inserts -/

/-- What a new attempt needs for the history to go on. -/
theorem concat (h : History rows) (hfree : ∀ a ∈ rows, a.key ≠ r.key)
    (hvisit : r.key.attempt = 1 → r.key.iteration = (visits rows r.key.stepId).length + 1)
    (hnumber : r.key.attempt = (attemptsOf rows r.key.stepId r.key.iteration).length + 1)
    (hbound : r.key.attempt ≤ 10)
    (hfailed : ∀ a ∈ rows, a.key.stepId = r.key.stepId → a.key.iteration = r.key.iteration →
      a.key.attempt + 1 = r.key.attempt → a.status = .failed)
    (hadmitted : r.graphActivationId.isSome = true)
    (hact : ∀ a ∈ rows, a.key.stepId = r.key.stepId →
      (a.graphActivationId = r.graphActivationId ↔ a.key.iteration = r.key.iteration)) :
    History (rows ++ [r]) := by
  refine ⟨?_, fun s => ?_, fun s i => ?_, fun s i => ?_, fun s i a ha hlt => ?_, fun a ha => ?_, fun a ha b hb hs => ?_⟩
  · rw [List.map_append, List.nodup_append]
    refine ⟨h.keys, List.nodup_singleton _, fun k hk k' hk' => ?_⟩
    obtain ⟨a, ha, rfl⟩ := List.mem_map.1 hk
    obtain rfl : k' = r.key := by simpa using hk'
    exact hfree a ha
  · rw [visits_concat]
    split
    · rename_i hr
      obtain ⟨rfl, hone⟩ := hr
      rw [List.map_append, h.visited, List.length_append, List.length_singleton, List.range'_1_concat, List.map_cons,
        List.map_nil, hvisit hone, Nat.add_comm 1]
    · simpa using h.visited s
  · rw [attemptsOf_concat]
    split
    · rename_i hr
      obtain ⟨rfl, rfl⟩ := hr
      rw [List.map_append, h.numbered, List.length_append, List.length_singleton, List.range'_1_concat, List.map_cons,
        List.map_nil, hnumber, Nat.add_comm 1]
    · simpa using h.numbered s i
  · rw [attemptsOf_concat]
    split
    · rename_i hr
      obtain ⟨rfl, rfl⟩ := hr
      rw [List.length_append, List.length_singleton, ← hnumber]
      exact hbound
    · simpa using h.bounded s i
  · rw [attemptsOf_concat] at ha hlt
    by_cases hr : r.key.stepId = s ∧ r.key.iteration = i
    · rw [if_pos hr] at ha hlt
      obtain ⟨rfl, rfl⟩ := hr
      rw [List.length_append, List.length_singleton] at hlt
      rcases List.mem_append.1 ha with ha | ha
      · -- the attempt that was the last one failed before it was retried
        by_cases hlast : a.key.attempt < (attemptsOf rows r.key.stepId r.key.iteration).length
        · exact h.failed _ _ a ha hlast
        · obtain ⟨ha, hs, hi⟩ := mem_attemptsOf.1 ha
          exact hfailed a ha hs hi (by omega)
      · obtain rfl := List.mem_singleton.1 ha
        omega
    · rw [if_neg hr, List.append_nil] at ha hlt
      exact h.failed s i a ha hlt
  · rcases List.mem_append.1 ha with ha | ha
    · exact h.admitted a ha
    · obtain rfl := List.mem_singleton.1 ha
      exact hadmitted
  · rcases List.mem_append.1 ha with ha' | ha' <;> rcases List.mem_append.1 hb with hb' | hb'
    · exact h.activation a ha' b hb' hs
    · obtain rfl := List.mem_singleton.1 hb'
      exact hact a ha' hs
    · obtain rfl := List.mem_singleton.1 ha'
      exact eq_comm.trans ((hact b hb' hs.symm).trans eq_comm)
    · obtain rfl := List.mem_singleton.1 ha'
      obtain rfl := List.mem_singleton.1 hb'
      exact iff_of_true rfl rfl

end History

theorem foldl_max_eq {l : List ℕ} {m k : ℕ} (hk : k ≤ m) (hle : ∀ n ∈ l, n ≤ m) (hm : k = m ∨ m ∈ l) :
    l.foldl max k = m := by
  induction l generalizing k with
  | nil => simpa using hm
  | cons n l ih =>
    rw [List.foldl_cons]
    have hn := hle n (List.mem_cons_self ..)
    refine ih (max_le hk hn) (fun n' hn' => hle n' (List.mem_cons_of_mem _ hn')) ?_
    rcases hm with rfl | hm
    · exact .inl (max_eq_left hn)
    · rcases List.mem_cons.1 hm with rfl | hm
      · exact .inl (max_eq_right hk)
      · exact .inr hm

namespace History

theorem max_iteration (h : History rows) (s : String) :
    ((rows.filter (·.key.stepId == s)).map (·.key.iteration)).foldl max 0 = (visits rows s).length := by
  refine foldl_max_eq (Nat.zero_le _) (fun n hn => ?_) ?_
  · obtain ⟨a, ha, rfl⟩ := List.mem_map.1 hn
    obtain ⟨hrow, hs⟩ := List.mem_filter.1 ha
    obtain rfl : a.key.stepId = s := by simpa using hs
    exact (h.iteration_le hrow).2
  · rcases Nat.eq_zero_or_pos (visits rows s).length with hz | hpos
    · exact .inl hz.symm
    · obtain ⟨b, hb, hs, hi⟩ := h.exists_visit hpos (Nat.le_refl _)
      exact .inr (List.mem_map.2 ⟨b, List.mem_filter.2 ⟨hb, by simpa using hs⟩, hi⟩)

theorem visit (h : History rows) {s activationId : String} (agentId connectionKey : String)
    (hnew : ∀ a ∈ rows, a.key.stepId = s → a.graphActivationId ≠ some activationId) :
    History (rows ++ [StepAttempt.fresh ⟨s, (visits rows s).length + 1, 1⟩ (some activationId) agentId connectionKey]) := by
  have hlt : ∀ a ∈ rows, a.key.stepId = s → a.key.iteration ≠ (visits rows s).length + 1 := by
    rintro a ha rfl hi
    have := (h.iteration_le ha).2
    omega
  have hnone : attemptsOf rows s ((visits rows s).length + 1) = [] :=
    List.filter_eq_nil_iff.2 fun a ha => by simpa using hlt a ha
  refine h.concat (fun a ha hk => ?_) (fun _ => rfl) ?_ (by simp [StepAttempt.fresh]) (fun a ha hs hi => ?_) rfl
    fun a ha hs => iff_of_false (hnew a ha hs) (hlt a ha hs)
  · exact hlt a ha (by rw [hk]; rfl) (by rw [hk]; rfl)
  · simp [StepAttempt.fresh, hnone]
  · exact absurd hi (hlt a ha hs)

theorem retry (h : History rows) (ha : a ∈ rows) (hf : a.status = .failed) (hlt : a.key.attempt < 10)
    (hfree : ∀ b ∈ rows, b.key ≠ AttemptInsert.nextKey a.key) : History (rows ++ [AttemptInsert.retryOf a]) := by
  have hlast := h.last_of_free ha hfree
  have hpos := h.attempt_pos ha
  refine h.concat hfree (fun hone => ?_) ?_ ?_ (fun b hb hs hi hk => ?_) (h.admitted a ha) fun b hb hs =>
    h.activation b hb a ha hs
  · have : a.key.attempt + 1 = 1 := hone
    omega
  · exact congrArg (· + 1) hlast.symm
  · exact hlt
  · -- the attempt before the new one is the one that is retried
    have hkey : b.key = a.key := by
      have : b.key.attempt = a.key.attempt := Nat.succ.inj hk
      cases hb : b.key
      cases ha : a.key
      simp_all [AttemptInsert.retryOf, AttemptInsert.nextKey, StepAttempt.fresh]
    rw [h.eq_of_key hb ha hkey]
    exact hf

end History

/-! ### Statements -/

/-- A retry is of one of the first nine attempts. -/
def AttemptInsert.bounded : AttemptInsert → Bool
  | .activation .. => true
  | .automaticRetry prior _ | .manualRetry prior => prior.attempt < 10

variable {u : AttemptUpdate} {q : Request}

theorem AttemptUpdate.guard_open {db : Database} (h : u.guard db a = true) :
    a.status = .pending ∨ a.status = .starting ∨ a.status = .waitingProvider := by
  cases u <;>
    simp only [AttemptUpdate.guard, Bool.and_eq_true, Bool.or_eq_true, beq_iff_eq] at h <;> grind

@[simp] theorem AttemptUpdate.set_activation (u : AttemptUpdate) (a : StepAttempt) :
    (u.set a).graphActivationId = a.graphActivationId := by
  cases u <;> rfl

variable {db db' : Database}

theorem History.updateAttempts (h : History db.attempts) (u : AttemptUpdate) :
    History (db.updateAttempts u).2.attempts := by
  refine h.map (fun a => ?_) (fun a => ?_) fun a hf => ?_
  · split <;> simp
  · split <;> simp
  · rw [if_neg fun hg => ?_]
    · exact hf
    · have := AttemptUpdate.guard_open hg
      simp [hf] at this

theorem History.retry_rows (h : History rows) {p : StepAttempt → Bool} {prior : AttemptKey}
    (hp : ∀ a, p a = true → a.key = prior ∧ a.status = .failed) :
    (rows.filter p).map AttemptInsert.retryOf = [] ∨ ∃ a ∈ rows, a.key = prior ∧ a.status = .failed ∧
      (rows.filter p).map AttemptInsert.retryOf = [AttemptInsert.retryOf a] := by
  rcases hf : rows.filter p with _ | ⟨a, rest⟩
  · exact .inl rfl
  have hmem : ∀ b ∈ a :: rest, b ∈ rows ∧ b.key = prior ∧ b.status = .failed := fun b hb => by
    rw [← hf] at hb
    obtain ⟨hb, hpb⟩ := List.mem_filter.1 hb
    exact ⟨hb, hp b hpb⟩
  have hnodup : (a :: rest).Nodup := by
    rw [← hf]
    exact (List.Nodup.of_map _ h.keys).filter _
  obtain ⟨ha, hk, hs⟩ := hmem a (List.mem_cons_self ..)
  refine .inr ⟨a, ha, hk, hs, ?_⟩
  rcases rest with _ | ⟨b, rest⟩
  · rfl
  · obtain ⟨hb, hbk, -⟩ := hmem b (by simp)
    have hab : a = b := h.eq_of_key ha hb (hk.trans hbk.symm)
    simp [hab] at hnodup

theorem History.insertAttempts (h : History db.attempts) {i : AttemptInsert} (hi : i.bounded = true)
    (hfree : ∀ r ∈ i.rows db, ∀ a ∈ db.attempts, a.key ≠ r.key) : History (db.attempts ++ i.rows db) := by
  have hretry : ∀ {p : StepAttempt → Bool} {prior : AttemptKey}, prior.attempt < 10 →
      (∀ a, p a = true → a.key = prior ∧ a.status = .failed) →
      i.rows db = (db.attempts.filter p).map AttemptInsert.retryOf → History (db.attempts ++ i.rows db) := by
    intro p prior hlt hp hrows
    rcases h.retry_rows hp with hnil | ⟨a, ha, rfl, hs, hone⟩
    · rw [hrows, hnil, List.append_nil]
      exact h
    · rw [hrows, hone] at hfree ⊢
      exact h.retry ha hs hlt fun b hb => hfree _ (List.mem_singleton_self _) b hb
  rcases i with ⟨stepId, activationId, agentId, connectionKey⟩ | ⟨prior, activationId⟩ | prior
  · unfold AttemptInsert.rows
    dsimp only
    split
    · simpa using h
    · rename_i hnone
      rw [h.max_iteration]
      refine h.visit agentId connectionKey fun a ha hs hact => hnone ?_
      rw [Bool.or_eq_true, List.any_eq_true]
      exact .inl ⟨a, List.mem_filter.2 ⟨ha, by simpa using hs⟩, by simpa using hact⟩
  · refine hretry (by simpa [AttemptInsert.bounded] using hi) (fun a ha => ?_) rfl
    simp only [Bool.and_eq_true, beq_iff_eq] at ha
    exact ⟨ha.1.1.1, ha.1.1.2⟩
  · refine hretry (by simpa [AttemptInsert.bounded] using hi) (fun a ha => ?_) rfl
    simpa using ha

theorem AttemptInsert.rows_pending {i : AttemptInsert} (h : a ∈ i.rows db) : a.status = .pending := by
  rcases i with _ | _ | _
  · simp only [AttemptInsert.rows] at h
    split at h
    · cases h
    · rw [List.mem_singleton.1 h]
      rfl
  all_goals
    obtain ⟨b, -, rfl⟩ := List.mem_map.1 h
    rfl

/-- **Every statement keeps the numbering**, as long as no tenth attempt is retried. -/
theorem History.effect (h : History db.attempts) (he : Effect db q db')
    (hq : ∀ i, q = .insertAttempts i → i.bounded = true) : History db'.attempts := by
  rcases he with _ | _ | u | hfree | _ | _ | ⟨requestId, now⟩
  case attempts => exact h.updateAttempts u
  case newAttempts => exact h.insertAttempts (hq _ rfl) hfree
  case consume =>
    simp only [Database.consume, Database.markConsumed, Database.updateRun]
    split <;> exact h
  all_goals exact h

/-! ### Rows move on -/

/-- Where an attempt goes from its status. -/
def StepStatus.moves : StepStatus → StepStatus → Bool
  | .pending, s => s == .starting || s == .cancelled
  | .starting, s => s == .waitingProvider || s == .succeeded || s == .failed || s == .cancelled
  | .waitingProvider, s => s == .succeeded || s == .failed || s == .cancelled
  | _, _ => false

/-- What never changes about a row. -/
structure Endures (a b : StepAttempt) : Prop where
  key : b.key = a.key
  activation : b.graphActivationId = a.graphActivationId
  task : ∀ task, a.providerTaskId = some task → b.providerTaskId = some task
  output : a.status = .succeeded → b.status = .succeeded ∧ b.outputText = a.outputText

/-- What one statement may do to a row. -/
structure Advances (a b : StepAttempt) : Prop extends Endures a b where
  status : b.status = a.status ∨ a.status.moves b.status = true

theorem Endures.refl (a : StepAttempt) : Endures a a :=
  ⟨rfl, rfl, fun _ h => h, fun h => ⟨h, rfl⟩⟩

theorem Endures.trans {c : StepAttempt} (h : Endures a b) (h' : Endures b c) : Endures a c where
  key := h'.key.trans h.key
  activation := h'.activation.trans h.activation
  task task ht := h'.task task (h.task task ht)
  output hs := ⟨(h'.output (h.output hs).1).1, (h'.output (h.output hs).1).2.trans (h.output hs).2⟩

theorem Advances.refl (a : StepAttempt) : Advances a a := ⟨.refl a, .inl rfl⟩

theorem AttemptUpdate.advances (h : u.guard db a = true) : Advances a (u.set a) := by
  have hopen := AttemptUpdate.guard_open h
  refine ⟨⟨by simp, by simp, fun task ht => ?_, fun hs => by simp [hs] at hopen⟩, ?_⟩
  · cases u
    case providerTask =>
      simp only [AttemptUpdate.guard, Bool.and_eq_true] at h
      simp [ht] at h
    all_goals exact ht
  · cases u <;>
      simp only [AttemptUpdate.guard, Bool.and_eq_true, Bool.or_eq_true, beq_iff_eq] at h <;>
      simp only [AttemptUpdate.set, true_or] <;> refine .inr ?_ <;> grind [StepStatus.moves]

theorem effect_row (he : Effect db q db') (ha : a ∈ db.attempts) :
    ∃ b ∈ db'.attempts, b = a ∨ ∃ u : AttemptUpdate, u.guard db a = true ∧ b = u.set a := by
  rcases he with _ | _ | u | _ | _ | _ | ⟨requestId, now⟩
  case attempts =>
    refine ⟨_, mem_updateAttempts.2 ⟨a, ha, rfl⟩, ?_⟩
    split
    · rename_i hg
      exact .inr ⟨u, hg, rfl⟩
    · exact .inl rfl
  case newAttempts => exact ⟨a, List.mem_append_left _ ha, .inl rfl⟩
  case consume =>
    refine ⟨a, ?_, .inl rfl⟩
    simp only [Database.consume, Database.markConsumed, Database.updateRun]
    split <;> exact ha
  all_goals exact ⟨a, ha, .inl rfl⟩

theorem effect_origin (he : Effect db q db') (hb : a ∈ db'.attempts) :
    a ∈ db.attempts ∨ (∃ u b, q = .updateAttempts u ∧ b ∈ db.attempts ∧ u.guard db b = true ∧ a = u.set b) ∨
      a.status = .pending := by
  rcases he with _ | _ | u | _ | _ | _ | ⟨requestId, now⟩
  case attempts =>
    obtain ⟨c, hc, rfl⟩ := mem_updateAttempts.1 hb
    by_cases hg : u.guard db c = true
    · exact .inr (.inl ⟨u, c, rfl, hc, hg, if_pos hg⟩)
    · rw [if_neg hg]
      exact .inl hc
  case newAttempts =>
    rcases List.mem_append.1 hb with hb | hb
    · exact .inl hb
    · exact .inr (.inr (AttemptInsert.rows_pending hb))
  case consume =>
    refine .inl ?_
    simp only [Database.consume, Database.markConsumed, Database.updateRun] at hb
    split at hb <;> exact hb
  all_goals exact .inl hb

/-- **Every statement moves every row on**, if it touches it at all. -/
theorem effect_advances (he : Effect db q db') (ha : a ∈ db.attempts) : ∃ b ∈ db'.attempts, Advances a b := by
  obtain ⟨b, hb, rfl | ⟨u, hg, rfl⟩⟩ := effect_row he ha
  · exact ⟨b, hb, .refl b⟩
  · exact ⟨_, hb, AttemptUpdate.advances hg⟩

@[simp] theorem AttemptUpdate.set_connection (u : AttemptUpdate) (a : StepAttempt) :
    (u.set a).connectionKey = a.connectionKey := by
  cases u <;> rfl

end ADT.Storage
