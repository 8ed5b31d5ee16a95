import ADT.Storage.World

/-!
# Storage.Effects — what an answered request does to the database
-/

namespace ADT.Storage

variable {db db' : Database} {w : World} {env : Env}
variable {u : RunUpdate} {key : AttemptKey}

theorem updateRun_true (h : u.guard db = true) : db.updateRun u = (true, { db with run := u.set db.run }) := by
  rw [Database.updateRun, if_pos h]

theorem updateRun_false (h : ¬u.guard db = true) : db.updateRun u = (false, db) := by
  rw [Database.updateRun, if_neg h]

theorem updateRun_changed (h : (db.updateRun u).1 = true) : u.guard db = true := by
  by_contra hg
  rw [updateRun_false hg] at h
  cases h

/-- The effect of a request on the database, by the kind of its statement. -/
inductive Effect (db : Database) : Request → Database → Prop
  | none {q : Request} : Effect db q db
  | run {u : RunUpdate} (h : u.guard db = true) : Effect db (.updateRun u) { db with run := u.set db.run }
  | attempts (u : AttemptUpdate) : Effect db (.updateAttempts u) (db.updateAttempts u).2
  | newAttempts {i : AttemptInsert} (h : ∀ r ∈ i.rows db, ∀ a ∈ db.attempts, a.key ≠ r.key) :
    Effect db (.insertAttempts i) { db with attempts := db.attempts ++ i.rows db }
  | newApproval {a : WorkflowApproval} (hgen : db.run.workflowGeneration = a.workflowGeneration)
      (hactive : db.run.status.active = true) (hcancel : db.run.cancelRequestedAt = none)
      (hid : db.approval a.requestId = none) (hkey : db.approvalOf a.workflowGeneration a.activationId = none) :
    Effect db (.insertApproval a) { db with approvals := db.approvals ++ [a] }
  | approve (requestId : String) (now : Time) : Effect db (.approve requestId now) (db.approve requestId now).2
  | consume (requestId : String) (now : Time) : Effect db (.consume requestId now) (db.consume requestId now).2

/-- **Inversion.** Every answered request has one of the effects. -/
theorem answer_effect (env : Env) (w : World) (q : Request) : Effect w.db q (answer env q w).2.db := by
  rcases q with _ | _ | _ | _ | u | u | i | _ | _ | a | _ | _
  case updateRun =>
    by_cases h : u.guard w.db = true
    · simp only [answer, World.withDb, updateRun_true h]
      exact .run h
    · simp only [answer, World.withDb, updateRun_false h]
      exact .none
  case updateAttempts => exact .attempts u
  case insertAttempts =>
    simp only [answer, World.withDb, Database.insertAttempts]
    split
    · exact .none
    · rename_i h
      refine .newAttempts fun r hr a ha hk => h ?_
      exact List.any_eq_true.2 ⟨r, hr, List.any_eq_true.2 ⟨a, ha, by simpa using hk⟩⟩
  case insertApproval =>
    simp only [answer, World.withDb, Database.insertApproval]
    split
    · rename_i hrun
      simp only [Bool.and_eq_true, beq_iff_eq, Option.isNone_iff_eq_none] at hrun
      split
      · exact .none
      · rename_i hkeys
        simp only [Bool.or_eq_true, not_or, Bool.not_eq_true, Option.isSome_eq_false_iff,
          Option.isNone_iff_eq_none] at hkeys
        exact .newApproval hrun.1.1 hrun.1.2 hrun.2 hkeys.1 hkeys.2
    · exact .none
  case approve => exact .approve _ _
  case consume => exact .consume _ _
  case record =>
    have : ((answer env (.record ‹_› ‹_›) w).2).db = w.db := by
      simp only [answer, World.recorded]
      split <;> rfl
    rw [this]
    exact .none
  case graphInvoke =>
    have : ((answer env .graphInvoke w).2).db = w.db := by
      simp only [answer]
      split <;> rfl
    rw [this]
    exact .none
  all_goals exact .none

theorem run_cases {q : Request} (h : Effect db q db') :
    db'.run = db.run ∨ ∃ u, u.guard db = true ∧ db'.run = u.set db.run ∧
      (q = .updateRun u ∨ ∃ requestId now, u = .resume requestId ∧ q = .consume requestId now) := by
  rcases h with _ | @⟨u, hg⟩ | _ | _ | _ | _ | ⟨requestId, now⟩
  case run => exact .inr ⟨u, hg, rfl, .inl rfl⟩
  case consume =>
    by_cases hg : (RunUpdate.resume requestId).guard db = true
    · refine .inr ⟨_, hg, ?_, .inr ⟨requestId, now, rfl, rfl⟩⟩
      rw [Database.consume, updateRun_true hg]
      rfl
    · refine .inl ?_
      rw [Database.consume, updateRun_false hg]
      rfl
  all_goals exact .inl rfl

/-! ### Attempts -/

@[simp] theorem AttemptUpdate.set_key (u : AttemptUpdate) (a : StepAttempt) : (u.set a).key = a.key := by
  cases u <;> rfl

theorem AttemptUpdate.set_pending {u : AttemptUpdate} {a : StepAttempt} (h : (u.set a).status = .pending) :
    a.status = .pending := by
  cases u <;> simp_all [AttemptUpdate.set]

/-- The attempt exists and is not pending any more. -/
def Taken (db : Database) (key : AttemptKey) : Prop :=
  (∃ a ∈ db.attempts, a.key = key) ∧ ∀ a ∈ db.attempts, a.key = key → a.status ≠ .pending

theorem mem_updateAttempts {u : AttemptUpdate} {a : StepAttempt} :
    a ∈ (db.updateAttempts u).2.attempts ↔
      ∃ b ∈ db.attempts, (if u.guard db b then u.set b else b) = a := by
  simp only [Database.updateAttempts, List.mem_map]

/-- **Taken attempts stay taken**, whatever is requested. -/
theorem Taken.effect {q : Request} (h : Taken db key) (he : Effect db q db') : Taken db' key := by
  rcases he with _ | _ | u | hnew | _ | _ | _
  case attempts =>
    obtain ⟨a, ha, hk⟩ := h.1
    refine ⟨⟨_, mem_updateAttempts.2 ⟨a, ha, rfl⟩, ?_⟩, fun b hb hbk hp => ?_⟩
    · split <;> simp [hk]
    · obtain ⟨c, hc, rfl⟩ := mem_updateAttempts.1 hb
      by_cases hg : u.guard db c = true
      · rw [if_pos hg] at hbk hp
        exact h.2 c hc (by rwa [AttemptUpdate.set_key] at hbk) (AttemptUpdate.set_pending hp)
      · rw [if_neg hg] at hbk hp
        exact h.2 c hc hbk hp
  case newAttempts =>
    obtain ⟨a, ha, hk⟩ := h.1
    refine ⟨⟨a, List.mem_append_left _ ha, hk⟩, fun b hb hbk => ?_⟩
    rcases List.mem_append.1 hb with hb | hb
    · exact h.2 b hb hbk
    · exact absurd (hk.trans hbk.symm) (hnew b hb a ha)
  case consume =>
    refine ⟨?_, ?_⟩ <;> simp only [Database.consume, Database.markConsumed, Database.updateRun] <;> split <;>
      first | exact h.1 | exact h.2
  all_goals exact h

theorem claim_pending {input : String} {now : Time}
    (h : (db.updateAttempts (.claim key input now)).1 = true) : ∃ a ∈ db.attempts, a.key = key ∧
      a.status = .pending ∧ (db.run.status = .queued ∨ db.run.status = .running) ∧ db.run.failureCode = none := by
  obtain ⟨a, ha, hg⟩ := List.any_eq_true.1 h
  simp only [AttemptUpdate.guard, Bool.and_eq_true, Bool.or_eq_true, beq_iff_eq, Option.isNone_iff_eq_none] at hg
  exact ⟨a, ha, hg.1.1.1, hg.1.1.2, hg.1.2, hg.2⟩

theorem claim_taken {input : String} {now : Time} (h : (db.updateAttempts (.claim key input now)).1 = true) :
    Taken (db.updateAttempts (.claim key input now)).2 key := by
  obtain ⟨a, ha, hk, _, hs, hf⟩ := claim_pending h
  refine ⟨⟨_, mem_updateAttempts.2 ⟨a, ha, rfl⟩, ?_⟩, fun b hb hbk hp => ?_⟩
  · split <;> simp [hk]
  · obtain ⟨c, hc, rfl⟩ := mem_updateAttempts.1 hb
    by_cases hg : (AttemptUpdate.claim key input now).guard db c = true
    · rw [if_pos hg] at hp
      cases hp
    · -- an attempt of this key that is left alone was not pending
      rw [if_neg hg] at hbk hp
      refine hg ?_
      simp only [AttemptUpdate.guard, hbk, hp, hf, Option.isNone_none, beq_self_eq_true, Bool.true_and,
        Bool.and_true, Bool.or_eq_true, beq_iff_eq]
      exact hs

end ADT.Storage
