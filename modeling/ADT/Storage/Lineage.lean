import ADT.Storage.History

/-!
# Storage.Lineage — the conversation sources of the attempts, as the statements leave them

`bindConversationSource` writes a source where none stands, on an attempt that has not ended; a retry copies the source of
the attempt that failed.  `Lineage` is what follows for the rows, given that every source that is bound is one that the
plan asks for and that has succeeded with a provider task.
-/

namespace ADT.Storage

/-- The attempt is the one the source identifies, and its conversation can be continued. -/
structure SourceOf (a : StepAttempt) (source : ConversationSourceIdentity) : Prop where
  key : a.key = ⟨source.stepId, source.iteration, source.attempt⟩
  activation : a.graphActivationId = source.activationId
  succeeded : a.status = .succeeded
  task : ∃ id, a.providerTaskId = some id

/-- `b` is `a`, or a retry of it: an attempt of the same iteration with a higher number. -/
structure Retries (a b : StepAttempt) : Prop where
  step : b.key.stepId = a.key.stepId
  iteration : b.key.iteration = a.key.iteration
  attempt : a.key.attempt ≤ b.key.attempt

/-- The sources of the rows; `plan` gives the node whose conversation a step continues. -/
structure Lineage (plan : String → Option String) (rows : List StepAttempt) : Prop where
  bound : ∀ a ∈ rows, ∀ source, a.conversationSource = some source →
    plan a.key.stepId = some source.stepId ∧ ∃ b ∈ rows, SourceOf b source
  carried : ∀ a ∈ rows, ∀ b ∈ rows, Retries a b → ∀ source, a.conversationSource = some source →
    b.conversationSource = some source

/-- The binding a request writes. -/
def binding : Request → Option (AttemptKey × ConversationSourceIdentity)
  | .updateAttempts (.bindConversation key source) => some (key, source)
  | _ => none

variable {plan : String → Option String} {rows : List StepAttempt} {a b r : StepAttempt}
  {source : ConversationSourceIdentity} {db db' : Database}

theorem lineage_nil : Lineage plan [] :=
  ⟨fun _ ha => absurd ha List.not_mem_nil, fun _ ha => absurd ha List.not_mem_nil⟩

theorem SourceOf.endures (h : SourceOf a source) (hab : Endures a b) : SourceOf b source := by
  obtain ⟨id, hid⟩ := h.task
  exact ⟨hab.key.trans h.key, hab.activation.trans h.activation, (hab.output h.succeeded).1, id, hab.task id hid⟩

/-! ### One statement -/

theorem AttemptUpdate.source_cases {u : AttemptUpdate} (h : u.guard db a = true) :
    (u.set a).conversationSource = a.conversationSource ∨
      a.conversationSource = none ∧ a.status ≠ .failed ∧ ∃ source, u = .bindConversation a.key source ∧
        (u.set a).conversationSource = some source := by
  cases u
  case bindConversation key source =>
    simp only [AttemptUpdate.guard, Bool.and_eq_true, Bool.or_eq_true, beq_iff_eq, Option.isNone_iff_eq_none] at h
    obtain ⟨⟨rfl, hstatus⟩, hnone⟩ := h
    refine .inr ⟨hnone, fun hf => ?_, source, rfl, rfl⟩
    rw [hf] at hstatus
    simp at hstatus
  all_goals exact .inl rfl

/-- **A source that is bound never changes.** -/
theorem source_stays {q : Request} (he : Effect db q db') (ha : a ∈ db.attempts) (hs : a.conversationSource = some source) :
    ∃ b ∈ db'.attempts, Endures a b ∧ b.conversationSource = some source := by
  obtain ⟨b, hb, rfl | ⟨u, hg, rfl⟩⟩ := effect_row he ha
  · exact ⟨b, hb, .refl b, hs⟩
  · refine ⟨_, hb, (AttemptUpdate.advances hg).toEndures, ?_⟩
    rcases AttemptUpdate.source_cases hg with hsame | ⟨hnone, -⟩
    · exact hsame.trans hs
    · rw [hnone] at hs
      cases hs

theorem AttemptInsert.rows_cases {i : AttemptInsert} (h : r ∈ i.rows db) :
    (r.key.attempt = 1 ∧ r.conversationSource = none) ∨
      ∃ p ∈ db.attempts, p.status = .failed ∧ r = AttemptInsert.retryOf p := by
  rcases i with _ | _ | _
  · simp only [AttemptInsert.rows] at h
    split at h
    · cases h
    · rw [List.mem_singleton.1 h]
      exact .inl ⟨rfl, rfl⟩
  all_goals
    obtain ⟨p, hp, rfl⟩ := List.mem_map.1 h
    simp only [List.mem_filter, Bool.and_eq_true, beq_iff_eq] at hp
    refine .inr ⟨p, hp.1, ?_, rfl⟩
    grind

theorem AttemptInsert.rows_unique {i : AttemptInsert} (hh : History db.attempts) (ha : a ∈ i.rows db)
    (hb : b ∈ i.rows db) : a = b := by
  rcases i with ⟨stepId, activationId, agentId, connectionKey⟩ | ⟨prior, activationId⟩ | prior
  · simp only [AttemptInsert.rows] at ha hb
    split at ha
    · cases ha
    · rename_i hnew
      rw [if_neg hnew] at hb
      rw [List.mem_singleton.1 ha, List.mem_singleton.1 hb]
  all_goals
    obtain ⟨p, hp, rfl⟩ := List.mem_map.1 ha
    obtain ⟨p', hp', rfl⟩ := List.mem_map.1 hb
    simp only [List.mem_filter, Bool.and_eq_true, beq_iff_eq] at hp hp'
    have hkey : p.key = p'.key := by grind
    rw [hh.eq_of_key hp.1 hp'.1 hkey]

/-! ### Every statement keeps the lineage -/

namespace Lineage

theorem eq_of_open (hh : History rows) (ha : a ∈ rows) (hb : b ∈ rows) (hopen : a.status ≠ .failed) (hr : Retries a b) :
    b = a := by
  have hlast : ¬a.key.attempt < (attemptsOf rows a.key.stepId a.key.iteration).length := fun hlt =>
    hopen (hh.failed _ _ a (mem_attemptsOf.2 ⟨ha, rfl, rfl⟩) hlt)
  have hle := hh.attempt_le hb
  have hattempt := hr.attempt
  rw [hr.step, hr.iteration] at hle
  refine hh.eq_of_key hb ha ?_
  have hsame : b.key.attempt = a.key.attempt := by omega
  cases hbk : b.key
  cases hak : a.key
  have hstep := hr.step
  have hiteration := hr.iteration
  simp_all

section

variable (h : Lineage plan db.attempts) (hh : History db.attempts)

include h hh

theorem updateAttempts (u : AttemptUpdate)
    (hu : ∀ key source, u = .bindConversation key source →
      plan key.stepId = some source.stepId ∧ ∃ b ∈ db.attempts, SourceOf b source) :
    Lineage plan (db.updateAttempts u).2.attempts := by
  have hendures : ∀ {b source}, b ∈ db.attempts → SourceOf b source →
      ∃ c ∈ (db.updateAttempts u).2.attempts, SourceOf c source := fun hb hsource => by
    obtain ⟨c, hc, hadvances⟩ := effect_advances (.attempts u) hb
    exact ⟨c, hc, hsource.endures hadvances.toEndures⟩
  constructor
  · intro a' ha' source hs
    obtain ⟨a, ha, rfl⟩ := mem_updateAttempts.1 ha'
    have hold : a.conversationSource = some source → plan a.key.stepId = some source.stepId ∧
        ∃ c ∈ (db.updateAttempts u).2.attempts, SourceOf c source := fun hs => by
      obtain ⟨hplan, b, hb, hsource⟩ := h.bound a ha source hs
      exact ⟨hplan, hendures hb hsource⟩
    by_cases hg : u.guard db a = true
    · rw [if_pos hg] at hs ⊢
      rw [AttemptUpdate.set_key]
      rcases AttemptUpdate.source_cases hg with hsame | ⟨-, -, source', hbind, hset⟩
      · exact hold (hsame ▸ hs)
      · obtain rfl : source' = source := Option.some.inj (hset.symm.trans hs)
        obtain ⟨hplan, b, hb, hsource⟩ := hu _ _ hbind
        exact ⟨hplan, hendures hb hsource⟩
    · rw [if_neg hg] at hs ⊢
      exact hold hs
  · intro a' ha' b' hb' hr source hs
    obtain ⟨a, ha, rfl⟩ := mem_updateAttempts.1 ha'
    obtain ⟨b, hb, rfl⟩ := mem_updateAttempts.1 hb'
    have hkey : ∀ c, (if u.guard db c then u.set c else c).key = c.key := fun c => by split <;> simp
    have hretries : Retries a b := by
      obtain ⟨hstep, hiteration, hattempt⟩ := hr
      rw [hkey, hkey] at hstep hiteration hattempt
      exact ⟨hstep, hiteration, hattempt⟩
    have hold : a.conversationSource = some source →
        (if u.guard db b then u.set b else b).conversationSource = some source := fun hs => by
      have hcarried := h.carried a ha b hb hretries source hs
      split
      · rename_i hg
        rcases AttemptUpdate.source_cases hg with hsame | ⟨hnone, -⟩
        · exact hsame.trans hcarried
        · rw [hnone] at hcarried
          cases hcarried
      · exact hcarried
    by_cases hg : u.guard db a = true
    · rcases AttemptUpdate.source_cases hg with hsame | ⟨-, hopen, -⟩
      · rw [if_pos hg, hsame] at hs
        exact hold hs
      · -- an attempt that is bound now was not retried
        rw [eq_of_open hh ha hb hopen hretries]
        exact hs
    · rw [if_neg hg] at hs
      exact hold hs

theorem carried_new {i : AttemptInsert}
    (hfree : ∀ r ∈ i.rows db, ∀ a ∈ db.attempts, a.key ≠ r.key) (ha : a ∈ db.attempts) (hr : r ∈ i.rows db)
    (har : Retries a r) (hs : a.conversationSource = some source) : r.conversationSource = some source := by
  have hne := hfree r hr a ha
  have hlt : a.key.attempt < r.key.attempt := by
    refine Nat.lt_of_le_of_ne har.attempt fun heq => hne ?_
    have hstep := har.step
    have hiteration := har.iteration
    cases hak : a.key
    cases hrk : r.key
    simp_all
  rcases AttemptInsert.rows_cases hr with ⟨hone, -⟩ | ⟨p, hp, -, rfl⟩
  · have hpos := hh.attempt_pos ha
    omega
  · have hle : a.key.attempt < p.key.attempt + 1 := hlt
    exact h.carried a ha p hp ⟨har.step, har.iteration, by omega⟩ source hs

theorem insertAttempts {i : AttemptInsert}
    (hfree : ∀ r ∈ i.rows db, ∀ a ∈ db.attempts, a.key ≠ r.key) : Lineage plan (db.attempts ++ i.rows db) := by
  constructor
  · intro a ha source hs
    have hold : ∀ {a}, a ∈ db.attempts → a.conversationSource = some source → plan a.key.stepId = some source.stepId ∧
        ∃ b ∈ db.attempts ++ i.rows db, SourceOf b source := fun ha hs => by
      obtain ⟨hplan, b, hb, hsource⟩ := h.bound _ ha source hs
      exact ⟨hplan, b, List.mem_append_left _ hb, hsource⟩
    rcases List.mem_append.1 ha with ha | ha
    · exact hold ha hs
    · rcases AttemptInsert.rows_cases ha with ⟨-, hnone⟩ | ⟨p, hp, -, rfl⟩
      · rw [hnone] at hs
        cases hs
      · exact hold (a := p) hp hs
  · intro a ha b hb hr source hs
    rcases List.mem_append.1 ha with ha | ha <;> rcases List.mem_append.1 hb with hb | hb
    · exact h.carried a ha b hb hr source hs
    · exact h.carried_new hh hfree ha hb hr hs
    · -- the row after which the new one follows was the last of its iteration
      rcases AttemptInsert.rows_cases ha with ⟨-, hnone⟩ | ⟨p, hp, -, rfl⟩
      · rw [hnone] at hs
        cases hs
      · have hlast := hh.last_of_free hp fun c hc => hfree _ ha c hc
        have hle := hh.attempt_le hb
        have hstep : b.key.stepId = p.key.stepId := hr.step
        have hiteration : b.key.iteration = p.key.iteration := hr.iteration
        have hattempt : p.key.attempt + 1 ≤ b.key.attempt := hr.attempt
        rw [hstep, hiteration, hlast] at hle
        omega
    · rw [AttemptInsert.rows_unique hh hb ha]
      exact hs

/-- **Every statement keeps the lineage**, if what it binds is a source that the plan asks for. -/
theorem effect {q : Request} (he : Effect db q db')
    (hq : ∀ key source, binding q = some (key, source) →
      plan key.stepId = some source.stepId ∧ ∃ b ∈ db.attempts, SourceOf b source) : Lineage plan db'.attempts := by
  rcases he with _ | _ | u | hfree | _ | _ | ⟨requestId, now⟩
  case attempts => exact h.updateAttempts hh u fun key source hu => hq key source (by rw [hu]; rfl)
  case newAttempts => exact h.insertAttempts hh hfree
  case consume =>
    simp only [Database.consume, Database.markConsumed, Database.updateRun]
    split <;> exact h
  all_goals exact h

end

end Lineage

end ADT.Storage
