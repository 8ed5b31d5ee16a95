import ADT.Durable.AttemptHistory
import ADT.Storage.Sequential

/-!
# Durable.ManualRetry — a retry that is offered

`manualRetryEligibility` looks at the last failed attempt of any step, `prepareManualRetry` at the last attempt of that
step.  `offered_retry_iff` says, for every state a run of the clients reaches, when the two agree.
-/

namespace ADT.Durable.System

open Interleave Storage

variable {w : World} {s : String}

/-! ### The last attempt of a step -/

theorem getLast?_filter {α : Type} {l : List α} {a : α} {p : α → Bool} (h : l.getLast? = some a) (hp : p a = true) :
    (l.filter p).getLast? = some a := by
  obtain ⟨l', rfl⟩ := List.getLast?_eq_some_iff.1 h
  rw [List.filter_append, List.filter_cons, if_pos hp, List.filter_nil, List.getLast?_concat]

theorem ofStep_none (a : StepAttempt) : Database.ofStep s none a = (a.key.stepId == s) := by
  simp [Database.ofStep]

variable {db : Database} {a prior : StepAttempt}

theorem mem_ordered : a ∈ db.orderedAttempts ↔ a ∈ db.attempts :=
  List.mem_insertionSort _

theorem pair_sublist_of_lt {rows : List StepAttempt} {b : StepAttempt} (h : History rows) (ha : a ∈ rows)
    (hb : b ∈ rows) (hs : a.key.stepId = b.key.stepId) (hi : a.key.iteration = b.key.iteration)
    (hlt : a.key.attempt < b.key.attempt) : [a, b].Sublist rows := by
  have hsub : (attemptsOf rows a.key.stepId a.key.iteration).Sublist rows := List.filter_sublist
  refine List.Sublist.trans ?_ hsub
  have hord : ((attemptsOf rows a.key.stepId a.key.iteration).map (·.key.attempt)).Pairwise (· < ·) := by
    rw [h.numbered]
    exact List.pairwise_lt_range'
  rw [List.pairwise_map] at hord
  have ha' : a ∈ attemptsOf rows a.key.stepId a.key.iteration := mem_attemptsOf.2 ⟨ha, rfl, rfl⟩
  have hb' : b ∈ attemptsOf rows a.key.stepId a.key.iteration := mem_attemptsOf.2 ⟨hb, hs.symm, hi.symm⟩
  obtain ⟨before, after, heq⟩ := List.append_of_mem ha'
  rw [heq] at hord hb' ⊢
  rcases List.mem_append.1 hb' with hb' | hb'
  · have := (List.pairwise_append.1 hord).2.2 b hb' a (List.mem_cons_self ..)
    omega
  · rcases List.mem_cons.1 hb' with rfl | hb'
    · omega
    · exact (List.Sublist.cons_cons a (List.singleton_sublist.2 hb')).trans (List.sublist_append_right before _)

/-- The last row of a step is its latest attempt. -/
theorem last_spec (h : History db.attempts)
    (hlast : (db.orderedAttempts.filter (Database.ofStep s none)).getLast? = some a) :
    a ∈ db.attempts ∧ a.key.stepId = s ∧ ∀ b ∈ db.attempts, b.key.stepId = s →
      b.key.iteration < a.key.iteration ∨ (b.key.iteration = a.key.iteration ∧ b.key.attempt ≤ a.key.attempt) := by
  obtain ⟨ha, hs⟩ := List.mem_filter.1 (List.mem_of_getLast? hlast)
  rw [mem_ordered] at ha
  obtain rfl : a.key.stepId = s := by simpa [ofStep_none] using hs
  obtain ⟨earlier, hl⟩ := List.getLast?_eq_some_iff.1 hlast
  refine ⟨ha, rfl, fun b hb hbs => ?_⟩
  have hbl : b ∈ earlier ++ [a] := by
    rw [← hl]
    exact List.mem_filter.2 ⟨mem_ordered.2 hb, by simpa [ofStep_none] using hbs⟩
  have hsorted : (earlier ++ [a]).Pairwise fun a b => a.key.iteration ≤ b.key.iteration := by
    rw [← hl]
    exact (List.pairwise_insertionSort _ db.attempts).filter _
  rcases List.mem_append.1 hbl with hbe | hbe
  · have hle := (List.pairwise_append.1 hsorted).2.2 b hbe a (List.mem_singleton_self a)
    refine (Nat.lt_or_eq_of_le hle).imp_right fun hi => ⟨hi, Nat.le_of_not_lt fun hlt => ?_⟩
    -- a later attempt of the iteration would stand after `a`
    have hpair : [a, b].Sublist (earlier ++ [a]) := by
      rw [← hl]
      have hsub : [a, b].Sublist db.orderedAttempts :=
        List.pair_sublist_insertionSort hi.ge (pair_sublist_of_lt h ha hb hbs.symm hi.symm hlt)
      have hfilter := hsub.filter (Database.ofStep a.key.stepId none)
      simpa [List.filter_cons, ofStep_none, hbs] using hfilter
    have hnodup : (earlier ++ [a]).Nodup := by
      rw [← hl]
      exact (((List.perm_insertionSort _ db.attempts).nodup_iff).2 (List.Nodup.of_map _ h.keys)).filter _
    have hae : a ∈ earlier := by
      obtain ⟨l₁, l₂, heq, h₁, h₂⟩ := List.sublist_append_iff.1 hpair
      rcases l₁ with _ | ⟨c, l₁⟩
      · have hlen := h₂.length_le
        rw [← List.nil_append l₂, ← heq] at hlen
        simp at hlen
      · obtain rfl : a = c := (List.cons.inj heq).1
        exact h₁.subset (List.mem_cons_self ..)
    exact (List.nodup_append.1 hnodup).2.2 a hae a (List.mem_singleton_self a) rfl
  · obtain rfl := List.mem_singleton.1 hbe
    exact .inr ⟨rfl, Nat.le_refl _⟩

theorem next_free (h : History db.attempts)
    (hlast : (db.orderedAttempts.filter (Database.ofStep s none)).getLast? = some a) {b : StepAttempt}
    (hb : b ∈ db.attempts) : b.key ≠ AttemptInsert.nextKey a.key := by
  obtain ⟨-, hs, hmax⟩ := last_spec h hlast
  intro hk
  have := hmax b hb (by rw [hk]; exact hs)
  simp only [hk, AttemptInsert.nextKey] at this
  omega

/-! ### The retry -/

/-- The retry that was offered works: it opens the next generation and leaves one pending attempt of the step, its
latest. -/
structure Retried (s : String) (w : World) (r : Ran RunDetail) : Prop where
  ok : ∃ detail, r.result = .ok detail
  generation : r.world.db.run.workflowGeneration = w.db.run.workflowGeneration + 1
  pending : ∃ a, r.world.db.latestAttempt s none = some a ∧ a.status = .pending ∧
    ∀ b ∈ r.world.db.attempts, b.key.stepId = s → b.status = .pending → b = a

/-- The last attempt of the step failed, and none of its attempts is pending. -/
def retryable (w : World) (s : String) : Bool :=
  (w.detail.last? s none).any (·.status == .failed) &&
    w.db.attempts.all fun a => a.key.stepId != s || a.status != .pending

/-- The world a retry of `prior` leaves. -/
def retriedWorld (w : World) (s : String) (prior : StepAttempt) : World :=
  { w with db := { w.db with
      run := (RunUpdate.manualRetry s w.db.run.workflowGeneration).set w.db.run
      attempts := w.db.attempts ++ [AttemptInsert.retryOf prior] } }

theorem eligible_spec (he : manualRetryEligibility w.detail = some s) : w.db.run.status = .failed ∧
    ∃ a, (w.db.orderedAttempts.filter (·.status == .failed)).getLast? = some a ∧ a.key.stepId = s ∧
      a.key.attempt < 10 := by
  unfold manualRetryEligibility at he
  split at he
  · cases he
  · rename_i hs
    refine ⟨by simpa [World.detail] using hs, ?_⟩
    split at he
    · cases he
    · rename_i a ha
      split at he
      · cases he
      · rename_i hlt
        exact ⟨a, ha, Option.some.inj he, by omega⟩

theorem eligible_last (he : manualRetryEligibility w.detail = some s)
    (hlast : (w.db.orderedAttempts.filter (Database.ofStep s none)).getLast? = some prior)
    (hf : prior.status = .failed) : prior.key.attempt < 10 := by
  obtain ⟨-, a, ha, hs, hlt⟩ := eligible_spec he
  have h₁ := getLast?_filter (p := Database.ofStep s none) ha (by simpa [ofStep_none] using hs)
  have h₂ := getLast?_filter (p := fun a => a.status == .failed) hlast (by simpa using hf)
  rw [List.filter_filter] at h₁ h₂
  simp only [Bool.and_comm] at h₁ h₂
  obtain rfl : a = prior := Option.some.inj (h₁.symm.trans h₂)
  exact hlt

theorem manualRetry_rows (h : History db.attempts) (ha : prior ∈ db.attempts)
    (hf : prior.status = .failed) : (AttemptInsert.manualRetry prior.key).rows db = [AttemptInsert.retryOf prior] := by
  have hp : ∀ a : StepAttempt, (a.key == prior.key && a.status == .failed) = true → a.key = prior.key ∧ a.status = .failed :=
    fun a ha => by simpa using ha
  rcases h.retry_rows hp with hnil | ⟨a, hmem, hk, -, hone⟩
  · rw [List.map_eq_nil_iff, List.filter_eq_nil_iff] at hnil
    exact absurd (by simpa using hf) (hnil prior ha)
  · rw [h.eq_of_key hmem ha hk] at hone
    exact hone

variable {envs : ℕ → Env} {k : ℕ}

theorem prepareManualRetry_alone (envs : ℕ → Env) (k : ℕ) (h : History w.db.attempts)
    (he : manualRetryEligibility w.detail = some s) (hlast : (w.db.orderedAttempts.filter (Database.ofStep s none)).getLast? = some prior)
    (hf : prior.status = .failed) : ∃ n, alone (prepareManualRetry s) envs k w =
      ⟨.ok (retriedWorld w s prior).detail, n, retriedWorld w s prior⟩ := by
  have hlt := eligible_last he hlast hf
  obtain ⟨hfailed, -⟩ := eligible_spec he
  obtain ⟨hmem, -, -⟩ := last_spec h hlast
  have hinsert : w.db.insertAttempts (.manualRetry prior.key) =
      (some true, { w.db with attempts := w.db.attempts ++ [AttemptInsert.retryOf prior] }) := by
    have hfree : ∀ b ∈ w.db.attempts, b.key ≠ (AttemptInsert.retryOf prior).key := fun b hb => next_free h hlast hb
    simp only [Database.insertAttempts, manualRetry_rows h hmem hf, List.any_cons, List.any_nil, Bool.or_false]
    rw [if_neg]
    · rfl
    · simpa using hfree
  have hguard : (RunUpdate.manualRetry s w.db.run.workflowGeneration).guard
      { w.db with attempts := w.db.attempts ++ [AttemptInsert.retryOf prior] } = true := by
    simp [RunUpdate.guard, hfailed]
  refine ⟨k + 6, ?_⟩
  unfold prepareManualRetry
  rw [alone_getRun]
  have hmatch : w.detail.last? s none = some prior := hlast
  simp only [hmatch]
  change alone (if (w.db.run.status != .failed || prior.status != .failed || decide (10 ≤ prior.key.attempt)) = true
    then _ else _) envs (k + 2) w = _
  rw [if_neg (by simp [hfailed, hf, hlt])]
  refine (alone_answer (a := some true)
    (v := { w with db := { w.db with attempts := w.db.attempts ++ [AttemptInsert.retryOf prior] } }) ?_).trans ?_
  · show w.withDb _ = _
    rw [hinsert]
    rfl
  refine (alone_updateRun_true hguard _).trans ?_
  rfl

theorem prepareManualRetry_fails (envs : ℕ → Env) (k : ℕ) (hlast : ∀ prior,
    (w.db.orderedAttempts.filter (Database.ofStep s none)).getLast? = some prior → prior.status ≠ .failed) :
    ∃ n e, alone (prepareManualRetry s) envs k w = ⟨.error e, n, w⟩ := by
  refine ⟨k + 2, .error "invalid_retry", ?_⟩
  unfold prepareManualRetry
  rw [alone_getRun]
  rcases hmatch : w.detail.last? s none with _ | prior
  · simp only [alone_error]
  · simp only
    change alone (if (w.db.run.status != .failed || prior.status != .failed || decide (10 ≤ prior.key.attempt)) = true
      then _ else _) envs (k + 2) w = _
    rw [if_pos (by simp [hlast prior hmatch])]
    rfl

theorem latest_retried (h : History w.db.attempts)
    (hlast : (w.db.orderedAttempts.filter (Database.ofStep s none)).getLast? = some prior) :
    (retriedWorld w s prior).db.latestAttempt s none = some (AttemptInsert.retryOf prior) := by
  obtain ⟨-, hs, hmax⟩ := last_spec h hlast
  have hnew : Database.ofStep s none (AttemptInsert.retryOf prior) = true := by
    rw [ofStep_none]
    exact beq_iff_eq.2 hs
  simp only [Database.latestAttempt, retriedWorld, List.filter_append, List.filter_cons, hnew, List.filter_nil, if_true]
  rw [List.argmax_concat]
  rcases hc : (w.db.attempts.filter (Database.ofStep s none)).argmax
      fun a => toLex (a.key.iteration, a.key.attempt) with _ | c
  · simp only [hc]
  · simp only [hc]
    obtain ⟨hmem, hcs⟩ := List.mem_filter.1 (List.argmax_mem hc)
    have hle := hmax c hmem (by simpa [ofStep_none] using hcs)
    refine if_pos ?_
    rw [Prod.Lex.toLex_lt_toLex]
    simp only [AttemptInsert.retryOf, StepAttempt.fresh, AttemptInsert.nextKey]
    omega

/-- **Offered retries.** In every state the clients of a new run reach, wherever they stopped: where a retry of the step
`s` is offered, preparing it works just when the last attempt of `s` failed and no attempt of `s` is pending. -/
theorem offered_retry_iff (w : World) (hw : w.db.attempts = []) (moves : List Move) (s : String) (envs : ℕ → Env)
    (k : ℕ) (he : manualRetryEligibility (after w moves).world.detail = some s) :
    Retried s (after w moves).world (alone (prepareManualRetry s) envs k (after w moves).world) ↔
      retryable (after w moves).world s = true := by
  have h := (numbered_run hw moves).history
  generalize (after w moves).world = w at h he ⊢
  simp only [retryable, Bool.and_eq_true, Option.any_eq_true, List.all_eq_true, beq_iff_eq, Bool.or_eq_true, bne_iff_ne]
  constructor
  · rintro ⟨⟨detail, hok⟩, -, a, ha, -, hunique⟩
    by_cases hlast : ∃ prior, w.detail.last? s none = some prior ∧ prior.status = .failed
    · obtain ⟨prior, hprior, hf⟩ := hlast
      refine ⟨⟨prior, hprior, hf⟩, fun b hb => ?_⟩
      obtain ⟨n, hrun⟩ := prepareManualRetry_alone envs k h he hprior hf
      rw [hrun] at ha hunique
      obtain rfl : AttemptInsert.retryOf prior = a := Option.some.inj ((latest_retried h hprior).symm.trans ha)
      refine or_iff_not_imp_left.2 fun hs hp => next_free h hprior hb ?_
      rw [hunique b (List.mem_append_left _ hb) (not_not.1 hs) hp]
      rfl
    · obtain ⟨n, e, hrun⟩ := prepareManualRetry_fails envs k (w := w) (s := s) fun prior hprior hf =>
        hlast ⟨prior, hprior, hf⟩
      rw [hrun] at hok
      cases hok
  · rintro ⟨⟨prior, hprior, hf⟩, hnone⟩
    obtain ⟨n, hrun⟩ := prepareManualRetry_alone envs k h he hprior hf
    rw [hrun]
    refine ⟨⟨_, rfl⟩, rfl, _, latest_retried h hprior, rfl, fun b hb hs hp => ?_⟩
    rcases List.mem_append.1 hb with hb | hb
    · exact absurd hp ((hnone b hb).resolve_left (not_not.2 hs))
    · exact List.mem_singleton.1 hb

/-- The only attempt of the run fails, and the run with it. -/
def failedRun : List Move :=
  admittedRun ++ .client (sampleCall 1 1) :: runs 2 40 (refusingEnv 5)

/-- The retry of a failed run that nobody disturbs. -/
theorem failedRun_retried : Retried "a" (after (createdRun sampleSnapshot) failedRun).world
      (alone (prepareManualRetry "a") (fun _ => admittingEnv 10) 0 (after (createdRun sampleSnapshot) failedRun).world) :=
  (offered_retry_iff _ rfl failedRun "a" _ 0 (by decide +kernel)).mpr (by decide +kernel)

/-- A retry inserts its attempt and stops before it opens the next generation. -/
def interruptedRetry : List Move :=
  failedRun ++ .client .retry :: runs 3 5 (admittingEnv 10)

/-- A retry is offered still, and every retry from then on throws. -/
theorem interruptedRetry_stuck :
    manualRetryEligibility (after (createdRun sampleSnapshot) interruptedRetry).world.detail = some "a" ∧
      ∀ envs k, ¬Retried "a" (after (createdRun sampleSnapshot) interruptedRetry).world
        (alone (prepareManualRetry "a") envs k (after (createdRun sampleSnapshot) interruptedRetry).world) := by
  have hlast : ((after (createdRun sampleSnapshot) interruptedRetry).world.db.orderedAttempts.filter
      (Database.ofStep "a" none)).getLast?.all (·.status != .failed) = true := by
    decide +kernel
  refine ⟨by decide +kernel, fun envs k hr => ?_⟩
  obtain ⟨n, e, hrun⟩ := prepareManualRetry_fails envs k fun prior hprior => by
    rw [hprior] at hlast
    simpa using hlast
  obtain ⟨detail, hok⟩ := hr.ok
  rw [hrun] at hok
  cases hok

end ADT.Durable.System
