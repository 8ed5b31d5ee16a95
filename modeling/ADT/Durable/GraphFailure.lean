import ADT.Durable.AttemptHistory

/-!
# Durable.GraphFailure — what becomes of a recorded graph failure

A branch that fails records its failure with `recordGraphFailure` and leaves the run going on, so that the work of its
siblings can be settled; `failRun` ends the run later on.  A life of the run begins when its instance is attached and
ends when a manual retry opens the next generation.  Where every statement that fails the run comes from a call that has
looked, the siblings are settled by then (`fails_settled`); where it passes on what its call has read, the run fails with
the failure that was recorded first (`first_failure_wins`).
-/

namespace ADT.Durable.System

open Workflow Interleave Storage

/-! ### What the trace says -/

/-- The event begins or ends a life of the run. -/
def resets (e : Event signature) : Bool :=
  match e with
  | ⟨_, .updateRun (.attach ..), done⟩ => done
  | ⟨_, .updateRun (.manualRetry ..), done⟩ => done
  | _ => false

/-- The graph failure that was recorded first in this life of the run. -/
def recorded : List (Event signature) → Option (FailureCategory × String)
  | [] => none
  | e :: trace =>
    if resets e then none
    else match e with
      | ⟨_, .updateRun (.graphFailure code message), true⟩ => (recorded trace).or (some (code, message))
      | _ => recorded trace

/-- The attempts `finish` of `reconcileFailedGraphRun` waits for. -/
def outstanding (a : StepAttempt) : Bool :=
  a.providerTaskId.isSome && (a.status == .starting || a.status == .waitingProvider) ||
    a.status == .starting && a.providerTaskId.isNone

/-- What a call has seen in this life of the run: its failure, and after it no outstanding attempt. -/
structure Look where
  failure : Bool
  settled : Bool

def look (t : ℕ) : List (Event signature) → Look
  | [] => ⟨false, false⟩
  | e :: trace =>
    let seen := look t trace
    if resets e then ⟨false, false⟩
    else if e.thread ≠ t then seen
    else match e with
      | ⟨_, .selectRun, run⟩ => { seen with failure := seen.failure || run.failureCode.isSome }
      | ⟨_, .selectAttempts, rows⟩ => { seen with settled := seen.settled || seen.failure && !rows.any outstanding }
      | _ => seen

/-- The call has read the failure from the run, in this life of it. -/
def read (t : ℕ) (code : FailureCategory) (message : String) : List (Event signature) → Bool
  | [] => false
  | e :: trace =>
    !resets e && (read t code message trace || match e with
      | ⟨t', .selectRun, run⟩ => t' == t && run.failureCode == some code && run.failureMessage == some message
      | _ => false)

/-- The failure a statement on the run's row ends it with. -/
def fails : RunUpdate → Option (FailureCategory × String)
  | .fail code message _ => some (code, message)
  | .launchFailure _ _ message => some (.internalError, message)
  | _ => none

/-- A statement that fails a run with a recorded failure comes from a call that has looked for outstanding attempts. -/
def looksFirst (pool : Services) : Move → Bool
  | .run t env =>
    match asks pool (.run t env) with
    | some (.updateRun u) =>
      !((fails u).isSome && u.guard pool.world.db && (recorded pool.trace).isSome) || (look t pool.trace).settled
    | _ => true
  | .client _ => true

/-- It passes on a failure that its call has read. -/
def passesOn (pool : Services) : Move → Bool
  | .run t env =>
    match asks pool (.run t env) with
    | some (.updateRun u) =>
      !(u.guard pool.world.db && (recorded pool.trace).isSome) ||
        (fails u).all fun failure => read t failure.1 failure.2 pool.trace
    | _ => true
  | .client _ => true

/-! ### What the statements do -/

variable {db db' : Database} {pool : Services} {w : World}
variable {u : RunUpdate} {e : Event signature} {code : FailureCategory}

theorem failure_stays {run : WorkflowRun} (hu : ∀ g i, u ≠ .attach g i)
    (h : run.failureCode.isSome = true) : (u.set run).failureCode.isSome = true := by
  cases u
  case attach g i => exact absurd rfl (hu g i)
  case graphFailure => simp [RunUpdate.set]
  all_goals first | exact h | rfl

/-- The attempts a run must not fail with. -/
def live (a : StepAttempt) : Bool :=
  a.status == .starting || a.status == .waitingProvider

/-- A task that is waited for is known. -/
def Known (a : StepAttempt) : Prop :=
  a.status = .waitingProvider → a.providerTaskId.isSome = true

theorem outstanding_iff {a : StepAttempt} (h : Known a) : outstanding a = live a := by
  unfold Known at h
  rcases hs : a.status <;> rcases ht : a.providerTaskId <;> simp_all [outstanding, live]

theorem settled_stays {q : Request} (he : Effect db q db') (hf : db.run.failureCode.isSome = true)
    (h : ∀ a ∈ db.attempts, live a = false) : ∀ a ∈ db'.attempts, live a = false := by
  rcases he with _ | _ | u | _ | _ | _ | ⟨requestId, now⟩
  case attempts =>
    intro a ha
    obtain ⟨b, hb, rfl⟩ := mem_updateAttempts.1 ha
    split
    · rename_i hg
      have hbl := h b hb
      cases u <;>
        simp only [AttemptUpdate.guard, Bool.and_eq_true, Bool.or_eq_true, beq_iff_eq] at hg <;>
        simp only [live, AttemptUpdate.set, Bool.or_eq_false_iff, beq_eq_false_iff_ne] at hbl ⊢ <;>
        simp_all
    · exact h b hb
  case newAttempts i _ =>
    intro a ha
    rcases List.mem_append.1 ha with ha | ha
    · exact h a ha
    · simp [live, AttemptInsert.rows_pending ha]
  case consume =>
    simp only [Database.consume, Database.markConsumed, Database.updateRun]
    split <;> exact h
  all_goals exact h

theorem known_stays {q : Request} (he : Effect db q db') (h : ∀ a ∈ db.attempts, Known a) :
    ∀ a ∈ db'.attempts, Known a := by
  rcases he with _ | _ | u | _ | _ | _ | ⟨requestId, now⟩
  case attempts =>
    intro a ha
    obtain ⟨b, hb, rfl⟩ := mem_updateAttempts.1 ha
    have hbk := h b hb
    split
    · rename_i hg
      unfold Known at hbk ⊢
      cases u <;>
        simp only [AttemptUpdate.guard, Bool.and_eq_true, Bool.or_eq_true, beq_iff_eq] at hg <;>
        simp_all [AttemptUpdate.set]
    · exact hbk
  case newAttempts i _ =>
    intro a ha
    rcases List.mem_append.1 ha with ha | ha
    · exact h a ha
    · intro hs
      rw [AttemptInsert.rows_pending ha] at hs
      cases hs
  case consume =>
    simp only [Database.consume, Database.markConsumed, Database.updateRun]
    split <;> exact h
  all_goals exact h

/-! ### What an event does to the failure -/

variable {t : ℕ} {env : Env} {q : Request} {trace : List (Event signature)}

/-- The request is a statement on the row of the run that takes effect. -/
def Writes (db : Database) (q : Request) : Prop := ∃ u, q = .updateRun u ∧ u.guard db = true

/-- What an event leaves as it was that is no statement on the row of the run. -/
structure Inert (w w' : World) (e : Event signature) : Prop where
  resets : resets e = false
  recorded : ∀ trace, recorded (e :: trace) = recorded trace
  code : w'.db.run.failureCode = w.db.run.failureCode
  message : w'.db.run.failureMessage = w.db.run.failureMessage
  active : w'.db.run.status.active = true → w.db.run.status.active = true
  failed : w'.db.run.status = .failed → w.db.run.status = .failed

theorem inert_of_not_writes (h : ¬Writes w.db q) :
    Inert w (answer env q w).2 ⟨t, q, (answer env q w).1⟩ := by
  have hno : ∀ u, q = .updateRun u → (w.db.updateRun u).1 = false := fun u hq => by
    rw [updateRun_false fun hg => h ⟨u, hq, hg⟩]
  have hresets : System.resets ⟨t, q, (answer env q w).1⟩ = false := by
    rcases q with _ | _ | _ | _ | u | _
    case updateRun =>
      cases u <;> first | rfl | exact hno _ rfl
    all_goals rfl
  have hrecorded : ∀ trace, System.recorded (⟨t, q, (answer env q w).1⟩ :: trace) = System.recorded trace := by
    intro trace
    rcases q with _ | _ | _ | _ | u | _
    case updateRun =>
      show System.recorded (⟨t, .updateRun u, (w.db.updateRun u).1⟩ :: trace) = _
      rw [hno u rfl]
      cases u <;> rfl
    all_goals rfl
  rcases run_cases (answer_effect env w q) with hrun | ⟨u, hg, hset, hq | ⟨requestId, _, rfl, _⟩⟩
  · refine ⟨hresets, hrecorded, ?_, ?_, ?_, ?_⟩ <;> rw [hrun]
    · exact fun h => h
    · exact fun h => h
  · exact absurd ⟨u, hq, hg⟩ h
  · simp only [RunUpdate.guard, Bool.and_eq_true, beq_iff_eq] at hg
    refine ⟨hresets, hrecorded, ?_, ?_, fun _ => ?_, ?_⟩
    · rw [hset]
      rfl
    · rw [hset]
      rfl
    · simp [RunStatus.active, hg.1.1]
    · rw [hset]
      exact fun h => by cases h

theorem look_failure (h : (look t (e :: trace)).failure = true) : resets e = false ∧
    ((look t trace).failure = true ∨ ∃ run, e = ⟨t, .selectRun, run⟩ ∧ run.failureCode.isSome = true) := by
  unfold look at h
  dsimp only at h
  split at h
  · cases h
  · rename_i hr
    refine ⟨by simpa using hr, ?_⟩
    split at h
    · exact .inl h
    · rename_i ht
      split at h
      · rename_i t' run
        obtain rfl : t' = t := not_not.1 ht
        simp only [Bool.or_eq_true] at h
        exact h.imp_right fun hrun => ⟨run, rfl, hrun⟩
      · exact .inl h
      · exact .inl h

theorem look_settled (h : (look t (e :: trace)).settled = true) : resets e = false ∧
    ((look t trace).settled = true ∨ (look t trace).failure = true ∧
      ∃ rows, e = ⟨t, .selectAttempts, rows⟩ ∧ rows.any outstanding = false) := by
  unfold look at h
  dsimp only at h
  split at h
  · cases h
  · rename_i hr
    refine ⟨by simpa using hr, ?_⟩
    split at h
    · exact .inl h
    · rename_i ht
      split at h
      · exact .inl h
      · rename_i t' rows
        obtain rfl : t' = t := not_not.1 ht
        simp only [Bool.or_eq_true, Bool.and_eq_true, Bool.not_eq_true'] at h
        exact h.imp_right fun hrows => ⟨hrows.1, rows, rfl, hrows.2⟩
      · exact .inl h

theorem failure_effect (hr : resets ⟨t, q, (answer env q w).1⟩ = false) (h : w.db.run.failureCode.isSome = true) :
    (answer env q w).2.db.run.failureCode.isSome = true := by
  by_cases hw : Writes w.db q
  · obtain ⟨u, rfl, hg⟩ := hw
    simp only [answer, World.withDb, updateRun_true hg] at hr ⊢
    exact failure_stays (fun g i hu => by subst hu; cases hr) h
  · rw [(inert_of_not_writes (t := t) hw).code]
    exact h

/-! ### Settled siblings -/

/-- What the calls have seen is so. -/
structure Looking (pool : Services) : Prop where
  known : ∀ a ∈ pool.world.db.attempts, Known a
  failure : ∀ t, (look t pool.trace).failure = true → pool.world.db.run.failureCode.isSome = true
  settled : ∀ t, (look t pool.trace).settled = true → pool.world.db.run.failureCode.isSome = true ∧
    ∀ a ∈ pool.world.db.attempts, live a = false

theorem looking_step (h : Looking pool) (m : Move) : Looking (pool.step m.action) := by
  rcases step_cases pool m with ⟨hw, htr⟩ | ⟨t, env, q, next, -, -, -, hs⟩
  · refine ⟨?_, ?_, ?_⟩ <;> rw [hw]
    · exact h.known
    · rw [htr]
      exact h.failure
    · rw [htr]
      exact h.settled
  rw [hs]
  have he := answer_effect env pool.world q
  refine ⟨known_stays he h.known, fun t' ht' => ?_, fun t' ht' => ?_⟩
  · obtain ⟨hr, hold | ⟨run, heq, hrun⟩⟩ := look_failure ht'
    · exact failure_effect hr (h.failure t' hold)
    · obtain ⟨rfl, rfl, hans⟩ : t = t' ∧ q = .selectRun ∧ HEq (answer env q pool.world).1 run := by simpa using heq
      obtain rfl : pool.world.db.run = run := eq_of_heq hans
      exact hrun
  · obtain ⟨hr, hold | ⟨hf, rows, heq, hrows⟩⟩ := look_settled ht'
    · obtain ⟨hf, hlive⟩ := h.settled t' hold
      exact ⟨failure_effect hr hf, settled_stays he hf hlive⟩
    · obtain ⟨rfl, rfl, hans⟩ : t = t' ∧ q = .selectAttempts ∧ HEq (answer env q pool.world).1 rows := by simpa using heq
      obtain rfl : pool.world.db.orderedAttempts = rows := eq_of_heq hans
      refine ⟨h.failure t hf, fun a ha => ?_⟩
      rw [← outstanding_iff (h.known a ha)]
      simpa using List.any_eq_false.1 hrows a ((List.mem_insertionSort _).2 ha)

theorem looking_run (hw : w.db.attempts = []) (moves : List Move) : Looking (after w moves) := by
  induction moves using List.reverseRecOn with
  | nil =>
    refine ⟨fun a ha => ?_, fun t h => absurd h Bool.false_ne_true, fun t h => absurd h Bool.false_ne_true⟩
    rw [show (after w []).world.db.attempts = [] from hw] at ha
    cases ha
  | append_singleton moves m ih =>
    rw [after_concat]
    exact looking_step ih m

/-- **No failed run with live siblings.** Over every run in which each statement that fails the run after a graph failure
was recorded comes from a call that has read the failure and found no attempt outstanding since: the run fails only when
no attempt of it is starting or waits for its provider. -/
theorem fails_settled (w : World) (hw : w.db.attempts = []) (moves : List Move) (m : Move)
    (hm : Moves looksFirst (Pool.init w) (moves ++ [m])) (hrec : (recorded (after w moves).trace).isSome = true)
    (hbefore : (after w moves).world.db.run.status ≠ .failed)
    (hafter : (after w (moves ++ [m])).world.db.run.status = .failed) :
    ∀ a ∈ (after w (moves ++ [m])).world.db.attempts, a.status ≠ .starting ∧ a.status ≠ .waitingProvider := by
  have hlook := looking_run hw moves
  have hok : looksFirst (after w moves) m = true := (moves_concat.1 hm).2
  rw [after_concat] at hafter ⊢
  generalize after w moves = pool at *
  rcases step_cases pool m with ⟨hw', -⟩ | ⟨t, env, q, next, rfl, -, hq, hs⟩
  · rw [hw'] at hafter
    exact absurd hafter hbefore
  rw [hs] at hafter ⊢
  by_cases hwrites : Writes pool.world.db q
  · obtain ⟨u, rfl, hg⟩ := hwrites
    have hfails : (fails u).isSome = true := by
      simp only [answer, World.withDb, updateRun_true hg] at hafter
      cases u <;> first | rfl | exact absurd hafter (by simp [RunUpdate.set, hbefore])
    have hsettled : (look t pool.trace).settled = true := by
      simpa [looksFirst, hq, hfails, hg, hrec] using hok
    have hlive := (hlook.settled t hsettled).2
    simp only [answer, World.withDb, updateRun_true hg]
    intro a ha
    have := hlive a ha
    simpa [live] using this
  · exact absurd ((inert_of_not_writes (t := t) hwrites).failed hafter) hbefore

/-! ### The first failure -/

theorem read_cons {message : String}
    (h : read t code message (e :: trace) = true) : resets e = false ∧ (read t code message trace = true ∨
      ∃ run, e = ⟨t, .selectRun, run⟩ ∧ run.failureCode = some code ∧ run.failureMessage = some message) := by
  simp only [read, Bool.and_eq_true, Bool.not_eq_true', Bool.or_eq_true] at h
  refine ⟨h.1, h.2.imp_right fun hread => ?_⟩
  split at hread
  · rename_i t' run
    obtain ⟨⟨rfl, hcode⟩, hmessage⟩ : (t' = t ∧ run.failureCode = some code) ∧ run.failureMessage = some message := by
      simpa using hread
    exact ⟨run, rfl, hcode, hmessage⟩
  · cases hread

/-- What the row of the run says of its failure. -/
structure FirstKept (pool : Services) : Prop where
  first : ∀ code message, recorded pool.trace = some (code, message) →
    pool.world.db.run.failureCode = some code ∧ pool.world.db.run.failureMessage = some message
  active : pool.world.db.run.failureCode.isSome = true → pool.world.db.run.status.active = true →
    (recorded pool.trace).isSome = true
  paired : pool.world.db.run.failureCode = none → pool.world.db.run.failureMessage = none
  unread : pool.world.db.run.failureCode = none → ∀ t code message, read t code message pool.trace = false
  reads : (recorded pool.trace).isSome = true → ∀ t code message, read t code message pool.trace = true →
    pool.world.db.run.failureCode = some code ∧ pool.world.db.run.failureMessage = some message

variable {threads : List (Service Unit)}

theorem firstKept_inert (h : FirstKept pool) (hw : ¬Writes pool.world.db q) : FirstKept
    ⟨(answer env q pool.world).2, threads, ⟨t, q, (answer env q pool.world).1⟩ :: pool.trace⟩ := by
  have hi : Inert pool.world _ ⟨t, q, (answer env q pool.world).1⟩ := inert_of_not_writes hw
  have hread : ∀ t' code message, read t' code message (⟨t, q, (answer env q pool.world).1⟩ :: pool.trace) = true →
      read t' code message pool.trace = true ∨
        pool.world.db.run.failureCode = some code ∧ pool.world.db.run.failureMessage = some message := by
    intro t' code message hr
    refine (read_cons hr).2.imp_right ?_
    rintro ⟨run, heq, hrun⟩
    obtain ⟨-, rfl, hans⟩ : t = t' ∧ q = .selectRun ∧ HEq (answer env q pool.world).1 run := by simpa using heq
    obtain rfl : pool.world.db.run = run := eq_of_heq hans
    exact hrun
  refine ⟨?_, ?_, ?_, ?_, ?_⟩
  · rw [hi.recorded, hi.code, hi.message]
    exact h.first
  · rw [hi.recorded, hi.code]
    exact fun hc ha => h.active hc (hi.active ha)
  · rw [hi.code, hi.message]
    exact h.paired
  · rw [hi.code]
    intro hc t' code message
    by_contra hr
    rcases hread t' code message (by simpa using hr) with hr | hr
    · rw [h.unread hc] at hr
      cases hr
    · rw [hc] at hr
      cases hr.1
  · rw [hi.recorded, hi.code, hi.message]
    exact fun hrec t' code message hr => (hread t' code message hr).elim (h.reads hrec t' code message) fun hr => hr

theorem firstKept_fails (h : FirstKept pool) {failure : FailureCategory × String}
    (hu : fails u = some failure) (hpass : (recorded pool.trace).isSome = true →
      read t failure.1 failure.2 pool.trace = true) : FirstKept
    ⟨{ pool.world with db := { pool.world.db with run := u.set pool.world.db.run } }, threads,
      ⟨t, .updateRun u, true⟩ :: pool.trace⟩ := by
  have hsame : (recorded pool.trace).isSome = true →
      pool.world.db.run.failureCode = some failure.1 ∧ pool.world.db.run.failureMessage = some failure.2 :=
    fun hrec => h.reads hrec t _ _ (hpass hrec)
  have hread : ∀ t' code message, read t' code message (⟨t, .updateRun u, true⟩ :: pool.trace) = true →
      read t' code message pool.trace = true := fun t' code message hr =>
    (read_cons hr).2.resolve_right fun ⟨_, heq, _⟩ => by simp at heq
  have hset : (u.set pool.world.db.run).status = .failed ∧
      (u.set pool.world.db.run).failureCode = some failure.1 ∧
      (u.set pool.world.db.run).failureMessage = some failure.2 ∧
      recorded (⟨t, .updateRun u, true⟩ :: pool.trace) = recorded pool.trace := by
    cases u <;> cases hu <;> exact ⟨rfl, rfl, rfl, rfl⟩
  obtain ⟨hstatus, hcode, hmessage, hrecorded⟩ := hset
  refine ⟨fun code message hrec => ?_, fun _ ha => ?_, fun hc => ?_, fun hc => ?_, fun hrec t' code message hr => ?_⟩
  · rw [hrecorded] at hrec
    obtain ⟨hc, hm⟩ := h.first code message hrec
    obtain ⟨hc', hm'⟩ := hsame (by rw [hrec]; rfl)
    exact ⟨hcode.trans (hc'.symm.trans hc), hmessage.trans (hm'.symm.trans hm)⟩
  · simp [hstatus, RunStatus.active] at ha
  · simp [hcode] at hc
  · simp [hcode] at hc
  · rw [hrecorded] at hrec
    obtain ⟨hc, hm⟩ := h.reads hrec t' code message (hread t' code message hr)
    obtain ⟨hc', hm'⟩ := hsame hrec
    exact ⟨hcode.trans (hc'.symm.trans hc), hmessage.trans (hm'.symm.trans hm)⟩

/-- A graph failure that is recorded is the first. -/
theorem firstKept_graphFailure (h : FirstKept pool) {message : String}
    (hg : (RunUpdate.graphFailure code message).guard pool.world.db = true) : FirstKept
    ⟨{ pool.world with db := { pool.world.db with run := (RunUpdate.graphFailure code message).set pool.world.db.run } },
      threads, ⟨t, .updateRun (.graphFailure code message), true⟩ :: pool.trace⟩ := by
  have hread : ∀ t' c m, read t' c m (⟨t, .updateRun (.graphFailure code message), true⟩ :: pool.trace) = true →
      read t' c m pool.trace = true := fun t' c m hr =>
    (read_cons hr).2.resolve_right fun ⟨_, heq, _⟩ => by simp at heq
  have hrecorded : recorded (⟨t, .updateRun (.graphFailure code message), true⟩ :: pool.trace) =
      (recorded pool.trace).or (some (code, message)) := rfl
  rcases hrec : recorded pool.trace with _ | ⟨c₀, m₀⟩
  · -- the first failure of this life: nothing stands, and nobody has read anything
    have hnone : pool.world.db.run.failureCode = none := by
      by_contra hc
      have := h.active (Option.isSome_iff_ne_none.2 hc) hg
      simp [hrec] at this
    have hset : ((RunUpdate.graphFailure code message).set pool.world.db.run).failureCode = some code ∧
        ((RunUpdate.graphFailure code message).set pool.world.db.run).failureMessage = some message := by
      simp [RunUpdate.set, hnone, h.paired hnone]
    refine ⟨fun c m hr => ?_, fun _ _ => ?_, fun hc => ?_, fun hc => ?_, fun _ t' c m hr => ?_⟩
    · simp only [hrecorded, hrec, Option.none_or, Option.some.injEq, Prod.mk.injEq] at hr
      obtain ⟨rfl, rfl⟩ := hr
      exact hset
    · simp [hrecorded, hrec]
    · simp [hset.1] at hc
    · simp [hset.1] at hc
    · exact absurd (hread t' c m hr) (by rw [h.unread hnone]; exact Bool.false_ne_true)
  · obtain ⟨hc₀, hm₀⟩ := h.first c₀ m₀ hrec
    have hset : ∀ run : WorkflowRun, run.failureCode = some c₀ → run.failureMessage = some m₀ →
        (RunUpdate.graphFailure code message).set run = run := by
      rintro ⟨⟩ rfl rfl
      rfl
    rw [hset _ hc₀ hm₀]
    refine ⟨fun c m hr => ?_, fun _ _ => ?_, h.paired, fun hc => ?_, fun _ t' c m hr => ?_⟩
    · refine h.first c m ?_
      simpa [hrecorded, hrec] using hr
    · simp [hrecorded, hrec]
    · simp [hc₀] at hc
    · exact h.reads (by simp [hrec]) t' c m (hread t' c m hr)

theorem firstKept_resets (h : FirstKept pool) (hg : u.guard pool.world.db = true)
    (hr : resets ⟨t, .updateRun u, true⟩ = true) : FirstKept
    ⟨{ pool.world with db := { pool.world.db with run := u.set pool.world.db.run } }, threads,
      ⟨t, .updateRun u, true⟩ :: pool.trace⟩ := by
  have hrecorded : recorded (⟨t, .updateRun u, true⟩ :: pool.trace) = none := by
    cases u <;> first | rfl | cases hr
  have hread : ∀ t' code message, read t' code message (⟨t, .updateRun u, true⟩ :: pool.trace) = false := by
    cases u <;> first | exact fun _ _ _ => rfl | cases hr
  refine ⟨fun code message hrec => ?_, fun hc ha => ?_, fun hc => ?_, fun _ => hread, fun hrec => ?_⟩
  · rw [hrecorded] at hrec
    cases hrec
  · cases u <;> cases hr
    · cases hc
    · simp only [RunUpdate.guard, Bool.and_eq_true, beq_iff_eq] at hg
      simp [RunUpdate.set, hg.1, RunStatus.active] at ha
  · cases u <;> cases hr
    · rfl
    · exact h.paired hc
  · rw [hrecorded] at hrec
    cases hrec

theorem firstKept_other (h : FirstKept pool) (hg : u.guard pool.world.db = true)
    (hr : resets ⟨t, .updateRun u, true⟩ = false) (hf : fails u = none) (hrec : ∀ c m, u ≠ .graphFailure c m) : FirstKept
    ⟨{ pool.world with db := { pool.world.db with run := u.set pool.world.db.run } }, threads,
      ⟨t, .updateRun u, true⟩ :: pool.trace⟩ := by
  have hread : ∀ t' c m, read t' c m (⟨t, .updateRun u, true⟩ :: pool.trace) = true →
      read t' c m pool.trace = true := fun t' c m hr =>
    (read_cons hr).2.resolve_right fun ⟨_, heq, _⟩ => by simp at heq
  have hset : recorded (⟨t, .updateRun u, true⟩ :: pool.trace) = recorded pool.trace ∧
      (u.set pool.world.db.run).failureCode = pool.world.db.run.failureCode ∧
      (u.set pool.world.db.run).failureMessage = pool.world.db.run.failureMessage ∧
      ((u.set pool.world.db.run).status.active = true → pool.world.db.run.status.active = true) := by
    cases u
    case graphFailure c m => exact absurd rfl (hrec c m)
    case enterStep | awaitApproval | resume =>
      simp only [RunUpdate.guard, Bool.and_eq_true, Bool.or_eq_true, beq_iff_eq] at hg
      refine ⟨rfl, rfl, rfl, fun _ => ?_⟩
      rw [RunStatus.active_iff]
      grind [RunStatus.active_iff]
    case attach | manualRetry => cases hr
    case fail | launchFailure => cases hf
    all_goals first
      | exact ⟨rfl, rfl, rfl, fun ha => ha⟩
      | exact ⟨rfl, rfl, rfl, fun ha => by cases ha⟩
  obtain ⟨hrecorded, hcode, hmessage, hactive⟩ := hset
  refine ⟨fun c m hrec => ?_, fun hc ha => ?_, fun hc => ?_, fun hc t' c m => ?_, fun hrec t' c m hr => ?_⟩
  · rw [hrecorded] at hrec
    exact ⟨hcode.trans (h.first c m hrec).1, hmessage.trans (h.first c m hrec).2⟩
  · rw [hrecorded]
    exact h.active (hcode ▸ hc) (hactive ha)
  · exact hmessage.trans (h.paired (hcode.symm.trans hc))
  · by_contra hr
    have := hread t' c m (by simpa using hr)
    rw [h.unread (hcode.symm.trans hc)] at this
    cases this
  · rw [hrecorded] at hrec
    obtain ⟨hc, hm⟩ := h.reads hrec t' c m (hread t' c m hr)
    exact ⟨hcode.trans hc, hmessage.trans hm⟩

theorem firstKept_step {m : Move} (hok : passesOn pool m = true) (h : FirstKept pool) :
    FirstKept (pool.step m.action) := by
  rcases step_cases pool m with ⟨hw, htr⟩ | ⟨t, env, q, next, rfl, -, hq, hs⟩
  · refine ⟨?_, ?_, ?_, ?_, ?_⟩ <;> first | rw [hw, htr] | rw [hw]
    · exact h.first
    · exact h.active
    · exact h.paired
    · exact h.unread
    · exact h.reads
  rw [hs]
  by_cases hwrites : Writes pool.world.db q
  · obtain ⟨u, rfl, hg⟩ := hwrites
    simp only [answer, World.withDb, updateRun_true hg]
    rcases hr : resets ⟨t, .updateRun u, true⟩ with _ | _
    · rcases hf : fails u with _ | failure
      · by_cases hrec : ∃ c m, u = .graphFailure c m
        · obtain ⟨c, m, rfl⟩ := hrec
          exact firstKept_graphFailure h hg
        · exact firstKept_other h hg hr hf fun c m hu => hrec ⟨c, m, hu⟩
      · refine firstKept_fails h hf fun hrec => ?_
        simpa [passesOn, hq, hg, hrec, hf] using hok
    · exact firstKept_resets h hg hr
  · exact firstKept_inert h hwrites

theorem firstKept_init (hcode : w.db.run.failureCode = none) (hmessage : w.db.run.failureMessage = none) :
    FirstKept (Pool.init w) := by
  refine ⟨fun code message h => ?_, fun h => ?_, fun _ => hmessage, fun _ _ _ _ => rfl, fun h => ?_⟩
  · have hnone : none = some (code, message) := h
    cases hnone
  · have hsome : w.db.run.failureCode.isSome = true := h
    rw [hcode] at hsome
    cases hsome
  · exact absurd h Bool.false_ne_true

/-- **The first failure wins.** Over every run in which each statement that fails the run after a graph failure was
recorded passes on a failure its call has read from the run: in every state of the life in which a graph failure was
recorded, the failed one among them, the run has the first one that was. -/
theorem first_failure_wins (w : World) (hcode : w.db.run.failureCode = none) (hmessage : w.db.run.failureMessage = none)
    (moves : List Move) (hm : Moves passesOn (Pool.init w) moves) (code : FailureCategory) (message : String)
    (hrec : recorded (after w moves).trace = some (code, message)) :
    (after w moves).world.db.run.failureCode = some code ∧ (after w moves).world.db.run.failureMessage = some message := by
  have hinit := firstKept_init hcode hmessage
  exact (run_keeps hinit (fun _ _ hok h => firstKept_step hok h) hm).first code message hrec

/-- The only attempt of the run fails; its call records the failure, looks, and is about to fail the run. -/
def settledFailure : List Move :=
  admittedRun ++ .client (sampleCall 1 1) :: runs 2 23 (refusingEnv 5)

theorem settledFailure_first :
    (after (createdRun sampleSnapshot) (settledFailure ++ [.run 2 (refusingEnv 5)])).world.db.run.failureCode =
        some .providerRejected ∧
      (after (createdRun sampleSnapshot) (settledFailure ++ [.run 2 (refusingEnv 5)])).world.db.run.failureMessage =
        some "The provider operation failed (provider rejected)." :=
  first_failure_wins _ rfl rfl _ (by decide +kernel) _ _ (by decide +kernel)

/-! ### A branch that fails beside another one -/

/-- After the agent `s` come the agent `a` and the publication `p` of what `s` did. -/
def branchingSnapshot : RunSnapshot where
  id := "run"
  initialInput := "go"
  createdAt := 0
  executionPlan :=
    ⟨[⟨"s", .agentV1 "agent"⟩, ⟨"a", .agentV1 "agent"⟩, ⟨"p", .publishGitHubPr ⟨"s", "title", "body", false⟩⟩, ⟨"j", .join⟩],
      [⟨"s", "output", "a", "input"⟩, ⟨"s", "output", "p", "input"⟩, ⟨"a", "output", "j", "input"⟩,
        ⟨"p", "output", "j", "input"⟩], "s", "j", 8⟩
  agentSnapshots := [⟨"agent", "key", none⟩]
  connectionSnapshots := [("key", "test")]

/-- The graph stands at the frontier. -/
def frontierEnv (now : Time) (frontier : List Activation) : Env :=
  { sampleEnv now with
    advance := fun _ authorities => .ok (if authorities.isNone then .admissionRequired frontier else .pending none) }

/-- GitHub refuses the pull request. -/
def refusedHost : NodeHost := { plainHost with sourceManaged := true }

/-- The agent `s` completes, both branches are admitted, and `a` waits for its provider. -/
def branchedRun : List Move :=
  .client (.launch 1) :: runs 0 6 (sampleEnv 5) ++
  .client (.driver 1 "run-g1") :: runs 1 28 (frontierEnv 5 [⟨"s", "x"⟩]) ++
  .client (.node 2 plainHost ⟨⟨"s", "x"⟩, 1, 1, 1⟩ "go") :: runs 2 20 (sampleEnv 10) ++
  runs 1 22 (frontierEnv 15 [⟨"a", "y"⟩, ⟨"p", "z"⟩]) ++
  .client (.node 2 plainHost ⟨⟨"a", "y"⟩, 1, 1, 1⟩ "done") :: runs 3 20 (pendingEnv 20)

/-- The publication fails, which records the failure of the graph. -/
def brokenBranch : List Move :=
  branchedRun ++ .client (.node 2 refusedHost ⟨⟨"p", "z"⟩, 1, 1, 1⟩ "done") :: runs 4 20 (sampleEnv 25)

/-- A call for the agent `a` cancels its task, looks, and is about to fail the run. -/
def settledBranch : List Move :=
  brokenBranch ++ .client (.node 2 plainHost ⟨⟨"a", "y"⟩, 1, 1, 1⟩ "done") :: runs 5 12 (sampleEnv 30)

theorem settledBranch_settled :
    ((after (createdRun branchingSnapshot) brokenBranch).world.db.attempts.any (·.status == .waitingProvider)) = true ∧
      (after (createdRun branchingSnapshot) (settledBranch ++ [.run 5 (sampleEnv 30)])).world.db.run.status = .failed ∧
      ∀ a ∈ (after (createdRun branchingSnapshot) (settledBranch ++ [.run 5 (sampleEnv 30)])).world.db.attempts,
        a.status ≠ .starting ∧ a.status ≠ .waitingProvider :=
  ⟨by decide +kernel, by decide +kernel, fails_settled _ rfl settledBranch _ (by decide +kernel) (by decide +kernel)
    (by decide +kernel) (by decide +kernel)⟩

/-- The runtime reports the failed node. -/
def reportingEnv (now : Time) : Env :=
  { sampleEnv now with advance := fun _ _ => .ok .failed }

/-- The driver takes its next turn, up to the statement that fails the run. -/
def reportedBranch : List Move :=
  brokenBranch ++ runs 1 18 (reportingEnv 30)

/-- The run fails while the agent `a` still waits for its provider. -/
theorem reportedBranch_live : (recorded (after (createdRun branchingSnapshot) reportedBranch).trace).isSome = true ∧
      (after (createdRun branchingSnapshot) reportedBranch).world.db.run.status = .running ∧
      (after (createdRun branchingSnapshot) (reportedBranch ++ [.run 1 (reportingEnv 30)])).world.db.run.status = .failed ∧
      ((after (createdRun branchingSnapshot) (reportedBranch ++ [.run 1 (reportingEnv 30)])).world.db.attempts.any
        fun a => a.key == ⟨"a", 1, 1⟩ && a.status == .waitingProvider) = true := by
  decide +kernel

/-- It fails with another failure than the one that was recorded. -/
theorem reportedBranch_overwritten :
    recorded (after (createdRun branchingSnapshot) (reportedBranch ++ [.run 1 (reportingEnv 30)])).trace =
        some (.providerRejected, "Managed pull-request publication failed safely.") ∧
      (after (createdRun branchingSnapshot) (reportedBranch ++ [.run 1 (reportingEnv 30)])).world.db.run.status = .failed ∧
      (after (createdRun branchingSnapshot) (reportedBranch ++ [.run 1 (reportingEnv 30)])).world.db.run.failureCode =
        some .internalError ∧
      (after (createdRun branchingSnapshot) (reportedBranch ++ [.run 1 (reportingEnv 30)])).world.db.run.failureMessage =
        some "Workflow node state could not be reconciled." := by
  decide +kernel

end ADT.Durable.System
