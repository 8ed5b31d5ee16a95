import ADT.Durable.AtMostOnce
import ADT.Durable.ManualRetry

/-!
# Durable.CancelRecord — what a cancelling turn records while an attempt starts

A turn of a run that is being cancelled looks at the attempts that have a provider task.  An attempt that another turn
is just starting has none yet, so the turn may record that everything is terminal while `runtime.start` is under way.
`cancellation_truthful` says that this takes an attempt that the recording turn itself read as starting.
-/

namespace ADT.Durable.CancelRecord

open Workflow Interleave Storage

@[simp] def unrecorded : Request → Bool
  | .updateRun (.cancellationResult _ _) | .updateRun (.attach ..) | .updateRun (.launchFailure ..) => false
  | _ => true

def Unrecorded (q : Request) : Prop := unrecorded q

abbrev UnrecordedService {α : Type} (p : Service α) : Prop := p.Issues Unrecorded

instance : AdmitsReads Unrecorded := by constructor <;> intros <;> exact rfl

instance (key : AttemptKey) : AdmitsWork Unrecorded key := by constructor <;> intros <;> exact rfl

instance (key : AttemptKey) : AdmitsCompletion Unrecorded key := ⟨fun _ _ => rfl⟩

instance : AdmitsClaims Unrecorded := by constructor <;> intros <;> exact rfl

instance : AdmitsRetries Unrecorded := ⟨fun _ _ _ => rfl⟩

/-! ### The reads before a record -/

/-- What a thread did, the latest first: a result is recorded right after a read of a run that is being cancelled. -/
def recordNeeds (own : List ((q : Request) × Answer q)) : Request → Prop
  | .updateRun (.cancellationResult _ _) =>
    ∃ (attempts : List StepAttempt) (run : WorkflowRun) (before : List ((q : Request) × Answer q)),
      own = ⟨.selectAttempts, attempts⟩ :: ⟨.selectRun, run⟩ :: before ∧ run.status = .cancelling
  | .updateRun u => keepsVerdict u
  | _ => True

abbrev recordDiscipline : Discipline signature (List ((q : Request) × Answer q)) :=
  Discipline.recording (S := signature) recordNeeds fun _ _ => True

theorem needs_of_unrecorded (q : Request) (own : List ((q : Request) × Answer q)) (h : Unrecorded q) :
    recordNeeds own q := by
  unfold recordNeeds
  split
  · exact absurd h (by simp [Unrecorded])
  · rename_i u hu
    cases u <;> first | rfl | exact absurd h (by simp [Unrecorded])
  · trivial

variable {α β : Type} {own : List ((q : Request) × Answer q)}
variable {p : Service α} {f : α → Service β}

theorem unrecorded_keeps (hp : UnrecordedService p) : recordDiscipline.Keeps p own fun _ _ => True :=
  (Discipline.records_of_needs (S := signature) hp needs_of_unrecorded).mono fun _ _ _ => trivial

theorem unrecorded_bind_keeps (hp : UnrecordedService p)
    (hf : ∀ a own', recordDiscipline.Keeps (f a) own' fun _ _ => True) :
    recordDiscipline.Keeps (p >>= f) own fun _ _ => True :=
  Discipline.records_bind (S := signature) hp needs_of_unrecorded (fun a _ _ _ => hf a _) fun _ _ _ => trivial

theorem keeps_bind_any (hp : recordDiscipline.Keeps p own fun _ _ => True)
    (hf : ∀ a own', recordDiscipline.Keeps (f a) own' fun _ _ => True) :
    recordDiscipline.Keeps (p >>= f) own fun _ _ => True := by
  refine Discipline.keeps_bind (hp.mono fun r own' _ => ?_)
  rcases r with e | a
  · trivial
  · exact hf a own'

theorem recordCancellationResult_keeps (result : CancellationResult) :
    recordDiscipline.Keeps (recordCancellationResult result) own fun _ _ => True := by
  refine And.intro trivial fun run _ => And.intro trivial fun attempts _ => ?_
  show recordDiscipline.Keeps (if run.status != .cancelling then _ else _) _ _
  split
  · trivial
  rename_i hcancelling
  have hread : run.status = .cancelling := by simpa using hcancelling
  dsimp only
  unfold transition
  split
  · rename_i next _
    show recordDiscipline.Keeps (if _ then _ else _) _ _
    split
    · trivial
    refine And.intro ⟨attempts, run, own, rfl, hread⟩ fun taken _ => ?_
    rcases taken with _ | _
    · refine unrecorded_keeps (p := (do
        let reconciled ← getRun
        if reconciled.run.status != .cancelling then
          error "cancellation_result_conflict"
        else
          let after ← transition reconciled.run.cancellationResult result
          if reconciled.run.cancellationResult != some after then
            error "cancellation_result_conflict")) ?_
      simp
    · trivial
  · trivial

theorem cancelTurn_keeps (detail : RunDetail) (a : StepAttempt) :
    recordDiscipline.Keeps (cancelTurn detail a) own fun _ _ => True := by
  refine unrecorded_bind_keeps (cancelAdmitted_issues _ _) fun outcomes own' => ?_
  refine keeps_bind_any (recordCancellationResult_keeps _) fun _ own' => unrecorded_keeps ?_
  simp

theorem turnBody_keeps (input : TurnInput) : recordDiscipline.Keeps (turnBody input) own fun _ _ => True := by
  refine unrecorded_bind_keeps getRun_issues fun detail own' => ?_
  split
  · trivial
  split
  · trivial
  split
  · trivial
  refine unrecorded_bind_keeps (by simp [Unrecorded]) fun now own' => ?_
  split
  · exact unrecorded_keeps (by simp)
  split
  · trivial
  split
  · exact keeps_bind_any (cancelTurn_keeps _ _) fun _ _ => trivial
  split
  · exact unrecorded_keeps (by simp)
  split
  · trivial
  · exact unrecorded_keeps (claimTurn_issues _ _)
  · exact unrecorded_keeps (attemptTurn_issues _ _ _ _)

theorem turn_keeps (depth : ℕ) (input : TurnInput) :
    recordDiscipline.Keeps (executeDurableGraphNodeTurn depth input) own fun _ _ => True := by
  induction depth generalizing own with
  | zero => trivial
  | succ depth ih =>
    refine keeps_bind_any (turnBody_keeps input) fun next own' => ?_
    cases next with
    | answer result => trivial
    | defer category message => exact unrecorded_bind_keeps (recordGraphFailure_issues _ _) fun _ _ => ih

theorem call_keeps_record (c : Call) : recordDiscipline.Keeps c.service own fun _ _ => True := by
  cases c with
  | turn depth input => exact keeps_bind_any (turn_keeps depth input) fun _ _ => trivial
  | requestCancellation => exact unrecorded_keeps (by simp [Call.service, Prog.forget])
  | recordGraphFailure code message => exact unrecorded_keeps (recordGraphFailure_issues _ _)
  | failRun code message generation => exact unrecorded_keeps (failRun_issues _ _ _)
  | ensureGraphActivation stepId activationId =>
    refine unrecorded_bind_keeps ?_ fun _ _ => trivial
    exact ensureGraphActivation_issues (fun _ _ _ _ => rfl) stepId activationId

theorem kept_after (w : World) (moves : List Move) : Pool.Kept recordDiscipline [] (after w moves) := by
  induction moves using List.reverseRecOn with
  | nil => exact Pool.kept_init (M := machine) w
  | append_singleton moves m ih =>
    rw [after, List.map_append, List.map_singleton, Pool.run_concat]
    refine Pool.kept_step _ ?_ ih
    cases m with
    | client c => exact call_keeps_record c
    | run t env => exact fun _ _ _ => trivial

theorem verdict_of_needs {q : Request} (h : recordNeeds own q) : ∀ u, q = .updateRun u → keepsVerdict u = true := by
  rintro u rfl
  cases u <;> first | rfl | exact h

/-! ### A run that is being cancelled -/

/-- The run is being cancelled, or it was. -/
def Closing (db : Database) : Prop := db.run.status = .cancelling ∨ db.run.status = .cancelled

variable {db db' : Database} {q : Request}

theorem Closing.effect (hn : ∀ u, q = .updateRun u → keepsVerdict u = true) (h : Closing db) (he : Effect db q db') :
    Closing db' := by
  rcases run_cases he with hrun | ⟨u, hg, hrun, hu⟩
  · rw [Closing, hrun]
    exact h
  · have hkeeps : keepsVerdict u = true := by
      rcases hu with rfl | ⟨requestId, now, rfl, rfl⟩
      · exact hn u rfl
      · rfl
    rw [Closing, hrun]
    rcases h with h | h <;> cases u <;>
      simp_all [keepsVerdict, settles, RunUpdate.guard, RunUpdate.set, RunStatus.active_iff]

theorem starting_effect (h : Closing db) (he : Effect db q db') {a : StepAttempt} (ha : a ∈ db'.attempts)
    (hs : a.status = .starting) : ∃ b ∈ db.attempts, b.status = .starting := by
  rcases he with _ | _ | u | @⟨i, _⟩ | _ | _ | ⟨requestId, now⟩
  case attempts =>
    obtain ⟨b, hb, rfl⟩ := mem_updateAttempts.1 ha
    by_cases hg : u.guard db b = true
    · rw [if_pos hg] at hs
      cases u with
      | claim key input now =>
        simp only [AttemptUpdate.guard, Bool.and_eq_true, Bool.or_eq_true, beq_iff_eq] at hg
        rcases h with h | h <;> rcases hg.1.2 with hrun | hrun <;> rw [h] at hrun <;> exact absurd hrun (by decide)
      | bindConversation key source => exact ⟨b, hb, hs⟩
      | providerDiagnostics key => exact ⟨b, hb, hs⟩
      | repoll key task delay => exact ⟨b, hb, hs⟩
      | progress key state delay output => exact ⟨b, hb, hs⟩
      | pollCount key delay => exact ⟨b, hb, hs⟩
      | providerTask key task delay => exact absurd hs (by simp [AttemptUpdate.set])
      | complete key output url => exact absurd hs (by simp [AttemptUpdate.set])
      | fail key failure => exact absurd hs (by simp [AttemptUpdate.set])
      | cancelAll => exact absurd hs (by simp [AttemptUpdate.set])
    · rw [if_neg hg] at hs
      exact ⟨b, hb, hs⟩
  case newAttempts =>
    rcases List.mem_append.1 ha with ha | ha
    · exact ⟨a, ha, hs⟩
    · have hpending := AttemptInsert.rows_pending ha
      rw [hs] at hpending
      exact absurd hpending (by decide)
  case consume =>
    refine ⟨a, ?_, hs⟩
    have hsame : (db.consume requestId now).2.attempts = db.attempts := by
      simp only [Database.consume, Database.markConsumed, Database.updateRun]
      split <;> rfl
    rwa [hsame] at ha
  all_goals exact ⟨a, ha, hs⟩

/-! ### What a read says later -/

/-- A read that found the run being cancelled. -/
def seesCancelling (e : Event signature) : Bool :=
  match e with
  | ⟨_, .selectRun, run⟩ => run.status == .cancelling
  | _ => false

theorem seesCancelling_cases {e : Event signature} (h : seesCancelling e = true) :
    ∃ (t : ℕ) (run : WorkflowRun), e = ⟨t, .selectRun, run⟩ ∧ run.status = .cancelling := by
  unfold seesCancelling at h
  split at h
  · rename_i t run
    exact ⟨t, run, rfl, by simpa using h⟩
  · exact absurd h (by simp)

/-- What the reads of the trace say of the database. -/
structure Watched (pool : Services) : Prop where
  closing : ∀ e ∈ pool.trace, seesCancelling e = true → Closing pool.world.db
  shrinks : ∀ (later : List (Event signature)) (t : ℕ) (attempts : List StepAttempt) (earlier : List (Event signature)),
    pool.trace = later ++ ⟨t, .selectAttempts, attempts⟩ :: earlier → (∃ e ∈ earlier, seesCancelling e = true) →
    ∀ a ∈ pool.world.db.attempts, a.status = .starting → ∃ b ∈ attempts, b.status = .starting

variable {pool : Services}

/-- **One request.** -/
theorem watched_answer {t : ℕ} {env : Env} {threads : List (Service Unit)}
    (hn : ∀ u, q = .updateRun u → keepsVerdict u = true) (h : Watched pool) :
    Watched ⟨(answer env q pool.world).2, threads, ⟨t, q, (answer env q pool.world).1⟩ :: pool.trace⟩ := by
  have he := answer_effect env pool.world q
  refine ⟨fun e hmem hs => ?_, fun later t' attempts earlier htr hsaw a ha hstart => ?_⟩
  · rcases List.mem_cons.1 hmem with rfl | hmem
    · obtain ⟨t', run, heq, hrun⟩ := seesCancelling_cases hs
      obtain ⟨rfl, rfl, hanswer⟩ : t = t' ∧ q = .selectRun ∧ HEq (answer env q pool.world).1 run := by simpa using heq
      have hread : pool.world.db.run = run := eq_of_heq hanswer
      exact .inl (by rw [← hrun, ← hread]; rfl)
    · exact (h.closing e hmem hs).effect hn he
  · rcases later with _ | ⟨e, later⟩
    · -- the read itself: it lists the attempts there are
      obtain ⟨heq, -⟩ := List.cons.inj htr
      obtain ⟨rfl, rfl, hanswer⟩ : t = t' ∧ q = .selectAttempts ∧ HEq (answer env q pool.world).1 attempts := by
        simpa using heq
      have hread : pool.world.db.orderedAttempts = attempts := eq_of_heq hanswer
      exact ⟨a, by rw [← hread]; exact System.mem_ordered.2 ha, hstart⟩
    · obtain ⟨-, htr⟩ := List.cons.inj htr
      obtain ⟨e', he', hs⟩ := hsaw
      have hmem : e' ∈ pool.trace := by
        rw [htr]
        exact List.mem_append_right _ (List.mem_cons_of_mem _ he')
      obtain ⟨b, hb, hbs⟩ := starting_effect (h.closing e' hmem hs) he ha hstart
      exact h.shrinks later t' attempts earlier htr ⟨e', he', hs⟩ b hb hbs

theorem watched_after (w : World) (moves : List Move) : Watched (after w moves) := by
  induction moves using List.reverseRecOn with
  | nil => exact ⟨fun e he => absurd he (by simp [Pool.init, Pool.run]), fun later t attempts earlier htr => by
      simp [Pool.init, Pool.run] at htr⟩
  | append_singleton moves m ih =>
    have hk := kept_after w moves
    rw [after, List.map_append, List.map_singleton, Pool.run_concat]
    rcases Pool.step_cases (after w moves) m.action with ⟨p, _, hs⟩ | ⟨t, env, q, next, _, ht, hs⟩ | ⟨_, hs⟩
    · rw [hs]
      exact ⟨ih.closing, ih.shrinks⟩
    · rw [hs]
      exact watched_answer (verdict_of_needs (hk.threads t _ ht).1) ih
    · rw [hs]
      exact ih

/-! ### The recorded result -/

/-- Thread `t` is about to record that no cancellation is pending. -/
def recordsResult (pool : Services) (t : ℕ) : Bool :=
  match pool.threads[t]? with
  | some (.ask (.updateRun (.cancellationResult next current)) _) =>
    next != .cancellationPending && (RunUpdate.cancellationResult next current).guard pool.world.db
  | _ => false

/-- A provider start of a starting attempt was issued and has not returned. -/
def startInFlight (pool : Services) : Bool :=
  pool.threads.any fun p =>
    match p with
    | .ask (.start call) _ => pool.world.db.attempts.any fun a => a.key == call.key && a.status == .starting
    | _ => false

/-- The attempts a thread read last. -/
def attemptsRead : List ((q : Request) × Answer q) → List StepAttempt
  | [] => []
  | ⟨.selectAttempts, attempts⟩ :: _ => attempts
  | _ :: before => attemptsRead before

/-- The attempts that thread `t` read last have one that is starting. -/
def readsStart (pool : Services) (t : ℕ) : Bool :=
  (attemptsRead (Pool.own t pool.trace)).any (·.status == .starting)

/-- **The recorded result.** A turn that records a result other than a pending cancellation does so while a provider
start is under way only if it read an attempt as starting. -/
theorem cancellation_truthful (w : World) (moves : List Move) (t : ℕ)
    (hrecord : recordsResult (after w moves) t = true) (hread : readsStart (after w moves) t = false) :
    startInFlight (after w moves) = false := by
  have hk := kept_after w moves
  unfold recordsResult at hrecord
  split at hrecord
  · rename_i next current k hthread
    obtain ⟨attempts, run, before, hown, hrun⟩ := (hk.threads t _ hthread).1
    rw [Pool.ghost_recording] at hown
    rw [readsStart, hown, attemptsRead] at hread
    -- the two reads in the trace, the run before the attempts
    rw [← List.nil_append (_ :: _)] at hown
    obtain ⟨later, earlier, htr, -, hearlier⟩ := Pool.split_of_own hown
    have hsaw : ∃ e ∈ earlier, seesCancelling e = true := by
      have hmem : (⟨.selectRun, run⟩ : (q : Request) × Answer q) ∈ Pool.own (S := signature) t earlier := by
        rw [hearlier]
        exact List.mem_cons_self ..
      exact ⟨_, Pool.mem_of_own hmem, by simpa [seesCancelling] using hrun⟩
    have hnone : ∀ a ∈ (after w moves).world.db.attempts, a.status ≠ .starting := by
      intro a ha hs
      obtain ⟨b, hb, hbs⟩ := (watched_after w moves).shrinks later t attempts earlier htr hsaw a ha hs
      have hany : attempts.any (·.status == .starting) = true := List.any_eq_true.2 ⟨b, hb, by simpa using hbs⟩
      rw [hany] at hread
      exact absurd hread (by decide)
    unfold startInFlight
    rw [List.any_eq_false]
    intro p _
    split
    · rw [List.any_eq_true]
      rintro ⟨a, ha, hstart⟩
      rw [Bool.and_eq_true, beq_iff_eq, beq_iff_eq] at hstart
      exact hnone a ha hstart.2
    · simp
  · exact absurd hrecord (by decide)

/-- The turn starts the provider, the cancellation is requested, and a second turn cancels the task. -/
def startedBefore : List Move :=
  .client sampleTurn :: runs 0 20 (pendingEnv 5) ++
  .client .requestCancellation :: runs 1 2 (sampleEnv 10) ++
  .client sampleTurn :: runs 2 8 (sampleEnv 15)

theorem startedBefore_truthful : recordsResult (after sampleWorld startedBefore) 2 = true ∧
    startInFlight (after sampleWorld startedBefore) = false :=
  ⟨by decide +kernel, cancellation_truthful sampleWorld startedBefore 2 (by decide +kernel) (by decide +kernel)⟩

/-- The turn is inside `runtime.start` when the second one has nothing to cancel. -/
def startedMeanwhile : List Move :=
  .client sampleTurn :: runs 0 12 (pendingEnv 5) ++
  .client .requestCancellation :: runs 1 2 (sampleEnv 10) ++
  .client sampleTurn :: runs 2 5 (sampleEnv 15)

theorem startedMeanwhile_untruthful : ¬∀ (w : World) (moves : List Move) (t : ℕ),
    recordsResult (after w moves) t = true → startInFlight (after w moves) = false := by
  intro h
  have hrecord : recordsResult (after sampleWorld startedMeanwhile) 2 = true := by decide +kernel
  have hflight : startInFlight (after sampleWorld startedMeanwhile) = true := by decide +kernel
  rw [h sampleWorld startedMeanwhile 2 hrecord] at hflight
  exact absurd hflight (by decide)

end ADT.Durable.CancelRecord
