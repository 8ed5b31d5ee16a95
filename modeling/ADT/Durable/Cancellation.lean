import ADT.Durable.Lifecycle
import ADT.Storage.Sequential

/-!
# Durable.Cancellation — a turn of a run that is being cancelled

The turn cancels every provider task under way, records the outcome, and cancels the run unless a cancellation is
still pending.  `cancellation_completes_iff` says when it gets there: the run is not older than its limit, and an
outcome that an earlier turn recorded before it stopped does not contradict the one of this turn.
-/

namespace ADT.Durable.Cancellation

open Workflow Interleave Storage

/-! ### What the providers answer -/

/-- `durableInvocation` throws for this connection. -/
def refused (detail : RunDetail) (a : StepAttempt) (live : LiveConnection) : Bool :=
  !live.enabled ||
    (detail.run.snapshot.connectionSnapshots.find? (·.1 == a.connectionKey)).map (·.2) != some live.adapter ||
    !conversationUsable detail a

/-- The outcome of one cancellation by the answers of the outside, and the number of requests answered by then. -/
def cancelAnswer (envs : ℕ → Env) (detail : RunDetail) (a : StepAttempt) (task : String) (k : ℕ) :
    CancellationResult × ℕ :=
  match (envs k).live a.connectionKey with
  | .error _ => (.safeFailure, k + 1)
  | .ok live =>
    if refused detail a live then (.safeFailure, k + 1)
    else if (envs (k + 1)).runtime live.adapter then
      match (envs (k + 2)).cancel task (invocationOf detail a live.adapter) with
      | .ok outcome => (outcome, k + 3)
      | .error _ => (.safeFailure, k + 3)
    else (.unsupported, k + 2)

/-- The outcomes for every provider task under way. -/
def cancelAnswers (envs : ℕ → Env) (detail : RunDetail) : List StepAttempt → ℕ → List CancellationResult × ℕ
  | [], k => ([], k)
  | a :: rest, k =>
    match a.providerTaskId with
    | some task =>
      if a.status == .starting || a.status == .waitingProvider then
        let first := cancelAnswer envs detail a task k
        let others := cancelAnswers envs detail rest first.2
        (first.1 :: others.1, others.2)
      else cancelAnswers envs detail rest k
    | none => cancelAnswers envs detail rest k

variable {w : World} {envs : ℕ → Env} {k : ℕ}
variable (detail : RunDetail) {a : StepAttempt} {live : LiveConnection} {outcome : CancellationResult}
  {input : TurnInput}

theorem invocationOf_adapter (a : StepAttempt) (adapter : String) :
    (invocationOf detail a adapter).adapter = adapter := rfl

theorem durableInvocation_unresolved {detail : RunDetail} {e : Thrown} (h : (envs k).live a.connectionKey = .error e) :
    alone (durableInvocation detail a) envs k w = ⟨.error e, k + 1, w⟩ := by
  unfold durableInvocation
  rw [alone_request]
  simp only [answer, h]
  rfl

theorem durableInvocation_refused {detail : RunDetail}
    (h : (envs k).live a.connectionKey = .ok live) (hr : refused detail a live = true) :
    ∃ e, alone (durableInvocation detail a) envs k w = ⟨.error e, k + 1, w⟩ := by
  unfold durableInvocation
  rw [alone_request]
  simp only [answer, h]
  unfold refused at hr
  by_cases hc : (!live.enabled ||
      (detail.run.snapshot.connectionSnapshots.find? (·.1 == a.connectionKey)).map (·.2) != some live.adapter) = true
  · refine ⟨Thrown.withCategory "connection unavailable" .connectionUnavailable, ?_⟩
    change alone (if _ then _ else _) envs (k + 1) w = _
    rw [if_pos hc]
    rfl
  · rw [Bool.or_eq_true] at hr
    refine ⟨conversationUnavailable, ?_⟩
    change alone (if _ then _ else _) envs (k + 1) w = _
    rw [if_neg hc, if_pos (hr.resolve_left hc)]
    rfl

theorem durableInvocation_ok {detail : RunDetail}
    (h : (envs k).live a.connectionKey = .ok live) (hr : refused detail a live = false) :
    alone (durableInvocation detail a) envs k w = ⟨.ok (invocationOf detail a live.adapter), k + 1, w⟩ := by
  unfold durableInvocation
  rw [alone_request]
  simp only [answer, h]
  unfold refused at hr
  rw [Bool.or_eq_false_iff] at hr
  change alone (if _ then _ else if _ then _ else _) envs (k + 1) w = _
  rw [if_neg (by rw [hr.1]; decide), if_neg (by rw [hr.2]; decide)]
  rfl

/-- A cancellation that runs alone leaves the database as it is. -/
theorem alone_cancelProviderTask (a : StepAttempt) (task : String) : alone (cancelProviderTask detail a task) envs k w =
      ⟨.ok (cancelAnswer envs detail a task k).1, (cancelAnswer envs detail a task k).2, w⟩ := by
  unfold cancelProviderTask cancelAnswer
  cases hlive : (envs k).live a.connectionKey with
  | error e => exact alone_catch_error (alone_bind_error (durableInvocation_unresolved hlive))
  | ok live =>
    dsimp only
    cases hr : refused detail a live with
    | true =>
      obtain ⟨e, he⟩ := durableInvocation_refused (w := w) hlive hr
      exact alone_catch_error (alone_bind_error he)
    | false =>
      have hinv := durableInvocation_ok (w := w) hlive hr
      rw [if_neg (by decide)]
      cases hruntime : (envs (k + 1)).runtime live.adapter with
      | false =>
        refine alone_catch_ok ((alone_bind_ok hinv).trans ?_)
        rw [alone_resolveRuntime, invocationOf_adapter, hruntime]
        rfl
      | true =>
        rw [if_pos rfl]
        cases hcancel : (envs (k + 2)).cancel task (invocationOf detail a live.adapter) with
        | ok outcome =>
          refine alone_catch_ok ((alone_bind_ok hinv).trans ?_)
          rw [alone_resolveRuntime, invocationOf_adapter, hruntime, if_pos rfl, alone_cancel, hcancel]
          rfl
        | error e =>
          refine alone_catch_error (e := e) (n := k + 3) (v := w) ((alone_bind_ok hinv).trans ?_)
          rw [alone_resolveRuntime, invocationOf_adapter, hruntime, if_pos rfl, alone_cancel, hcancel]
          rfl

theorem alone_cancelAdmitted (attempts : List StepAttempt) : alone (cancelAdmitted detail attempts) envs k w =
      ⟨.ok (cancelAnswers envs detail attempts k).1, (cancelAnswers envs detail attempts k).2, w⟩ := by
  induction attempts generalizing k with
  | nil => rfl
  | cons a rest ih =>
    unfold cancelAdmitted cancelAnswers
    cases htask : a.providerTaskId with
    | none => exact ih
    | some task =>
      dsimp only
      by_cases hs : (a.status == .starting || a.status == .waitingProvider) = true
      · rw [if_pos hs, if_pos hs, alone_bind_ok (alone_cancelProviderTask detail a task), alone_bind_ok ih]
        rfl
      · rw [if_neg hs, if_neg hs]
        exact ih

/-! ### Recording the outcome and cancelling -/

theorem transition_eq {current : Option CancellationResult} {next r : CancellationResult}
    (h : transitionCancellationResult current next = .ok r) : r = next := by
  unfold transitionCancellationResult at h
  split at h
  · cases h
    rfl
  · split_ifs at h with hc
    · cases h
      exact hc
    · cases h
      rfl

/-- The world with the outcome recorded. -/
def recordedWorld (w : World) (outcome : CancellationResult) : World :=
  { w with db := { w.db with run := { w.db.run with cancellationResult := some outcome } } }

theorem alone_recordCancellationResult (envs : ℕ → Env) (k : ℕ) (hs : w.db.run.status = .cancelling)
    (h : (transitionCancellationResult w.db.run.cancellationResult outcome).isOk = true) :
    ∃ k', alone (recordCancellationResult outcome) envs k w = ⟨.ok (), k', recordedWorld w outcome⟩ := by
  cases ht : transitionCancellationResult w.db.run.cancellationResult outcome with
  | error e =>
    rw [ht] at h
    cases h
  | ok next =>
    obtain rfl := transition_eq ht
    have htransition : alone (transition w.db.run.cancellationResult next) envs (k + 2) w = ⟨.ok next, k + 2, w⟩ := by
      unfold transition
      rw [ht]
      rfl
    unfold recordCancellationResult
    rw [alone_getRun, if_neg (by simp [World.detail, hs])]
    by_cases hcurrent : (w.db.run.cancellationResult == some next) = true
    · refine ⟨k + 2, (alone_bind_ok htransition).trans ?_⟩
      change alone (if (w.db.run.cancellationResult == some next) = true then _ else _) envs (k + 2) w = _
      rw [if_pos hcurrent]
      have hsame : recordedWorld w next = w := by
        unfold recordedWorld
        rw [← beq_iff_eq.mp hcurrent]
      rw [hsame]
      rfl
    · refine ⟨k + 3, (alone_bind_ok htransition).trans ?_⟩
      change alone (if (w.db.run.cancellationResult == some next) = true then _ else _) envs (k + 2) w = _
      have hguard : (RunUpdate.cancellationResult next w.db.run.cancellationResult).guard w.db = true := by
        simp [RunUpdate.guard, hs]
      rw [if_neg hcurrent]
      exact alone_updateRun_true hguard _

theorem alone_recordCancellationResult_error (hs : w.db.run.status = .cancelling)
    (h : ¬(transitionCancellationResult w.db.run.cancellationResult outcome).isOk = true) :
    alone (recordCancellationResult outcome) envs k w = ⟨.error (.error "cancellation_result_conflict"), k + 2, w⟩ := by
  have ht : transitionCancellationResult w.db.run.cancellationResult outcome =
      .error "cancellation_result_conflict" := by
    unfold transitionCancellationResult at h ⊢
    split
    · rename_i hnone
      rw [hnone] at h
      exact absurd rfl h
    · rename_i c hc
      rw [hc] at h
      dsimp only at h ⊢
      split_ifs at h ⊢ <;> first | rfl | exact absurd rfl h
  have htransition : alone (transition w.db.run.cancellationResult outcome) envs (k + 2) w =
      ⟨.error (.error "cancellation_result_conflict"), k + 2, w⟩ := by
    unfold transition
    rw [ht]
    rfl
  unfold recordCancellationResult
  rw [alone_getRun, if_neg (by simp [World.detail, hs])]
  exact alone_bind_error htransition

/-- The world with the run and its attempts cancelled. -/
def cancelledWorld (w : World) : World :=
  { w with db := { (w.db.updateAttempts .cancelAll).2 with run := { w.db.run with status := .cancelled } } }

theorem alone_cancelRun (hs : w.db.run.status = .cancelling) :
    alone cancelRun envs k w = ⟨.ok (), k + 4, cancelledWorld w⟩ := by
  have hguard : RunUpdate.cancel.guard (w.db.updateAttempts .cancelAll).2 = true := by
    simp [RunUpdate.guard, Database.updateAttempts, hs]
  unfold cancelRun
  rw [alone_request]
  refine (alone_updateRun_true (w := { w with db := (w.db.updateAttempts .cancelAll).2 }) hguard _).trans ?_
  rfl

/-! ### The turn -/

/-- The errors of a storage whose state does not fit. -/
def storageStateErrors : List String := ["invalid_run_state", "invalid_cancellation", "cancellation_result_conflict"]

/-- The turn throws none of them, and the cancellation is recorded as pending or the run is cancelled. -/
def Completes (r : Ran GraphNodeTurnResult) : Prop :=
  (∀ e, r.result = .error e → e.message ∉ storageStateErrors) ∧
    ((∃ t, r.result = .ok t ∧ t.state = .pending ∧ r.world.db.run.cancellationResult = some .cancellationPending) ∨
      r.world.db.run.status = .cancelled)

/-- The turn is for an activation that was admitted. -/
def Admitted (w : World) (input : TurnInput) : Prop :=
  w.db.run.snapshot.executionPlan.nodes.any (·.id == input.nodeId) = true ∧
    (w.detail.last? input.nodeId input.activationId).isSome = true

instance (w : World) (input : TurnInput) : Decidable (Admitted w input) :=
  inferInstanceAs (Decidable (_ ∧ _))

/-- What the answers of the providers, from the fourth request on, come to. -/
def turnOutcome (w : World) (envs : ℕ → Env) : CancellationResult :=
  cancellationOutcome (cancelAnswers envs w.detail w.detail.attempts 3).1

section

variable (hs : w.db.run.status = .cancelling)

include hs

theorem turnBody_cancelling (ha : Admitted w input)
    (hage : ¬w.db.run.snapshot.createdAt + maxWorkflowRunMs < (envs 2).now) :
    ∃ a, alone (turnBody input) envs 0 w = alone (do return .answer (← cancelTurn w.detail a)) envs 3 w := by
  obtain ⟨a, hlast⟩ := Option.isSome_iff_exists.mp ha.2
  refine ⟨a, ?_⟩
  unfold turnBody
  rw [alone_getRun, if_neg (by simpa [World.detail] using ha.1), if_neg (by simp [World.detail, hs]),
    if_neg (by simp [World.detail, hs]), alone_now, if_neg (by simpa [World.detail] using hage), hlast]
  dsimp only
  rw [if_pos (by simp [World.detail, hs])]

theorem turnBody_expired (ha : Admitted w input)
    (hage : w.db.run.snapshot.createdAt + maxWorkflowRunMs < (envs 2).now) :
    alone (turnBody input) envs 0 w = ⟨.error (.error "invalid_run_state"), 6, w⟩ := by
  have hfail : alone (failRun .providerTimeout "The workflow run exceeded its time limit." none) envs 3 w =
      ⟨.error (.error "invalid_run_state"), 6, w⟩ := by
    unfold failRun
    rw [alone_updateRun_false (by simp [RunUpdate.guard, hs, RunStatus.active_iff]), if_neg (by decide), alone_getRun,
      if_pos (by simp [World.detail, hs, RunStatus.terminal])]
    rfl
  unfold turnBody
  rw [alone_getRun, if_neg (by simpa [World.detail] using ha.1), if_neg (by simp [World.detail, hs]),
    if_neg (by simp [World.detail, hs]), alone_now, if_pos (by simpa [World.detail] using hage)]
  exact alone_bind_error hfail

theorem alone_cancelTurn (a : StepAttempt)
    (h : (transitionCancellationResult w.db.run.cancellationResult (turnOutcome w envs)).isOk = true) :
    ∃ k', alone (cancelTurn w.detail a) envs 3 w =
      if turnOutcome w envs = .cancellationPending then
        ⟨.ok (.pending (min 5000 (storedDelay a))), k', recordedWorld w (turnOutcome w envs)⟩
      else ⟨.ok .cancelled, k', cancelledWorld (recordedWorld w (turnOutcome w envs))⟩ := by
  obtain ⟨k', hrecord⟩ := alone_recordCancellationResult envs
    (cancelAnswers envs w.detail w.detail.attempts 3).2 hs h
  unfold cancelTurn
  rw [alone_bind_ok (alone_cancelAdmitted w.detail w.detail.attempts)]
  by_cases hpending : turnOutcome w envs = .cancellationPending
  · refine ⟨k', ?_⟩
    rw [if_pos hpending]
    refine (alone_bind_ok hrecord).trans ?_
    change alone (if turnOutcome w envs = .cancellationPending then _ else _) envs k' _ = _
    rw [if_pos hpending]
    rfl
  · refine ⟨k' + 4, ?_⟩
    rw [if_neg hpending]
    refine (alone_bind_ok hrecord).trans ?_
    change alone (if turnOutcome w envs = .cancellationPending then _ else _) envs k' _ = _
    rw [if_neg hpending]
    exact alone_bind_ok (alone_cancelRun hs)

theorem alone_cancelTurn_conflict (a : StepAttempt)
    (h : ¬(transitionCancellationResult w.db.run.cancellationResult (turnOutcome w envs)).isOk = true) :
    ∃ k', alone (cancelTurn w.detail a) envs 3 w = ⟨.error (.error "cancellation_result_conflict"), k', w⟩ := by
  refine ⟨(cancelAnswers envs w.detail w.detail.attempts 3).2 + 2, ?_⟩
  unfold cancelTurn
  rw [alone_bind_ok (alone_cancelAdmitted w.detail w.detail.attempts)]
  exact alone_bind_error (alone_recordCancellationResult_error hs h)

end

/-- **Cancellation.** A turn of a run that is being cancelled completes exactly when the run has not passed its time
limit and the outcome of its cancellations does not contradict the one that is recorded. -/
theorem cancellation_completes_iff (w : World) (depth : ℕ) (input : TurnInput) (envs : ℕ → Env)
    (hs : w.db.run.status = .cancelling) (ha : Admitted w input) :
    Completes (alone (executeDurableGraphNodeTurn (depth + 1) input) envs 0 w) ↔
      ¬w.db.run.snapshot.createdAt + maxWorkflowRunMs < (envs 2).now ∧
        (transitionCancellationResult w.db.run.cancellationResult (turnOutcome w envs)).isOk = true := by
  unfold executeDurableGraphNodeTurn
  by_cases hage : w.db.run.snapshot.createdAt + maxWorkflowRunMs < (envs 2).now
  · rw [alone_bind_error (turnBody_expired hs ha hage)]
    refine ⟨fun h => absurd (h.1 _ rfl) (by decide), fun h => absurd hage h.1⟩
  · obtain ⟨a, hbody⟩ := turnBody_cancelling hs ha hage
    by_cases h : (transitionCancellationResult w.db.run.cancellationResult (turnOutcome w envs)).isOk = true
    · obtain ⟨k', hturn⟩ := alone_cancelTurn hs a h
      refine ⟨fun _ => ⟨hage, h⟩, fun _ => ?_⟩
      by_cases hpending : turnOutcome w envs = .cancellationPending
      · rw [if_pos hpending] at hturn
        rw [alone_bind_ok (hbody.trans (alone_bind_ok hturn))]
        exact ⟨by rintro e ⟨⟩, .inl ⟨_, rfl, rfl, congrArg some hpending⟩⟩
      · rw [if_neg hpending] at hturn
        rw [alone_bind_ok (hbody.trans (alone_bind_ok hturn))]
        exact ⟨by rintro e ⟨⟩, .inr rfl⟩
    · obtain ⟨k', hturn⟩ := alone_cancelTurn_conflict hs a h
      rw [alone_bind_error (hbody.trans (alone_bind_error hturn))]
      exact ⟨fun hc => absurd (hc.1 _ rfl) (by decide), fun hc => absurd hc.2 h⟩

/-! ### A cancellation that does not end -/

/-- The provider does not answer to a cancellation. -/
def silentEnv (now : Time) : Env :=
  { admittingEnv now with cancel := fun _ _ => .error (.error "unreachable") }

def nodeTurn : TurnInput := ⟨"a", some "x", "go"⟩

abbrev runsIn (t n : ℕ) (env : Env) : List Lifecycle.Move := Interleave.runs t n env

/-- The run is launched, its agent node is admitted and started, and the run is cancelled. -/
def cancelledUnderWay : List Lifecycle.Move :=
  .client (.launch 1) :: runsIn 0 6 (admittingEnv 5) ++
  .client (.driver advanceRemote 1 "run-g1") :: runsIn 1 30 (admittingEnv 5) ++
  .client (.node (executeDurableGraphNodeTurn 1 nodeTurn).forget) :: runsIn 2 15 (admittingEnv 5) ++
  .client .cancel :: runsIn 3 2 (admittingEnv 10)

/-- A turn finds the provider silent and stops after it recorded that. -/
def interruptedTurn : List Lifecycle.Move :=
  cancelledUnderWay ++ .client (.node (executeDurableGraphNodeTurn 1 nodeTurn).forget) :: runsIn 4 9 (silentEnv 15)

/-- The turn ends with one of the errors. -/
def throwsStorageState (r : Ran GraphNodeTurnResult) : Bool :=
  match r.result with
  | .error e => storageStateErrors.contains e.message
  | .ok _ => false

theorem not_completes {r : Ran GraphNodeTurnResult} (h : throwsStorageState r = true) : ¬Completes r := by
  rintro ⟨hno, -⟩
  unfold throwsStorageState at h
  split at h
  · rename_i e he
    exact hno e he (List.contains_iff_mem.mp h)
  · cases h

/-- A run cancelled in time is cancelled by the turn. -/
theorem cancelledUnderWay_completes :
    Completes (alone (executeDurableGraphNodeTurn 1 nodeTurn) (fun _ => admittingEnv 20) 0
      (Lifecycle.after Lifecycle.createdWorld cancelledUnderWay).world) :=
  (cancellation_completes_iff _ 0 nodeTurn _ (by decide +kernel) (by decide +kernel)).mpr (by decide +kernel)

/-- After the interrupted turn the next one finds the provider ready to cancel, which contradicts what was recorded; a
turn a day later fails before it looks. -/
theorem interruptedTurn_stuck :
    Lifecycle.Moves 1 (fun _ _ => true) (Pool.init Lifecycle.createdWorld) interruptedTurn ∧
      (Lifecycle.after Lifecycle.createdWorld interruptedTurn).world.db.run.status = .cancelling ∧
      Admitted (Lifecycle.after Lifecycle.createdWorld interruptedTurn).world nodeTurn ∧
      ¬Completes (alone (executeDurableGraphNodeTurn 1 nodeTurn) (fun _ => admittingEnv 20) 0
        (Lifecycle.after Lifecycle.createdWorld interruptedTurn).world) ∧
      ¬Completes (alone (executeDurableGraphNodeTurn 1 nodeTurn) (fun _ => silentEnv 86400001) 0
        (Lifecycle.after Lifecycle.createdWorld interruptedTurn).world) :=
  ⟨by decide +kernel, by decide +kernel, by decide +kernel, not_completes (by decide +kernel),
    not_completes (by decide +kernel)⟩

end ADT.Durable.Cancellation
