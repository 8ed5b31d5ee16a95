import ADT.Durable.Driver
import ADT.Storage.Sequential

/-!
# Durable.Deadline — the time limit of a run

A run fails when it took longer than `maxWorkflowRunMs`.  The loops of `executeLangGraphWorkflow` leave out the time
that it was suspended for approvals; the turn of a node, `executeDurableGraphNodeTurn`, counts it.  `run_deadline` says
when a turn fails a run that has time left.
-/

namespace ADT.Durable.Deadline

open Workflow Interleave Storage

section Opens

variable {S : Signature} {ε α β : Type} {P : S.Request → Prop}

/-- The first request of the program, if it issues one, is in `P`. -/
def Opens (P : S.Request → Prop) : Prog S ε α → Prop
  | .ask q _ => P q
  | _ => True

theorem opens_bind {p : Prog S ε α} {f : α → Prog S ε β} (hp : Opens P p) (hf : ∀ a, Opens P (f a)) :
    Opens P (p >>= f) := by
  cases p with
  | done a => exact hf a
  | fail e => trivial
  | ask q next => exact hp

theorem opens_tryCatch {p : Prog S ε α} {f : ε → Prog S ε α} (hp : Opens P p) (hf : ∀ e, Opens P (f e)) :
    Opens P (tryCatch p f) := by
  cases p with
  | done a => trivial
  | fail e => exact hf e
  | ask q next => exact hp

end Opens

/-! ### What fails a run -/

/-- The request does not fail the run. -/
def NotFail : Request → Prop
  | .updateRun (.fail _ _ _) | .updateRun (.launchFailure _ _ _) => False
  | _ => True

variable {w : World} {envs : ℕ → Env} {k : ℕ}

theorem status_of_notFail {env : Env} {q : Request} (hq : NotFail q) (h : w.db.run.status ≠ .failed) :
    (answer env q w).2.db.run.status ≠ .failed := by
  rcases run_cases (answer_effect env w q) with hrun | ⟨u, _, hrun, hu⟩
  · rw [hrun]
    exact h
  rw [hrun]
  rcases hu with rfl | ⟨requestId, now, rfl, rfl⟩
  · cases u with
    | fail code message generation => exact hq.elim
    | launchFailure generation instanceId message => exact hq.elim
    | _ => first | exact h | simp [RunUpdate.set]
  · simp [RunUpdate.set]

variable {α : Type} {p : Service α} (detail : RunDetail) (a : StepAttempt) (input : TurnInput) (f : Unit → Service α)

theorem crashed_one (hp : Opens NotFail p) (h : w.db.run.status ≠ .failed) :
    (crashed p envs 1 k w).db.run.status ≠ .failed := by
  cases p with
  | done a => exact h
  | fail e => exact h
  | ask q next =>
    have hstop : crashed (.ask q next) envs 1 k w = (answer (envs k) q w).2 := Prog.crashed_zero (M := machine) _
    rw [hstop]
    exact status_of_notFail hp h

/-! ### The turn behind its deadline -/

theorem cancelProviderTask_opens (task : String) : Opens NotFail (cancelProviderTask detail a task) :=
  opens_tryCatch trivial fun _ => trivial

theorem cancelAdmitted_opens (attempts : List StepAttempt) : Opens NotFail (cancelAdmitted detail attempts) := by
  induction attempts with
  | nil => trivial
  | cons a rest ih =>
    unfold cancelAdmitted
    split
    · split
      · exact opens_bind (cancelProviderTask_opens detail a _) fun _ => opens_bind ih fun _ => trivial
      · exact ih
    · exact ih

theorem cancelTurn_opens : Opens NotFail (cancelTurn detail a) :=
  opens_bind (cancelAdmitted_opens detail _) fun _ => trivial

theorem reconcileFailedGraphRun_opens : Opens NotFail (reconcileFailedGraphRun detail a) := by
  unfold reconcileFailedGraphRun
  dsimp only
  split
  · trivial
  split
  · trivial
  split
  · trivial
  refine opens_bind (cancelProviderTask_opens detail a _) fun outcome => ?_
  split <;> trivial

theorem attemptTurn_opens (detail : RunDetail) (a : StepAttempt) :
    Opens NotFail (attemptTurn input detail a false) := by
  unfold attemptTurn
  split
  · trivial
  · unfold pollTurn
    split <;> trivial
  · unfold failedTurn
    dsimp only
    split <;> trivial
  · trivial

theorem claimTurn_opens (detail : RunDetail) : Opens NotFail (claimTurn input detail) := by
  unfold claimTurn
  split <;> trivial

/-! ### The time limit -/

def limitMessage : String := "The workflow run exceeded its time limit."

/-- The request number `n` of the program, run alone, fails the run for its time. -/
def TimesOut {α : Type} (p : Service α) (n : ℕ) (envs : ℕ → Env) (k : ℕ) (w : World) : Prop :=
  (crashed p envs n k w).db.run.status ≠ .failed ∧
    (crashed p envs (n + 1) k w).db.run.status = .failed ∧
    (crashed p envs (n + 1) k w).db.run.failureCode = some .providerTimeout ∧
    (crashed p envs (n + 1) k w).db.run.failureMessage = some limitMessage

/-- The run took longer than its limit, without the time for which it was suspended. -/
def Overdue (db : Database) (now : Time) : Prop :=
  db.run.snapshot.createdAt + db.suspendedMs now + maxWorkflowRunMs < now

instance (db : Database) (now : Time) : Decidable (Overdue db now) := inferInstanceAs (Decidable (_ < _))

/-- The run took longer than its limit, with that time. -/
def Aged (db : Database) (now : Time) : Prop :=
  db.run.snapshot.createdAt + maxWorkflowRunMs < now

instance (db : Database) (now : Time) : Decidable (Aged db now) := inferInstanceAs (Decidable (_ < _))

theorem crashed_failRun_eq : (crashed (failRun .providerTimeout limitMessage none >>= f) envs 1 k w).db.run =
    (w.db.updateRun (.fail .providerTimeout limitMessage none)).2.run :=
  congrArg (fun v : World => v.db.run) (Prog.crashed_zero (M := machine) _)

theorem crashed_failRun (hactive : w.db.run.status.active = true) :
    (crashed (failRun .providerTimeout limitMessage none >>= f) envs 1 k w).db.run =
      (RunUpdate.fail .providerTimeout limitMessage none).set w.db.run := by
  rw [crashed_failRun_eq, updateRun_true (by simp [RunUpdate.guard, hactive])]

theorem crashed_failRun_idle (hidle : ¬w.db.run.status.active = true) :
    (crashed (failRun .providerTimeout limitMessage none >>= f) envs 1 k w).db.run = w.db.run := by
  rw [crashed_failRun_eq, updateRun_false (by simp [RunUpdate.guard, hidle])]

/-- The node is one of the plan's. -/
def InPlan (w : World) (input : TurnInput) : Prop :=
  w.db.run.snapshot.executionPlan.nodes.any (·.id == input.nodeId) = true

instance (w : World) (input : TurnInput) : Decidable (InPlan w input) := inferInstanceAs (Decidable (_ = _))

theorem crashed_getRun {β : Type} (f : RunDetail → Service α) (g : α → Service β) (n : ℕ) :
    crashed ((getRun >>= f) >>= g) envs (n + 2) k w = crashed (f w.detail >>= g) envs n (k + 2) w := rfl

theorem crashed_now {β : Type} (f : Time → Service α) (g : α → Service β) (n : ℕ) :
    crashed ((request .now >>= f) >>= g) envs (n + 1) k w = crashed (f (envs k).now >>= g) envs n (k + 1) w := rfl

theorem crashed_ended (hp : (∃ a, p = .done a) ∨ ∃ e, p = .fail e) (n : ℕ) : crashed p envs n k w = w := by
  rcases hp with ⟨a, rfl⟩ | ⟨e, rfl⟩ <;> cases n <;> rfl

/-- A turn changes nothing in its first three requests; the fourth fails a run that took too long. -/
theorem turn_reads (depth : ℕ) (input : TurnInput) (envs : ℕ → Env) (k : ℕ) (w : World) :
    crashed (executeDurableGraphNodeTurn (depth + 1) input) envs 3 k w = w ∧
    ((InPlan w input ∧ w.db.run.status ≠ .succeeded ∧ w.db.run.status ≠ .cancelled ∧ Aged w.db (envs (k + 2)).now ∧
        ∃ f : Unit → Service GraphNodeTurnResult,
          crashed (executeDurableGraphNodeTurn (depth + 1) input) envs 4 k w =
            crashed (failRun .providerTimeout limitMessage none >>= f) envs 1 (k + 3) w) ∨
      ((¬InPlan w input ∨ w.db.run.status = .succeeded ∨ w.db.run.status = .cancelled ∨
          ¬Aged w.db (envs (k + 2)).now) ∧
        ∃ p : Service GraphNodeTurnResult, Opens NotFail p ∧
          crashed (executeDurableGraphNodeTurn (depth + 1) input) envs 4 k w = crashed p envs 1 (k + 3) w)) := by
  unfold executeDurableGraphNodeTurn turnBody
  rw [show (3 : ℕ) = 1 + 2 from rfl, show (4 : ℕ) = 2 + 2 from rfl, crashed_getRun, crashed_getRun]
  by_cases hplan : InPlan w input
  case neg =>
    have hnone : (!w.detail.run.snapshot.executionPlan.nodes.any (·.id == input.nodeId)) = true := by
      simpa [InPlan, World.detail] using hplan
    rw [if_pos hnone]
    have hended : ∀ g : Next → Service GraphNodeTurnResult, ∃ e, (error "invalid_graph_node" >>= g) = .fail e :=
      fun g => ⟨_, rfl⟩
    refine ⟨crashed_ended (.inr (hended _)) 1, .inr ⟨.inl hplan, .fail (.error "invalid_graph_node"), trivial, ?_⟩⟩
    rw [crashed_ended (.inr (hended _))]
    rfl
  have hsome : ¬(!w.detail.run.snapshot.executionPlan.nodes.any (·.id == input.nodeId)) = true := by
    simpa [InPlan, World.detail] using hplan
  rw [if_neg hsome]
  by_cases hsucceeded : w.detail.run.status = .succeeded
  · rw [if_pos hsucceeded]
    refine ⟨rfl, .inr ⟨.inr (.inl hsucceeded), .fail (.error ""), trivial, rfl⟩⟩
  rw [if_neg hsucceeded]
  by_cases hcancelled : w.detail.run.status = .cancelled
  · rw [if_pos hcancelled]
    refine ⟨rfl, .inr ⟨.inr (.inr (.inl hcancelled)), .fail (.error ""), trivial, rfl⟩⟩
  rw [if_neg hcancelled, show (1 : ℕ) = 0 + 1 from rfl, show (2 : ℕ) = 1 + 1 from rfl, crashed_now, crashed_now]
  by_cases haged : Aged w.db (envs (k + 2)).now
  · have hpassed : w.detail.run.snapshot.createdAt + maxWorkflowRunMs < (envs (k + (1 + 1))).now := haged
    rw [if_pos hpassed]
    refine ⟨Prog.crashed_zero (M := machine) _, .inl ⟨hplan, hsucceeded, hcancelled, haged, ?_⟩⟩
    exact ⟨fun _ => pure (.failed limitMessage),
      (Prog.crashed_zero (M := machine) _).trans (Prog.crashed_zero (M := machine) _).symm⟩
  have hyoung : ¬w.detail.run.snapshot.createdAt + maxWorkflowRunMs < (envs (k + (1 + 1))).now := haged
  rw [if_neg hyoung]
  refine ⟨Prog.crashed_zero (M := machine) _, .inr ⟨.inr (.inr (.inr haged)), _, ?_, rfl⟩⟩
  refine opens_bind ?_ fun next => by cases next <;> trivial
  split
  · trivial
  split
  · exact opens_bind (cancelTurn_opens _ _) fun _ => trivial
  split
  · exact opens_bind (reconcileFailedGraphRun_opens _ _) fun _ => trivial
  split
  · trivial
  · exact claimTurn_opens _ _
  · exact attemptTurn_opens _ _ _

/-- **The time limit of a turn.** -/
theorem turn_timesOut_iff (depth : ℕ) (input : TurnInput) (envs : ℕ → Env) (k : ℕ) (w : World) :
    TimesOut (executeDurableGraphNodeTurn (depth + 1) input) 3 envs k w ↔
      w.db.run.status.active = true ∧ InPlan w input ∧ Aged w.db (envs (k + 2)).now := by
  obtain ⟨hread, hnext⟩ := turn_reads depth input envs k w
  unfold TimesOut
  rw [hread]
  rcases hnext with ⟨hplan, hsucceeded, hcancelled, haged, f, hfail⟩ | ⟨hstay, p, hopens, hone⟩
  · rw [hfail]
    by_cases hactive : w.db.run.status.active = true
    · rw [crashed_failRun f hactive]
      refine ⟨fun _ => ⟨hactive, hplan, haged⟩, fun _ => ⟨?_, rfl, rfl, rfl⟩⟩
      intro hfailed
      rw [hfailed] at hactive
      exact absurd hactive (by decide)
    · rw [crashed_failRun_idle f hactive]
      exact ⟨fun h => absurd h.2.1 h.1, fun h => absurd h.1 hactive⟩
  · rw [hone]
    refine ⟨fun h => absurd h.2.1 (crashed_one hopens h.1), fun ⟨hactive, hplan, haged⟩ => ?_⟩
    rcases hstay with h | h | h | h
    · exact absurd hplan h
    · rw [h] at hactive
      exact absurd hactive (by decide)
    · rw [h] at hactive
      exact absurd hactive (by decide)
    · exact absurd haged h

/-! ### The loops of the driver -/

theorem crashed_issues (hp : p.Issues NotFail) (h : w.db.run.status ≠ .failed) (n : ℕ) :
    (crashed p envs n k w).db.run.status ≠ .failed := by
  induction p generalizing k w n with
  | done a => cases n <;> exact h
  | fail e => cases n <;> exact h
  | ask q next ih =>
    obtain _ | n := n
    · exact h
    · exact ih _ (hp.2 _) (status_of_notFail hp.1 h) n

theorem cancelRun_notFail : cancelRun.Issues NotFail := by
  simp [cancelRun, getRun, error, NotFail]

theorem crashed_getRun_head (f : RunDetail → Service α) (n : ℕ) :
    crashed (getRun >>= f) envs (n + 2) k w = crashed (f w.detail) envs n (k + 2) w := rfl

theorem crashed_clocks (f : Time → Time → Service α) (n : ℕ) :
    crashed (do let now ← request .now; let suspended ← request .suspendedMs; f now suspended) envs (n + 2) k w =
      crashed (f (envs k).now (w.db.suspendedMs (envs (k + 1)).now)) envs n (k + 2) w := rfl

theorem not_terminal_of_active {s : RunStatus} (h : s.active = true) : ¬s.terminal = true := by
  cases s <;> revert h <;> decide

theorem active_of_not_terminal {s : RunStatus} (h : ¬s.terminal = true) (hs : s ≠ .cancelling) : s.active = true := by
  cases s <;> revert h hs <;> decide

/-- **The time limit of the driver.** -/
theorem loopHead_timesOut_iff (envs : ℕ → Env) (k : ℕ) (w : World) :
    TimesOut loopHead 4 envs k w ↔
      w.db.run.status.active = true ∧ w.db.run.cancelRequestedAt = none ∧
        w.db.run.snapshot.createdAt + w.db.suspendedMs (envs (k + 3)).now + maxWorkflowRunMs < (envs (k + 2)).now := by
  unfold TimesOut loopHead
  rw [show (4 : ℕ) = 2 + 2 from rfl, show (2 + 2 + 1 : ℕ) = 3 + 2 from rfl, crashed_getRun_head, crashed_getRun_head]
  by_cases hterminal : w.detail.run.status.terminal = true
  · rw [if_pos hterminal]
    refine ⟨fun h => absurd h.2.1 h.1, fun ⟨hactive, _⟩ => ?_⟩
    exact absurd hterminal (not_terminal_of_active hactive)
  rw [if_neg hterminal]
  by_cases hcancel : (decide (w.detail.run.status = .cancelling) || w.detail.run.cancelRequestedAt.isSome) = true
  · rw [if_pos hcancel]
    refine ⟨fun h => absurd h.2.1 ?_, fun ⟨hactive, hnone, _⟩ => ?_⟩
    · have hrest : (do cancelRun; return (w.detail.run, some RunStatus.cancelled) : Service _).Issues NotFail :=
        Prog.issues_bind.2 ⟨cancelRun_notFail, fun _ _ => trivial⟩
      refine crashed_issues hrest ?_ 3
      intro hfailed
      have hrun : w.detail.run.status = .failed := hfailed
      rw [hrun] at hterminal
      exact hterminal rfl
    · rw [Bool.or_eq_true, decide_eq_true_eq] at hcancel
      rcases hcancel with h | h
      · have hrun : w.db.run.status = .cancelling := h
        rw [hrun] at hactive
        exact absurd hactive (by decide)
      · have hsome : w.db.run.cancelRequestedAt.isSome = true := h
        rw [hnone] at hsome
        exact absurd hsome (by decide)
  rw [if_neg hcancel, show (3 : ℕ) = 1 + 2 from rfl, show (2 : ℕ) = 0 + 2 from rfl, crashed_clocks, crashed_clocks]
  have hopen : w.db.run.status.active = true ∧ w.db.run.cancelRequestedAt = none := by
    rw [Bool.or_eq_true, decide_eq_true_eq, not_or] at hcancel
    exact ⟨active_of_not_terminal hterminal hcancel.1, Option.not_isSome_iff_eq_none.1 hcancel.2⟩
  have hnotFailed : w.db.run.status ≠ .failed := by
    intro hfailed
    have hactive := hopen.1
    rw [hfailed] at hactive
    exact absurd hactive (by decide)
  by_cases hover : w.detail.run.snapshot.createdAt + w.db.suspendedMs (envs (k + 2 + 1)).now + maxWorkflowRunMs <
      (envs (k + 2)).now
  · rw [if_pos hover]
    refine ⟨fun _ => ⟨hopen.1, hopen.2, hover⟩, fun _ => ⟨?_, ?_⟩⟩
    · rw [show crashed _ envs 0 (k + 2 + 2) w = w from Prog.crashed_zero (M := machine) _]
      exact hnotFailed
    · have hrun : (crashed _ envs 1 (k + 2 + 2) w).db.run =
          (RunUpdate.fail .providerTimeout limitMessage none).set w.db.run :=
        crashed_failRun (fun _ => (return (w.detail.run, some RunStatus.failed) : Service _)) hopen.1
      exact ⟨congrArg WorkflowRun.status hrun, congrArg WorkflowRun.failureCode hrun,
        congrArg WorkflowRun.failureMessage hrun⟩
  · rw [if_neg hover]
    exact ⟨fun h => absurd h.2.1 hnotFailed, fun h => absurd h.2.2 hover⟩

/-! ### One deadline -/

/-- **The deadline.** A turn fails a run for its time only if the run is overdue, unless the run is active and is
overdue only with the time that it was suspended; the loops of the driver fail it exactly when it is overdue. -/
theorem run_deadline (depth : ℕ) (input : TurnInput) (envs : ℕ → Env) (k : ℕ) (w : World) :
    ((TimesOut (executeDurableGraphNodeTurn (depth + 1) input) 3 envs k w → Overdue w.db (envs (k + 2)).now) ↔
      ¬(w.db.run.status.active = true ∧ InPlan w input ∧ Aged w.db (envs (k + 2)).now ∧
        ¬Overdue w.db (envs (k + 2)).now)) ∧
    (TimesOut loopHead 4 envs k w ↔
      w.db.run.status.active = true ∧ w.db.run.cancelRequestedAt = none ∧
        w.db.run.snapshot.createdAt + w.db.suspendedMs (envs (k + 3)).now + maxWorkflowRunMs <
          (envs (k + 2)).now) := by
  refine ⟨?_, loopHead_timesOut_iff envs k w⟩
  rw [turn_timesOut_iff]
  refine ⟨fun h ⟨hactive, hplan, haged, hleft⟩ => hleft (h ⟨hactive, hplan, haged⟩), fun h ⟨hactive, hplan, haged⟩ => ?_⟩
  by_contra hleft
  exact h ⟨hactive, hplan, haged, hleft⟩

/-- A run of a review and an agent: it was reviewed for two days, and the agent node is admitted. -/
def reviewedWorld : World where
  db :=
    { run :=
        { sampleRun with
          snapshot :=
            { sampleSnapshot with
              executionPlan := ⟨[⟨"review", .approval "Ready?"⟩, ⟨"a", .agentV1 "agent"⟩],
                [⟨"review", "output", "a", "input"⟩], "review", "a", 8⟩ }
          status := .running
          currentStepId := some "review" }
      attempts := [StepAttempt.fresh ⟨"a", 1, 1⟩ (some "x") "agent" "key"]
      approvals := [⟨"request", 1, "review", "y", "interrupt", "Ready?", "go", .approved, 60000, some 172800000,
        some 172860000⟩] }
  durable := []
  graph := ⟨none, [], []⟩

/-- Two minutes of its day are gone, and the turn fails it. -/
theorem reviewedWorld_fails : ¬∀ (depth : ℕ) (input : TurnInput) (envs : ℕ → Env) (k : ℕ) (w : World),
      TimesOut (executeDurableGraphNodeTurn (depth + 1) input) 3 envs k w → Overdue w.db (envs (k + 2)).now := by
  intro h
  have htimes : TimesOut (executeDurableGraphNodeTurn 1 ⟨"a", some "x", "go"⟩) 3 (fun _ => sampleEnv 172920000) 0
      reviewedWorld := by
    refine ⟨?_, ?_, ?_, ?_⟩ <;> decide +kernel
  exact absurd (h 0 _ _ 0 reviewedWorld htimes) (by decide +kernel)

end ADT.Durable.Deadline
