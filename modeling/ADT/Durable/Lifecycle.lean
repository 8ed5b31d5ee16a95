import ADT.Durable.Driver
import ADT.Lib.Clients
import ADT.Storage.Effects

/-!
# Durable.Lifecycle — what becomes of a cancelled, finished or failed run

Every client of a run at once: launches, cancellations, approvals, retries, drivers and node turns, statement by
statement.  A statement that enters a step, waits for an approval or fails the run needs an instance that was
attached (`launchDiscipline`).  From that `sticky_status` follows, for as long as no instance is attached to a run
that was cancelled while its launch was under way.
-/

namespace ADT.Durable.Lifecycle

open Workflow Interleave Storage

/-! ### Launched runs -/

/-- An instance was attached to the run since generation `g₀` was created. -/
def Launched (g₀ : ℕ) (run : WorkflowRun) : Prop :=
  run.workflowLaunchState = .attached ∨ g₀ < run.workflowGeneration

instance (g₀ : ℕ) (run : WorkflowRun) : Decidable (Launched g₀ run) :=
  inferInstanceAs (Decidable (_ ∨ _))

/-- The statements that move a run on which only its driver and node turns issue. -/
def needsLaunch : RunUpdate → Bool
  | .enterStep _ | .fail .. | .awaitApproval .. => true
  | _ => false

/-- Such a statement needs to know the run attached: from attaching it, or from reading it so. -/
def launchDiscipline : Discipline signature Bool where
  needs g q :=
    match q with
    | .updateRun u => needsLaunch u → g = true
    | _ => True
  expects _ _ _ := True
  next g q a :=
    match q, a with
    | .updateRun (.attach _ _), a => g || a
    | .selectRun, run => g || run.workflowLaunchState == .attached
    | _, _ => g

variable {α : Type} {u : RunUpdate} (generation : ℕ) (instanceId : String) {run' : WorkflowRun}

theorem keeps_launched (p : Service α) : launchDiscipline.Keeps p true fun _ _ => True := by
  induction p with
  | done a => trivial
  | fail e => trivial
  | ask q next ih =>
    refine And.intro ?_ fun a _ => ?_
    · rcases q <;> first | exact fun _ => rfl | trivial
    · have hnext : launchDiscipline.next true q a = true := by
        unfold launchDiscipline
        dsimp only
        split <;> rfl
      rw [hnext]
      exact ih a

/-- The requests that need nothing. -/
def Free (q : Request) : Prop := ∀ g, launchDiscipline.needs g q

theorem free_updateRun (h : needsLaunch u = false) : Free (.updateRun u) :=
  fun _ hu => by rw [h] at hu; cases hu

abbrev FreeService {α : Type} (p : Service α) : Prop := p.Issues Free

theorem free_keeps {p : Service α} (hp : FreeService p) (g : Bool) : launchDiscipline.Keeps p g fun _ _ => True :=
  Discipline.keeps_of_needs hp fun _ _ => trivial

/-! ### The clients keep the discipline -/

@[simp] theorem error_free (message : String) : FreeService (error message : Service α) := trivial

@[simp] theorem getRun_free : FreeService getRun := by
  simp [getRun, Free, launchDiscipline]

@[simp] theorem attempt_free (key : AttemptKey) : FreeService (attempt key) := by
  refine Prog.issues_bind.2 ⟨by simp [Free, launchDiscipline], fun a _ => ?_⟩
  split <;> simp

@[simp] theorem claimWorkflowLaunch_free : FreeService (claimWorkflowLaunch generation instanceId) := by
  unfold claimWorkflowLaunch
  simp only [Prog.issues_bind, Prog.issues_ite, Prog.issues_pure, request, Prog.issues_ask, Prog.issues_done,
    getRun_free, error_free, implies_true, and_true, true_and]
  refine ⟨by simp [Free, launchDiscipline], fun now _ => ⟨free_updateRun rfl, fun _ _ _ detail _ _ _ => ?_⟩⟩
  split
  · trivial
  · split
    · trivial
    · simp only [Prog.issues_bind, Prog.issues_ite, Prog.issues_pure, Prog.issues_ask, Prog.issues_done,
        getRun_free, implies_true, and_true, true_and]
      exact fun _ => free_updateRun rfl
  · trivial

@[simp] theorem attachWorkflowInstance_free : FreeService (attachWorkflowInstance generation instanceId) := by
  simp [attachWorkflowInstance, free_updateRun (u := .attach generation instanceId) rfl]

@[simp] theorem recordWorkflowLaunchFailure_free (message : String) :
    FreeService (recordWorkflowLaunchFailure generation instanceId message) := by
  simp [recordWorkflowLaunchFailure, free_updateRun (u := .launchFailure generation instanceId message) rfl]

@[simp] theorem createInstance_free : FreeService (createInstance generation instanceId) := by
  refine Prog.issues_bind.2 ⟨by simp [Free, launchDiscipline], fun a _ => ?_⟩
  split <;> simp

@[simp] theorem ensureWorkflowLaunched_free : FreeService (ensureWorkflowLaunched generation) := by
  refine Prog.issues_bind.2 ⟨getRun_free, fun detail _ => Prog.issues_bind.2
    ⟨claimWorkflowLaunch_free _ _, fun claim _ => ?_⟩⟩
  split <;> simp

@[simp] theorem reconcileWorkflowLaunch_free (detail : RunDetail) : FreeService (reconcileWorkflowLaunch detail) := by
  unfold reconcileWorkflowLaunch
  split <;> simp

@[simp] theorem requestCancellation_free : FreeService requestCancellation := by
  simp only [requestCancellation, Prog.issues_bind, Prog.issues_ite, request, Prog.issues_ask, Prog.issues_done,
    Prog.issues_pure, getRun_free, error_free, implies_true, and_true]
  exact ⟨by simp [Free, launchDiscipline], fun now _ => free_updateRun rfl⟩

@[simp] theorem approve_free (requestId : String) : FreeService (approve requestId) := by
  refine Prog.issues_bind.2 ⟨by simp [Free, launchDiscipline], fun now _ => Prog.issues_bind.2
    ⟨by simp [Free, launchDiscipline], fun decided _ => Prog.issues_bind.2
      ⟨by simp [Free, launchDiscipline], fun a _ => ?_⟩⟩⟩
  split <;> simp [Free, launchDiscipline]

@[simp] theorem prepareManualRetry_free (stepId : String) : FreeService (prepareManualRetry stepId) := by
  refine Prog.issues_bind.2 ⟨getRun_free, fun detail _ => ?_⟩
  split
  · trivial
  · simp only [Prog.issues_ite, Prog.issues_bind, request, Prog.issues_ask, Prog.issues_done, Prog.issues_pure,
      getRun_free, error_free, attempt_free, implies_true, and_true, true_and]
    refine fun _ => ⟨by simp [Free, launchDiscipline], fun _ _ => ⟨fun _ _ _ => ?_, fun _ => ?_⟩⟩ <;>
      exact free_updateRun rfl

@[simp] theorem retryRun_free : FreeService retryRun := by
  refine Prog.issues_bind.2 ⟨getRun_free, fun detail _ => ?_⟩
  split <;> simp

theorem attachWorkflowInstance_keeps (g : Bool) :
    launchDiscipline.Keeps (attachWorkflowInstance generation instanceId) g fun r g' => ∀ u, r = .ok u → g' = true := by
  refine And.intro (fun h => by cases h) fun attached _ => ?_
  rcases attached with _ | _
  · refine And.intro trivial fun run _ => And.intro trivial fun attempts _ => ?_
    show launchDiscipline.Keeps (if run.workflowGeneration == generation && run.workflowLaunchState == .attached &&
      run.workflowInstanceId == some instanceId then _ else _) _ _
    split
    · rename_i h
      simp only [Bool.and_eq_true] at h
      rintro u ⟨⟩
      simp only [launchDiscipline, h.1.2, Bool.or_true]
    · rintro u ⟨⟩
  · rintro u ⟨⟩
    simp only [launchDiscipline, Bool.or_true]

theorem executeWorkflowRun_keeps (advance : Advance) (wakes : ℕ) (instanceId : String) :
    launchDiscipline.Keeps (executeWorkflowRun advance wakes instanceId) false fun _ _ => True := by
  refine Discipline.keeps_bind ((free_keeps getRun_free false).mono fun r g _ => ?_)
  rcases r with e | detail
  · trivial
  · refine Discipline.keeps_bind ((attachWorkflowInstance_keeps _ _ g).mono fun r g' hr => ?_)
    rcases r with e | u
    · trivial
    · obtain rfl : g' = true := hr u rfl
      exact keeps_launched _

/-! ### Interleavings -/

/-- Who acts on a run.  A call of the node gateway carries an authority its driver issued after it attached. -/
inductive Client
  | launch (generation : ℕ)
  | reconcileLaunch
  | cancel
  | approve (requestId : String)
  | retry
  | driver (advance : Advance) (wakes : ℕ) (instanceId : String)
  | node (service : Service Unit)

def Client.service : Client → Service Unit
  | .launch generation => (ensureWorkflowLaunched generation).forget
  | .reconcileLaunch => getRun >>= reconcileWorkflowLaunch
  | .cancel => requestCancellation.forget
  | .approve requestId => (Storage.approve requestId).forget
  | .retry => retryRun.forget
  | .driver advance wakes instanceId => (executeWorkflowRun advance wakes instanceId).forget
  | .node service => service

abbrev Move := Interleave.Move machine Client.service

abbrev after (w : World) (moves : List Move) : Services := (Pool.init w).run (moves.map Move.action)

/-- Node calls are made of launched runs. -/
def issued (g₀ : ℕ) (pool : Services) : Move → Bool
  | .client (.node _) => decide (Launched g₀ pool.world.db.run)
  | _ => true

/-- An instance that is attached, or whose launch is recorded as failed, finds the run not cancelled. -/
def attachesLive (pool : Services) : Move → Bool
  | .run t _ =>
    match pool.threads[t]? with
    | some (.ask (.updateRun (.attach generation instanceId)) _) =>
      !(RunUpdate.attach generation instanceId).guard pool.world.db ||
        pool.world.db.run.status != .cancelling && pool.world.db.run.status != .cancelled
    | some (.ask (.updateRun (.launchFailure generation instanceId message)) _) =>
      !(RunUpdate.launchFailure generation instanceId message).guard pool.world.db ||
        pool.world.db.run.status != .cancelling && pool.world.db.run.status != .cancelled
    | _ => true
  | .client _ => true

/-- Every move is issued by the code and meets `ok`. -/
abbrev Moves (g₀ : ℕ) (ok : Services → Move → Bool) (pool : Services) (moves : List Move) : Prop :=
  Interleave.Moves (fun pool m => issued g₀ pool m && ok pool m) pool moves

/-- The rows of the run so far, the latest first. -/
def history (w : World) (moves : List Move) : List WorkflowRun :=
  (moves.foldl (fun (s : Services × List WorkflowRun) m =>
    (s.1.step m.action, (s.1.step m.action).world.db.run :: s.2)) (Pool.init w, [w.db.run])).2

/-- Since the run failed a manual retry opened its next generation, or the launch of its generation that had
failed was claimed again. -/
def Reopened : List WorkflowRun → Prop
  | later :: earlier :: rest =>
    earlier.status = .failed ∧
      (later.workflowGeneration = earlier.workflowGeneration + 1 ∨
        (later.workflowGeneration = earlier.workflowGeneration ∧ earlier.workflowLaunchState = .launchFailed ∧
          later.workflowLaunchState = .launching) ∨
        Reopened (earlier :: rest))
  | _ => False

/-! ### What a statement does to the row of a run -/

variable {g₀ : ℕ} {db db' : Database} {w : World}

/-- What the statuses say of the launch. -/
structure LaunchInv (g₀ : ℕ) (run : WorkflowRun) : Prop where
  generation : g₀ ≤ run.workflowGeneration
  attached : run.status = .running ∨ run.status = .waitingApproval ∨ run.status = .succeeded →
    run.workflowLaunchState = .attached
  queued : run.status = .queued → run.workflowLaunchState = .attached ∨ run.workflowGeneration = g₀

theorem LaunchInv.attached_of_active {run : WorkflowRun} (h : LaunchInv g₀ run) (hl : Launched g₀ run)
    (ha : run.status.active = true) : run.workflowLaunchState = .attached := by
  rcases hs : run.status with _ | _ | _ | _ | _ | _ | _
  · rcases h.queued hs with h' | h'
    · exact h'
    · rcases hl with hl | hl
      · exact hl
      · omega
  · exact h.attached (.inl hs)
  · exact h.attached (.inr (.inl hs))
  all_goals simp [hs, RunStatus.active_iff] at ha

theorem launched_set (hg : u.guard db = true) (hi : LaunchInv g₀ db.run)
    (h : Launched g₀ db.run) : Launched g₀ (u.set db.run) := by
  have hgen := hi.generation
  cases u <;> simp_all [Launched, RunUpdate.guard, RunUpdate.set]
  all_goals grind

theorem launchInv_set (hg : u.guard db = true) (hn : needsLaunch u = true → Launched g₀ db.run)
    (h : LaunchInv g₀ db.run) : LaunchInv g₀ (u.set db.run) := by
  have hactive := fun hl => h.attached_of_active hl
  obtain ⟨hgen, hatt, hq⟩ := h
  rcases u with _ | _ | _ | _ | _ | _ | _ | _ | _ | _ | _ | _ | _ | _ | _ <;>
    simp only [RunUpdate.guard, Bool.and_eq_true, Bool.or_eq_true, beq_iff_eq] at hg
  case enterStep =>
    refine ⟨hgen, fun _ => hactive (hn rfl) ?_, by simp [RunUpdate.set]⟩
    rcases hg with hg | hg <;> rw [hg] <;> rfl
  case awaitApproval => exact ⟨hgen, fun _ => hactive (hn rfl) hg.1.2, by simp [RunUpdate.set]⟩
  case manualRetry => exact ⟨by simp only [RunUpdate.set]; omega, by simp [RunUpdate.set, hg.1], by simp [RunUpdate.set, hg.1]⟩
  case claimLaunch =>
    refine ⟨hgen, fun hs => ?_, fun hs => .inr ?_⟩
    · simp only [RunUpdate.set] at hs
      rcases hg.2 with h | h <;> simp [h] at hs
    · rcases hq hs with h | h
      · simp [h] at hg
      · exact h
  case complete => exact ⟨hgen, fun _ => hatt (.inl hg.1), by simp [RunUpdate.set]⟩
  case resume => exact ⟨hgen, fun _ => hatt (.inr (.inl hg.1.1)), by simp [RunUpdate.set]⟩
  case attach => exact ⟨hgen, fun _ => rfl, fun _ => .inl rfl⟩
  all_goals first
    | exact ⟨hgen, hatt, hq⟩
    | exact ⟨hgen, by simp [RunUpdate.set], by simp [RunUpdate.set]⟩

/-- What a statement may do to the row: it needs a launched run where it moves the run on, and a run that is not
cancelled where it settles a launch. -/
structure Writes (g₀ : ℕ) (db : Database) (run' : WorkflowRun) (u : RunUpdate) : Prop where
  guard : u.guard db = true
  set : run' = u.set db.run
  launched : needsLaunch u = true → Launched g₀ db.run
  live : settles u = true → db.run.status ≠ .cancelling ∧ db.run.status ≠ .cancelled

theorem Writes.sticky (h : Writes g₀ db run' u) (hi : LaunchInv g₀ db.run) :
    (db.run.status = .cancelling → run'.status = .cancelling ∨ run'.status = .cancelled) ∧
      (db.run.status = .succeeded → run'.status = .succeeded) ∧
      (db.run.status = .cancelled → run'.status = .cancelled) := by
  obtain ⟨hg, rfl, _, hlive⟩ := h
  have hatt := hi.attached
  cases u <;>
    simp_all [settles, RunUpdate.guard, RunUpdate.set, RunStatus.active_iff] <;> grind

theorem Writes.leaves_failed (h : Writes g₀ db run' u)
    (hf : db.run.status = .failed) (hf' : run'.status ≠ .failed) : db.run.workflowLaunchState = .launching := by
  obtain ⟨hg, rfl, _, _⟩ := h
  cases u <;> simp_all [RunUpdate.guard, RunUpdate.set, RunStatus.active_iff]

theorem Writes.failed (h : Writes g₀ db run' u) (hi : LaunchInv g₀ db.run) (hf : run'.status = .failed)
    (hl : run'.workflowLaunchState = .unclaimed ∨ run'.workflowLaunchState = .launching) :
    db.run.status = .failed ∧ (run'.workflowGeneration = db.run.workflowGeneration + 1 ∨
      (run'.workflowGeneration = db.run.workflowGeneration ∧ db.run.workflowLaunchState = .launchFailed ∧
        run'.workflowLaunchState = .launching) ∨
      db.run.workflowLaunchState = .unclaimed ∨ db.run.workflowLaunchState = .launching) := by
  obtain ⟨hg, rfl, hn, _⟩ := h
  cases u
  case fail =>
    -- the run was launched, so its instance is attached
    have ha : db.run.workflowLaunchState = .attached := by
      refine hi.attached_of_active (hn rfl) ?_
      simp only [RunUpdate.guard, Bool.and_eq_true] at hg
      exact hg.1
    simp [RunUpdate.set, ha] at hl
  case claimLaunch =>
    simp only [RunUpdate.guard, Bool.and_eq_true, Bool.or_eq_true, beq_iff_eq] at hg
    refine ⟨hf, ?_⟩
    rcases hg.1.2 with h | h
    · exact .inr (.inr (.inl h))
    · exact .inr (.inl ⟨rfl, h, rfl⟩)
  all_goals simp_all [RunUpdate.guard, RunUpdate.set, RunStatus.active_iff]

/-! ### Runs -/

theorem history_concat (w : World) (moves : List Move) (m : Move) :
    history w (moves ++ [m]) = (after w (moves ++ [m])).world.db.run :: history w moves := by
  have hfst : ∀ (ms : List Move) (s : Services × List WorkflowRun),
      (ms.foldl (fun (s : Services × List WorkflowRun) m =>
        (s.1.step m.action, (s.1.step m.action).world.db.run :: s.2)) s).1 = s.1.run (ms.map Move.action) := by
    intro ms
    induction ms with
    | nil => exact fun _ => rfl
    | cons m ms ih => exact fun s => ih _
  rw [history, List.foldl_append, List.foldl_cons, List.foldl_nil, hfst, after, run_moves_concat, history]

/-- The invariant of a run: of the row, of the services under way, and of the rows before. -/
structure Inv (g₀ : ℕ) (pool : Services) (rows : List WorkflowRun) : Prop where
  launch : LaunchInv g₀ pool.world.db.run
  threads : ∀ p ∈ pool.threads, Launched g₀ pool.world.db.run ∨ launchDiscipline.Keeps p false fun _ _ => True
  head : ∃ rest, rows = pool.world.db.run :: rest
  reopened : pool.world.db.run.status = .failed → pool.world.db.run.workflowLaunchState = .unclaimed ∨
    pool.world.db.run.workflowLaunchState = .launching → Reopened rows

variable {pool : Services} {rows : List WorkflowRun} {m : Move}

theorem client_keeps (c : Client) (hc : ∀ p, c ≠ .node p) :
    launchDiscipline.Keeps c.service false fun _ _ => True := by
  rcases c with _ | _ | _ | _ | _ | ⟨advance, wakes, instanceId⟩ | p
  case driver =>
    refine Discipline.keeps_bind ((executeWorkflowRun_keeps advance wakes instanceId).mono fun r g' _ => ?_)
    rcases r with _ | _ <;> trivial
  case node => exact absurd rfl (hc p)
  all_goals exact free_keeps (by simp [Client.service, Prog.forget]) false

theorem move_cases (h : Inv g₀ pool rows) (hlive : attachesLive pool m = true) :
    (pool.step m.action).world.db.run = pool.world.db.run ∨
      ∃ u, Writes g₀ pool.world.db (pool.step m.action).world.db.run u := by
  rcases Pool.step_cases pool m.action with ⟨p, _, hs⟩ | ⟨t, env, q, next, hm, ht, hs⟩ | ⟨_, hs⟩
  · exact .inl (by rw [hs])
  · rw [hs]
    rcases run_cases (answer_effect env pool.world q) with hrun | ⟨u, hg, hset, hq⟩
    · exact .inl hrun
    refine .inr ⟨u, hg, hset, fun hn => ?_, fun hset' => ?_⟩
    · -- the service that issues the statement knows the run launched
      rcases hq with rfl | ⟨requestId, now, rfl, -⟩
      · rcases h.threads _ (List.mem_of_getElem? ht) with hl | hk
        · exact hl
        · exact absurd (hk.1 hn) (by simp)
      · cases hn
    · rcases hq with rfl | ⟨requestId, now, rfl, -⟩
      · obtain ⟨c, rfl⟩ | ⟨t', env', rfl⟩ : (∃ c, m = .client c) ∨ ∃ t' env', m = .run t' env' := by
          rcases m with c | ⟨t', env'⟩
          · exact .inl ⟨c, rfl⟩
          · exact .inr ⟨t', env', rfl⟩
        · cases hm
        · obtain ⟨rfl, rfl⟩ : t' = t ∧ env' = env := by simpa [Move.action] using hm
          rcases u <;> cases hset'
          all_goals
            simp only [attachesLive, ht, hg, Bool.not_true, Bool.false_or, Bool.and_eq_true, bne_iff_ne] at hlive
            exact hlive
      · cases hset'
  · exact .inl (by rw [hs])

theorem launched_step (h : Inv g₀ pool rows) (hlive : attachesLive pool m = true)
    (hl : Launched g₀ pool.world.db.run) : Launched g₀ (pool.step m.action).world.db.run := by
  rcases move_cases h hlive with hrun | ⟨u, hw⟩
  · rw [hrun]
    exact hl
  · rw [hw.set]
    exact launched_set hw.guard h.launch hl

theorem launched_of_next {q : Request} {a : Answer q} {env : Env} (ha : a = (answer env q w).1)
    (h : launchDiscipline.next false q a = true) : Launched g₀ (answer env q w).2.db.run := by
  subst ha
  unfold launchDiscipline at h
  dsimp only at h
  split at h
  · rename_i generation instanceId
    have hg : (RunUpdate.attach generation instanceId).guard w.db = true :=
      updateRun_changed (by simpa [answer, World.withDb] using h)
    refine .inl ?_
    simp only [answer, World.withDb, updateRun_true hg]
    rfl
  · refine .inl ?_
    simpa [answer] using h
  · cases h

/-- **One move.** -/
theorem inv_step (h : Inv g₀ pool rows) (hissued : issued g₀ pool m = true) (hlive : attachesLive pool m = true) :
    Inv g₀ (pool.step m.action) ((pool.step m.action).world.db.run :: rows) := by
  refine ⟨?_, ?_, ⟨rows, rfl⟩, fun hf hl => ?_⟩
  · rcases move_cases h hlive with hrun | ⟨u, hw⟩
    · rw [hrun]
      exact h.launch
    · rw [hw.set]
      exact launchInv_set hw.guard hw.launched h.launch
  · have hkeep : ∀ p : Service Unit, Launched g₀ pool.world.db.run ∨ launchDiscipline.Keeps p false (fun _ _ => True) →
        Launched g₀ (pool.step m.action).world.db.run ∨ launchDiscipline.Keeps p false (fun _ _ => True) :=
      fun p hp => hp.imp_left (launched_step h hlive)
    rcases Pool.step_cases pool m.action with ⟨p, hm, hs⟩ | ⟨t, env, q, next, hm, ht, hs⟩ | ⟨_, hs⟩
    · intro p' hp'
      rw [hs] at hp'
      rcases List.mem_append.1 hp' with hp' | hp'
      · exact hkeep p' (h.threads p' hp')
      · obtain rfl := List.mem_singleton.1 hp'
        refine hkeep p' ?_
        rcases m with c | ⟨t, env⟩
        · obtain rfl : c.service = p' := by simpa [Move.action] using hm
          by_cases hnode : ∃ p, c = .node p
          · obtain ⟨p, rfl⟩ := hnode
            exact .inl (by simpa [issued] using hissued)
          · exact .inr (client_keeps c fun p hp => hnode ⟨p, hp⟩)
        · cases hm
    · intro p' hp'
      rw [hs] at hp'
      rcases List.mem_or_eq_of_mem_set hp' with hp' | rfl
      · exact hkeep p' (h.threads p' hp')
      · rcases h.threads _ (List.mem_of_getElem? ht) with hl | hk
        · exact .inl (launched_step h hlive hl)
        · have hknext := hk.2 (answer env q pool.world).1 trivial
          rcases hg : launchDiscipline.next false q (answer env q pool.world).1 with _ | _
          · rw [hg] at hknext
            exact .inr hknext
          · rw [hs]
            exact .inl (launched_of_next rfl hg)
    · rw [hs]
      exact h.threads
  · obtain ⟨rest, rfl⟩ := h.head
    rcases move_cases h hlive with hrun | ⟨u, hw⟩
    · rw [hrun] at hf hl
      exact ⟨hf, .inr (.inr (h.reopened hf hl))⟩
    · obtain ⟨hf₀, hretried | hreclaimed | hl₀⟩ := hw.failed h.launch hf hl
      · exact ⟨hf₀, .inl hretried⟩
      · exact ⟨hf₀, .inr (.inl hreclaimed)⟩
      · exact ⟨hf₀, .inr (.inr (h.reopened hf₀ hl₀))⟩

theorem inv_run (hq : w.db.run.status = .queued) (moves : List Move)
    (hm : Moves w.db.run.workflowGeneration attachesLive (Pool.init w) moves) :
    Inv w.db.run.workflowGeneration (after w moves) (history w moves) := by
  induction moves using List.reverseRecOn with
  | nil =>
    have hinv : LaunchInv w.db.run.workflowGeneration w.db.run :=
      ⟨Nat.le_refl _, fun h => by simp [hq] at h, fun _ => .inr rfl⟩
    exact ⟨hinv, fun p hp => absurd hp List.not_mem_nil, ⟨[], rfl⟩, fun hf => absurd (hq.symm.trans hf) (by simp)⟩
  | append_singleton moves m ih =>
    rw [Moves, moves_concat, Bool.and_eq_true] at hm
    rw [history_concat]
    simp only [after, run_moves_concat]
    exact inv_step (ih hm.1) hm.2.1 hm.2.2

/-- **Verdicts are final.** As long as no instance is attached to a run that was cancelled while its launch was
under way, and no such launch is recorded as failed: a run that is being cancelled only becomes cancelled, a
succeeded and a cancelled run stay what they are, and a failed run is reopened before it leaves its status. -/
theorem sticky_status (w : World) (hq : w.db.run.status = .queued) (moves : List Move) (m : Move)
    (hm : Moves w.db.run.workflowGeneration attachesLive (Pool.init w) (moves ++ [m])) :
    ((after w moves).world.db.run.status = .cancelling →
        (after w (moves ++ [m])).world.db.run.status = .cancelling ∨
        (after w (moves ++ [m])).world.db.run.status = .cancelled) ∧
      ((after w moves).world.db.run.status = .succeeded →
        (after w (moves ++ [m])).world.db.run.status = .succeeded) ∧
      ((after w moves).world.db.run.status = .cancelled →
        (after w (moves ++ [m])).world.db.run.status = .cancelled) ∧
      ((after w moves).world.db.run.status = .failed →
        (after w (moves ++ [m])).world.db.run.status ≠ .failed → Reopened (history w moves)) := by
  rw [Moves, moves_concat, Bool.and_eq_true] at hm
  have hinv := inv_run hq moves hm.1
  have hafter : after w (moves ++ [m]) = (after w moves).step m.action := run_moves_concat _ moves m
  rw [hafter]
  rcases move_cases hinv hm.2.2 with hrun | ⟨u, hw⟩
  · rw [hrun]
    exact ⟨.inl, fun h => h, fun h => h, fun h h' => absurd h h'⟩
  · obtain ⟨h₁, h₂, h₃⟩ := hw.sticky hinv.launch
    exact ⟨h₁, h₂, h₃, fun hf hf' => hinv.reopened hf (.inr (hw.leaves_failed hf hf'))⟩

abbrev createdWorld : World := createdRun sampleSnapshot

abbrev runs (t n : ℕ) : List Move := Interleave.runs t n (sampleEnv 5)

/-- A run is launched and cancelled, and its driver finds it so. -/
def cancelledRun : List Move :=
  .client (.launch 1) :: runs 0 7 ++ .client .cancel :: runs 1 2 ++ .client (.driver advanceRemote 1 "run-g1") :: runs 2 8

theorem cancelledRun_sticky : (after createdWorld cancelledRun).world.db.run.status = .cancelling ∧
      ((after createdWorld (cancelledRun ++ [.run 2 (sampleEnv 5)])).world.db.run.status = .cancelling ∨
        (after createdWorld (cancelledRun ++ [.run 2 (sampleEnv 5)])).world.db.run.status = .cancelled) :=
  ⟨by decide +kernel, (sticky_status createdWorld rfl cancelledRun (.run 2 (sampleEnv 5)) (by decide +kernel)).1
    (by decide +kernel)⟩

/-- The run is cancelled after its launch was claimed and before its instance is attached. -/
def cancelledLaunch : List Move :=
  .client (.launch 1) :: runs 0 5 ++ .client .cancel :: runs 1 2

theorem cancelledLaunch_revived :
    Moves 1 (fun _ _ => true) (Pool.init createdWorld) (cancelledLaunch ++ [.run 0 (sampleEnv 5)]) ∧
      (after createdWorld cancelledLaunch).world.db.run.status = .cancelling ∧
      (after createdWorld (cancelledLaunch ++ [.run 0 (sampleEnv 5)])).world.db.run.status = .queued := by
  decide +kernel

end ADT.Durable.Lifecycle
