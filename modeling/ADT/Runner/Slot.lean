import ADT.Runner.Tasks

/-!
# Runner.Slot — one execution at a time

The slot of the active job is held by every job whose task is not done, unless `reconcileActive` gives it back under a
task that goes on.
-/

namespace ADT.Runner

open Guarded

namespace Job

variable {bounded : Bool} {now : Instant} {j : Job} {m : JobMove} {o : Outcome}

/-- The move is the end of a write of `reconcileActive`. -/
def EndsReconcile (j : Job) (m : JobMove) : Prop :=
  ∃ ok w rest, m = .write ok ∧ j.writes = w :: rest ∧ w.awaits = .reconcile

variable {landed : Bool}

theorem open_of_running (hopen : (afterRunning now j landed).job.task ≠ .done) :
    (afterRunning now j landed).releases = .no := by
  revert hopen
  unfold afterRunning
  split_ifs
  · exact fun hopen => absurd rfl hopen
  · exact fun _ => rfl
  · exact fun _ => rfl

theorem open_of_terminal (hopen : (j.afterTerminal landed).job.task ≠ .done) :
    (j.afterTerminal landed).releases = .no := by
  revert hopen
  unfold afterTerminal
  dsimp only
  split
  · exact fun _ => rfl
  · exact fun hopen => absurd rfl hopen
  · exact fun hopen => absurd rfl hopen

theorem open_of_wake {w : Write} {rest : List Write} {broken : Bool} (hj : j.Sane) (h : j.writes = w :: rest)
    (hopen : (wake now { j with writes := rest, broken := broken } w.awaits landed).job.task ≠ .done) :
    j.task ≠ .done ∧ ((wake now { j with writes := rest, broken := broken } w.awaits landed).releases = .no ∨
      w.awaits = .reconcile) := by
  -- a write that the task waits for finds it waiting
  have hwaiting : w.awaits.own = true → j.task ≠ .done := by
    intro hown hdone
    obtain ⟨htask, -⟩ := hj.awaiting h hown
    rw [hdone] at htask
    cases htask
  revert hopen
  cases ha : w.awaits with
  | admission =>
    rw [ha] at hwaiting
    cases landed with
    | true => exact fun _ => ⟨hwaiting rfl, .inl rfl⟩
    | false => exact fun hopen => absurd rfl hopen
  | running =>
    rw [ha] at hwaiting
    exact fun hopen => ⟨hwaiting rfl, .inl (open_of_running hopen)⟩
  | terminal =>
    rw [ha] at hwaiting
    exact fun hopen => ⟨hwaiting rfl, .inl (open_of_terminal hopen)⟩
  | started => exact fun hopen => ⟨hopen, .inl rfl⟩
  | cancel =>
    intro hopen
    rw [wake, (settled_fields landed).2.1] at hopen
    exact ⟨hopen, .inl rfl⟩
  | reconcile =>
    intro hopen
    rw [wake, (settled_fields landed).2.1] at hopen
    exact ⟨hopen, .inr rfl⟩

theorem open_of_effect (hj : j.Sane) (h : Effect bounded now j m o) (hopen : o.job.task ≠ .done) :
    j.task ≠ .done ∧ (o.releases = .no ∨ j.EndsReconcile m) := by
  cases h with
  | @write ok w rest hwrites =>
    obtain ⟨hbefore, hrelease⟩ := open_of_wake hj hwrites hopen
    exact ⟨hbefore, hrelease.imp id fun ha => ⟨ok, w, rest, rfl, hwrites, ha⟩⟩
  | started hturn => exact ⟨hopen, .inl rfl⟩
  | late hturn htask => exact ⟨hopen, .inl rfl⟩
  | cancelAgain _ _ => exact ⟨hopen, .inl rfl⟩
  | cancelled _ _ _ => exact ⟨hopen, .inl rfl⟩
  | proceedFailed _ _ _ => exact absurd rfl hopen
  | proceedForced _ _ _ _ => exact absurd rfl hopen
  | quiesced _ _ => exact absurd rfl hopen
  -- these moves are made by a task that is not done
  | prepareCancelled htask | prepareReady htask | prepareFailed htask | invalid htask | validCancelled htask
  | valid htask | returned _ htask | rejectedStarted _ htask | rejected _ htask | proceedCancelled htask
  | concluded htask | timedOut htask | interrupted htask | forced htask | stuck htask | unobserved htask
  | observedCancelled htask | observed htask =>
    exact ⟨by rw [htask]; simp, .inl rfl⟩

end Job

namespace JobRunner

variable {digest : String → Digest} {cfg : Config} {now : Instant} {w w' : JobRunner} {m : Move}

/-- What holds of the jobs of a process, and of the slot. -/
structure Slotted (w : JobRunner) : Prop where
  sane : ∀ {id j}, w.jobs id = some j → j.Sane
  held : ∀ {id j}, w.jobs id = some j → j.task ≠ .done → w.activeJob = some id

theorem slotted_of_none (h : ∀ id, w.jobs id = none) : Slotted w where
  sane hj := absurd ((h _).symm.trans hj) (by simp)
  held hj := absurd ((h _).symm.trans hj) (by simp)

variable {id : JobId} {job : Job}

theorem update_jobs {id' : JobId} {j : Job} (h : Function.update w.jobs id (some job) id' = some j) :
    id' = id ∧ j = job ∨ id' ≠ id ∧ w.jobs id' = some j := by
  by_cases heq : id' = id
  · subst heq
    rw [Function.update_self] at h
    exact .inl ⟨rfl, (Option.some.inj h).symm⟩
  · rw [Function.update_of_ne heq] at h
    exact .inr ⟨heq, h⟩

theorem slotted_apply {o : Outcome} (hw : Slotted w) (hjob : w.jobs id = some job)
    (hsane : o.job.Sane) (hopen : o.job.task ≠ .done → job.task ≠ .done ∧ (w.apply id job o).activeJob = w.activeJob) :
    Slotted (w.apply id job o) where
  sane h := by
    rcases update_jobs h with ⟨-, rfl⟩ | ⟨-, h⟩
    · exact hsane
    · exact hw.sane h
  held {id' j} h hj := by
    rcases update_jobs h with ⟨rfl, rfl⟩ | ⟨hne, h⟩
    · obtain ⟨hbefore, hsame⟩ := hopen hj
      exact hsame.trans (hw.held hjob hbefore)
    · have hactive := hw.held h hj
      have hother : ¬w.activeJob = some id := fun heq => hne (Option.some.inj (hactive.symm.trans heq))
      exact (if_neg fun hc => hother hc.1).trans hactive

theorem slotted_insert {r : JobRecord} (hw : Slotted w) : Slotted (w.insert id (.loaded r .done)) where
  sane h := by
    rcases update_jobs h with ⟨-, rfl⟩ | ⟨-, h⟩
    · exact Job.sane_loaded r (.inl rfl)
    · exact hw.sane h
  held h hj := by
    rcases update_jobs h with ⟨-, rfl⟩ | ⟨-, h⟩
    · exact absurd rfl hj
    · exact hw.held h hj

theorem slotted_occupy (hw : Slotted w) (hfree : w.activeJob = none) (hsane : job.Sane)
    (hjobs : w'.jobs = Function.update w.jobs id (some job)) (hactive : w'.activeJob = some id) : Slotted w' where
  sane h := by
    rw [hjobs] at h
    rcases update_jobs h with ⟨-, rfl⟩ | ⟨-, h⟩
    · exact hsane
    · exact hw.sane h
  held h hj := by
    rw [hjobs] at h
    rcases update_jobs h with ⟨rfl, -⟩ | ⟨-, h⟩
    · exact hactive
    · exact absurd ((hw.held h hj).symm.trans hfree) (by simp)

theorem slotted_crashed (landed : JobId → Bool) : Slotted (w.crashed landed) := slotted_of_none fun _ => rfl

theorem slotted_take {value : JobRecord} {ok : Bool} (hw : Slotted w) : Slotted (w.take cfg now id value ok) := by
  unfold take
  split_ifs with hknown hterminal hresumable hactive hok
  · exact slotted_crashed _
  · exact slotted_insert hw
  · exact slotted_crashed _
  · exact slotted_occupy hw (by simpa using hactive) (Job.sane_loaded value (.inr rfl)) rfl rfl
  · have hinsert : Slotted (w.insert id (.loaded (restarted now value) .done)) := slotted_insert hw
    exact ⟨hinsert.sane, hinsert.held⟩
  · exact slotted_crashed _

/-- The write of `reconcileActive` is through, and the slot is given back under a task that is not done. -/
def yieldsSlot (w : JobRunner) (m : Move) : Bool :=
  match m.act with
  | .job id (.write ok) =>
    (w.jobs id).any fun job =>
      job.writes.head?.any (fun write => write.awaits = .reconcile && write.record.fits) && job.task ≠ .done &&
        w.activeJob = some id && w.storageHealthy && ok && !job.broken
  | _ => false

theorem active_of_effect {move : JobMove} {o : Outcome} (hw : Slotted w)
    (hact : m.act = .job id move) (hjob : w.jobs id = some job)
    (heffect : Job.Effect cfg.boundedExecutionPlane m.now job move o) (hkeeps : w.yieldsSlot m = false)
    (hopen : o.job.task ≠ .done) : job.task ≠ .done ∧ (w.apply id job o).activeJob = w.activeJob := by
  obtain ⟨hbefore, hrelease⟩ := Job.open_of_effect (hw.sane hjob) heffect hopen
  refine ⟨hbefore, if_neg ?_⟩
  rintro ⟨hactive, hgiven⟩
  rcases hrelease with hno | ⟨ok, write, rest, rfl, hwrites, hawaits⟩
  · rw [hno] at hgiven
    rcases hgiven with h | ⟨h, -⟩ <;> cases h
  · -- the write is through and the storage is healthy
    cases heffect with
    | @write _ write' rest' hwrites' =>
      obtain ⟨rfl, rfl⟩ : write' = write ∧ rest' = rest := by
        rw [hwrites] at hwrites'
        exact ⟨(List.cons.inj hwrites').1.symm, (List.cons.inj hwrites').2.symm⟩
      have hhealthy : w.storageHealthy = true ∧ ok = true ∧ job.broken = false ∧ write'.record.fits = true := by
        rcases hgiven with h | ⟨-, h⟩
        · simp [hawaits, Job.wake] at h
        · simpa [hawaits, Job.wake, and_assoc] using h
      obtain ⟨hhealthy, hok, hbroken, hfits⟩ := hhealthy
      simp [yieldsSlot, hact, hjob, hwrites, hawaits, hbefore, hactive, hhealthy, hok, hbroken, hfits] at hkeeps

/-- **One move.** -/
theorem slotted_step (hw : Slotted w) (hkeeps : w.yieldsSlot m = false) (h : w.step digest cfg m = some w') : Slotted w' := by
  cases change_of_step h with
  | refused => exact hw
  | replayed => exact ⟨hw.sane, hw.held⟩
  | entered _ _ _ hadmits _ =>
    exact slotted_occupy hw (admits_fresh hadmits).2.2.1 (Job.sane_admitted _) rfl rfl
  | moved hact _ hjob heffect =>
    exact slotted_apply hw hjob (Job.sane_of_effect (hw.sane hjob) heffect)
      (active_of_effect hw hact hjob heffect hkeeps)
  | @reconciled reason id job _ _ _ _ hjob =>
    have happly := slotted_apply (o := job.reconcile m.now reason) hw hjob (Job.sane_reconcile (hw.sane hjob) _)
      fun hopen => ⟨hopen, if_neg (by rintro ⟨-, h | ⟨h, -⟩⟩ <;> cases h)⟩
    exact ⟨happly.sane, happly.held⟩
  | reported => exact ⟨hw.sane, hw.held⟩
  | crashed => exact slotted_crashed _
  | booted => exact ⟨hw.sane, hw.held⟩
  | loaded =>
    unfold loadFile
    split
    · exact slotted_crashed _
    · exact slotted_take hw
  | opened => exact ⟨hw.sane, hw.held⟩

variable (digest cfg) in
/-- At most one turn is in progress, and no job is admitted while the task of another is not done. -/
structure OneExecution (w : JobRunner) : Prop where
  turn : ∀ {id id' j j'}, w.jobs id = some j → w.jobs id' = some j' → j.turn ≠ .idle → j'.turn ≠ .idle → id = id'
  closed : ∀ {id j}, w.jobs id = some j → (j.turn ≠ .idle ∨ j.task ≠ .done) →
    ∀ input environment admissionAllowed key,
      w.admits digest cfg input environment admissionAllowed ≠ .ok (.fresh key)

theorem Slotted.oneExecution (hw : Slotted w) : OneExecution digest cfg w := by
  have hopen : ∀ {id j}, w.jobs id = some j → (j.turn ≠ .idle ∨ j.task ≠ .done) → w.activeJob = some id := by
    intro id j hj hbusy
    refine hw.held hj (hbusy.elim (fun hturn hdone => ?_) fun h => h)
    have hturns := (hw.sane hj).turn hturn
    rw [hdone] at hturns
    cases hturns
  refine ⟨fun hj hj' hturn hturn' => ?_, fun hj hbusy input environment admissionAllowed key hadmits => ?_⟩
  · exact Option.some.inj ((hopen hj (.inl hturn)).symm.trans (hopen hj' (.inl hturn')))
  · exact absurd ((hopen hj hbusy).symm.trans (admits_fresh hadmits).2.2.1) (by simp)

/-- **One execution**, in every state of a run whose operations keep the slot. -/
theorem one_execution (h : Reaches (step digest cfg) (fun v m => v.yieldsSlot m = false) initial w) :
    OneExecution digest cfg w := by
  have hslotted : Slotted w :=
    h.invariant (slotted_of_none fun _ => rfl) fun hv hkeeps hstep => slotted_step hv hkeeps hstep
  exact hslotted.oneExecution

/-- The call of `runWorkflowTurn` for a job is in progress. -/
def inTurn (w : JobRunner) (id : JobId) : Bool := (w.jobs id).any fun j => j.turn ≠ .idle

theorem inTurn_iff : w.inTurn id = true ↔ ∃ j, w.jobs id = some j ∧ j.turn ≠ .idle := by
  simp [inTurn, Option.any_eq_true]

/-- A job in its turn, with the slot. -/
theorem one_execution_turning :
    ∃ w : JobRunner, w.inTurn Sample.jobA = true ∧ OneExecution Sample.digest Sample.integrated w := by
  obtain ⟨w, hreach, hturn⟩ : ∃ w, Reaches (step Sample.digest Sample.integrated) _ initial w ∧ _ :=
    reaches_of_any (fun v m => !yieldsSlot v m)
      (Sample.moves (Sample.opening ++ Sample.starting "first" Sample.jobA ++ Sample.turning Sample.jobA))
      (inTurn · Sample.jobA) (by decide +kernel)
  exact ⟨w, hturn, one_execution (hreach.mono fun _ _ hgood => by simpa using hgood)⟩

/-- `reconcileActive` gives the slot back under a turn, and another job comes to its own. -/
theorem reconciled_overlap : ¬∀ w, Reaches (step Sample.digest Sample.integrated) (fun _ _ => True) initial w →
      OneExecution Sample.digest Sample.integrated w := by
  intro hall
  obtain ⟨w, hreach, hturn⟩ : ∃ w, Reaches (step Sample.digest Sample.integrated) _ initial w ∧ _ :=
    reaches_of_any (fun _ _ => true)
      (Sample.moves (Sample.opening ++ Sample.starting "first" Sample.jobA ++ Sample.turning Sample.jobA ++
        [.reconcileActive .runnerRestarted, .job Sample.jobA (.write true)] ++
        Sample.starting "second" Sample.jobB ++ Sample.turning Sample.jobB))
      (fun w => inTurn w Sample.jobA && inTurn w Sample.jobB) (by decide +kernel)
  obtain ⟨hA, hB⟩ := Bool.and_eq_true_iff.mp hturn
  obtain ⟨a, ha, hturnA⟩ := inTurn_iff.mp hA
  obtain ⟨b, hb, hturnB⟩ := inTurn_iff.mp hB
  have hsame := (hall w (hreach.mono fun _ _ _ => trivial)).turn ha hb hturnA hturnB
  exact absurd hsame (by decide +kernel)

end JobRunner

end ADT.Runner
