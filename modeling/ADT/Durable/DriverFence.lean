import ADT.Durable.System

/-!
# Durable.DriverFence — for which generation a driver acts

A driver is started for the generation it attaches its instance to.  Between its turns it waits for the graph, and after
every slice of such a wait it looks whether the run is still in that generation; everywhere else it goes on with the run
as it finds it.  `driverDiscipline` follows a driver; where a manual retry finds every driver in one of these waits, no
driver acts for a later generation than its own (`driver_fenced`).
-/

namespace ADT.Durable

open Workflow Interleave Storage

/-! ### The stages of a driver -/

/-- A driver has read nothing; it is at work for its generation, in a wait for the graph, or about to look at the run
after one; or it has found another generation there. -/
inductive Stage
  | fresh
  | live (generation : ℕ)
  | asleep (generation : ℕ)
  | waking (generation : ℕ)
  | over (generation : ℕ)

/-- The generation a driver was started for. -/
def Stage.generation : Stage → Option ℕ
  | .fresh => none
  | .live g | .asleep g | .waking g | .over g => some g

def writes : Request → Bool
  | .updateRun _ | .updateAttempts _ | .insertAttempts _ | .insertApproval _ | .approve _ _ | .consume _ _ => true
  | _ => false

/-- A driver writes, and hands out authorities, only while it is at work for its generation. -/
def driverDiscipline : Discipline signature Stage where
  needs s q :=
    match q with
    | .updateRun (.attach generation _) => s = .live generation
    | .advanceLangGraph _ (some authorities) => ∃ g, s = .live g ∧ ∀ a ∈ authorities, a.workflowGeneration = g
    | q => writes q = true → ∃ g, s = .live g
  expects s q a :=
    match s, q, a with
    | .live g, .selectRun, run => run.workflowGeneration = g
    | _, _, _ => True
  next s q a :=
    match s, q, a with
    | .fresh, .selectRun, run => .live run.workflowGeneration
    | .live g, .recall name, outcome =>
      if waits name then (if outcome.isNone then .asleep g else .waking g) else .live g
    | .asleep g, .record _ _, _ => .waking g
    | .waking g, .selectRun, run => if run.workflowGeneration = g then .live g else .over g
    | s, _, _ => s

section Driver

variable {g : ℕ} {α β : Type}

/-- The driver is at work, and stays so when the service ends. -/
abbrev Works (g : ℕ) (p : Service α) : Prop :=
  driverDiscipline.Keeps p (.live g) fun _ s => s = .live g

theorem needs_of_busy {q : Request} (h : Busy q) : driverDiscipline.needs (.live g) q := by
  rcases q with _ | _ | _ | _ | u | _ | _ | _ | _ | _ | _ | _ | _ | _ | _ | _ | _ | _ | _ | _ | _ | _ | _ | _ |
    ⟨resume, authorities⟩ | _
  case updateRun => cases u <;> first | exact fun _ => ⟨g, rfl⟩ | cases h
  case advanceLangGraph =>
    rcases authorities with _ | authorities
    · exact fun _ => ⟨g, rfl⟩
    · cases h
  all_goals exact fun _ => ⟨g, rfl⟩

theorem next_of_busy {q : Request} (h : Busy q) (a : Answer q) : driverDiscipline.next (.live g) q a = .live g := by
  by_cases hq : ∃ name, q = .recall name
  · obtain ⟨name, rfl⟩ := hq
    have hname : waits name = false := by simpa [Busy] using h
    simp [driverDiscipline, hname]
  · cases q <;> first | rfl | exact absurd ⟨_, rfl⟩ hq

variable {p : Service α} {Q : Except Thrown α → Stage → Prop} {f : RunDetail → Service α} {admitted : RunDetail}
  {authorities : List NodeAuthority} (resume : Option ApprovalResume) (wakes : ℕ)

theorem busy_keeps (hp : BusyService p)
    (hQ : ∀ r, (∀ a, r = .ok a → p.Returns a) → Q r (.live g)) : driverDiscipline.Keeps p (.live g) Q := by
  induction p with
  | done a => exact hQ _ fun b hb => Except.ok.inj hb
  | fail e => exact hQ _ fun b hb => by cases hb
  | ask q next ih =>
    refine ⟨needs_of_busy hp.1, fun a _ => ?_⟩
    rw [next_of_busy hp.1]
    exact ih a (hp.2 a) fun r hr => hQ r fun b hb => ⟨a, hr b hb⟩

theorem works_of_busy (hp : BusyService p) : Works g p := busy_keeps hp fun _ _ => rfl

theorem works_bind {f : α → Service β} (hp : Works g p) {Q : Except Thrown β → Stage → Prop}
    (hf : ∀ a, driverDiscipline.Keeps (f a) (.live g) Q) (he : ∀ e, Q (.error e) (.live g)) :
    driverDiscipline.Keeps (p >>= f) (.live g) Q := by
  refine Discipline.keeps_bind (hp.mono fun r s hs => ?_)
  subst hs
  rcases r with e | a
  · exact he e
  · exact hf a

theorem busy_bind_keeps {f : α → Service β} (hp : BusyService p) {Q : Except Thrown β → Stage → Prop}
    (hf : ∀ a, p.Returns a → driverDiscipline.Keeps (f a) (.live g) Q) (he : ∀ e, Q (.error e) (.live g)) :
    driverDiscipline.Keeps (p >>= f) (.live g) Q := by
  refine Discipline.keeps_bind (busy_keeps hp fun r hr => ?_)
  rcases r with e | a
  · exact he e
  · exact hf a (hr a rfl)

theorem getRun_keeps_driver
    (h : ∀ detail : RunDetail, detail.run.workflowGeneration = g → driverDiscipline.Keeps (f detail) (.live g) Q) :
    driverDiscipline.Keeps (getRun >>= f) (.live g) Q :=
  And.intro (fun h => by cases h) fun run hrun => And.intro (fun h => by cases h) fun attempts _ => h ⟨run, attempts⟩ hrun

/-! ### Authorities -/

theorem admitActivation_generation {activation : Activation} {authority : NodeAuthority}
    (h : (admitActivation admitted activation).Returns authority) :
    authority.workflowGeneration = admitted.run.workflowGeneration := by
  have hissue : ∀ a : StepAttempt, (if a.status = .cancelled then error "invalid_graph_admission"
      else pure ⟨activation, admitted.run.workflowGeneration, a.key.iteration, a.key.attempt⟩ :
        Service NodeAuthority).Returns authority →
      authority.workflowGeneration = admitted.run.workflowGeneration := fun a ha => by
    split at ha
    · cases ha
    · exact congrArg NodeAuthority.workflowGeneration (show _ = authority from ha).symm
  unfold admitActivation at h
  split at h
  · split at h
    · exact hissue _ h
    · cases h
  · obtain ⟨attempt, _, h⟩ := Prog.returns_bind.1 h
    exact hissue attempt h

theorem admitAll_generation {frontier : List Activation} (h : (admitAll admitted frontier).Returns authorities) :
    ∀ a ∈ authorities, a.workflowGeneration = admitted.run.workflowGeneration := by
  induction frontier generalizing authorities with
  | nil =>
    obtain rfl : [] = authorities := h
    exact fun a ha => by cases ha
  | cons activation rest ih =>
    obtain ⟨authority, hauthority, h⟩ := Prog.returns_bind.1 h
    obtain ⟨others, hothers, h⟩ := Prog.returns_bind.1 h
    obtain rfl : authority :: others = authorities := h
    intro a ha
    rcases List.mem_cons.1 ha with rfl | ha
    · exact admitActivation_generation hauthority
    · exact ih hothers a ha

theorem advanceRemote_keeps_driver
    (h : ∀ a ∈ authorities, a.workflowGeneration = g) : Works g (advanceRemote resume (some authorities)) := by
  refine And.intro ⟨g, rfl, h⟩ fun answered _ => ?_
  rcases answered with (_ | _) | _ <;> rfl

theorem turnStep_keeps_driver : Works g (turnStep advanceRemote g resume) := by
  refine busy_bind_keeps (advanceRemote_busy resume) (fun inspected _ => ?_) fun _ => rfl
  split
  · rfl
  · refine getRun_keeps_driver fun admitted hadmitted => ?_
    split
    · rfl
    refine busy_bind_keeps (admitAll_busy _ _) (fun authorities hauthorities => ?_) fun _ => rfl
    have hgen : ∀ a ∈ authorities, a.workflowGeneration = g := fun a ha =>
      (admitAll_generation hauthorities a ha).trans hadmitted
    refine works_bind (advanceRemote_keeps_driver resume hgen) (fun advanced => ?_) fun _ => rfl
    split <;> rfl
  · rfl

theorem stepDo_keeps_driver {name : StepName} (hname : waits name = false) {body : Service StepOutcome}
    (hbody : Works g body) : Works g (stepDo name body) := by
  have hrecord : ∀ outcome, Works g (request (.record name outcome)) := fun outcome =>
    works_of_busy (by simp [Busy, hname])
  refine busy_bind_keeps (by simp [Busy, hname]) (fun known _ => ?_) fun _ => rfl
  split
  · rfl
  · refine works_bind ?_ hrecord fun _ => rfl
    refine Discipline.keeps_tryCatch (hbody.mono fun r s hs => ?_)
    rcases r with e | outcome <;> exact hs

/-! ### Waits -/

theorem getRun_wakes
    (hlive : ∀ detail : RunDetail, detail.run.workflowGeneration = g → driverDiscipline.Keeps (f detail) (.live g) Q)
    (hover : ∀ detail : RunDetail, detail.run.workflowGeneration ≠ g → driverDiscipline.Keeps (f detail) (.over g) Q) :
    driverDiscipline.Keeps (getRun >>= f) (.waking g) Q := by
  refine And.intro (fun h => by cases h) fun run _ => ?_
  by_cases hgen : run.workflowGeneration = g
  · have hnext : driverDiscipline.next (.waking g) .selectRun run = .live g := if_pos hgen
    rw [hnext]
    exact And.intro (fun h => by cases h) fun attempts _ => hlive ⟨run, attempts⟩ hgen
  · have hnext : driverDiscipline.next (.waking g) .selectRun run = .over g := if_neg hgen
    rw [hnext]
    exact And.intro (fun h => by cases h) fun attempts _ => hover ⟨run, attempts⟩ hgen

theorem reconcileOrchestrationRace_keeps_driver :
    driverDiscipline.Keeps (reconcileOrchestrationRace g) (.waking g) fun r s => r = .ok none → s = .live g := by
  refine getRun_wakes (fun detail hgen => ?_) fun detail hgen => ?_
  · rw [if_neg (by simpa using hgen)]
    exact busy_keeps (by simp) fun _ _ _ => rfl
  · rw [if_pos (by simpa using hgen)]
    rintro ⟨⟩

theorem stepWait_keeps_driver {α : Type} {name : StepName} (hname : waits name = true) {f : Unit → Service α}
    {Q : Except Thrown α → Stage → Prop} (hf : driverDiscipline.Keeps (f ()) (.waking g) Q) :
    driverDiscipline.Keeps (stepWait name >>= f) (.live g) Q := by
  refine And.intro (fun h => by cases h) fun known _ => ?_
  rcases known with _ | outcome
  · have hnext : driverDiscipline.next (.live g) (.recall name) none = .asleep g := by
      simp [driverDiscipline, hname]
    rw [hnext]
    exact And.intro (fun h => by cases h) fun _ _ => hf
  · have hnext : driverDiscipline.next (.live g) (.recall name) (some outcome) = .waking g := by
      simp [driverDiscipline, hname]
    rw [hnext]
    exact hf

theorem waitSlices_keeps_driver (turn slices slice : ℕ) :
    driverDiscipline.Keeps (waitSlices g turn slices slice) (.live g) fun r s => r = .ok none → s = .live g := by
  induction slices generalizing slice with
  | zero => exact fun _ => rfl
  | succ slices ih =>
    refine stepWait_keeps_driver rfl (Discipline.keeps_bind (reconcileOrchestrationRace_keeps_driver.mono fun r s hs => ?_))
    rcases r with e | (_ | status)
    · rintro ⟨⟩
    · rw [hs rfl]
      exact ih _
    · rintro ⟨⟩

/-! ### Turns -/

/-- The head of a loop ends with the run as it was read. -/
def HeadOf (g : ℕ) (r : Except Thrown (WorkflowRun × Option RunStatus)) (s : Stage) : Prop :=
  s = .live g ∧ ∀ run status, r = .ok (run, status) → run.workflowGeneration = g

theorem loopHead_keeps_driver : driverDiscipline.Keeps loopHead (.live g) (HeadOf g) := by
  refine getRun_keeps_driver fun current hcurrent => ?_
  have hends : ∀ status, HeadOf g (.ok (current.run, status)) (.live g) := fun status =>
    ⟨rfl, fun run status' h => by cases h; exact hcurrent⟩
  have hthrows : ∀ e, HeadOf g (.error e) (.live g) := fun e => ⟨rfl, fun _ _ h => by cases h⟩
  split
  · exact hends _
  split
  · exact busy_bind_keeps cancelRun_issues (fun _ _ => hends _) hthrows
  refine busy_bind_keeps (by simp [Busy]) (fun now _ => busy_bind_keeps (by simp [Busy])
    (fun suspended _ => ?_) hthrows) hthrows
  split
  · exact busy_bind_keeps (failRun_issues _ _ _) (fun _ _ => hends _) hthrows
  · exact hends _

theorem settleTurn_keeps_driver {run : WorkflowRun} (hrun : run.workflowGeneration = g) (turn : ℕ)
    (state : DriverState) (result : AdvanceResult) :
    driverDiscipline.Keeps (settleTurn wakes run turn state result) (.live g) fun r s =>
      ∀ state', r = .ok (.next state') → s = .live g := by
  subst hrun
  refine busy_bind_keeps (clearFailures_busy _ _) (fun status _ => ?_) fun _ _ h => by cases h
  split
  · rintro state' ⟨⟩
  · split
    · exact busy_keeps (by simp) fun _ _ _ _ => rfl
    · refine busy_keeps ?_ fun _ _ _ _ => rfl
      refine Prog.issues_bind.2 ⟨waitForApprovalWake_busy _ _ _, fun wake _ => ?_⟩
      split <;> trivial
    · refine Discipline.keeps_bind ((waitSlices_keeps_driver turn _ 0).mono fun r s hs => ?_)
      rcases r with e | (_ | status)
      · rintro state' ⟨⟩
      · exact fun _ _ => hs rfl
      · rintro state' ⟨⟩
    · exact fun _ _ => rfl
    · exact fun _ _ => rfl
    · exact busy_keeps (by simp) fun _ _ _ _ => rfl

theorem recovers_keeps_driver (failure : Option RuntimeFailure) (turn : ℕ) {failures generation : ℕ}
    {f : Recovery → Service TurnEnd} (hf : ∀ recovery, BusyService (f recovery)) :
    driverDiscipline.Keeps (handleFailure failure generation failures (.recovery generation turn) >>= f) (.live g)
      fun r s => ∀ state', r = .ok (.next state') → s = .live g :=
  busy_keeps (Prog.issues_bind.2 ⟨handleFailure_busy _ _ _ rfl, fun recovery _ => hf recovery⟩) fun _ _ _ _ => rfl

theorem driverTurn_keeps_driver (turn : ℕ) (state : DriverState) :
    driverDiscipline.Keeps (driverTurn advanceRemote wakes turn state) (.live g) fun r s =>
      ∀ state', r = .ok (.next state') → s = .live g := by
  refine Discipline.keeps_bind (loopHead_keeps_driver.mono fun r s hr => ?_)
  obtain ⟨rfl, hrun⟩ := hr
  rcases r with e | ⟨run, _ | status⟩
  · rintro state' ⟨⟩
  · have hgen := hrun run none rfl
    have hstep : Works g (stepDo (.turn run.workflowGeneration turn)
        (turnStep advanceRemote run.workflowGeneration state.resume)) := by
      rw [hgen]
      exact stepDo_keeps_driver rfl (turnStep_keeps_driver _)
    refine works_bind hstep (fun outcome => ?_) fun _ _ h => by cases h
    split
    · exact settleTurn_keeps_driver wakes hgen turn state _
    · exact recovers_keeps_driver _ _ fun recovery => by cases recovery <;> trivial
    · exact recovers_keeps_driver _ _ fun recovery => by cases recovery <;> trivial
  · rintro state' ⟨⟩

theorem turnLoop_keeps_driver (remaining turn : ℕ) (state : DriverState) :
    driverDiscipline.Keeps (turnLoop advanceRemote wakes remaining turn state) (.live g) fun _ _ => True := by
  induction remaining generalizing turn state with
  | zero => exact busy_keeps (by simp [turnLoop]) fun _ _ => trivial
  | succ remaining ih =>
    refine Discipline.keeps_bind ((driverTurn_keeps_driver wakes turn state).mono fun r s hs => ?_)
    rcases r with e | (status | state')
    · trivial
    · trivial
    · rw [hs state' rfl]
      exact ih _ _

theorem getRun_starts
    (h : ∀ detail : RunDetail, driverDiscipline.Keeps (f detail) (.live detail.run.workflowGeneration) Q) :
    driverDiscipline.Keeps (getRun >>= f) .fresh Q :=
  And.intro (fun h => by cases h) fun run _ => And.intro (fun h => by cases h) fun attempts _ => h ⟨run, attempts⟩

/-- **A driver acts for the generation it was started for**, as long as it finds it where it is at work. -/
theorem executeWorkflowRun_keeps_driver (instanceId : String) :
    driverDiscipline.Keeps (executeWorkflowRun advanceRemote wakes instanceId) .fresh fun _ _ => True := by
  refine getRun_starts fun detail => ?_
  have hattach : Works detail.run.workflowGeneration
      (attachWorkflowInstance detail.run.workflowGeneration instanceId) := by
    refine And.intro rfl fun attached _ => ?_
    rcases attached with _ | _
    · show driverDiscipline.Keeps (getRun >>= _) _ _
      refine busy_bind_keeps getRun_issues (fun reread _ => ?_) fun _ => rfl
      split <;> rfl
    · rfl
  refine works_bind hattach (fun _ => ?_) fun _ => trivial
  refine busy_bind_keeps (validationLoop_busy _ _ _) (fun status _ => ?_) fun _ => trivial
  split
  · trivial
  · exact turnLoop_keeps_driver _ _ _ _

end Driver

/-! ### Drivers among other clients -/

namespace System

/-- The stage of the driver of thread `t`. -/
def stage (t : ℕ) (trace : List (Event signature)) : Stage :=
  Pool.ghost driverDiscipline .fresh t trace

/-- The generation the driver of thread `t` attached its instance to. -/
def startedFor (t : ℕ) : List (Event signature) → Option ℕ
  | [] => none
  | e :: trace =>
    match e with
    | ⟨t', .updateRun (.attach generation _), _⟩ => if t' = t then some generation else startedFor t trace
    | _ => startedFor t trace

/-- The driver is under way and in none of its waits for the graph. -/
def atWork (cs : List Client) (pool : Services) (t : ℕ) : Bool :=
  match cs[t]?, pool.threads[t]?, stage t pool.trace with
  | some (.driver _ _), some (.ask _ _), .live _ => true
  | _, _, _ => false

/-- A manual retry finds no driver at work. -/
def retriesAsleep (cs : List Client) (pool : Services) : Move → Bool
  | .run t env =>
    match asks pool (.run t env) with
    | some (.updateRun (.manualRetry stepId generation)) =>
      !(RunUpdate.manualRetry stepId generation).guard pool.world.db || (List.range cs.length).all (!atWork cs pool ·)
    | _ => true
  | .client _ => true

variable {cs : List Client} {pool : Services} {w : World} {t : ℕ} {env : Env} {q : Request} {g : ℕ}
variable {s : Stage} {trace : List (Event signature)} {m : Move}

theorem live_next (h : driverDiscipline.next s q (answer env q w).1 = .live g) :
    s = .live g ∨ q = .selectRun ∧ w.db.run.workflowGeneration = g := by
  unfold driverDiscipline at h
  dsimp only at h
  split at h
  · exact .inr ⟨rfl, Stage.live.inj h⟩
  · split at h
    · split at h <;> cases h
    · exact .inl h
  · cases h
  · rename_i g' run
    split at h
    · rename_i hgen
      exact .inr ⟨rfl, hgen.trans (Stage.live.inj h)⟩
    · cases h
  · exact .inl h

theorem generation_next (h : s.generation = some g) (a : Answer q) :
    (driverDiscipline.next s q a).generation = some g := by
  unfold driverDiscipline
  dsimp only
  split
  · cases h
  · split
    · split <;> exact h
    · exact h
  · exact h
  · split <;> exact h
  · exact h

theorem startedFor_cons {t' : ℕ} {a : Answer q} (h : startedFor t (⟨t', q, a⟩ :: trace) = some g) :
    (t' = t ∧ ∃ instanceId, q = .updateRun (.attach g instanceId)) ∨ startedFor t trace = some g := by
  unfold startedFor at h
  split at h
  · rename_i heq
    cases heq
    split at h
    · cases h
      exact .inl ⟨‹_›, _, rfl⟩
    · exact .inr h
  · exact .inr h

theorem startedFor_mem (h : startedFor t trace = some g) : ∃ e ∈ trace, e.thread = t := by
  induction trace with
  | nil => cases h
  | cons e trace ih =>
    obtain ⟨t', q, a⟩ := e
    rcases startedFor_cons h with ⟨rfl, _⟩ | hold
    · exact ⟨_, List.mem_cons_self .., rfl⟩
    · obtain ⟨e, he, het⟩ := ih hold
      exact ⟨e, List.mem_cons_of_mem _ he, het⟩

theorem expects_of_live (h : ∀ g, s = .live g → w.db.run.workflowGeneration = g) :
    driverDiscipline.expects s q (answer env q w).1 := by
  unfold driverDiscipline
  dsimp only
  split
  · exact h _ rfl
  · trivial

theorem stage_self (a : Answer q) : stage t (⟨t, q, a⟩ :: trace) = driverDiscipline.next (stage t trace) q a :=
  if_pos rfl

theorem stage_other {t' : ℕ} (ht : t ≠ t') (a : Answer q) : stage t' (⟨t, q, a⟩ :: trace) = stage t' trace :=
  if_neg ht

theorem live_of_writes (hneeds : driverDiscipline.needs s q) (h : writes q = true) : ∃ g, s = .live g := by
  unfold driverDiscipline at hneeds
  dsimp only at hneeds
  split at hneeds
  · exact ⟨_, hneeds⟩
  · cases h
  · exact hneeds h

/-- The invariant of the drivers. -/
structure Fenced (cs : List Client) (pool : Services) : Prop where
  enrolled : Enrolled cs pool
  follows : ∀ t c, cs[t]? = some c → (∃ wakes instanceId, c = .driver wakes instanceId) →
    Pool.Follows driverDiscipline .fresh t pool
  live : ∀ t wakes instanceId q next g, cs[t]? = some (.driver wakes instanceId) →
    pool.threads[t]? = some (.ask q next) → stage t pool.trace = .live g → pool.world.db.run.workflowGeneration = g
  started : ∀ t wakes instanceId g, cs[t]? = some (.driver wakes instanceId) → startedFor t pool.trace = some g →
    (stage t pool.trace).generation = some g

theorem fenced_init (w : World) : Fenced [] (Pool.init w) where
  enrolled := ⟨rfl, fun _ he => by cases he⟩
  follows _ _ hc := by cases hc
  live _ _ _ _ _ _ hc := by cases hc
  started _ _ _ _ hc := by cases hc

theorem stage_step (he : Enrolled cs pool) {c : Client} (hc : (cs ++ m.started)[t]? = some c) :
    stage t (pool.step m.action).trace = .fresh ∨ cs[t]? = some c ∧
        (stage t (pool.step m.action).trace = stage t pool.trace ∧ (pool.step m.action).threads[t]? = pool.threads[t]? ∨
          ∃ env q next, m = .run t env ∧ pool.threads[t]? = some (.ask q next) ∧ stage t (pool.step m.action).trace =
              driverDiscipline.next (stage t pool.trace) q (answer env q pool.world).1) :=
  ghost_move he m hc

theorem generation_atWork (hok : retriesAsleep cs pool m = true) {wakes : ℕ} {instanceId : String}
    {next : Answer q → Service Unit} (hc : cs[t]? = some (.driver wakes instanceId))
    (ht : pool.threads[t]? = some (.ask q next)) (hs : stage t pool.trace = .live g) :
    (pool.step m.action).world.db.run.workflowGeneration = pool.world.db.run.workflowGeneration := by
  rcases generation_move pool m with hgen | ⟨t', env, stepId, generation, rfl, hq, hg⟩
  · exact hgen
  · simp only [retriesAsleep, hq, hg, Bool.not_true, Bool.false_or, List.all_eq_true] at hok
    have := hok t (List.mem_range.2 (List.getElem?_eq_some_iff.1 hc).1)
    simp [atWork, hc, ht, hs] at this

/-- **One move.** -/
theorem fenced_step (hok : retriesAsleep cs pool m = true) (h : Fenced cs pool) :
    Fenced (cs ++ m.started) (pool.step m.action) := by
  refine ⟨enrolled_step h.enrolled m, fun t => ?_, ?_, ?_⟩
  · refine follows_move ?_ h.enrolled (h.follows t) m ?_
    · rintro c ⟨wakes, instanceId, rfl⟩
      refine Discipline.keeps_bind ((executeWorkflowRun_keeps_driver wakes instanceId).mono fun r s _ => ?_)
      rcases r with e | a <;> trivial
    · rintro c env q next hc ⟨wakes, instanceId, rfl⟩ rfl ht
      exact expects_of_live fun g hs => h.live t wakes instanceId q next g hc ht hs
  · intro t wakes instanceId q next g hc ht hs
    rcases stage_step h.enrolled hc with hs' | ⟨hc', ⟨hs', hth⟩ | ⟨env, q', next', rfl, ht', hs'⟩⟩
    · rw [hs] at hs'
      cases hs'
    · rw [hs'] at hs
      rw [hth] at ht
      rw [generation_atWork hok hc' ht hs]
      exact h.live t wakes instanceId q next g hc' ht hs
    · rcases live_next (hs'.symm.trans hs) with hold | ⟨rfl, hread⟩
      · rw [generation_atWork hok hc' ht' hold]
        exact h.live t wakes instanceId q' next' g hc' ht' hold
      · rw [← hread]
        exact congrArg (fun w : World => w.db.run.workflowGeneration) (by simp only [Move.action, Pool.step, ht']; rfl)
  · intro t wakes instanceId g hc hstart
    rcases m with c | ⟨t', env⟩
    · obtain ⟨e, he, het⟩ := startedFor_mem hstart
      have hlt : t < cs.length := het ▸ h.enrolled.length ▸ h.enrolled.below e he
      rw [List.getElem?_append_left hlt] at hc
      exact h.started t wakes instanceId g hc hstart
    · rw [Move.started, List.append_nil] at hc
      rcases Pool.step_cases pool (Move.run t' env).action with ⟨p, hm, _⟩ | ⟨t'', env', q, next, hm, ht, hs⟩ | ⟨_, hs⟩
      · cases hm
      · rw [hs] at hstart ⊢
        rcases startedFor_cons hstart with ⟨rfl, instance', rfl⟩ | hold
        · -- the driver attaches its instance
          have hlive : stage t'' pool.trace = .live g := (h.follows t'' _ hc ⟨wakes, instanceId, rfl⟩ _ ht).1
          rw [stage_self]
          exact generation_next (by rw [hlive]; rfl) _
        · have hgen := h.started t wakes instanceId g hc hold
          by_cases htt : t'' = t
          · subst htt
            rw [stage_self]
            exact generation_next hgen _
          · rw [stage_other htt]
            exact hgen
      · rw [hs] at hstart ⊢
        exact h.started t wakes instanceId g hc hstart

/-- **Drivers are fenced by their generation.** Over every run in which a manual retry finds no driver at work, each of them
being in a wait for the graph or over: whenever a driver writes, on the run, its attempts or its approvals, or hands out
authorities, the run is in the generation the driver was started for, and so are the authorities. -/
theorem driver_fenced (w : World) (moves : List Move) (t : ℕ) (env : Env)
    (hm : Watched retriesAsleep [] (Pool.init w) (moves ++ [.run t env])) (wakes : ℕ) (instanceId : String)
    (hc : (clients moves)[t]? = some (.driver wakes instanceId)) (generation : ℕ)
    (hstart : startedFor t (after w moves).trace = some generation) (q : Request)
    (hq : asks (after w moves) (.run t env) = some q) :
    (writes q = true → (after w moves).world.db.run.workflowGeneration = generation) ∧
      ∀ resume authorities, q = .advanceLangGraph resume (some authorities) →
        (after w moves).world.db.run.workflowGeneration = generation ∧
          ∀ a ∈ authorities, a.workflowGeneration = generation := by
  have h : Fenced (clients moves) (after w moves) :=
    run_watched (fenced_init w) (fun _ _ _ hok h => fenced_step hok h) (watched_concat.1 hm).1
  generalize clients moves = cs at *
  generalize after w moves = pool at *
  obtain ⟨next, ht⟩ := thread_of_asks hq
  have hneeds := (h.follows t _ hc ⟨wakes, instanceId, rfl⟩ _ ht).1
  have hlive : ∀ g, stage t pool.trace = .live g → g = generation ∧ pool.world.db.run.workflowGeneration = generation :=
    fun g hs => by
      have hgen := h.started t wakes instanceId generation hc hstart
      rw [hs] at hgen
      obtain rfl := Option.some.inj hgen
      exact ⟨rfl, h.live t wakes instanceId q next g hc ht hs⟩
  refine ⟨fun hwrites => ?_, ?_⟩
  · obtain ⟨g, hs⟩ := live_of_writes hneeds hwrites
    exact (hlive g hs).2
  · rintro resume authorities rfl
    obtain ⟨g, hs, hauthorities⟩ := hneeds
    obtain ⟨rfl, hgen⟩ := hlive g hs
    exact ⟨hgen, hauthorities⟩

/-- The agent's attempt is refused and the run fails while its driver waits for the graph; it is retried, and the driver
of the second generation takes its first turn. -/
def retriedAsleep : List Move :=
  admittedRun ++ .client (sampleCall 1 1) :: runs 2 25 (refusingEnv 5) ++
  .client .retry :: runs 3 14 (admittingEnv 10) ++
  .client (.driver 1 "run-g2") :: runs 4 22 (admittingEnv 15)

theorem retriedAsleep_fenced : asks (after (createdRun sampleSnapshot) retriedAsleep) (.run 4 (admittingEnv 15)) =
        some (.advanceLangGraph none (some [⟨⟨"a", "x"⟩, 2, 1, 2⟩])) ∧
      (after (createdRun sampleSnapshot) retriedAsleep).world.db.run.workflowGeneration = 2 :=
  ⟨by decide +kernel, ((driver_fenced _ retriedAsleep 4 (admittingEnv 15) (by decide +kernel) 1 "run-g2" rfl 2
    (by decide +kernel) (.advanceLangGraph none (some [⟨⟨"a", "x"⟩, 2, 1, 2⟩])) (by decide +kernel)).2 _ _ rfl).1⟩

/-- The ADT Runtime does not answer. -/
def silentEnv (now : Time) : Env :=
  { admittingEnv now with advance := fun _ _ => .error .thrown }

/-- The driver sleeps off a failed call of the ADT Runtime.  Meanwhile the run fails and is retried, and its second
generation is launched.  Then the driver of the first one takes its next turn. -/
def retriedRecovering : List Move :=
  admittedRun ++ runs 1 14 (silentEnv 10) ++
  .client (sampleCall 1 1) :: runs 2 25 (refusingEnv 15) ++
  .client .retry :: runs 3 14 (admittingEnv 20) ++
  runs 1 11 (admittingEnv 25)

/-- It hands out an authority of the second generation. -/
theorem retriedRecovering_unfenced :
    startedFor 1 (after (createdRun sampleSnapshot) retriedRecovering).trace = some 1 ∧
      (after (createdRun sampleSnapshot) retriedRecovering).world.db.run.workflowGeneration = 2 ∧
      asks (after (createdRun sampleSnapshot) retriedRecovering) (.run 1 (admittingEnv 25)) =
        some (.advanceLangGraph none (some [⟨⟨"a", "x"⟩, 2, 1, 2⟩])) := by
  decide +kernel

end System

end ADT.Durable
