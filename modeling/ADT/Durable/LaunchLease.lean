import ADT.Durable.System
import ADT.Storage.Effects

/-!
# Durable.LaunchLease — who may settle the launch of a run

A launcher claims the launch of a generation for `workflowLaunchStaleMs`; after that another one may take it over.  Its
own statements, `attach` and `launchFailure`, name the generation and the reserved instance, which a takeover does not
change.  Where every launcher settles its launch before its lease runs out, and the clocks agree, a takeover fences the
launchers before it (`lease_fencing`).
-/

namespace ADT.Durable.System

open Workflow Interleave Storage

/-! ### The discipline of a launcher -/

/-- A claim of a launch that took effect. -/
structure Lease where
  generation : ℕ
  claimedAt : Time
  deriving DecidableEq

/-- What a launcher knows: the time it read last, its lease, and whether it settled the launch. -/
structure Launcher where
  clock : Option Time
  lease : Option Lease
  settled : Bool

/-- A claim is made at the time that was read, a takeover after the lease before it ran out, and neither of them twice;
who holds a lease writes on the run only to settle its own generation, once. -/
def leaseDiscipline : Discipline signature Launcher where
  needs g q :=
    match q with
    | .updateRun (.claimLaunch _ _ now) => g.lease = none ∧ g.clock = some now
    | .updateRun (.takeOverLaunch _ _ attemptedAt now) =>
      g.lease = none ∧ g.clock = some now ∧ attemptedAt + workflowLaunchStaleMs ≤ now
    | .updateRun (.attach generation _) => g.settled = false ∧ ∀ l, g.lease = some l → l.generation = generation
    | .updateRun (.launchFailure generation _ _) =>
      g.settled = false ∧ ∃ l, g.lease = some l ∧ l.generation = generation
    | .updateRun _ | .consume _ _ => g.lease = none
    | _ => True
  expects _ _ _ := True
  next g q a :=
    match q, a with
    | .now, now => { g with clock := some now }
    | .updateRun (.claimLaunch generation _ now), true => { g with lease := some ⟨generation, now⟩ }
    | .updateRun (.takeOverLaunch generation _ _ now), true => { g with lease := some ⟨generation, now⟩ }
    | .updateRun (.attach ..), true => { g with settled := true }
    | .updateRun (.launchFailure ..), true => { g with settled := true }
    | _, _ => g

def newLauncher : Launcher := ⟨none, none, false⟩

@[simp] def ofLaunch : Request → Bool
  | .updateRun (.claimLaunch ..) | .updateRun (.takeOverLaunch ..) | .updateRun (.attach ..) => true
  | .updateRun (.launchFailure ..) => true
  | _ => false

variable {g : Launcher} {α : Type} (generation : ℕ) (instanceId : String) {l : Lease} {u : RunUpdate}
  {e : Event signature} {w' : World}

theorem needs_of_not_launch {q : Request} (h : ofLaunch q = false) (hg : g.lease = none) :
    leaseDiscipline.needs g q := by
  rcases q with _ | _ | _ | _ | u | _
  case updateRun => cases u <;> first | exact hg | cases h
  all_goals trivial

theorem next_of_not_launch {q : Request} (h : ofLaunch q = false) (g : Launcher) (a : Answer q) :
    (leaseDiscipline.next g q a).lease = g.lease ∧ (leaseDiscipline.next g q a).settled = g.settled := by
  rcases q with _ | _ | _ | _ | u | _
  case updateRun => cases u <;> first | exact ⟨rfl, rfl⟩ | cases h
  all_goals exact ⟨rfl, rfl⟩

def NotOfLaunch (q : Request) : Prop := ofLaunch q = false

/-- The service issues no statement of a launch. -/
abbrev LaunchFree {α : Type} (p : Service α) : Prop := p.Issues NotOfLaunch

theorem launchFree_of_turning (q : Request) (h : Turning q) : NotOfLaunch q := by
  unfold NotOfLaunch ofLaunch
  split <;> first | rfl | cases h

theorem launchFree_of_quiet (q : Request) (h : Quiet q) : NotOfLaunch q :=
  launchFree_of_turning q (turning_of_acting q (acting_of_quiet q h))

instance : AdmitsReads NotOfLaunch := AdmitsReads.mono inferInstance launchFree_of_quiet

theorem launchFree_keeps {p : Service α} (hp : LaunchFree p) (hg : g.lease = none) :
    leaseDiscipline.Keeps p g fun _ g' => g'.lease = none ∧ g'.settled = g.settled := by
  induction p generalizing g with
  | done a => exact ⟨hg, rfl⟩
  | fail e => exact ⟨hg, rfl⟩
  | ask q next ih =>
    refine ⟨needs_of_not_launch hp.1 hg, fun a _ => ?_⟩
    obtain ⟨hl, hs⟩ := next_of_not_launch hp.1 g a
    exact (ih a (hp.2 a) (hl.trans hg)).mono fun _ g' h => ⟨h.1, h.2.trans hs⟩

theorem getRun_keeps_lease {f : RunDetail → Service α}
    {Q : Except Thrown α → Launcher → Prop} (h : ∀ detail, leaseDiscipline.Keeps (f detail) g Q) :
    leaseDiscipline.Keeps (getRun >>= f) g Q :=
  And.intro trivial fun run _ => And.intro trivial fun attempts _ => h ⟨run, attempts⟩

theorem claimWorkflowLaunch_keeps (hg : g.lease = none) :
    leaseDiscipline.Keeps (claimWorkflowLaunch generation instanceId) g fun r g' =>
      g'.settled = g.settled ∧ ∀ claim, r = .ok claim → claim.1 = .claimed ∨ claim.1 = .staleLaunchClaimed →
        ∃ l, g'.lease = some l ∧ l.generation = generation := by
  refine And.intro trivial fun now _ => And.intro ⟨hg, rfl⟩ fun claimed _ => ?_
  rcases claimed with _ | _
  case true =>
    refine ⟨rfl, ?_⟩
    rintro claim ⟨⟩ _
    exact ⟨⟨generation, now⟩, rfl, rfl⟩
  refine getRun_keeps_lease fun detail => ?_
  split
  · exact ⟨rfl, by rintro claim ⟨⟩ (h | h) <;> cases h⟩
  split
  · exact ⟨rfl, by rintro claim ⟨⟩⟩
  split
  · exact ⟨rfl, by rintro claim ⟨⟩ (h | h) <;> cases h⟩
  · split
    · exact ⟨rfl, by rintro claim ⟨⟩ (h | h) <;> cases h⟩
    · rename_i attemptedAt _
      split
      · exact ⟨rfl, by rintro claim ⟨⟩ (h | h) <;> cases h⟩
      · rename_i hstale
        refine And.intro ⟨hg, rfl, Nat.le_of_not_lt hstale⟩ fun taken _ => ?_
        rcases taken with _ | _
        case true =>
          refine ⟨rfl, ?_⟩
          rintro claim ⟨⟩ _
          exact ⟨⟨generation, now⟩, rfl, rfl⟩
        refine getRun_keeps_lease fun reread => ?_
        show leaseDiscipline.Keeps (if _ then _ else _) _ _
        split
        · exact ⟨rfl, by rintro claim ⟨⟩ (h | h) <;> cases h⟩
        · exact ⟨rfl, by rintro claim ⟨⟩ (h | h) <;> cases h⟩
  · exact ⟨rfl, by rintro claim ⟨⟩⟩

theorem attachWorkflowInstance_keeps_lease
    (hs : g.settled = false) (h : ∀ l, g.lease = some l → l.generation = generation) :
    leaseDiscipline.Keeps (attachWorkflowInstance generation instanceId) g fun r g' =>
      g'.lease = g.lease ∧ ∀ e, r = .error e → g' = g := by
  refine And.intro ⟨hs, h⟩ fun attached _ => ?_
  rcases attached with _ | _
  · refine getRun_keeps_lease fun detail => ?_
    split
    · exact ⟨rfl, by rintro e ⟨⟩⟩
    · exact ⟨rfl, fun _ _ => rfl⟩
  · exact ⟨rfl, by rintro e ⟨⟩⟩

theorem launchFails_keeps (message : String) {e : Thrown} (hs : g.settled = false) (hl : g.lease = some l)
    (hgen : l.generation = generation) :
    leaseDiscipline.Keeps (do recordWorkflowLaunchFailure generation instanceId message; throw e : Service α) g
      fun _ _ => True :=
  And.intro ⟨hs, l, hl, hgen⟩ fun _ _ => trivial

theorem createInstance_keeps (hs : g.settled = false) (hl : g.lease = some l) (hgen : l.generation = generation) :
    leaseDiscipline.Keeps (createInstance generation instanceId) g fun _ _ => True := by
  have hown : ∀ l', g.lease = some l' → l'.generation = generation := fun l' hl' => by
    rw [hl] at hl'
    rw [← Option.some.inj hl']
    exact hgen
  have hattach := attachWorkflowInstance_keeps_lease generation instanceId hs hown
  refine And.intro trivial fun created _ => ?_
  rcases created with (_ | _) | _
  · show leaseDiscipline.Keeps (attachWorkflowInstance generation instanceId >>= fun _ => pure _) g _
    refine Discipline.keeps_bind (hattach.mono fun r g' _ => ?_)
    rcases r with e | u <;> trivial
  · exact launchFails_keeps generation instanceId _ hs hl hgen
  · show leaseDiscipline.Keeps (tryCatch (attachWorkflowInstance generation instanceId >>= fun _ => pure true)
      (fun _ => pure false) >>= _) g _
    refine Discipline.keeps_bind (Discipline.keeps_tryCatch (Discipline.keeps_bind (hattach.mono fun r g' hr => ?_)))
    rcases r with e | u
    · obtain rfl := hr.2 e rfl
      exact launchFails_keeps generation instanceId _ hs hl hgen
    · trivial

theorem ensureWorkflowLaunched_keeps (hg : g.lease = none) (hs : g.settled = false) :
    leaseDiscipline.Keeps (ensureWorkflowLaunched generation) g fun _ _ => True := by
  refine getRun_keeps_lease fun detail => Discipline.keeps_bind ((claimWorkflowLaunch_keeps generation _ hg).mono
    fun r g' hr => ?_)
  rcases r with e | ⟨claim, instanceId⟩
  · trivial
  · rcases claim with _ | _ | _ | _ | _
    · obtain ⟨l, hl, hgen⟩ := hr.2 _ rfl (.inl rfl)
      exact createInstance_keeps generation instanceId (hr.1.trans hs) hl hgen
    · obtain ⟨l, hl, hgen⟩ := hr.2 _ rfl (.inr rfl)
      exact createInstance_keeps generation instanceId (hr.1.trans hs) hl hgen
    all_goals trivial

theorem retryRun_keeps (hg : g.lease = none) (hs : g.settled = false) :
    leaseDiscipline.Keeps retryRun g fun _ _ => True := by
  refine getRun_keeps_lease fun detail => ?_
  split
  · trivial
  · refine Discipline.keeps_bind ((launchFree_keeps (prepareManualRetry_issues (fun _ _ => rfl)
      (fun _ _ => rfl) _) hg).mono fun r g' hr => ?_)
    rcases r with e | prepared
    · trivial
    · exact ensureWorkflowLaunched_keeps _ hr.1 (hr.2.trans hs)

theorem reconcileWorkflowLaunch_keeps (detail : RunDetail) (hg : g.lease = none)
    (hs : g.settled = false) : leaseDiscipline.Keeps (reconcileWorkflowLaunch detail) g fun _ _ => True := by
  have hlaunch : ∀ generation, leaseDiscipline.Keeps
      (do let _ ← ensureWorkflowLaunched generation : Service Unit) g fun _ _ => True := fun generation =>
    Discipline.keeps_bind ((ensureWorkflowLaunched_keeps generation hg hs).mono fun r g' _ => by
      rcases r with e | launched <;> trivial)
  unfold reconcileWorkflowLaunch
  split
  · trivial
  · split
    · exact hlaunch _
    · trivial
  · exact hlaunch _

theorem executeWorkflowRun_keeps_lease (wakes : ℕ) (instanceId : String) :
    leaseDiscipline.Keeps (executeWorkflowRun advanceRemote wakes instanceId) newLauncher fun _ _ => True := by
  refine getRun_keeps_lease fun detail => ?_
  refine Discipline.keeps_bind ((attachWorkflowInstance_keeps_lease _ _ rfl fun l hl => by cases hl).mono fun r g hr => ?_)
  rcases r with e | u
  · trivial
  · have hfree := (quiet_service (executeLangGraphWorkflow_steering wakes)).mono launchFree_of_quiet
    exact (launchFree_keeps hfree hr.1).mono fun _ _ _ => trivial

theorem client_keeps_lease (c : Client) : leaseDiscipline.Keeps c.service newLauncher fun _ _ => True := by
  have hforget : ∀ {α : Type} {p : Service α}, (leaseDiscipline.Keeps p newLauncher fun _ _ => True) →
      leaseDiscipline.Keeps p.forget newLauncher fun _ _ => True := fun hp =>
    Discipline.keeps_bind (hp.mono fun r g _ => by rcases r with e | a <;> trivial)
  have hfree : ∀ {α : Type} {p : Service α}, LaunchFree p →
      leaseDiscipline.Keeps p.forget newLauncher fun _ _ => True := fun hp =>
    hforget ((launchFree_keeps hp rfl).mono fun _ _ _ => trivial)
  rcases c with generation | _ | _ | requestId | _ | ⟨wakes, instanceId⟩ | ⟨depth, host, scope, inputText⟩
  · exact hforget (ensureWorkflowLaunched_keeps generation rfl rfl)
  · exact getRun_keeps_lease fun detail => reconcileWorkflowLaunch_keeps detail rfl rfl
  · exact hfree requestCancellation_issues
  · exact hfree ((quiet_service (approve_steering requestId)).mono launchFree_of_quiet)
  · exact hforget (retryRun_keeps rfl rfl)
  · exact hforget (executeWorkflowRun_keeps_lease wakes instanceId)
  · exact hfree ((executeWorkflowGraphNode_turn host scope inputText depth).mono launchFree_of_turning)

/-! ### Leases in a run -/

/-- What thread `t` knows of its launch after the events. -/
def launcher (t : ℕ) (trace : List (Event signature)) : Launcher :=
  Pool.ghost leaseDiscipline newLauncher t trace

/-- A claim or a takeover of the launch of the generation that took effect. -/
def claims (generation : ℕ) (e : Event signature) : Bool :=
  match e with
  | ⟨_, .updateRun (.claimLaunch g _ _), done⟩ => done && g == generation
  | ⟨_, .updateRun (.takeOverLaunch g _ _ _), done⟩ => done && g == generation
  | _ => false

/-- Who claimed the launch of the generation last. -/
def holder (generation : ℕ) (trace : List (Event signature)) : Option ℕ :=
  (trace.find? (claims generation)).map (·.thread)

/-- The launcher claimed the launch of the generation, and another one did so after it. -/
def Superseded (generation t : ℕ) (trace : List (Event signature)) : Prop :=
  (∃ e ∈ trace, e.thread = t ∧ claims generation e = true) ∧ holder generation trace ≠ some t

/-- The launcher has a lease that did not run out, and did not settle the launch. -/
def Holds (generation : ℕ) (now : Time) (t : ℕ) (trace : List (Event signature)) : Prop :=
  (launcher t trace).settled = false ∧
    ∃ l, (launcher t trace).lease = some l ∧ l.generation = generation ∧ now < l.claimedAt + workflowLaunchStaleMs

/-- A launcher that settles its launch does so before its lease runs out. -/
def settlesInTime (pool : Services) : Move → Bool
  | .run t env =>
    match asks pool (.run t env) with
    | some (.updateRun u) =>
      !(settles u && u.guard pool.world.db) ||
        (launcher t pool.trace).lease.all fun l => env.now < l.claimedAt + workflowLaunchStaleMs
    | _ => true
  | .client _ => true

theorem settlesInTime_held {pool : Services} {t : ℕ} {env : Env}
    (hok : settlesInTime pool (.run t env) = true) (hq : asks pool (.run t env) = some (.updateRun u))
    (hu : settles u = true) (hg : u.guard pool.world.db = true) (hl : (launcher t pool.trace).lease = some l) :
    env.now < l.claimedAt + workflowLaunchStaleMs := by
  unfold settlesInTime at hok
  dsimp only at hok
  rw [hq] at hok
  rcases Bool.or_eq_true_iff.1 hok with h | h
  · simp [hu, hg] at h
  · exact of_decide_eq_true ((Option.all_eq_true _ _).1 h l hl)

def Move.time : Move → Option Time
  | .run _ env => some env.now
  | .client _ => none

abbrev times (moves : List Move) : List Time := moves.filterMap Move.time

variable {pool : Services} {w : World} {t : ℕ} {env : Env} {q : Request} {trace : List (Event signature)}

theorem launcher_self (a : Answer q) :
    launcher t (⟨t, q, a⟩ :: trace) = leaseDiscipline.next (launcher t trace) q a :=
  if_pos rfl

theorem launcher_other {t' : ℕ} (ht : t ≠ t') (a : Answer q) : launcher t' (⟨t, q, a⟩ :: trace) = launcher t' trace :=
  if_neg ht

theorem lease_of_claims {generation : ℕ} (h : ∀ later e earlier, trace = later ++ e :: earlier →
      leaseDiscipline.needs (launcher e.thread earlier) e.request) (he : e ∈ trace) (hc : claims generation e = true) :
    ∃ l, (launcher e.thread trace).lease = some l ∧ l.generation = generation := by
  induction trace with
  | nil => cases he
  | cons e₀ trace ih =>
    rcases List.mem_cons.1 he with rfl | hmem
    · obtain ⟨t, q, a⟩ := e
      rw [launcher_self]
      unfold claims at hc
      split at hc
      · rename_i heq
        cases heq
        simp only [Bool.and_eq_true, beq_iff_eq] at hc
        obtain ⟨rfl, rfl⟩ := hc
        exact ⟨_, rfl, rfl⟩
      · rename_i heq
        cases heq
        simp only [Bool.and_eq_true, beq_iff_eq] at hc
        obtain ⟨rfl, rfl⟩ := hc
        exact ⟨_, rfl, rfl⟩
      · cases hc
    · obtain ⟨l, hl, hgen⟩ := ih (fun later e' earlier htr => h (e₀ :: later) e' earlier (by rw [htr]; rfl)) hmem
      obtain ⟨t₀, q₀, a₀⟩ := e₀
      have hneeds := h [] _ _ rfl
      by_cases ht : t₀ = e.thread
      · subst ht
        rw [launcher_self]
        refine ⟨l, ?_, hgen⟩
        rcases q₀ with _ | _ | _ | _ | u | _
        case updateRun =>
          rcases a₀ with _ | _ <;> cases u <;> first | exact hl | exact absurd hneeds.1 (by simp [hl])
        all_goals exact hl
      · rw [launcher_other ht]
        exact ⟨l, hl, hgen⟩

theorem next_clock (env : Env) (w : World) (q : Request) (g : Launcher) :
    (leaseDiscipline.next g q (answer env q w).1).clock = g.clock ∨
    (leaseDiscipline.next g q (answer env q w).1).clock = some env.now := by
  rcases q with _ | _ | _ | _ | u | _
  case updateRun =>
    refine .inl ?_
    generalize (answer env (.updateRun u) w).1 = done
    cases u <;> rcases done with _ | _ <;> rfl
  case now => exact .inr rfl
  all_goals exact .inl rfl

/-- The statements that change who may launch the run. -/
def relaunches : RunUpdate → Bool
  | .claimLaunch .. | .takeOverLaunch .. | .attach .. | .launchFailure .. | .manualRetry .. => true
  | _ => false

/-- What an event leaves as it was that is no such statement, or one without effect. -/
structure Unlaunched (w w' : World) (e : Event signature) : Prop where
  generation : w'.db.run.workflowGeneration = w.db.run.workflowGeneration
  state : w'.db.run.workflowLaunchState = w.db.run.workflowLaunchState
  attempted : w'.db.run.workflowLaunchAttemptedAt = w.db.run.workflowLaunchAttemptedAt
  lease : ∀ t trace, (launcher t (e :: trace)).lease = (launcher t trace).lease
  settled : ∀ t trace, (launcher t (e :: trace)).settled = (launcher t trace).settled
  holder : ∀ generation trace, holder generation (e :: trace) = holder generation trace

theorem unlaunched_of (w' : World) (hrun : w'.db.run.workflowGeneration = w.db.run.workflowGeneration ∧
      w'.db.run.workflowLaunchState = w.db.run.workflowLaunchState ∧
      w'.db.run.workflowLaunchAttemptedAt = w.db.run.workflowLaunchAttemptedAt)
    (hnext : ∀ g, (leaseDiscipline.next g e.request e.answer).lease = g.lease ∧
      (leaseDiscipline.next g e.request e.answer).settled = g.settled)
    (hclaims : ∀ generation, claims generation e = false) : Unlaunched w w' e where
  generation := hrun.1
  state := hrun.2.1
  attempted := hrun.2.2
  lease t trace := by
    by_cases ht : e.thread = t
    · subst ht
      exact (congrArg Launcher.lease (if_pos rfl)).trans (hnext _).1
    · exact congrArg Launcher.lease (if_neg ht)
  settled t trace := by
    by_cases ht : e.thread = t
    · subst ht
      exact (congrArg Launcher.settled (if_pos rfl)).trans (hnext _).2
    · exact congrArg Launcher.settled (if_neg ht)
  holder generation trace := by
    rw [System.holder, List.find?_cons_of_neg (by rw [hclaims generation]; exact Bool.false_ne_true)]
    rfl

theorem launch_cases (t : ℕ) (env : Env) (w : World) (q : Request) : Unlaunched w (answer env q w).2 ⟨t, q, (answer env q w).1⟩ ∨
    ∃ u, q = .updateRun u ∧ relaunches u = true ∧ u.guard w.db = true := by
  have hsame : (∀ u, q ≠ .updateRun u) → Unlaunched w (answer env q w).2 ⟨t, q, (answer env q w).1⟩ := fun hq => by
    have hlaunch : ofLaunch q = false := by
      unfold ofLaunch
      split <;> first | rfl | exact absurd rfl (hq _)
    refine unlaunched_of _ ?_ (fun g => next_of_not_launch hlaunch g _) fun generation => ?_
    · rcases run_cases (answer_effect env w q) with hrun | ⟨u, _, hset, hu | ⟨requestId, _, rfl, _⟩⟩
      · rw [hrun]
        exact ⟨rfl, rfl, rfl⟩
      · exact absurd hu (hq u)
      · rw [hset]
        exact ⟨rfl, rfl, rfl⟩
    · unfold claims
      split
      · rename_i heq
        cases heq
        exact absurd rfl (hq _)
      · rename_i heq
        cases heq
        exact absurd rfl (hq _)
      · rfl
  rcases q with _ | _ | _ | _ | u | _
  case updateRun =>
    by_cases hg : u.guard w.db = true
    · rcases hr : relaunches u with _ | _
      · refine .inl ?_
        simp only [answer, World.withDb, updateRun_true hg]
        refine unlaunched_of _ ?_ (fun g => ?_) fun generation => ?_ <;>
          cases u <;> first | exact ⟨rfl, rfl, rfl⟩ | exact ⟨rfl, rfl⟩ | rfl | cases hr
      · exact .inr ⟨u, rfl, hr, hg⟩
    · refine .inl ?_
      simp only [answer, World.withDb, updateRun_false hg]
      refine unlaunched_of _ ⟨rfl, rfl, rfl⟩ (fun g => ?_) fun generation => ?_ <;>
        cases u <;> first | exact ⟨rfl, rfl⟩ | rfl
  all_goals exact .inl (hsame fun u hu => by cases hu)

/-! ### What a run keeps -/

/-- A lease that did not run out is the last one of its generation, and while the generation lasts the run says so. -/
structure Leased (past : List Time) (pool : Services) : Prop where
  kept : Pool.Kept leaseDiscipline newLauncher pool
  clock : ∀ t c, (launcher t pool.trace).clock = some c → c ∈ past
  generation : ∀ t l, (launcher t pool.trace).lease = some l → l.generation ≤ pool.world.db.run.workflowGeneration
  last : ∀ t l now, (launcher t pool.trace).lease = some l → (launcher t pool.trace).settled = false →
    (∀ c ∈ past, c ≤ now) → now < l.claimedAt + workflowLaunchStaleMs → holder l.generation pool.trace = some t
  row : ∀ t l now, (launcher t pool.trace).lease = some l → (launcher t pool.trace).settled = false →
    (∀ c ∈ past, c ≤ now) → now < l.claimedAt + workflowLaunchStaleMs →
    l.generation = pool.world.db.run.workflowGeneration →
    (pool.world.db.run.workflowLaunchState = .launching ∨ pool.world.db.run.workflowLaunchState = .attached) ∧
      pool.world.db.run.workflowLaunchAttemptedAt = some l.claimedAt

theorem leased_init (w : World) : Leased [] (Pool.init w) where
  kept := Pool.kept_init (M := machine) w
  clock _ _ h := by cases h
  generation _ _ h := by cases h
  last _ _ _ h := by cases h
  row _ _ _ h := by cases h

theorem admits_lease (pool : Services) (m : Move) : Pool.Admits leaseDiscipline newLauncher pool m.action := by
  rcases m with c | ⟨t, env⟩
  · exact client_keeps_lease c
  · exact fun _ _ _ => trivial

variable {past : List Time} {threads : List (Service Unit)}

theorem before {now now' : Time} (hc : ∀ c ∈ past ++ [now], c ≤ now') : ∀ c ∈ past, c ≤ now' := fun c hmem =>
  hc c (List.mem_append_left _ hmem)

section

variable (h : Leased past pool)

include h

theorem leased_unlaunched (hu : Unlaunched pool.world w' e)
    (hk : Pool.Kept leaseDiscipline newLauncher (⟨w', threads, e :: pool.trace⟩ : Services)) (now : Time)
    (hclock : ∀ t c, (launcher t (e :: pool.trace)).clock = some c → c ∈ past ++ [now]) :
    Leased (past ++ [now]) ⟨w', threads, e :: pool.trace⟩ := by
  refine ⟨hk, hclock, fun t l hl => ?_, fun t l now' hl hs hc hlt => ?_, fun t l now' hl hs hc hlt hgen => ?_⟩
  · rw [hu.lease] at hl
    exact (h.generation t l hl).trans_eq hu.generation.symm
  · rw [hu.lease] at hl
    rw [hu.settled] at hs
    exact (hu.holder _ _).trans (h.last t l now' hl hs (before hc) hlt)
  · rw [hu.lease] at hl
    rw [hu.settled] at hs
    rw [hu.state, hu.attempted]
    exact h.row t l now' hl hs (before hc) hlt (hgen.trans hu.generation)

theorem leased_claim {generation : ℕ} {claimedAt : Time} (now : Time)
    (hu : ∀ g, leaseDiscipline.next g (.updateRun u) true = { g with lease := some ⟨generation, claimedAt⟩ })
    (hclaims : ∀ g, claims g ⟨t, .updateRun u, true⟩ = (generation == g))
    (hgen : pool.world.db.run.workflowGeneration = generation)
    (hset : (u.set pool.world.db.run).workflowGeneration = generation ∧
      (u.set pool.world.db.run).workflowLaunchState = .launching ∧
      (u.set pool.world.db.run).workflowLaunchAttemptedAt = some claimedAt)
    (hfree : ∀ t' l now', (launcher t' pool.trace).lease = some l → (launcher t' pool.trace).settled = false →
      (∀ c ∈ past, c ≤ now') → now' < l.claimedAt + workflowLaunchStaleMs → l.generation ≠ generation)
    (hw : w'.db.run = u.set pool.world.db.run) (hk : Pool.Kept leaseDiscipline newLauncher
      (⟨w', threads, ⟨t, .updateRun u, true⟩ :: pool.trace⟩ : Services))
    (hclock : ∀ t' c, (launcher t' (⟨t, .updateRun u, true⟩ :: pool.trace)).clock = some c → c ∈ past ++ [now]) :
    Leased (past ++ [now]) ⟨w', threads, ⟨t, .updateRun u, true⟩ :: pool.trace⟩ := by
  have hself : launcher t (⟨t, .updateRun u, true⟩ :: pool.trace) =
      { launcher t pool.trace with lease := some ⟨generation, claimedAt⟩ } := (launcher_self _).trans (hu _)
  refine ⟨hk, hclock, fun t' l hl => ?_, fun t' l now' hl hs hc hlt => ?_, fun t' l now' hl hs hc hlt hg => ?_⟩
  · rw [hw, hset.1]
    by_cases ht : t = t'
    · subst ht
      rw [hself] at hl
      cases hl
      exact le_rfl
    · rw [launcher_other ht] at hl
      exact (h.generation t' l hl).trans_eq hgen
  · by_cases ht : t = t'
    · subst ht
      rw [hself] at hl
      cases hl
      rw [holder, List.find?_cons_of_pos (by rw [hclaims]; exact beq_self_eq_true _)]
      rfl
    · rw [launcher_other ht] at hl hs
      have hne := hfree t' l now' hl hs (before hc) hlt
      rw [holder, List.find?_cons_of_neg (by rw [hclaims]; simpa using hne.symm)]
      exact h.last t' l now' hl hs (before hc) hlt
  · rw [hw, hset.2.1, hset.2.2]
    by_cases ht : t = t'
    · subst ht
      rw [hself] at hl
      cases hl
      exact ⟨.inl rfl, rfl⟩
    · rw [launcher_other ht] at hl hs
      rw [hw, hset.1] at hg
      exact absurd hg (hfree t' l now' hl hs (before hc) hlt)

theorem leased_settle (now : Time)
    (hu : ∀ g, leaseDiscipline.next g (.updateRun u) true = { g with settled := true })
    (hclaims : ∀ g, claims g ⟨t, .updateRun u, true⟩ = false)
    (hset : (u.set pool.world.db.run).workflowGeneration = pool.world.db.run.workflowGeneration ∧
      (u.set pool.world.db.run).workflowLaunchAttemptedAt = pool.world.db.run.workflowLaunchAttemptedAt)
    (hstate : (u.set pool.world.db.run).workflowLaunchState = .attached ∨
      holder pool.world.db.run.workflowGeneration pool.trace = some t) (hw : w'.db.run = u.set pool.world.db.run)
    (hk : Pool.Kept leaseDiscipline newLauncher
      (⟨w', threads, ⟨t, .updateRun u, true⟩ :: pool.trace⟩ : Services))
    (hclock : ∀ t' c, (launcher t' (⟨t, .updateRun u, true⟩ :: pool.trace)).clock = some c → c ∈ past ++ [now]) :
    Leased (past ++ [now]) ⟨w', threads, ⟨t, .updateRun u, true⟩ :: pool.trace⟩ := by
  have hself : launcher t (⟨t, .updateRun u, true⟩ :: pool.trace) = { launcher t pool.trace with settled := true } :=
    (launcher_self _).trans (hu _)
  have hholder : ∀ g, holder g (⟨t, .updateRun u, true⟩ :: pool.trace) = holder g pool.trace := fun g => by
    rw [holder, List.find?_cons_of_neg (by rw [hclaims g]; exact Bool.false_ne_true)]
    rfl
  have hne : ∀ {t'}, (launcher t' (⟨t, .updateRun u, true⟩ :: pool.trace)).settled = false → t ≠ t' := by
    rintro t' hs rfl
    rw [hself] at hs
    cases hs
  refine ⟨hk, hclock, fun t' l hl => ?_, fun t' l now' hl hs hc hlt => ?_, fun t' l now' hl hs hc hlt hg => ?_⟩
  · rw [hw, hset.1]
    by_cases ht : t = t'
    · subst ht
      rw [hself] at hl
      exact h.generation t l hl
    · rw [launcher_other ht] at hl
      exact h.generation t' l hl
  · have ht := hne hs
    rw [launcher_other ht] at hl hs
    exact (hholder _).trans (h.last t' l now' hl hs (before hc) hlt)
  · have ht := hne hs
    rw [launcher_other ht] at hl hs
    rw [hw, hset.1] at hg
    rw [hw, hset.2]
    refine ⟨.inr (hstate.resolve_right fun hlast => ht ?_), (h.row t' l now' hl hs (before hc) hlt hg).2⟩
    rw [← hg, h.last t' l now' hl hs (before hc) hlt] at hlast
    exact (Option.some.inj hlast).symm

theorem leased_retry {stepId : String} {generation : ℕ} (now : Time)
    (hw : w'.db.run = (RunUpdate.manualRetry stepId generation).set pool.world.db.run)
    (hk : Pool.Kept leaseDiscipline newLauncher
      (⟨w', threads, ⟨t, .updateRun (.manualRetry stepId generation), true⟩ :: pool.trace⟩ : Services)) :
    Leased (past ++ [now]) ⟨w', threads, ⟨t, .updateRun (.manualRetry stepId generation), true⟩ :: pool.trace⟩ := by
  have hgen : w'.db.run.workflowGeneration = pool.world.db.run.workflowGeneration + 1 := by rw [hw]; rfl
  have hsame : ∀ t', launcher t' (⟨t, .updateRun (.manualRetry stepId generation), true⟩ :: pool.trace) =
      launcher t' pool.trace := fun t' => by
    by_cases ht : t = t'
    · subst ht
      exact launcher_self _
    · exact launcher_other ht _
  refine ⟨hk, fun t' c hc => ?_, fun t' l hl => ?_, fun t' l now' hl hs hc hlt => ?_, fun t' l now' hl _ _ _ hg => ?_⟩ <;>
    rw [hsame] at *
  · exact List.mem_append_left _ (h.clock t' c hc)
  · exact (h.generation t' l hl).trans (hgen ▸ Nat.le_succ _)
  · exact h.last t' l now' hl hs (before hc) hlt
  · exact absurd (hg.trans hgen) (Nat.ne_of_lt (Nat.lt_succ_of_le (h.generation t' l hl)))

/-- **One move.** -/
theorem leased_step (hpast : ∀ c ∈ past, c ≤ env.now)
    (hok : settlesInTime pool (.run t env) = true) :
    Leased (past ++ [env.now]) (pool.step (.run t env : Move).action) := by
  have hk := Pool.kept_step _ (admits_lease pool (.run t env)) h.kept
  rcases Pool.step_cases pool (.run t env : Move).action with ⟨p, hm, _⟩ | ⟨t', env', q, next, hm, ht, hs⟩ | ⟨_, hs⟩
  · cases hm
  · obtain ⟨rfl, rfl⟩ : t = t' ∧ env = env' := by simpa [Move.action] using hm
    rw [hs] at hk ⊢
    have hneeds : leaseDiscipline.needs (launcher t pool.trace) q := (h.kept.threads t _ ht).1
    have hclock : ∀ t' c, (launcher t' (⟨t, q, (answer env q pool.world).1⟩ :: pool.trace)).clock = some c →
        c ∈ past ++ [env.now] := fun t' c hc => by
      by_cases htt : t = t'
      · subst htt
        rw [launcher_self] at hc
        rcases next_clock env pool.world q (launcher t pool.trace) with hn | hn
        · exact List.mem_append_left _ (h.clock t c (hn.symm.trans hc))
        · exact List.mem_append_right _ (List.mem_singleton.2 (Option.some.inj (hc.symm.trans hn)))
      · rw [launcher_other htt] at hc
        exact List.mem_append_left _ (h.clock t' c hc)
    rcases launch_cases t env pool.world q with hu | ⟨u, rfl, hr, hg⟩
    · exact leased_unlaunched h hu hk env.now hclock
    · have hin : ∀ l, settles u = true → (launcher t pool.trace).lease = some l →
          env.now < l.claimedAt + workflowLaunchStaleMs := fun l hu hl =>
        settlesInTime_held hok (by rw [asks, Interleave.asks, ht]) hu hg hl
      simp only [answer, World.withDb, updateRun_true hg] at hk hclock ⊢
      cases u
      case claimLaunch generation instanceId claimedAt =>
        simp only [RunUpdate.guard, Bool.and_eq_true, Bool.or_eq_true, beq_iff_eq] at hg
        refine leased_claim (u := .claimLaunch generation instanceId claimedAt) h env.now (fun _ => rfl) (fun _ => rfl)
          hg.1.1 ⟨hg.1.1, rfl, rfl⟩ ?_ rfl hk hclock
        intro t' l now' hl hs hc hlt hgen
        have := (h.row t' l now' hl hs hc hlt (hgen.trans hg.1.1.symm)).1
        grind
      case takeOverLaunch generation reserved attemptedAt claimedAt =>
        simp only [RunUpdate.guard, Bool.and_eq_true, beq_iff_eq] at hg
        refine leased_claim (u := .takeOverLaunch generation reserved attemptedAt claimedAt) h env.now (fun _ => rfl)
          (fun _ => rfl) hg.1.1.1 ⟨hg.1.1.1, hg.1.1.2, rfl⟩ ?_ rfl hk hclock
        intro t' l now' hl hs hc hlt hgen
        -- the lease that is taken over ran out before the clock was read
        have hrow := (h.row t' l now' hl hs hc hlt (hgen.trans hg.1.1.1.symm)).2
        have hstale : attemptedAt + workflowLaunchStaleMs ≤ claimedAt := hneeds.2.2
        have hread : claimedAt ≤ now' := hc _ (h.clock t _ hneeds.2.1)
        rw [hg.2, Option.some.injEq] at hrow
        exact absurd (hstale.trans hread) (Nat.not_le_of_lt (hrow ▸ hlt))
      case attach generation instanceId =>
        exact leased_settle h env.now (fun _ => rfl) (fun _ => rfl) ⟨rfl, rfl⟩ (.inl rfl) rfl hk hclock
      case launchFailure generation instanceId message =>
        obtain ⟨hs, l, hl, hgen⟩ := hneeds
        simp only [RunUpdate.guard, Bool.and_eq_true, beq_iff_eq] at hg
        refine leased_settle h env.now (fun _ => rfl) (fun _ => rfl) ⟨rfl, rfl⟩ (.inr ?_) rfl hk hclock
        rw [hg.1.1, ← hgen]
        exact h.last t l env.now hl hs hpast (hin l rfl hl)
      case manualRetry stepId generation => exact leased_retry h env.now rfl hk
      all_goals cases hr
  · rw [hs] at hk ⊢
    refine ⟨hk, fun t' c hc => List.mem_append_left _ (h.clock t' c hc), h.generation, ?_, ?_⟩
    · exact fun t' l now' hl hs hc => h.last t' l now' hl hs (before hc)
    · exact fun t' l now' hl hs hc => h.row t' l now' hl hs (before hc)

theorem leased_client (c : Client) : Leased past (pool.step (.client c : Move).action) :=
  ⟨Pool.kept_step _ (admits_lease pool (.client c)) h.kept, h.clock, h.generation, h.last, h.row⟩

end

theorem leased_run {moves : List Move} (hc : (times moves).Pairwise (· ≤ ·))
    (hm : Moves settlesInTime (Pool.init w) moves) : Leased (times moves) (after w moves) := by
  induction moves using List.reverseRecOn with
  | nil => exact leased_init w
  | append_singleton moves m ih =>
    rw [moves_concat] at hm
    rw [after_concat]
    rcases m with c | ⟨t, env⟩
    · have hsame : times (moves ++ [.client c]) = times moves := by simp [times, Move.time]
      rw [hsame] at hc ⊢
      exact leased_client (ih hc hm.1) c
    · have hnext : times (moves ++ [.run t env]) = times moves ++ [env.now] := by simp [times, Move.time]
      rw [hnext, List.pairwise_append] at hc
      rw [hnext]
      exact leased_step (ih hc.1 hm.1) (fun c hmem => hc.2.2 c hmem _ (List.mem_singleton.2 rfl)) hm.2

theorem needs_held (hl : g.lease = some l)
    (h : leaseDiscipline.needs g (.updateRun u)) : settles u = true ∧ g.settled = false := by
  cases u
  case attach => exact ⟨rfl, h.1⟩
  case launchFailure => exact ⟨rfl, h.1⟩
  case claimLaunch => exact absurd (hl.symm.trans h.1) (Option.some_ne_none _)
  case takeOverLaunch => exact absurd (hl.symm.trans h.1) (Option.some_ne_none _)
  all_goals exact absurd (hl.symm.trans h) (Option.some_ne_none _)

theorem consume_not_held {requestId : String} {now : Time} (hl : g.lease = some l) :
    ¬leaseDiscipline.needs g (.consume requestId now) :=
  fun h => absurd (hl.symm.trans h) (Option.some_ne_none _)

/-- **Launch leases fence.** Over every run whose clocks never go back and in which each launcher that settles its launch
does so before its lease runs out: a launcher whose claim is older than the last one of the generation does not change the
row of the run, and no two launchers have a lease of a generation that did not run out. -/
theorem lease_fencing (w : World) (moves : List Move) (t : ℕ) (env : Env)
    (hc : (times (moves ++ [.run t env])).Pairwise (· ≤ ·))
    (hm : Moves settlesInTime (Pool.init w) (moves ++ [.run t env])) (generation : ℕ) :
    (Superseded generation t (after w moves).trace →
      (after w (moves ++ [.run t env])).world.db.run = (after w moves).world.db.run) ∧
    ∀ t₁ t₂, Holds generation env.now t₁ (after w moves).trace → Holds generation env.now t₂ (after w moves).trace →
      t₁ = t₂ := by
  have hnext : times (moves ++ [.run t env]) = times moves ++ [env.now] := by simp [times, Move.time]
  rw [hnext, List.pairwise_append] at hc
  have hpast : ∀ c ∈ times moves, c ≤ env.now := fun c hmem => hc.2.2 c hmem _ (List.mem_singleton.2 rfl)
  rw [moves_concat] at hm
  have h := leased_run hc.1 hm.1
  refine ⟨fun hsup => ?_, ?_⟩
  · obtain ⟨⟨e, he, rfl, hclaims⟩, hlast⟩ := hsup
    obtain ⟨l, hl, rfl⟩ := lease_of_claims h.kept.events he hclaims
    have hok : settlesInTime (after w moves) (.run e.thread env) = true := hm.2
    rw [after_concat]
    generalize after w moves = pool at *
    rcases step_cases pool (.run e.thread env) with ⟨hw, -⟩ | ⟨t', env', q, next, hrun, ht, hq, hs⟩
    · rw [hw]
    · obtain ⟨rfl, rfl⟩ : e.thread = t' ∧ env = env' := by simpa using hrun
      rw [hs]
      have hneeds : leaseDiscipline.needs (launcher e.thread pool.trace) q := (h.kept.threads _ _ ht).1
      rcases run_cases (answer_effect env pool.world q) with hsame | ⟨u, hg, -, hu⟩
      · exact hsame
      · -- a launcher with a lease writes on the run only to settle its launch, which it does in time
        have hlast' : ∀ u, settles u = true → u.guard pool.world.db = true → q = .updateRun u →
            (launcher e.thread pool.trace).settled = false → False := fun u hu hg hqu hs => by
          refine hlast (h.last _ l env.now hl hs hpast ?_)
          exact settlesInTime_held hok (hqu ▸ hq) hu hg hl
        rcases hu with rfl | ⟨requestId, now, -, rfl⟩
        · obtain ⟨hsettles, hopen⟩ := needs_held hl hneeds
          exact (hlast' _ hsettles hg rfl hopen).elim
        · exact absurd hneeds (consume_not_held hl)
  · rintro t₁ t₂ ⟨hs₁, l₁, hl₁, hgen₁, hlt₁⟩ ⟨hs₂, l₂, hl₂, hgen₂, hlt₂⟩
    have h₁ := h.last t₁ l₁ env.now hl₁ hs₁ hpast hlt₁
    have h₂ := h.last t₂ l₂ env.now hl₂ hs₂ hpast hlt₂
    rw [hgen₁] at h₁
    rw [hgen₂, h₁] at h₂
    exact Option.some.inj h₂

/-- A launcher claims the launch and rests; another one takes it over two minutes later. -/
def takenOver : List Move :=
  .client (.launch 1) :: runs 0 4 (sampleEnv 0) ++ .client (.launch 1) :: runs 1 7 (sampleEnv 200000)

/-- The second launcher attaches the instance; the first one goes on, and finds out that it exists. -/
def attachedLate : List Move :=
  takenOver ++ runs 1 2 (sampleEnv 200001) ++ runs 0 1 (sampleEnv 200002)

theorem attachedLate_fenced : Superseded 1 0 (after (createdRun sampleSnapshot) attachedLate).trace ∧
      (after (createdRun sampleSnapshot) (attachedLate ++ [.run 0 (sampleEnv 200002)])).world.db.run =
        (after (createdRun sampleSnapshot) attachedLate).world.db.run := by
  have hsup : Superseded 1 0 (after (createdRun sampleSnapshot) attachedLate).trace := by
    unfold Superseded
    decide +kernel
  exact ⟨hsup, (lease_fencing _ attachedLate 0 (sampleEnv 200002) (by decide +kernel) (by decide +kernel) 1).1 hsup⟩

def unavailableEnv (now : Time) : Env :=
  { sampleEnv now with create := fun _ => .error .unavailable }

/-- The first launcher goes on instead, and is about to record that the launch failed. -/
def failedLate : List Move := takenOver ++ runs 0 1 (unavailableEnv 200001)

/-- Its statement fails the run, whose launch the second launcher has. -/
theorem failedLate_unfenced : Superseded 1 0 (after (createdRun sampleSnapshot) failedLate).trace ∧
      Holds 1 200001 1 (after (createdRun sampleSnapshot) failedLate).trace ∧
      (after (createdRun sampleSnapshot) failedLate).world.db.run.workflowLaunchState = .launching ∧
      (after (createdRun sampleSnapshot) failedLate).world.db.run.status = .queued ∧
      (after (createdRun sampleSnapshot)
        (failedLate ++ [.run 0 (unavailableEnv 200001)])).world.db.run.workflowLaunchState = .launchFailed ∧
      (after (createdRun sampleSnapshot)
        (failedLate ++ [.run 0 (unavailableEnv 200001)])).world.db.run.status = .failed := by
  refine ⟨?_, ⟨by decide +kernel, ⟨1, 200000⟩, by decide +kernel, rfl, by decide⟩, by decide +kernel⟩
  unfold Superseded
  decide +kernel

end ADT.Durable.System
