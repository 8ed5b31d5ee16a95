import ADT.Durable.AttemptHistory

/-!
# Durable.AutomaticRetry — which failed attempts are retried

A turn decides on the attempt it read; `createAutomaticRetryAttempt` reads the attempts once more and retries whatever
is the latest by then.  `retryDiscipline` follows what a call has read: before the `INSERT` stand the read that was
decided on and the read of the retry itself.  Where both find the same attempt, `retries_justified`.
-/

namespace ADT.Durable.System

open Workflow Interleave Storage

/-! ### What a call has read -/

/-- A read of the attempts: all of them, or the latest of one activation. -/
inductive View
  | rows (attempts : List StepAttempt)
  | row (stepId : String) (activationId : Option String) (attempt : Option StepAttempt)
  deriving DecidableEq

/-- The latest attempt of an activation, as the read has it. -/
def View.latest (stepId : String) (activationId : Option String) : View → Option StepAttempt
  | .rows attempts => (attempts.filter (Database.ofStep stepId activationId)).getLast?
  | .row s i attempt => if s = stepId ∧ i = activationId then attempt else none

/-- The attempt failed, and its failure may be retried. -/
def justified (a : StepAttempt) : Bool :=
  a.status == .failed && a.failure.any fun f => f.retryable && transient f.category

/-- A retry needs a decision: the read before the last one found the activation at a failure that may be retried. -/
def retryDiscipline : Discipline signature (List View) where
  needs g q :=
    match q with
    | .insertAttempts (.automaticRetry prior activationId) => ∃ seen decided rest a,
        g = seen :: decided :: rest ∧ decided.latest prior.stepId activationId = some a ∧ justified a = true
    | _ => True
  expects _ _ _ := True
  next g q a :=
    match q, a with
    | .selectAttempts, attempts => .rows attempts :: g
    | .selectLatest stepId activationId, attempt => .row stepId activationId attempt :: g
    | _, _ => g

theorem needs_of_acting (q : Request) (h : Acting q) (g : List View) : retryDiscipline.needs g q := by
  unfold retryDiscipline
  dsimp only
  split
  · cases h
  · trivial

theorem needs_of_launching (q : Request) (h : Launching q) (g : List View) : retryDiscipline.needs g q := by
  unfold retryDiscipline
  dsimp only
  split
  · cases h
  · trivial

variable {α : Type} {p : Service α} {g : List View} {Q : Except Thrown α → List View → Prop} (input : TurnInput)
  (detail : RunDetail) {a : StepAttempt}

theorem act_keeps (hp : ActService p) (g : List View) : retryDiscipline.Keeps p g fun _ _ => True :=
  Discipline.keeps_of_needs (hp.mono fun q hq g => needs_of_acting q hq g) fun _ _ => trivial

theorem act_bind_keeps {β : Type} {f : α → Service β} (hp : ActService p)
    (hf : ∀ a g', retryDiscipline.Keeps (f a) g' fun _ _ => True) :
    retryDiscipline.Keeps (p >>= f) g fun _ _ => True := by
  refine Discipline.keeps_bind ((act_keeps hp g).mono fun r g' _ => ?_)
  rcases r with e | a
  · trivial
  · exact hf a g'

theorem getRun_keeps_retry {f : RunDetail → Service α}
    (h : ∀ run attempts, retryDiscipline.Keeps (f ⟨run, attempts⟩) (.rows attempts :: g) Q) :
    retryDiscipline.Keeps (getRun >>= f) g Q :=
  And.intro trivial fun run _ => And.intro trivial fun attempts _ => h run attempts

theorem now_keeps_retry {f : Time → Service α}
    (h : ∀ now, retryDiscipline.Keeps (f now) g Q) : retryDiscipline.Keeps (request .now >>= f) g Q :=
  And.intro trivial fun now _ => h now

/-! ### A turn decides on what it read -/

/-- The last read of the call found the attempt to be the latest of the activation. -/
def Found (input : TurnInput) (a : StepAttempt) (g : List View) : Prop :=
  ∃ view rest, g = view :: rest ∧ view.latest input.nodeId input.activationId = some a

theorem failedTurn_keeps (h : Found input a g) (hs : a.status = .failed) :
    retryDiscipline.Keeps (failedTurn input detail a) g fun _ _ => True := by
  obtain ⟨view, rest, rfl, hfound⟩ := h
  unfold failedTurn
  dsimp only
  split
  · rename_i hretry
    have hjust : justified a = true := by
      rcases hf : a.failure with _ | failure
      · simp [hf] at hretry
      · simp only [hf, Option.getD_some, Bool.and_eq_true] at hretry
        simp [justified, hs, hf, hretry.1.1.1, hretry.1.1.2]
    -- the retry reads the run, and issues its `INSERT`
    refine Discipline.keeps_bind (getRun_keeps_retry fun run attempts => ?_)
    split
    · trivial
    · rename_i prior hprior
      have hstep : prior.key.stepId = input.nodeId := by
        have hmem := List.mem_filter.1 (List.mem_of_getLast? hprior)
        simp only [Database.ofStep, Bool.and_eq_true, beq_iff_eq] at hmem
        exact hmem.2.1
      split
      · trivial
      · refine And.intro ⟨_, view, rest, a, rfl, by rw [hstep]; exact hfound, hjust⟩ fun inserted _ => ?_
        refine (act_keeps ?_ _).mono fun r g' _ => ?_
        · exact Prog.issues_ite.2 ⟨fun _ => attempt_issues _, fun _ => Prog.issues_bind.2
            ⟨attempt_issues _, fun existing _ => by split <;> trivial⟩⟩
        · rcases r with e | created <;> trivial
  · trivial

theorem attemptTurn_keeps_retry (a : StepAttempt) (ownsStart : Bool) (h : Found input a g) :
    retryDiscipline.Keeps (attemptTurn input detail a ownsStart) g fun _ _ => True := by
  unfold attemptTurn
  split
  · split
    · exact act_keeps (startTurn_issues (fun _ _ => rfl) _) g
    · exact act_keeps (awaitStartTurn_issues _) g
  · exact act_keeps (pollTurn_issues _ _) g
  · exact failedTurn_keeps input detail h ‹_›
  · trivial

theorem claimGraphNode_keeps_retry (g : List View) :
    retryDiscipline.Keeps (claimGraphNode input.nodeId input.inputText input.activationId) g fun r g' =>
      ∀ claim, r = .ok claim → ¬(!claim.claimed && claim.attempt.status == .pending) = true →
        Found input claim.attempt g' := by
  refine And.intro trivial fun now _ => And.intro trivial fun current _ => ?_
  rcases current with _ | current
  · rintro claim ⟨⟩
  refine And.intro trivial fun claimed _ => ?_
  rcases claimed with _ | _
  · refine And.intro trivial fun reread _ => ?_
    rcases reread with _ | reread
    · rintro claim ⟨⟩
    show retryDiscipline.Keeps (if !false && reread.status == .pending then _ else _) _ _
    split
    · rename_i hpending
      refine getRun_keeps_retry fun run attempts => ?_
      show retryDiscipline.Keeps (if run.failureCode.isSome then _ else _) _ _
      split
      · rintro claim ⟨⟩ hno
        exact absurd hpending hno
      · rintro claim ⟨⟩
    · rintro claim ⟨⟩ _
      exact ⟨_, _, rfl, if_pos ⟨rfl, rfl⟩⟩
  · refine And.intro trivial fun entered _ => And.intro trivial fun reread _ => ?_
    rcases reread with _ | reread
    · rintro claim ⟨⟩
    · rintro claim ⟨⟩ _
      exact ⟨_, _, rfl, if_pos ⟨rfl, rfl⟩⟩

theorem claimTurn_keeps_retry (g : List View) : retryDiscipline.Keeps (claimTurn input detail) g fun _ _ => True := by
  unfold claimTurn
  split
  · trivial
  · refine Discipline.keeps_bind ((claimGraphNode_keeps_retry input g).mono fun r g' hr => ?_)
    rcases r with e | claim
    · trivial
    · show retryDiscipline.Keeps (if _ then _ else _) _ _
      split
      · trivial
      · split
        · exact act_keeps (by simp) g'
        · rename_i hpending
          exact attemptTurn_keeps_retry input detail claim.attempt claim.claimed (hr claim rfl (by simpa using hpending))

theorem turnBody_keeps_retry (g : List View) : retryDiscipline.Keeps (turnBody input) g fun _ _ => True := by
  refine getRun_keeps_retry fun run attempts => ?_
  split
  · trivial
  split
  · trivial
  split
  · trivial
  refine now_keeps_retry fun now => ?_
  split
  · exact act_keeps (by simp) _
  split
  · trivial
  rename_i a hlast
  split
  · exact act_keeps (by simp) _
  split
  · exact act_keeps (by simp) _
  split
  · trivial
  · exact claimTurn_keeps_retry input _ _
  · exact attemptTurn_keeps_retry input _ a false ⟨_, g, rfl, hlast⟩

theorem executeDurableGraphNodeTurn_keeps_retry (depth : ℕ) (input : TurnInput) (g : List View) :
    retryDiscipline.Keeps (executeDurableGraphNodeTurn depth input) g fun _ _ => True := by
  induction depth generalizing g with
  | zero => trivial
  | succ depth ih =>
    refine Discipline.keeps_bind ((turnBody_keeps_retry input g).mono fun r g' _ => ?_)
    rcases r with e | (result | ⟨category, message⟩)
    · trivial
    · trivial
    · exact act_bind_keeps (recordGraphFailure_issues category message) fun _ => ih

theorem executeWorkflowGraphNode_keeps_retry (depth : ℕ) (host : NodeHost) (scope : NodeAuthority) (inputText : String)
    (g : List View) :
    retryDiscipline.Keeps (executeWorkflowGraphNode depth host scope inputText) g fun _ _ => True := by
  have hturn : ∀ g, retryDiscipline.Keeps (takeTurn depth host scope inputText) g fun _ _ => True := fun g =>
    act_bind_keeps (orThrow_issues _) fun _ => executeDurableGraphNodeTurn_keeps_retry depth _
  refine act_bind_keeps getRun_issues fun detail g' => ?_
  split
  · split
    · trivial
    split
    · exact act_keeps (publishNode_issues _ _ _ _) g'
    split
    · refine act_bind_keeps (prepared_issues (fun _ => rfl) _ _ _) fun ready g'' => ?_
      split
      · exact hturn g''
      · exact act_keeps (conversationFailed_issues _ _ _) g''
    · exact hturn g'
  · trivial

theorem client_keeps_retry (c : Client) : retryDiscipline.Keeps c.service [] fun _ _ => True := by
  by_cases hc : ∃ depth host scope inputText, c = .node depth host scope inputText
  · obtain ⟨depth, host, scope, inputText, rfl⟩ := hc
    refine Discipline.keeps_bind ((executeWorkflowGraphNode_keeps_retry depth host scope inputText []).mono fun r g _ => ?_)
    rcases r with _ | _ <;> trivial
  · refine Discipline.keeps_of_needs ((client_launches c fun d h s i heq => hc ⟨d, h, s, i, heq⟩).mono ?_) fun _ _ => trivial
    exact needs_of_launching

/-! ### Interleavings -/

variable {pool : Services} {w : World}

/-- What the call of thread `t` has read. -/
def viewsOf (pool : Services) (t : ℕ) : List View :=
  Pool.ghost retryDiscipline [] t pool.trace

/-- A retry is of the attempt the turn decided on: its own read found that one still the latest. -/
def retriesDecided (pool : Services) : Move → Bool
  | .run t _ =>
    match pool.threads[t]?, viewsOf pool t with
    | some (.ask (.insertAttempts (.automaticRetry prior activationId)) _), _ :: decided :: _ =>
      (decided.latest prior.stepId activationId).all (·.key == prior)
    | _, _ => true
  | .client _ => true

theorem failed_stays {db db' : Database} {q : Request} (he : Effect db q db') (ha : a ∈ db.attempts)
    (hf : a.status = .failed) : a ∈ db'.attempts := by
  rcases he with _ | _ | u | _ | _ | _ | ⟨requestId, now⟩
  case attempts =>
    refine mem_updateAttempts.2 ⟨a, ha, if_neg fun hg => ?_⟩
    have := AttemptUpdate.guard_open hg
    simp [hf] at this
  case newAttempts => exact List.mem_append_left _ ha
  case consume =>
    simp only [Database.consume, Database.markConsumed, Database.updateRun]
    split <;> exact ha
  all_goals exact ha

theorem mem_of_read {env : Env} {q : Request} {v : View}
    (hv : v ∈ retryDiscipline.next g q (answer env q w).1) (hg : v ∉ g) {stepId : String}
    {activationId : Option String} (ha : v.latest stepId activationId = some a) : a ∈ w.db.attempts := by
  unfold retryDiscipline at hv
  dsimp only at hv
  split at hv
  · obtain rfl := (List.mem_cons.1 hv).resolve_right hg
    exact (List.mem_insertionSort _).1 (List.mem_filter.1 (List.mem_of_getLast? ha)).1
  · obtain rfl := (List.mem_cons.1 hv).resolve_right hg
    simp only [View.latest] at ha
    split at ha
    · simp only [answer, Database.latestAttempt] at ha
      split at ha <;> exact (List.mem_filter.1 (List.argmax_mem ha)).1
    · cases ha
  · exact absurd hv hg

/-- The failed attempts a call has read stand in the database as it read them. -/
def ReadsLast (pool : Services) : Prop :=
  ∀ t, ∀ v ∈ viewsOf pool t, ∀ stepId activationId a, v.latest stepId activationId = some a → a.status = .failed →
    a ∈ pool.world.db.attempts

theorem readsLast_step (h : ReadsLast pool) (m : Move) : ReadsLast (pool.step m.action) := by
  rcases Pool.step_cases pool m.action with ⟨p, _, hs⟩ | ⟨t, env, q, next, _, ht, hs⟩ | ⟨_, hs⟩
  · rw [hs]
    exact h
  · rw [hs]
    intro t' v hv stepId activationId a ha hf
    refine failed_stays (answer_effect _ _ q) ?_ hf
    by_cases hold : v ∈ viewsOf pool t'
    · exact h t' v hold stepId activationId a ha hf
    · by_cases htt : t = t'
      · subst htt
        simp only [viewsOf, Pool.ghost, if_true] at hv hold
        exact mem_of_read hv hold ha
      · simp only [viewsOf, Pool.ghost, if_neg htt] at hv hold
        exact absurd hv hold
  · rw [hs]
    exact h

/-- The invariant: the calls keep the discipline, the attempts are numbered, and reads of failures last. -/
structure Deciding (pool : Services) : Prop where
  kept : Pool.Kept retryDiscipline [] pool
  numbered : Numbered pool
  reads : ReadsLast pool

theorem deciding_run (hw : w.db.attempts = []) (moves : List Move) : Deciding (after w moves) := by
  induction moves using List.reverseRecOn with
  | nil => exact ⟨Pool.kept_init (M := machine) w, numbered_init hw, fun t v hv => absurd hv List.not_mem_nil⟩
  | append_singleton moves m ih =>
    rw [after_concat]
    refine ⟨Pool.kept_step _ ?_ ih.kept, numbered_step ih.numbered m, readsLast_step ih.reads m⟩
    rcases m with c | ⟨t, env⟩
    · exact client_keeps_retry c
    · exact fun _ _ _ => trivial

/-- **Automatic retries.** Over every run in which each automatic retry is of the attempt its turn decided on: the
attempt that is retried failed, for good, with a failure that is marked retryable and is transient. -/
theorem retries_justified (w : World) (hw : w.db.attempts = []) (moves : List Move) (m : Move)
    (hm : Moves retriesDecided (Pool.init w) (moves ++ [m])) (prior : AttemptKey) (activationId : Option String)
    (hq : asks (after w moves) m = some (.insertAttempts (.automaticRetry prior activationId))) :
    ∀ a ∈ (after w moves).world.db.attempts, a.key = prior → justified a = true := by
  obtain ⟨hkept, hnum, hreads⟩ := deciding_run hw moves
  have hdecided : retriesDecided (after w moves) m = true := (moves_concat.1 hm).2
  generalize after w moves = pool at hkept hnum hreads hdecided hq
  rcases m with c | ⟨t, env⟩
  · cases hq
  obtain ⟨next, ht⟩ := thread_of_asks hq
  obtain ⟨seen, decided, rest, a, hviews, hlatest, hjust⟩ := (hkept.threads t _ ht).1
  have hviews' : viewsOf pool t = seen :: decided :: rest := hviews
  have hkey : a.key = prior := by
    simpa only [retriesDecided, ht, hviews', hlatest, Option.all_some, beq_iff_eq] using hdecided
  have hfailed : a.status = .failed := by
    simp only [justified, Bool.and_eq_true, beq_iff_eq] at hjust
    exact hjust.1
  have hmem : a ∈ pool.world.db.attempts := hreads t decided (by simp [hviews']) _ _ a hlatest hfailed
  intro b hb hbk
  rw [hnum.history.eq_of_key hb hmem (hbk.trans hkey.symm)]
  exact hjust

def overloadedEnv (now : Time) : Env :=
  { admittingEnv now with start := fun _ => .error (.withCategory "busy" .rateLimited) }

/-- The first attempt of the agent node fails and may be retried. -/
def overloadedRun : List Move :=
  admittedRun ++ .client (sampleCall 1 1) :: runs 2 40 (overloadedEnv 5)

/-- The next call retries it. -/
theorem overloadedRun_retried :
    asks (after (createdRun sampleSnapshot) (overloadedRun ++ .client (sampleCall 1 1) :: runs 3 7 (admittingEnv 10)))
        (.run 3 (admittingEnv 10)) = some (.insertAttempts (.automaticRetry ⟨"a", 1, 1⟩ (some "x"))) ∧
      ∀ a ∈ (after (createdRun sampleSnapshot)
        (overloadedRun ++ .client (sampleCall 1 1) :: runs 3 7 (admittingEnv 10))).world.db.attempts,
        a.key = ⟨"a", 1, 1⟩ → justified a = true :=
  ⟨by decide +kernel, retries_justified _ rfl _ (.run 3 (admittingEnv 10)) (by decide +kernel) _ (some "x")
    (by decide +kernel)⟩

/-- Call 3 decides to retry the first attempt and rests.  Call 4 retries it, and the driver issues the authority of the
second attempt.  Call 5 claims that one and stops; call 6 gives it up as ambiguous and records the failure. -/
def restingRetry : List Move :=
  overloadedRun ++
  .client (sampleCall 1 1) :: runs 3 5 (admittingEnv 10) ++
  .client (sampleCall 1 1) :: runs 4 20 (admittingEnv 15) ++
  runs 1 15 (admittingEnv 20) ++
  .client (sampleCall 1 2) :: runs 5 9 (admittingEnv 25) ++
  .client (sampleCall 1 2) :: runs 6 9 (admittingEnv 200000) ++
  runs 3 2 (admittingEnv 200005)

/-- Call 3 goes on and retries the ambiguous start. -/
theorem restingRetry_unjustified :
    asks (after (createdRun sampleSnapshot) restingRetry) (.run 3 (admittingEnv 200005)) =
        some (.insertAttempts (.automaticRetry ⟨"a", 1, 2⟩ (some "x"))) ∧
      ((after (createdRun sampleSnapshot) (restingRetry ++ [.run 3 (admittingEnv 200005)])).world.db.attempts.map
        fun a => (a.key, a.status, a.failure.map (·.category))) =
        [(⟨"a", 1, 1⟩, .failed, some .rateLimited), (⟨"a", 1, 2⟩, .failed, some .providerStartAmbiguous),
          (⟨"a", 1, 3⟩, .pending, none)] := by
  decide +kernel

end ADT.Durable.System
