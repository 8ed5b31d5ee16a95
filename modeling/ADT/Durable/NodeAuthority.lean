import ADT.Durable.AttemptHistory

/-!
# Durable.NodeAuthority — on which attempt a node call acts

A call of the node gateway carries the authority of one attempt, which is compared once with the latest attempt of its
activation.  From then on the call acts on the attempt that it reads as the latest, again and again.
`authorityDiscipline` follows such a call: as long as its reads find the attempt of the authority, it acts on that one.
-/

namespace ADT.Durable

open Workflow Interleave Storage

/-- The attempt an `UPDATE` names. -/
def attemptOf : AttemptUpdate → Option AttemptKey
  | .claim key _ _ | .bindConversation key _ | .providerDiagnostics key | .repoll key _ _ | .providerTask key _ _ => some key
  | .progress key _ _ _ | .pollCount key _ | .complete key _ _ | .fail key _ => some key
  | .cancelAll => none

/-- The request acts on an attempt: it starts or polls its provider, or writes on it. -/
def acts : Request → Bool
  | .start _ | .check _ _ | .updateAttempts _ | .insertAttempts _ => true
  | _ => false

/-- Where the request names an attempt to act on, it is this one. -/
@[simp] def names (key : AttemptKey) : Request → Bool
  | .start call | .check _ call => call.key == key
  | .updateAttempts u => (attemptOf u).all (· == key)
  | .insertAttempts (.automaticRetry prior _) => prior == key
  | .insertAttempts _ => false
  | _ => true

def Names (key : AttemptKey) (q : Request) : Prop := names key q

/-- The service acts on no other attempt. -/
abbrev NamesService {α : Type} (key : AttemptKey) (p : Service α) : Prop := p.Issues (Names key)

instance (key : AttemptKey) : AdmitsReads (Names key) := by constructor <;> intros <;> exact rfl

instance (key : AttemptKey) : AdmitsResult (Names key) := ⟨fun _ _ => rfl⟩

theorem finishes_names {key k : AttemptKey} (h : k = key) : AdmitsCompletion (Names key) k := by
  subst h
  have hworks : AdmitsWork (Names k) k := by constructor <;> intros <;> simp_all [Names, attemptOf]
  exact ⟨fun _ _ => by simp [Names, attemptOf]⟩

/-! ### A call with an authority -/

/-- The attempt an authority names. -/
def authorityKey (scope : NodeAuthority) : AttemptKey :=
  ⟨scope.activation.nodeId, scope.iteration, scope.attempt⟩

/-- The latest attempt of its activation. -/
def latestOf (scope : NodeAuthority) (attempts : List StepAttempt) : Option StepAttempt :=
  (attempts.filter (Database.ofStep scope.activation.nodeId (some scope.activation.activationId))).getLast?

/-- How far a call is: it has read nothing, or the row of the run; its authority was found to hold, or not to. -/
inductive Standing
  | fresh
  | opened (generation : ℕ)
  | verified
  | refused
  deriving DecidableEq

/-- A call acts once its authority was verified, on the attempt it names; a later read of the attempts is counted on to
find that one still the latest. -/
def authorityDiscipline (scope : NodeAuthority) : Discipline signature Standing where
  needs g q := Names (authorityKey scope) q ∧ (acts q = true → g = .verified)
  expects g q a :=
    match q, a with
    | .selectAttempts, attempts =>
      g = .verified → ∀ a, latestOf scope attempts = some a → a.key = authorityKey scope
    | .selectLatest _ _, row => g = .verified → ∀ a, row = some a → a.key = authorityKey scope
    | _, _ => True
  next g q a :=
    match g, q, a with
    | .fresh, .selectRun, run => .opened run.workflowGeneration
    | .opened generation, .selectAttempts, attempts =>
      if generation = scope.workflowGeneration ∧
          (latestOf scope attempts).any (·.key == authorityKey scope) = true then .verified
      else .refused
    | g, _, _ => g

section Authority

variable {scope : NodeAuthority} {α β : Type}

/-- From a verified authority on the service acts on its attempt. -/
abbrev Authorised (scope : NodeAuthority) (p : Service α) : Prop :=
  (authorityDiscipline scope).Keeps p .verified fun _ _ => True

theorem next_verified (q : Request) (a : Answer q) : (authorityDiscipline scope).next .verified q a = .verified := by
  cases q <;> rfl

variable {p : Service α} {Q : Except Thrown α → Standing → Prop} {f : α → Service β} (detail : RunDetail)
  {a : StepAttempt} (inputText : String) (depth : ℕ)

theorem names_keeps (hp : NamesService (authorityKey scope) p)
    (hQ : ∀ r, (∀ a, r = .ok a → p.Returns a) → Q r .verified) : (authorityDiscipline scope).Keeps p .verified Q := by
  induction p with
  | done a => exact hQ _ fun b hb => Except.ok.inj hb
  | fail e => exact hQ _ fun b hb => by cases hb
  | ask q next ih =>
    refine ⟨⟨hp.1, fun _ => rfl⟩, fun a _ => ?_⟩
    rw [next_verified]
    exact ih a (hp.2 a) fun r hr => hQ r fun b hb => ⟨a, hr b hb⟩

theorem authorised_of_names (hp : NamesService (authorityKey scope) p) : Authorised scope p :=
  names_keeps hp fun _ _ => trivial

theorem names_bind_keeps (hp : NamesService (authorityKey scope) p)
    (hf : ∀ a, Authorised scope (f a)) : Authorised scope (p >>= f) := by
  refine Discipline.keeps_bind (names_keeps hp fun r _ => ?_)
  rcases r with e | a
  · trivial
  · exact hf a

theorem authorised_bind (hp : Authorised scope p) (hf : ∀ a, Authorised scope (f a)) : Authorised scope (p >>= f) := by
  induction p with
  | done a => exact hf a
  | fail e => trivial
  | ask q next ih =>
    refine ⟨hp.1, fun a ha => ?_⟩
    have hnext := hp.2 a ha
    rw [next_verified] at hnext ⊢
    exact ih a hnext

theorem getRun_keeps_authority {f : RunDetail → Service α}
    (h : ∀ detail : RunDetail, (∀ a, latestOf scope detail.attempts = some a → a.key = authorityKey scope) →
      (authorityDiscipline scope).Keeps (f detail) .verified Q) :
    (authorityDiscipline scope).Keeps (getRun >>= f) .verified Q :=
  And.intro ⟨rfl, fun h => by cases h⟩ fun run _ => And.intro ⟨rfl, fun h => by cases h⟩ fun attempts hattempts =>
    h ⟨run, attempts⟩ (hattempts rfl)

theorem now_keeps_authority {f : Time → Service α} (h : ∀ now, (authorityDiscipline scope).Keeps (f now) .verified Q) :
    (authorityDiscipline scope).Keeps (request .now >>= f) .verified Q :=
  And.intro ⟨rfl, fun h => by cases h⟩ fun now _ => h now

theorem latest_keeps_authority {f : StepAttempt → Service α} (stepId : String) (activationId : Option String)
    (h : ∀ a : StepAttempt, a.key = authorityKey scope → (authorityDiscipline scope).Keeps (f a) .verified Q)
    (he : ∀ e, Q (.error e) .verified) :
    (authorityDiscipline scope).Keeps (latest stepId activationId >>= f) .verified Q := by
  refine And.intro ⟨rfl, fun h => by cases h⟩ fun row hrow => ?_
  rcases row with _ | a
  · exact he _
  · exact h a (hrow rfl a rfl)

theorem claimGraphNode_keeps_authority (stepId input : String) (activationId : Option String) :
    (authorityDiscipline scope).Keeps (claimGraphNode stepId input activationId) .verified fun r g =>
      g = .verified ∧ ∀ claim, r = .ok claim → claim.attempt.key = authorityKey scope := by
  have hread : ∀ claimed, (authorityDiscipline scope).Keeps
      (do
        let attempt ← latest stepId activationId
        if !claimed && attempt.status == .pending then
          let detail ← getRun
          if detail.run.failureCode.isSome then
            return ⟨attempt, claimed⟩
          error "invalid_step_claim"
        else
          return ⟨attempt, claimed⟩ : Service NodeClaim) .verified fun r g =>
      g = .verified ∧ ∀ claim, r = .ok claim → claim.attempt.key = authorityKey scope := fun claimed => by
    refine latest_keeps_authority stepId activationId (fun a ha => ?_) fun e => ⟨rfl, fun claim h => by cases h⟩
    split
    · refine getRun_keeps_authority fun detail _ => ?_
      split
      · exact ⟨rfl, fun claim h => by cases h; exact ha⟩
      · exact ⟨rfl, fun claim h => by cases h⟩
    · exact ⟨rfl, fun claim h => by cases h; exact ha⟩
  refine now_keeps_authority fun now => latest_keeps_authority stepId activationId (fun current hcurrent => ?_)
    fun e => ⟨rfl, fun claim h => by cases h⟩
  refine And.intro ⟨?_, fun _ => rfl⟩ fun claimed _ => ?_
  · simp [Names, attemptOf, hcurrent]
  · rcases claimed with _ | _
    · exact hread false
    · exact And.intro ⟨rfl, fun h => by cases h⟩ fun _ _ => hread true

/-- The input of a turn with the authority. -/
abbrev turnInput (scope : NodeAuthority) (inputText : String) : TurnInput :=
  ⟨scope.activation.nodeId, some scope.activation.activationId, inputText⟩

theorem pollTurn_keeps_authority {a : StepAttempt} (ha : a.key = authorityKey scope) (inputText : String) :
    Authorised scope (pollTurn (turnInput scope inputText) a) := by
  have := finishes_names ha
  unfold pollTurn
  split
  · trivial
  refine now_keeps_authority fun now => ?_
  split
  · exact authorised_of_names (by simp)
  -- the poll count is written on this attempt; the read after it finds the same one
  refine Discipline.keeps_bind (Discipline.keeps_tryCatch (Discipline.keeps_bind (names_keeps
    (incrementPollCount_issues _) fun r _ => ?_)))
  rcases r with e | polls
  · exact authorised_of_names (failThrown_issues e)
  refine getRun_keeps_authority fun detail hdetail => ?_
  have hkey : ((detail.last? (turnInput scope inputText).nodeId (turnInput scope inputText).activationId).getD a).key =
      authorityKey scope := by
    rcases hl : detail.last? scope.activation.nodeId (some scope.activation.activationId) with _ | b
    · exact ha
    · exact hdetail b hl
  have := finishes_names hkey
  refine authorised_of_names (Prog.issues_tryCatch.2 ⟨check_issues detail _ fun result => ?_,
    fun e _ => failThrown_issues e⟩)
  split <;> simp

theorem failedTurn_keeps_authority (a : StepAttempt) (inputText : String) :
    Authorised scope (failedTurn (turnInput scope inputText) detail a) := by
  unfold failedTurn
  dsimp only
  split
  · refine Discipline.keeps_bind (getRun_keeps_authority fun reread hreread => ?_)
    split
    · trivial
    · rename_i prior hprior
      split
      · trivial
      · refine And.intro ⟨by simp [Names, hreread prior hprior], fun _ => rfl⟩ fun inserted _ => ?_
        refine names_keeps ?_ fun r _ => ?_
        · exact Prog.issues_ite.2 ⟨fun _ => attempt_issues _, fun _ => Prog.issues_bind.2
            ⟨attempt_issues _, fun existing _ => by split <;> trivial⟩⟩
        · rcases r with e | created <;> trivial
  · trivial

theorem attemptTurn_keeps_authority (ha : a.key = authorityKey scope) (detail : RunDetail)
    (ownsStart : Bool) (inputText : String) :
    Authorised scope (attemptTurn (turnInput scope inputText) detail a ownsStart) := by
  have := finishes_names ha
  unfold attemptTurn
  split
  · split
    · exact authorised_of_names (startTurn_issues (fun call h => by simp [Names, h, ha]) _)
    · exact authorised_of_names (awaitStartTurn_issues _)
  · exact pollTurn_keeps_authority ha inputText
  · exact failedTurn_keeps_authority detail a inputText
  · trivial

theorem claimTurn_keeps_authority : Authorised scope (claimTurn (turnInput scope inputText) detail) := by
  unfold claimTurn
  split
  · trivial
  · refine Discipline.keeps_bind ((claimGraphNode_keeps_authority _ _ _).mono fun r g hr => ?_)
    obtain ⟨rfl, hclaim⟩ := hr
    rcases r with e | claim
    · trivial
    · have hkey := hclaim claim rfl
      have := finishes_names hkey
      dsimp only
      split
      · trivial
      split
      · refine getRun_keeps_authority fun reread _ => ?_
        split
        · exact names_bind_keeps (reconcileFailedGraphRun_issues reread) fun _ => trivial
        · trivial
      · exact attemptTurn_keeps_authority hkey detail claim.claimed inputText

theorem turnBody_keeps_authority : Authorised scope (turnBody (turnInput scope inputText)) := by
  refine getRun_keeps_authority fun detail hdetail => ?_
  split
  · trivial
  split
  · trivial
  split
  · trivial
  refine now_keeps_authority fun now => ?_
  split
  · exact authorised_of_names (by simp)
  split
  · trivial
  rename_i a hlast
  have hkey := hdetail a hlast
  have := finishes_names hkey
  split
  · exact authorised_of_names (by simp)
  split
  · exact names_bind_keeps (reconcileFailedGraphRun_issues detail) fun _ => trivial
  split
  · trivial
  · exact claimTurn_keeps_authority detail inputText
  · exact attemptTurn_keeps_authority hkey detail false inputText

theorem executeDurableGraphNodeTurn_keeps_authority (inputText : String) :
    Authorised scope (executeDurableGraphNodeTurn depth (turnInput scope inputText)) := by
  induction depth with
  | zero => trivial
  | succ depth ih =>
    refine authorised_bind (turnBody_keeps_authority inputText) fun next => ?_
    split
    · trivial
    · exact names_bind_keeps (recordGraphFailure_issues _ _) fun _ => ih

theorem takeTurn_keeps_authority (host : NodeHost) (inputText : String) :
    Authorised scope (takeTurn depth host scope inputText) :=
  names_bind_keeps (orThrow_issues _) fun _ => executeDurableGraphNodeTurn_keeps_authority depth inputText

theorem publishNode_keeps_authority (ha : a.key = authorityKey scope) (host : NodeHost)
    (inputText : String) : Authorised scope (publishNode host scope inputText a) := by
  have := finishes_names ha
  unfold publishNode
  split
  · trivial
  · refine Discipline.keeps_bind ((claimGraphNode_keeps_authority _ _ _).mono fun r g hr => ?_)
    obtain ⟨rfl, hclaim⟩ := hr
    rcases r with e | claim
    · trivial
    · dsimp only
      split
      · trivial
      · have := finishes_names (hclaim claim rfl)
        exact authorised_of_names (publishActive_issues host)
  · refine names_bind_keeps (orThrow_issues _) fun recovered => ?_
    split
    · exact authorised_of_names (by simp)
    · exact authorised_of_names (publishActive_issues host)
  · trivial

theorem conversationFailed_keeps_authority (ha : a.key = authorityKey scope) (inputText : String) :
    Authorised scope (conversationFailed scope inputText a) := by
  have hfails : ∀ active : StepAttempt, active.key = authorityKey scope → Authorised scope
      (do
        if active.status = .starting then
          failStep active.key conversationFailure
        recordGraphFailure conversationFailure.category conversationFailure.safeMessage
        return .failed conversationFailure.safeMessage : Service GraphNodeTurnResult) := fun active hactive => by
    have := finishes_names hactive
    exact authorised_of_names (by simp)
  unfold conversationFailed
  split
  · refine Discipline.keeps_bind (Discipline.keeps_bind
      ((claimGraphNode_keeps_authority _ _ _).mono fun r g hr => ?_))
    obtain ⟨rfl, hclaim⟩ := hr
    rcases r with e | claim
    · trivial
    · exact hfails claim.attempt (hclaim claim rfl)
  · exact hfails a ha

theorem agentNode_keeps_authority (ha : a.key = authorityKey scope) (depth : ℕ) (host : NodeHost)
    (detail : RunDetail) (inputText : String) :
    Authorised scope (Durable.agentNode depth host detail scope inputText a) := by
  refine names_bind_keeps (prepared_issues (fun _ => by simp [Names, attemptOf, ha]) host detail scope) fun ready => ?_
  split
  · exact takeTurn_keeps_authority depth host inputText
  · exact conversationFailed_keeps_authority ha inputText

theorem getRun_opens {f : RunDetail → Service α}
    (h : ∀ run attempts, (authorityDiscipline scope).Keeps (f ⟨run, attempts⟩)
      ((authorityDiscipline scope).next ((authorityDiscipline scope).next .fresh .selectRun run) .selectAttempts attempts) Q) :
    (authorityDiscipline scope).Keeps (getRun >>= f) .fresh Q :=
  And.intro ⟨rfl, fun h => by cases h⟩ fun run _ => And.intro ⟨rfl, fun h => by cases h⟩ fun attempts _ => h run attempts

/-- **A node call acts on the attempt of its authority**, given that it stays the latest one it reads. -/
theorem executeWorkflowGraphNode_keeps_authority (host : NodeHost) (scope : NodeAuthority) (inputText : String) :
    (authorityDiscipline scope).Keeps (executeWorkflowGraphNode depth host scope inputText) .fresh fun _ _ => True := by
  refine getRun_opens fun run attempts => ?_
  split
  · rename_i a node hlast _
    split
    · trivial
    rename_i hauth
    simp only [authorised, Bool.not_eq_true', Bool.not_eq_false, Bool.and_eq_true, beq_iff_eq] at hauth
    have hkey : a.key = authorityKey scope := by
      have hmem := (List.mem_filter.1 (List.mem_of_getLast? hlast)).2
      simp only [Database.ofStep, Bool.and_eq_true, beq_iff_eq] at hmem
      rw [authorityKey, ← hauth.1.2, ← hauth.2, ← hmem.1]
    have hverified : (authorityDiscipline scope).next ((authorityDiscipline scope).next .fresh .selectRun run)
        .selectAttempts attempts = .verified := by
      refine if_pos ⟨hauth.1.1, ?_⟩
      have hlatest : latestOf scope attempts = some a := hlast
      rw [hlatest]
      simpa using hkey
    rw [hverified]
    split
    · exact publishNode_keeps_authority hkey host inputText
    split
    · exact agentNode_keeps_authority hkey depth host _ inputText
    · exact takeTurn_keeps_authority depth host inputText
  · trivial

end Authority

/-! ### Calls among other clients -/

namespace System

/-- How far the call of thread `t` with the authority is. -/
def standing (scope : NodeAuthority) (t : ℕ) (trace : List (Event signature)) : Standing :=
  Pool.ghost (authorityDiscipline scope) .fresh t trace

/-- The attempts a request acts on: the one it names, or those its `UPDATE` writes on. -/
def acted (db : Database) : Request → List AttemptKey
  | .start call | .check _ call => [call.key]
  | .updateAttempts u => (db.attempts.filter (u.guard db)).map (·.key)
  | .insertAttempts (.automaticRetry prior _) | .insertAttempts (.manualRetry prior) => [prior]
  | _ => []

/-- A read of the attempts finds the attempt of the authority as the latest one, and a cancellation of the run finds no
other attempt open. -/
def findsNamed (scope : NodeAuthority) (db : Database) : Request → Bool
  | .selectAttempts => (latestOf scope db.orderedAttempts).all (·.key == authorityKey scope)
  | .selectLatest stepId activationId => (db.latestAttempt stepId activationId).all (·.key == authorityKey scope)
  | .updateAttempts .cancelAll => (acted db (.updateAttempts .cancelAll)).all (· == authorityKey scope)
  | _ => true

/-- The call has begun and did not end. -/
def underWay (cs : List Client) (pool : Services) (t : ℕ) : Bool :=
  match cs[t]?, pool.threads[t]? with
  | some (.node _ _ scope _), some (.ask _ _) => standing scope t pool.trace != .fresh
  | _, _ => false

/-- A call whose authority was verified finds its attempt the latest one, and a manual retry finds no call under way. -/
def undisturbed (cs : List Client) (pool : Services) : Move → Bool
  | .run t env =>
    match asks pool (.run t env) with
    | some q =>
      (match cs[t]? with
        | some (.node _ _ scope _) => standing scope t pool.trace != .verified || findsNamed scope pool.world.db q
        | _ => true) &&
      (match q with
        | .updateRun (.manualRetry stepId generation) =>
          !(RunUpdate.manualRetry stepId generation).guard pool.world.db || (List.range cs.length).all (!underWay cs pool ·)
        | _ => true)
    | none => true
  | .client _ => true

/-- The generation a call has found the run in. -/
def generationOf (scope : NodeAuthority) : Standing → Option ℕ
  | .opened generation => some generation
  | .verified => some scope.workflowGeneration
  | _ => none

variable {cs : List Client} {pool : Services} {w : World} {scope : NodeAuthority} {t : ℕ} {env : Env} {q : Request}

theorem generationOf_next {s : Standing} {generation : ℕ}
    (h : generationOf scope ((authorityDiscipline scope).next s q (answer env q w).1) = some generation) :
    generationOf scope s = some generation ∨ q = .selectRun ∧ w.db.run.workflowGeneration = generation := by
  unfold authorityDiscipline at h
  dsimp only at h
  split at h
  · exact .inr ⟨rfl, Option.some.inj h⟩
  · rename_i generation' attempts
    refine .inl ?_
    split at h
    · rename_i hfound
      rw [← h, generationOf, generationOf, hfound.1]
    · cases h
  · exact .inl h

theorem verified_next {s : Standing} (h : (authorityDiscipline scope).next s q (answer env q w).1 = .verified) :
    s = .verified ∨ q = .selectAttempts ∧ ∃ a, latestOf scope w.db.orderedAttempts = some a ∧ a.key = authorityKey scope := by
  unfold authorityDiscipline at h
  dsimp only at h
  split at h
  · cases h
  · refine .inr ⟨rfl, ?_⟩
    split at h
    · rename_i hfound
      obtain ⟨a, ha, hkey⟩ := Option.any_eq_true _ _ |>.1 hfound.2
      exact ⟨a, ha, by simpa using hkey⟩
    · cases h
  · exact .inl h

/-- The invariant of the calls. -/
structure Standings (cs : List Client) (pool : Services) : Prop where
  enrolled : Enrolled cs pool
  numbered : Numbered pool
  follows : ∀ scope t c, cs[t]? = some c → (∃ depth host inputText, c = .node depth host scope inputText) →
    Pool.Follows (authorityDiscipline scope) .fresh t pool
  generation : ∀ t depth host scope inputText q next generation, cs[t]? = some (.node depth host scope inputText) →
    pool.threads[t]? = some (.ask q next) → generationOf scope (standing scope t pool.trace) = some generation →
    pool.world.db.run.workflowGeneration = generation
  attempt : ∀ t depth host scope inputText, cs[t]? = some (.node depth host scope inputText) →
    standing scope t pool.trace = .verified → ∃ a ∈ pool.world.db.attempts, a.key = authorityKey scope ∧
      a.graphActivationId = some scope.activation.activationId

theorem standings_init (h : w.db.attempts = []) : Standings [] (Pool.init w) where
  enrolled := ⟨rfl, fun _ he => by cases he⟩
  numbered := numbered_init h
  follows _ _ _ hc := by cases hc
  generation _ _ _ _ _ _ _ _ hc := by cases hc
  attempt _ _ _ _ _ hc := by cases hc

variable {depth : ℕ} {host : NodeHost} {inputText : String}

theorem expects_of_undisturbed {next : Answer q → Service Unit}
    (hok : undisturbed cs pool (.run t env) = true) (hc : cs[t]? = some (.node depth host scope inputText))
    (ht : pool.threads[t]? = some (.ask q next)) :
    (authorityDiscipline scope).expects (standing scope t pool.trace) q (answer env q pool.world).1 := by
  have hfinds : standing scope t pool.trace = .verified → findsNamed scope pool.world.db q = true := fun hs => by
    have := hok
    simp only [undisturbed, asks, Interleave.asks, ht, hc, Bool.and_eq_true] at this
    simpa [hs] using this.1
  rcases q with _ | _ | _ | _
  case selectAttempts =>
    intro hs a ha
    have hlatest : latestOf scope pool.world.db.orderedAttempts = some a := ha
    simpa [findsNamed, hlatest] using hfinds hs
  case selectLatest stepId activationId =>
    intro hs a ha
    have hlatest : pool.world.db.latestAttempt stepId activationId = some a := ha
    simpa [findsNamed, hlatest] using hfinds hs
  all_goals trivial

theorem fresh_of_undisturbed {stepId : String} {generation : ℕ} {t' : ℕ}
    {q' : Request} {next' : Answer q' → Service Unit} (hok : undisturbed cs pool (.run t env) = true)
    (hq : asks pool (.run t env) = some (.updateRun (.manualRetry stepId generation)))
    (hg : (RunUpdate.manualRetry stepId generation).guard pool.world.db = true)
    (hc : cs[t']? = some (.node depth host scope inputText)) (ht : pool.threads[t']? = some (.ask q' next')) :
    standing scope t' pool.trace = .fresh := by
  simp only [undisturbed, hq, hg, Bool.not_true, Bool.false_or, Bool.and_eq_true, List.all_eq_true] at hok
  have := hok.2 t' (List.mem_range.2 (List.getElem?_eq_some_iff.1 hc).1)
  simpa [underWay, hc, ht] using this

theorem standing_step (he : Enrolled cs pool) {m : Move} {c : Client} (hc : (cs ++ m.started)[t]? = some c) :
    standing scope t (pool.step m.action).trace = .fresh ∨
      cs[t]? = some c ∧
        (standing scope t (pool.step m.action).trace = standing scope t pool.trace ∧
            (pool.step m.action).threads[t]? = pool.threads[t]? ∨
          ∃ env q next, m = .run t env ∧ pool.threads[t]? = some (.ask q next) ∧
            standing scope t (pool.step m.action).trace =
              (authorityDiscipline scope).next (standing scope t pool.trace) q (answer env q pool.world).1) :=
  ghost_move he m hc

theorem generation_step {m : Move} (hok : undisturbed cs pool m = true)
    {q : Request} {next : Answer q → Service Unit} (hc : cs[t]? = some (.node depth host scope inputText))
    (ht : pool.threads[t]? = some (.ask q next)) (hs : standing scope t pool.trace ≠ .fresh) :
    (pool.step m.action).world.db.run.workflowGeneration = pool.world.db.run.workflowGeneration := by
  rcases generation_move pool m with hgen | ⟨t', env, stepId, generation, rfl, hq, hg⟩
  · exact hgen
  · exact absurd (fresh_of_undisturbed hok hq hg hc ht) hs

/-- **One move.** -/
theorem standings_step {m : Move} (hok : undisturbed cs pool m = true) (h : Standings cs pool) :
    Standings (cs ++ m.started) (pool.step m.action) := by
  refine ⟨enrolled_step h.enrolled m, numbered_step h.numbered m, fun scope t => ?_, ?_, ?_⟩
  · refine follows_move ?_ h.enrolled (h.follows scope t) m ?_
    · rintro c ⟨depth, host, inputText, rfl⟩
      refine Discipline.keeps_bind ((executeWorkflowGraphNode_keeps_authority depth host scope inputText).mono fun r g _ => ?_)
      rcases r with e | a <;> trivial
    · rintro c env q next hc ⟨depth, host, inputText, rfl⟩ rfl ht
      exact expects_of_undisturbed hok hc ht
  · intro t depth host scope inputText q next generation hc ht hgen
    rcases standing_step h.enrolled hc with hs | ⟨hc', ⟨hs, hth⟩ | ⟨env, q', next', rfl, ht', hs⟩⟩
    · rw [hs] at hgen
      cases hgen
    · rw [hs] at hgen
      rw [hth] at ht
      rw [generation_step hok hc' ht fun hf => by rw [hf] at hgen; cases hgen]
      exact h.generation t depth host scope inputText q next generation hc' ht hgen
    · rw [hs] at hgen
      rcases generationOf_next hgen with hold | ⟨rfl, hread⟩
      · rw [generation_step hok hc' ht' fun hf => by rw [hf] at hold; cases hold]
        exact h.generation t depth host scope inputText q' next' generation hc' ht' hold
      · rw [← hread]
        exact congrArg (fun w : World => w.db.run.workflowGeneration) (by simp only [Move.action, Pool.step, ht']; rfl)
  · intro t depth host scope inputText hc hs
    have hstays : ∀ a ∈ pool.world.db.attempts, a.key = authorityKey scope →
        a.graphActivationId = some scope.activation.activationId →
        ∃ b ∈ (pool.step m.action).world.db.attempts, b.key = authorityKey scope ∧
          b.graphActivationId = some scope.activation.activationId := fun a ha hk hactivation => by
      obtain ⟨b, hb, hab⟩ := advances_step pool m ha
      exact ⟨b, hb, hab.key.trans hk, hab.activation.trans hactivation⟩
    have hold : cs[t]? = some (.node depth host scope inputText) → standing scope t pool.trace = .verified →
        ∃ b ∈ (pool.step m.action).world.db.attempts, b.key = authorityKey scope ∧
          b.graphActivationId = some scope.activation.activationId := fun hc' hs' => by
      obtain ⟨a, ha, hk, hactivation⟩ := h.attempt t depth host scope inputText hc' hs'
      exact hstays a ha hk hactivation
    rcases standing_step h.enrolled hc with hs' | ⟨hc', ⟨hs', _⟩ | ⟨env, q, next, rfl, ht, hs'⟩⟩
    · rw [hs] at hs'
      cases hs'
    · exact hold hc' (hs'.symm.trans hs)
    · rcases verified_next (hs'.symm.trans hs) with hv | ⟨rfl, a, ha, hk⟩
      · exact hold hc' hv
      · have hmem := List.mem_filter.1 (List.mem_of_getLast? ha)
        simp only [Database.ofStep, Option.isNone_some, Bool.false_or, Bool.and_eq_true, beq_iff_eq] at hmem
        exact hstays a ((List.mem_insertionSort _).1 hmem.1) hk hmem.2.2

theorem guard_attemptOf {db : Database} {u : AttemptUpdate} {a : StepAttempt} {key : AttemptKey} (h : attemptOf u = some key)
    (hg : u.guard db a = true) : a.key = key := by
  cases u <;> cases h <;> simp only [AttemptUpdate.guard, Bool.and_eq_true, beq_iff_eq] at hg <;> simp_all

theorem acted_named {db : Database} {key : AttemptKey} (hnames : Names (authorityKey scope) q)
    (hfinds : findsNamed scope db q = true) (hact : key ∈ acted db q) : key = authorityKey scope := by
  rcases q with _ | _ | _ | _ | _ | u | i | _ | _ | _ | _ | _ | _ | _ | _ | _ | _ | call | ⟨taskId, call⟩ | _
  case start =>
    obtain rfl := List.mem_singleton.1 hact
    simpa [Names] using hnames
  case check =>
    obtain rfl := List.mem_singleton.1 hact
    simpa [Names] using hnames
  case updateAttempts =>
    rcases hu : attemptOf u with _ | key'
    · obtain rfl : u = .cancelAll := by cases u <;> first | rfl | cases hu
      simp only [findsNamed, List.all_eq_true] at hfinds
      exact beq_iff_eq.1 (hfinds key hact)
    · obtain ⟨a, ha, rfl⟩ := List.mem_map.1 hact
      have hk : key' = authorityKey scope := by simpa [Names, hu] using hnames
      rw [← hk]
      exact guard_attemptOf hu (List.mem_filter.1 ha).2
  case insertAttempts =>
    rcases i with _ | ⟨prior, activationId⟩ | prior
    · cases hact
    · obtain rfl := List.mem_singleton.1 hact
      simpa [Names] using hnames
    · cases hnames
  all_goals cases hact

/-- **Node calls act on the attempt of their authority.** Over every run in which a call whose authority was verified
finds its attempt still the latest of the activation whenever it reads the attempts, cancels no other open attempt with
the run, and no call is under way when a manual retry opens the next generation: whatever a call starts, polls or writes
on is the attempt its authority names, and the run is in the generation of the authority. -/
theorem authority_exact (w : World) (hw : w.db.attempts = []) (moves : List Move) (t : ℕ) (env : Env)
    (hm : Watched undisturbed [] (Pool.init w) (moves ++ [.run t env])) (depth : ℕ) (host : NodeHost)
    (scope : NodeAuthority) (inputText : String) (hc : (clients moves)[t]? = some (.node depth host scope inputText))
    (q : Request) (hq : asks (after w moves) (.run t env) = some q) (key : AttemptKey)
    (hact : key ∈ acted (after w moves).world.db q) :
    key = authorityKey scope ∧
      (∀ a ∈ (after w moves).world.db.attempts, a.key = key →
        a.graphActivationId = some scope.activation.activationId) ∧
      (after w moves).world.db.run.workflowGeneration = scope.workflowGeneration := by
  obtain ⟨hm, hok⟩ : _ ∧ undisturbed (clients moves) (after w moves) (.run t env) = true := watched_concat.1 hm
  have h : Standings (clients moves) (after w moves) := run_watched (standings_init hw)
    (fun _ _ _ hok h => standings_step hok h) hm
  generalize clients moves = cs at *
  generalize after w moves = pool at *
  obtain ⟨next, ht⟩ := thread_of_asks hq
  obtain ⟨hnames, hverified⟩ := (h.follows scope t _ hc ⟨depth, host, inputText, rfl⟩ _ ht).1
  have hs : standing scope t pool.trace = .verified := hverified (by
    rcases q with _ | _ | _ | _ | _ | _ | i | _ <;> first | rfl | cases hact)
  have hkey : key = authorityKey scope := by
    refine acted_named hnames ?_ hact
    simp only [undisturbed, hq, hc, Bool.and_eq_true] at hok
    simpa [hs] using hok.1
  obtain ⟨b, hb, hbk, hactivation⟩ := h.attempt t depth host scope inputText hc hs
  refine ⟨hkey, fun a ha hak => ?_, h.generation t depth host scope inputText q next _ hc ht (by rw [hs]; rfl)⟩
  rw [h.numbered.history.eq_of_key ha hb (hak.trans (hkey.trans hbk.symm))]
  exact hactivation

/-- The call for the first attempt claims it. -/
theorem sampleCall_exact :
    asks (after (createdRun sampleSnapshot) (admittedRun ++ .client (sampleCall 1 1) :: runs 2 7 (admittingEnv 5)))
        (.run 2 (admittingEnv 5)) = some (.updateAttempts (.claim ⟨"a", 1, 1⟩ "go" 5)) ∧
      (after (createdRun sampleSnapshot)
        (admittedRun ++ .client (sampleCall 1 1) :: runs 2 7 (admittingEnv 5))).world.db.run.workflowGeneration = 1 :=
  ⟨by decide +kernel, (authority_exact _ rfl _ 2 (admittingEnv 5) (by decide +kernel) 2 plainHost ⟨⟨"a", "x"⟩, 1, 1,
    1⟩ "go" rfl
    (.updateAttempts (.claim ⟨"a", 1, 1⟩ "go" 5)) (by decide +kernel) ⟨"a", 1, 1⟩ (by decide +kernel)).2.2⟩

/-- A call for the first attempt is verified and rests.  Another one has that attempt refused by the provider, and the run
fails; it is retried, which opens the second generation.  Then the first call goes on. -/
def restingCall : List Move :=
  admittedRun ++ .client (sampleCall 1 1) :: runs 2 2 (admittingEnv 5) ++
  .client (sampleCall 1 1) :: runs 3 25 (refusingEnv 5) ++
  .client .retry :: runs 4 14 (admittingEnv 10) ++
  runs 2 12 (admittingEnv 15)

/-- It starts the second attempt. -/
theorem restingCall_astray :
    standing ⟨⟨"a", "x"⟩, 1, 1, 1⟩ 2 (after (createdRun sampleSnapshot) restingCall).trace = .verified ∧
      ((asks (after (createdRun sampleSnapshot) restingCall) (.run 2 (admittingEnv 15))).any fun q =>
        match q with
        | .start call => call.key == ⟨"a", 1, 2⟩
        | _ => false) = true ∧
      (after (createdRun sampleSnapshot) restingCall).world.db.run.workflowGeneration = 2 := by
  decide +kernel

end System

end ADT.Durable
