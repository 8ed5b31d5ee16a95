import ADT.Durable.Issues

/-!
# Durable.StartDiscipline — a turn starts only the attempt it claimed

The discipline of `claimGraphNode`: its statement claims an attempt, the read after it hands the attempt on, and
`runtime.start` is called with it.  `executeDurableGraphNodeTurn_keeps` says that every turn keeps it, given
that the read after a claim finds the attempt that was claimed.
-/

namespace ADT.Durable

open Workflow Interleave Storage

/-! ### The discipline of a claim -/

/-- What a turn knows of a claim: nothing, the attempt its statement claimed, or that attempt read back. -/
inductive Phase
  | idle
  | claimed (key : AttemptKey)
  | holding (key : AttemptKey)

/-- The statements that neither bring a cancelled run back nor clear its failure. -/
def keepsVerdict (u : RunUpdate) : Bool := !settles u

/-- A start needs the attempt it is for; the read after a claim is counted on to find the attempt claimed. -/
def startDiscipline : Discipline signature Phase where
  needs g q :=
    match q with
    | .start call => g = .holding call.key
    | .updateRun u => keepsVerdict u
    | _ => True
  expects g q a :=
    match q, a with
    | .selectLatest _ _, a => ∀ key, g = .claimed key → ∀ row, a = some row → row.key = key
    | _, _ => True
  next g q a :=
    match q, a with
    | .updateAttempts (.claim key _ _), a => if a then .claimed key else g
    | .selectLatest _ _, _ =>
      match g with
      | .claimed key => .holding key
      | g => g
    | .start _, _ => .idle
    | _, _ => g

def plain : Request → Bool
  | .start _ | .selectLatest _ _ | .updateAttempts (.claim ..) => false
  | .updateRun u => keepsVerdict u
  | _ => true

/-- The requests the discipline has no say in. -/
def Plain (q : Request) : Prop := plain q

theorem ignores_of_plain (q : Request) (h : Plain q) : startDiscipline.Ignores q := by
  refine ⟨fun g => ?_, fun g a => ?_⟩
  · rcases q <;> first | exact h | exact trivial | exact absurd h (by simp [Plain, plain])
  · rcases q with _ | _ | _ | _ | _ | u | _ <;> try rfl
    · exact absurd h (by simp [Plain, plain])
    · cases u <;> first | rfl | exact absurd h (by simp [Plain, plain])
    · exact absurd h (by simp [Plain, plain])

/-- The service issues plain requests only. -/
abbrev PlainService {α : Type} (p : Service α) : Prop := p.Issues Plain

instance : AdmitsReads Plain := by constructor <;> intros <;> exact rfl

instance : AdmitsResult Plain := ⟨fun _ _ => rfl⟩

instance (key : AttemptKey) : AdmitsWork Plain key := by constructor <;> intros <;> exact rfl

instance (key : AttemptKey) : AdmitsCompletion Plain key := ⟨fun _ _ => rfl⟩

instance : AdmitsRetries Plain := ⟨fun _ _ _ => rfl⟩

variable (input : TurnInput) (detail : RunDetail) (a : StepAttempt) (g : Phase) {α : Type} {p : Service α}

/-! ### The turn keeps the discipline -/

theorem claimGraphNode_keeps (stepId input : String) (activationId : Option String) :
    startDiscipline.Keeps (claimGraphNode stepId input activationId) g fun r g' =>
      ∀ claim, r = .ok claim → claim.claimed = true → g' = .holding claim.attempt.key := by
  refine And.intro trivial fun now _ => And.intro trivial fun current _ => ?_
  rcases current with _ | current
  · rintro claim ⟨⟩
  refine And.intro trivial fun claimed _ => ?_
  rcases claimed with _ | _
  · refine And.intro trivial fun reread _ => ?_
    rcases reread with _ | reread
    · rintro claim ⟨⟩
    · show startDiscipline.Keeps (if !false && reread.status == .pending then _ else _) _ _
      split
      · refine And.intro trivial fun run _ => And.intro trivial fun attempts _ => ?_
        show startDiscipline.Keeps (if run.failureCode.isSome then _ else _) _ _
        split
        · rintro claim ⟨⟩ ⟨⟩
        · rintro claim ⟨⟩
      · rintro claim ⟨⟩ ⟨⟩
  · refine And.intro rfl fun _ _ => And.intro trivial fun reread hreread => ?_
    rcases reread with _ | reread
    · rintro claim ⟨⟩
    · rintro claim ⟨⟩ _
      rw [hreread _ rfl _ rfl]
      rfl

theorem plain_keeps (hp : PlainService p) (g : Phase) : startDiscipline.Keeps p g fun _ _ => True :=
  Discipline.keeps_of_issues (hp.mono ignores_of_plain) fun _ => trivial

theorem plain_bind_keeps {β : Type} {f : α → Service β} {g : Phase} (hp : PlainService p)
    (hf : ∀ a, p.Returns a → startDiscipline.Keeps (f a) g fun _ _ => True) :
    startDiscipline.Keeps (p >>= f) g fun _ _ => True :=
  Discipline.keeps_bind_of_issues (hp.mono ignores_of_plain) hf fun _ => trivial

theorem plain_catch_keeps {f : Thrown → Service α} {g : Phase}
    (hp : startDiscipline.Keeps p g fun _ _ => True) (hf : ∀ e, PlainService (f e)) :
    startDiscipline.Keeps (tryCatch p f) g fun _ _ => True := by
  refine Discipline.keeps_tryCatch (hp.mono fun r g' _ => ?_)
  rcases r with e | a
  · exact plain_keeps (hf e) g'
  · trivial

theorem startTurn_keeps : startDiscipline.Keeps (startTurn input a) (.holding a.key) fun _ _ => True := by
  refine plain_catch_keeps (plain_bind_keeps getRun_issues fun detail _ => ?_) fun e => by simp
  split
  · trivial
  split
  · trivial
  split
  · trivial
  refine plain_bind_keeps (durableInvocation_issues detail a) fun call hcall => ?_
  refine plain_bind_keeps (requireRuntime_issues _) fun _ _ => ?_
  refine And.intro (congrArg Phase.holding (durableInvocation_key hcall).symm) fun result _ => ?_
  -- the provider was called; nothing after it is a start
  show startDiscipline.Keeps (orThrow result >>= recordStart a) .idle _
  exact plain_bind_keeps (orThrow_issues result) fun r _ => plain_keeps (recordStart_issues r) .idle

theorem attemptTurn_keeps (ownsStart : Bool) (g : Phase) (h : ownsStart = true → g = .holding a.key) :
    startDiscipline.Keeps (attemptTurn input detail a ownsStart) g fun _ _ => True := by
  unfold attemptTurn
  split
  · by_cases ho : ownsStart = true
    · rw [if_pos ho, h ho]
      exact startTurn_keeps input a
    · rw [if_neg ho]
      exact plain_keeps (awaitStartTurn_issues detail) g
  · exact plain_keeps (pollTurn_issues input a) g
  · exact plain_keeps (failedTurn_issues input detail a) g
  · trivial

theorem claimTurn_keeps : startDiscipline.Keeps (claimTurn input detail) g fun _ _ => True := by
  unfold claimTurn
  split
  · trivial
  · refine Discipline.keeps_bind ((claimGraphNode_keeps g _ _ _).mono fun r g' hr => ?_)
    rcases r with e | claim
    · trivial
    · show startDiscipline.Keeps (if _ then _ else _) _ _
      split
      · trivial
      · split
        · refine plain_keeps ?_ g'
          simp
        · exact attemptTurn_keeps input detail claim.attempt claim.claimed g' (hr claim rfl)

theorem turnBody_keeps : startDiscipline.Keeps (turnBody input) g fun _ _ => True := by
  refine plain_bind_keeps getRun_issues fun detail _ => ?_
  split
  · trivial
  split
  · trivial
  split
  · trivial
  refine plain_bind_keeps (by simp [Plain, plain]) fun now _ => ?_
  split
  · exact plain_keeps (by simp) g
  split
  · trivial
  split
  · exact plain_keeps (by simp) g
  split
  · exact plain_keeps (by simp) g
  split
  · trivial
  · exact claimTurn_keeps input detail g
  · exact attemptTurn_keeps input detail _ false g (by simp)

theorem executeDurableGraphNodeTurn_keeps (depth : ℕ) (input : TurnInput) (g : Phase) :
    startDiscipline.Keeps (executeDurableGraphNodeTurn depth input) g fun _ _ => True := by
  induction depth generalizing g with
  | zero => trivial
  | succ depth ih =>
    refine Discipline.keeps_bind ((turnBody_keeps input g).mono fun r g' _ => ?_)
    rcases r with e | (result | ⟨category, message⟩)
    · trivial
    · trivial
    · exact plain_bind_keeps (recordGraphFailure_issues category message) fun _ _ => ih g'

end ADT.Durable
