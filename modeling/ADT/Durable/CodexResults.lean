import ADT.Durable.CodexRunner
import ADT.Durable.ManualRetry

/-!
# Durable.CodexResults — which Runner job an attempt has its output from

The task id of an attempt is written where a start is answered with a job under way; an attempt that is completed by the
answer of its start has none.  `resultDiscipline` follows a client with what it was told: it completes an attempt only with
what a start or a check reported for it, or as a publication.  Where no job is completed already when its start is
answered, every succeeded attempt of a Codex agent names its job (`codex_results_recorded`).
-/

namespace ADT.Durable.System

open Workflow Interleave Storage

def codexRunner : String := "codex-runner"

/-- The adapter of a connection, as it was frozen with the run. -/
def adapterOf (snapshot : RunSnapshot) (connectionKey : String) : Option String :=
  (snapshot.connectionSnapshots.find? (·.1 == connectionKey)).map (·.2)

def blockTypeOf (snapshot : RunSnapshot) (nodeId : String) : Option String :=
  (snapshot.executionPlan.nodes.find? (·.id == nodeId)).map (·.blockType)

/-- The attempt is of an agent node, whose connection is one of the Codex Runner. -/
def codexAgent (snapshot : RunSnapshot) (a : StepAttempt) : Bool :=
  blockTypeOf snapshot a.key.stepId == some "agent" && adapterOf snapshot a.connectionKey == some codexRunner

/-! ### What a client is told -/

inductive Told
  | read (a : StepAttempt)
  | started (call : AdapterInvocation) (output : String)
  | checked (task : Option String) (call : AdapterInvocation) (output : String)

/-- The rows that were read, and the outputs that providers reported. -/
def told : (q : Request) → Answer q → Set Told
  | .selectAttempts, rows => {f | ∃ a ∈ rows, f = .read a}
  | .selectLatest _ _, row | .selectAttempt _, row => {f | ∃ a, row = some a ∧ f = .read a}
  | .start call, result =>
    {f | ∃ output url diagnostics, result = .ok ⟨.completed output url, diagnostics⟩ ∧ f = .started call output}
  | .check task call, result => {f | ∃ output url, result = .ok (.completed output url) ∧ f = .checked task call output}
  | _, _ => ∅

/-- The output was reported for the attempt, to a start or to a check of its task; or the attempt is a publication. -/
def Founded (snapshot : RunSnapshot) (known : Set Told) (key : AttemptKey) (output : String) : Prop :=
  ∃ a, .read a ∈ known ∧ a.key = key ∧ (blockTypeOf snapshot key.stepId = some "publish-github-pr" ∨
    ∃ call, call.key = key ∧ adapterOf snapshot a.connectionKey = some call.adapter ∧
      (.started call output ∈ known ∨ ∃ task, .checked task call output ∈ known ∧
        ∀ id, task = some id → ∃ b, .read b ∈ known ∧ b.key = key ∧ b.providerTaskId = some id))

theorem Founded.mono {snapshot : RunSnapshot} {known known' : Set Told} {key : AttemptKey} {output : String}
    (h : Founded snapshot known key output) (hsub : known ⊆ known') : Founded snapshot known' key output := by
  obtain ⟨a, ha, hk, hp | ⟨call, hcall, hadapter, hs | ⟨task, hc, htask⟩⟩⟩ := h
  · exact ⟨a, hsub ha, hk, .inl hp⟩
  · exact ⟨a, hsub ha, hk, .inr ⟨call, hcall, hadapter, .inl (hsub hs)⟩⟩
  · refine ⟨a, hsub ha, hk, .inr ⟨call, hcall, hadapter, .inr ⟨task, hsub hc, fun id hid => ?_⟩⟩⟩
    obtain ⟨b, hb, hbk, hbt⟩ := htask id hid
    exact ⟨b, hsub hb, hbk, hbt⟩

/-- The attempt and the output a request completes it with. -/
def completing : Request → Option (AttemptKey × String)
  | .updateAttempts (.complete key output _) => some (key, output)
  | _ => none

def expected (snapshot : RunSnapshot) : (q : Request) → Answer q → Prop
  | .selectRun, run => run.snapshot = snapshot
  | .selectLatest stepId _, row => ∀ a, row = some a → a.key.stepId = stepId
  | _, _ => True

/-- A client completes an attempt only with an output that is founded on what it was told. -/
def resultDiscipline (snapshot : RunSnapshot) : Discipline signature (Set Told) :=
  Discipline.remembering told
    (fun known q => ∀ key output, completing q = some (key, output) → Founded snapshot known key output)
    (expected snapshot)

def Idle (q : Request) : Prop := completing q = none

abbrev IdleService {α : Type} (p : Service α) : Prop := p.Issues Idle

instance : AdmitsReads Idle := by constructor <;> intros <;> exact rfl

instance : AdmitsResult Idle := ⟨fun _ _ => rfl⟩

instance (key : AttemptKey) : AdmitsWork Idle key := by constructor <;> intros <;> exact rfl

instance : AdmitsClaims Idle := by constructor <;> intros <;> exact rfl

instance : AdmitsRetries Idle := ⟨fun _ _ _ => rfl⟩

theorem idle_of_launching (q : Request) (h : Launching q) : Idle q := by
  unfold Launching launching at h
  split at h
  · rfl
  · rfl
  · unfold Idle completing
    split
    · cases h
    · rfl

/-! ### Node calls complete what they were told -/

section Results

variable {snapshot : RunSnapshot} {known : Set Told} {α : Type}

/-- From what it knows on, the service completes attempts with founded outputs only. -/
abbrev Founds (snapshot : RunSnapshot) (p : Service α) (known : Set Told) : Prop :=
  (resultDiscipline snapshot).Keeps p known fun _ _ => True

variable {p : Service α} {Q : Except Thrown α → Set Told → Prop} {detail : RunDetail} {a : StepAttempt}
  {input : TurnInput} {host : NodeHost} {scope : NodeAuthority} {inputText : String}

theorem needs_of_idle (hp : IdleService p) :
    p.Issues fun q => ∀ known : Set Told, ∀ key output, completing q = some (key, output) →
      Founded snapshot known key output := by
  refine hp.mono fun q hq known key output h => ?_
  rw [hq] at h
  cases h

theorem founds_idle (hp : IdleService p) : Founds snapshot p known :=
  (Discipline.remembers_of_needs (needs_of_idle hp)).mono fun _ _ _ => trivial

theorem founds_bind {β : Type} {f : α → Service β} (hp : IdleService p)
    (hf : ∀ a known', known ⊆ known' → p.Returns a → Founds snapshot (f a) known') : Founds snapshot (p >>= f) known :=
  Discipline.remembers_bind (needs_of_idle hp) hf

theorem founds_tryCatch {f : Thrown → Service α} (hp : Founds snapshot p known)
    (hf : ∀ e, IdleService (f e)) : Founds snapshot (tryCatch p f) known :=
  Discipline.remembers_tryCatch hp fun e => needs_of_idle (hf e)

theorem founds_then {β : Type} {f : α → Service β} (hp : Founds snapshot p known)
    (hf : ∀ a, IdleService (f a)) : Founds snapshot (p >>= f) known :=
  Discipline.remembers_then hp fun a => needs_of_idle (hf a)

theorem founds_ask {q : Request} {next : Answer q → Service α} (hq : Idle q)
    (h : ∀ a, expected snapshot q a → (resultDiscipline snapshot).Keeps (next a) (known ∪ told q a) Q) :
    (resultDiscipline snapshot).Keeps (.ask q next) known Q := by
  refine And.intro (fun key output hc => ?_) h
  rw [hq] at hc
  cases hc

theorem founds_getRun {f : RunDetail → Service α}
    (h : ∀ detail known', known ⊆ known' → detail.run.snapshot = snapshot →
      (∀ a ∈ detail.attempts, Told.read a ∈ known') → (resultDiscipline snapshot).Keeps (f detail) known' Q) :
    (resultDiscipline snapshot).Keeps (getRun >>= f) known Q := by
  refine founds_ask rfl fun run hrun => founds_ask rfl fun rows _ => ?_
  refine h ⟨run, rows⟩ _ (Set.subset_union_left.trans Set.subset_union_left) hrun fun a ha => ?_
  exact .inr ⟨a, ha, rfl⟩

/-- What follows a claim may rest on the attempt it read. -/
theorem founds_claim {f : NodeClaim → Service α} {stepId input : String} {activationId : Option String}
    (h : ∀ claim known', known ⊆ known' → Told.read claim.attempt ∈ known' → claim.attempt.key.stepId = stepId →
      Founds snapshot (f claim) known') :
    Founds snapshot (claimGraphNode stepId input activationId >>= f) known := by
  have hclaim : ∀ known, (resultDiscipline snapshot).Keeps (claimGraphNode stepId input activationId) known
      fun r known' => known ⊆ known' ∧ ∀ claim, r = .ok claim →
        Told.read claim.attempt ∈ known' ∧ claim.attempt.key.stepId = stepId := by
    intro known
    have hread : ∀ claimed known₁, known ⊆ known₁ → (resultDiscipline snapshot).Keeps
        (do
          let attempt ← latest stepId activationId
          if !claimed && attempt.status == .pending then
            let detail ← getRun
            if detail.run.failureCode.isSome then
              return ⟨attempt, claimed⟩
            error "invalid_step_claim"
          else
            return ⟨attempt, claimed⟩ : Service NodeClaim) known₁ fun r known' =>
        known ⊆ known' ∧ ∀ claim, r = .ok claim →
          Told.read claim.attempt ∈ known' ∧ claim.attempt.key.stepId = stepId := by
      intro claimed known₁ hsub
      refine founds_ask rfl fun row hrow => ?_
      have hsub' : known ⊆ known₁ ∪ told (.selectLatest stepId activationId) row := hsub.trans Set.subset_union_left
      rcases row with _ | a
      · exact ⟨hsub', fun claim hc => by cases hc⟩
      · have ha : Told.read a ∈ known₁ ∪ told (.selectLatest stepId activationId) (some a) := .inr ⟨a, rfl, rfl⟩
        show (resultDiscipline snapshot).Keeps (if !claimed && a.status == .pending then _ else _) _ _
        split
        · refine founds_ask rfl fun run _ => founds_ask rfl fun rows _ => ?_
          have hsub₃ : known₁ ∪ told (.selectLatest stepId activationId) (some a) ⊆
              known₁ ∪ told (.selectLatest stepId activationId) (some a) ∪ told .selectRun run ∪
                told .selectAttempts rows := Set.subset_union_left.trans Set.subset_union_left
          show (resultDiscipline snapshot).Keeps (if run.failureCode.isSome then _ else _) _ _
          split
          · refine ⟨hsub'.trans hsub₃, ?_⟩
            rintro claim ⟨⟩
            exact ⟨hsub₃ ha, hrow a rfl⟩
          · exact ⟨hsub'.trans hsub₃, fun claim hc => by cases hc⟩
        · refine ⟨hsub', ?_⟩
          rintro claim ⟨⟩
          exact ⟨ha, hrow a rfl⟩
    refine founds_ask rfl fun now _ => founds_ask rfl fun current _ => ?_
    rcases current with _ | current
    · exact ⟨Set.subset_union_left.trans Set.subset_union_left, fun claim hc => by cases hc⟩
    · refine founds_ask rfl fun claimed _ => ?_
      have hsub : known ⊆ known ∪ told .now now ∪ told (.selectLatest stepId activationId) (some current) ∪
          told (.updateAttempts (.claim current.key input now)) claimed :=
        (Set.subset_union_left.trans Set.subset_union_left).trans Set.subset_union_left
      rcases claimed with _ | _
      · exact hread false _ hsub
      · exact founds_ask rfl fun entered _ => hread true _ (hsub.trans Set.subset_union_left)
  refine Discipline.keeps_bind ((hclaim known).mono fun r known' hr => ?_)
  rcases r with e | claim
  · trivial
  · exact h claim known' hr.1 (hr.2 claim rfl).1 (hr.2 claim rfl).2

theorem founds_completeStep {key : AttemptKey} {output : String} {url : Option String}
    (h : Founded snapshot known key output) : Founds snapshot (completeStep key output url) known := by
  refine founds_bind (attempt_issues key) fun old known' hsub _ => ?_
  split
  · exact founds_idle (by simp [error])
  · refine And.intro (fun key' output' hc => ?_) fun done _ => founds_idle (changed_issues done _)
    obtain ⟨rfl, rfl⟩ : key = key' ∧ output = output' := by simpa [completing] using hc
    exact h.mono hsub

theorem durableInvocation_adapter {call : AdapterInvocation} (h : (durableInvocation detail a).Returns call) :
    adapterOf detail.run.snapshot a.connectionKey = some call.adapter := by
  obtain ⟨answered, _, h⟩ := Prog.returns_bind.1 h
  obtain ⟨live, _, h⟩ := Prog.returns_bind.1 h
  dsimp only at h
  split at h
  · cases h
  · rename_i hlive
    split at h
    · cases h
    · obtain ⟨-, connectionKey, hfind⟩ : live.enabled = true ∧ ∃ connectionKey,
          detail.run.snapshot.connectionSnapshots.find? (·.1 == a.connectionKey) = some (connectionKey, live.adapter) := by
        simpa using hlive
      have hcall : live.adapter = call.adapter := congrArg AdapterInvocation.adapter h
      rw [adapterOf, hfind, ← hcall]
      rfl

theorem founds_check {detail : RunDetail} {a : StepAttempt} {task : Option String} {f : CheckResult → Service α}
    (hd : detail.run.snapshot = snapshot) (ha : Told.read a ∈ known)
    (htask : ∀ id, task = some id → ∃ b, Told.read b ∈ known ∧ b.key = a.key ∧ b.providerTaskId = some id)
    (hf : ∀ result known', (∀ output url, result = .completed output url → Founded snapshot known' a.key output) →
      Founds snapshot (f result) known') :
    Founds snapshot (do
      let call ← durableInvocation detail a
      requireRuntime call.adapter
      let result ← orThrow (← request (.check task call))
      f result) known := by
  refine founds_bind (durableInvocation_issues detail a) fun call known₁ hsub₁ hcall => ?_
  refine founds_bind (requireRuntime_issues _) fun _ known₂ hsub₂ _ => ?_
  refine founds_ask rfl fun answered _ => ?_
  show Founds snapshot (orThrow answered >>= f) _
  rcases answered with e | result
  · trivial
  · refine hf result _ ?_
    rintro output url rfl
    have hknown : known ⊆ known₂ ∪ told (.check task call) (.ok (.completed output url)) :=
      (hsub₁.trans hsub₂).trans Set.subset_union_left
    refine ⟨a, hknown ha, rfl, .inr ⟨call, durableInvocation_key hcall, hd ▸ durableInvocation_adapter hcall,
      .inr ⟨task, .inr ⟨output, url, rfl, rfl⟩, fun id hid => ?_⟩⟩⟩
    obtain ⟨b, hb, hbk, hbt⟩ := htask id hid
    exact ⟨b, hknown hb, hbk, hbt⟩

theorem founds_startTurn (ha : Told.read a ∈ known) : Founds snapshot (startTurn input a) known := by
  refine founds_tryCatch (founds_getRun fun detail known₁ hsub₁ hd _ => ?_) fun e => by simp
  split
  · trivial
  split
  · trivial
  split
  · trivial
  refine founds_bind (durableInvocation_issues detail a) fun call known₂ hsub₂ hcall => ?_
  refine founds_bind (requireRuntime_issues _) fun _ known₃ hsub₃ _ => ?_
  refine founds_ask rfl fun answered _ => ?_
  show Founds snapshot (orThrow answered >>= recordStart a) _
  rcases answered with e | ⟨state, diagnostics⟩
  · trivial
  · have hstate : ∀ known₄, known₃ ∪ told (.start call) (.ok ⟨state, diagnostics⟩) ⊆ known₄ →
        Founds snapshot (persistStart a state) known₄ := by
      intro known₄ hsub₄
      rcases state with ⟨taskId, delay, providerState, output, url⟩ | ⟨output, url⟩
      · exact founds_idle (by simp [persistStart])
      · show Founds snapshot (if maxText < byteLength output then _ else _) _
        split
        · trivial
        · refine founds_then (founds_completeStep ?_) fun _ => trivial
          refine ⟨a, hsub₄ (.inl (hsub₃ (hsub₂ (hsub₁ ha)))), rfl, .inr ⟨call, durableInvocation_key hcall,
            hd ▸ durableInvocation_adapter hcall, .inl (hsub₄ (.inr ⟨output, url, diagnostics, rfl, rfl⟩))⟩⟩
    show Founds snapshot (recordStart a ⟨state, diagnostics⟩) _
    unfold recordStart
    split
    · exact founds_bind (recordProviderDiagnostics_issues) fun _ known₄ hsub₄ _ => hstate known₄ hsub₄
    · exact hstate _ subset_rfl

theorem founds_pollTurn {input : TurnInput} {a : StepAttempt} (ha : Told.read a ∈ known) :
    Founds snapshot (pollTurn input a) known := by
  unfold pollTurn
  split
  · trivial
  refine founds_ask rfl fun now _ => ?_
  show Founds snapshot (if pollingExceeded a now then _ else _) _
  split
  · exact founds_idle (by simp)
  -- the read after the poll count is of the latest attempt, which may be another one by now
  refine Discipline.keeps_bind (Discipline.keeps_tryCatch (Discipline.keeps_bind
    ((Discipline.remembers_of_needs (needs_of_idle (incrementPollCount_issues (storedDelay a)))).mono
      fun r known₁ hr => ?_)))
  rcases r with e | polls
  · exact founds_idle (failThrown_issues e)
  refine founds_getRun fun detail known₂ hsub₂ hd hrows => ?_
  have hlast : Told.read ((detail.last? input.nodeId input.activationId).getD a) ∈ known₂ := by
    rcases hl : detail.last? input.nodeId input.activationId with _ | b
    · exact hsub₂ (hr.1 (.inl ha))
    · exact hrows b (List.mem_of_mem_filter (List.mem_of_getLast? hl))
  refine founds_tryCatch (founds_check hd hlast (fun id hid => ⟨_, hlast, rfl, hid⟩) fun result known₃ hfounded => ?_)
    fun e => failThrown_issues e
  split
  · rename_i output url
    split
    · trivial
    · exact founds_then (founds_completeStep (hfounded output url rfl)) fun _ => trivial
  · exact founds_idle (by simp)
  · exact founds_idle (by simp)

theorem founds_settleSibling {a : StepAttempt} {task : String} (ha : Told.read a ∈ known)
    (htask : a.providerTaskId = some task) : Founds snapshot (settleSibling a task) known := by
  refine founds_tryCatch (founds_bind (incrementPollCount_issues _) fun _ known₁ hsub₁ _ =>
    founds_getRun fun detail known₂ hsub₂ hd hrows => ?_) fun e => by simp
  have hfound : Told.read ((detail.attempts.find? (·.key == a.key)).getD a) ∈ known₂ ∧
      ((detail.attempts.find? (·.key == a.key)).getD a).key = a.key := by
    rcases hf : detail.attempts.find? (·.key == a.key) with _ | b
    · rw [hf]
      exact ⟨hsub₂ (hsub₁ ha), rfl⟩
    · rw [hf]
      exact ⟨hrows b (List.mem_of_find?_eq_some hf), by simpa using List.find?_some hf⟩
  refine founds_check hd hfound.1 (fun id hid => ⟨a, hsub₂ (hsub₁ ha), hfound.2.symm, htask.trans hid⟩)
    fun result known₃ hfounded => ?_
  split
  · rename_i output url
    split
    · trivial
    · exact founds_then (founds_completeStep (hfounded output url rfl)) fun _ => trivial
  · exact founds_idle (by simp)
  · exact founds_idle (by simp)

theorem founds_reconcile (ha : Told.read a ∈ known) : Founds snapshot (reconcileFailedGraphRun detail a) known := by
  unfold reconcileFailedGraphRun
  split
  · exact founds_idle (by simp [Idle, completing])
  · split
    · exact founds_idle (by simp)
    · rename_i task htask
      split
      · exact founds_idle (by simp)
      · refine founds_bind (cancelProviderTask_issues _ _ _) fun outcome known₁ hsub₁ _ => ?_
        split
        · exact founds_idle (by simp)
        · refine founds_ask rfl fun now _ => ?_
          show Founds snapshot (if pollingExceeded a now then _ else _) _
          split
          · exact founds_idle (by simp)
          · refine founds_then (founds_settleSibling (.inl (hsub₁ ha)) htask) fun settled => ?_
            split <;> simp

theorem founds_attemptTurn {ownsStart : Bool}
    (ha : Told.read a ∈ known) : Founds snapshot (attemptTurn input detail a ownsStart) known := by
  unfold attemptTurn
  split
  · split
    · exact founds_startTurn ha
    · exact founds_idle (awaitStartTurn_issues _)
  · exact founds_pollTurn ha
  · exact founds_idle (failedTurn_issues _ _ _)
  · trivial

theorem founds_claimTurn : Founds snapshot (claimTurn input detail) known := by
  unfold claimTurn
  split
  · trivial
  · refine founds_claim fun claim known₁ hsub₁ hread _ => ?_
    split
    · trivial
    · split
      · refine founds_getRun fun detail known₂ hsub₂ _ _ => ?_
        split
        · exact founds_then (founds_reconcile (hsub₂ hread)) fun _ => trivial
        · trivial
      · exact founds_attemptTurn hread

theorem founds_turnBody : Founds snapshot (turnBody input) known := by
  refine founds_getRun fun detail known₁ hsub₁ _ hrows => ?_
  split
  · trivial
  split
  · trivial
  split
  · trivial
  refine founds_bind (by simp [Idle, completing]) fun now known₂ hsub₂ _ => ?_
  split
  · exact founds_idle (by simp)
  split
  · trivial
  · rename_i a hlast
    have ha : Told.read a ∈ known₂ := hsub₂ (hrows a (List.mem_of_mem_filter (List.mem_of_getLast? hlast)))
    split
    · exact founds_idle (by simp)
    split
    · exact founds_then (founds_reconcile ha) fun _ => trivial
    split
    · trivial
    · exact founds_claimTurn
    · exact founds_attemptTurn ha

theorem founds_turn (depth : ℕ) : Founds snapshot (executeDurableGraphNodeTurn depth input) known := by
  induction depth generalizing known with
  | zero => trivial
  | succ depth ih =>
    refine Discipline.keeps_bind (founds_turnBody.mono fun r known₁ _ => ?_)
    rcases r with e | next
    · trivial
    · rcases next with result | ⟨category, message⟩
      · trivial
      · exact founds_bind (recordGraphFailure_issues _ _) fun _ _ _ _ => ih

/-! ### Publications -/

theorem founds_publishActive (ha : Told.read a ∈ known)
    (hpublish : blockTypeOf snapshot a.key.stepId = some "publish-github-pr") :
    Founds snapshot (publishActive host a) known := by
  refine founds_tryCatch ?_ fun e => by simp
  split
  · trivial
  · refine founds_getRun fun detail known₁ hsub₁ _ _ => ?_
    refine founds_bind (orThrow_issues _) fun published known₂ hsub₂ _ => ?_
    exact founds_then (founds_completeStep ⟨a, hsub₂ (hsub₁ ha), rfl, .inl hpublish⟩) fun _ => trivial

theorem founds_publishNode (ha : Told.read a ∈ known) (hstep : a.key.stepId = scope.activation.nodeId)
    (hpublish : blockTypeOf snapshot scope.activation.nodeId = some "publish-github-pr") :
    Founds snapshot (publishNode host scope inputText a) known := by
  unfold publishNode
  split
  · trivial
  · refine founds_claim fun claim known₁ hsub₁ hread hclaim => ?_
    split
    · trivial
    · exact founds_publishActive hread (hclaim ▸ hpublish)
  · refine founds_bind (orThrow_issues _) fun recovered known₁ hsub₁ _ => ?_
    split
    · exact founds_then (founds_completeStep ⟨a, hsub₁ ha, rfl, .inl (hstep ▸ hpublish)⟩) fun _ => trivial
    · exact founds_publishActive (hsub₁ ha) (hstep ▸ hpublish)
  · trivial

theorem founds_takeTurn {depth : ℕ} : Founds snapshot (takeTurn depth host scope inputText) known :=
  founds_bind (orThrow_issues _) fun _ _ _ _ => founds_turn depth

/-- **A node call completes attempts with founded outputs only.** -/
theorem founds_graphNode {depth : ℕ} : Founds snapshot (executeWorkflowGraphNode depth host scope inputText) known := by
  refine founds_getRun fun detail known₁ hsub₁ hd hrows => ?_
  split
  · rename_i a node hlast hnode
    have hmem := List.mem_filter.1 (List.mem_of_getLast? hlast)
    have hstep : a.key.stepId = scope.activation.nodeId := by
      have hof := hmem.2
      simp only [Database.ofStep, Bool.and_eq_true, beq_iff_eq] at hof
      exact hof.1
    split
    · trivial
    split
    · rename_i hblock
      refine founds_publishNode (hrows a hmem.1) hstep ?_
      rw [← hd, blockTypeOf, hnode]
      exact congrArg some hblock
    split
    · refine founds_bind (prepared_issues (fun _ => rfl) _ _ _) fun ready known₂ hsub₂ _ => ?_
      split
      · exact founds_takeTurn
      · exact founds_idle (conversationFailed_issues _ _ _)
    · exact founds_takeTurn
  · trivial

theorem founds_client (c : Client) : Founds snapshot c.service known := by
  by_cases hc : ∃ depth host scope inputText, c = .node depth host scope inputText
  · obtain ⟨depth, host, scope, inputText, rfl⟩ := hc
    exact founds_then founds_graphNode fun _ => trivial
  · refine founds_idle ((client_launches c fun d h s i heq => hc ⟨d, h, s, i, heq⟩).mono idle_of_launching)

end Results

/-! ### Runs against a Runner -/

/-- The outside, where the calls of the Codex adapter come to what the Runner and the network make of them. -/
def withRunner (env : Env) (runner : AdapterInvocation → RunnerAnswers) : Env :=
  { env with
    start := fun call => if call.adapter = codexRunner then runnerStart (runner call) call else env.start call
    check := fun task call => if call.adapter = codexRunner then runnerCheck (runner call) task else env.check task call }

/-- A client sets out, or one under way issues its next request. -/
inductive Turn
  | client (c : Client)
  | run (thread : ℕ) (env : Env) (runner : AdapterInvocation → RunnerAnswers)

def Turn.move : Turn → Move
  | client c => .client c
  | run t env runner => .run t (withRunner env runner)

/-- A job that is started is not completed already when its start is answered. -/
def startsUnfinished (pool : Services) : Turn → Bool
  | .client _ => true
  | .run t env runner =>
    match asks pool (.run t env) with
    | some (.start call) => call.adapter != codexRunner || !finishedAtStart (runner call) call
    | _ => true

def unfinished (pool : Services) : List Turn → Bool
  | [] => true
  | turn :: rest => startsUnfinished pool turn && unfinished (pool.step turn.move.action) rest

/-- The id is one of a job, and the output of the attempt is what a check of that job reported for it. -/
def Reported (trace : List (Event signature)) (a : StepAttempt) (id : String) : Prop :=
  isJobId id = true ∧ ∃ t call output url, ⟨t, .check (some id) call, .ok (.completed output url)⟩ ∈ trace ∧ call.key = a.key ∧
    a.outputText = some output

/-- The latest succeeded attempt of a step. -/
def lastSucceeded (detail : RunDetail) (stepId : String) : Option StepAttempt :=
  (detail.attempts.filter fun a => a.key.stepId == stepId && a.status == .succeeded).getLast?

/-- The succeeded attempt that `publishManagedPullRequest` publishes; `managed` says that the run has the agent and that
it is set to use a managed repository. -/
def managedCodexResult (detail : RunDetail) (managed : String → Bool) (stepId : String) : Except Thrown StepAttempt :=
  match lastSucceeded detail stepId with
  | some a =>
    if a.providerTaskId.any (· ≠ "") && managed a.agentId &&
        adapterOf detail.run.snapshot a.connectionKey == some codexRunner then .ok a
    else .error (.error "managed_codex_result_required")
  | none => .error (.error "managed_codex_result_required")

section Runs

variable {snapshot : RunSnapshot} {pool : Services} {w : World}

/-- What a client was told is true of the rows and of the events. -/
def Confirmed (pool : Services) : Told → Prop
  | .read a => ∃ b ∈ pool.world.db.attempts, Endures a b ∧ b.connectionKey = a.connectionKey
  | .started call _ => call.adapter ≠ codexRunner
  | .checked task call output => (call.adapter = codexRunner → ∃ id, task = some id ∧ isJobId id = true) ∧
      ∃ t url, ⟨t, .check task call, .ok (.completed output url)⟩ ∈ pool.trace

/-- The invariant of the runs. -/
structure Results (snapshot : RunSnapshot) (pool : Services) : Prop where
  numbered : Numbered pool
  kept : Pool.Kept (resultDiscipline snapshot) ∅ pool
  frozen : pool.world.db.run.snapshot = snapshot
  confirmed : ∀ t, ∀ fact ∈ Pool.ghost (resultDiscipline snapshot) ∅ t pool.trace, Confirmed pool fact
  recorded : ∀ a ∈ pool.world.db.attempts, a.status = .succeeded → codexAgent snapshot a = true →
    ∃ id, a.providerTaskId = some id ∧ Reported pool.trace a id

theorem results_init (hw : w.db.attempts = []) : Results w.db.run.snapshot (Pool.init w) where
  numbered := numbered_init hw
  kept := Pool.kept_init (M := machine) w
  frozen := rfl
  confirmed _ _ h := by cases h
  recorded a ha := by
    have hnone : a ∈ w.db.attempts := ha
    rw [hw] at hnone
    cases hnone

variable {a : StepAttempt} (m : Move)

theorem latestAttempt_mem {db : Database} {stepId : String} {activationId : Option String}
    (h : db.latestAttempt stepId activationId = some a) : a ∈ db.attempts ∧ a.key.stepId = stepId := by
  have hmem : a ∈ db.attempts.filter (Database.ofStep stepId activationId) := by
    unfold Database.latestAttempt at h
    split at h
    · exact List.argmax_mem h
    · exact List.argmax_mem h
  obtain ⟨ha, hof⟩ := List.mem_filter.1 hmem
  simp only [Database.ofStep, Bool.and_eq_true, beq_iff_eq] at hof
  exact ⟨ha, hof.1⟩

theorem expected_answer (env : Env) (w : World) (q : Request) (h : w.db.run.snapshot = snapshot) :
    expected snapshot q (answer env q w).1 := by
  unfold expected
  split
  · exact h
  · exact fun a ha => (latestAttempt_mem ha).2
  · trivial

theorem completes_of_succeeded {db : Database} {u : AttemptUpdate} (hg : u.guard db a = true)
    (hs : (u.set a).status = .succeeded) : ∃ output url, u = .complete a.key output url := by
  have hopen := AttemptUpdate.guard_open hg
  cases u
  case complete key output url =>
    simp only [AttemptUpdate.guard, Bool.and_eq_true, beq_iff_eq] at hg
    exact ⟨output, url, by rw [hg.1]⟩
  all_goals
    simp only [AttemptUpdate.set] at hs
    first
      | cases hs
      | simp [hs] at hopen

/-! ### One step -/

theorem trace_grows {e : Event signature} (h : e ∈ pool.trace) : e ∈ (pool.step m.action).trace := by
  rcases step_cases pool m with ⟨-, htrace⟩ | ⟨t, env, q, next, -, -, -, hs⟩
  · rw [htrace]
    exact h
  · rw [hs]
    exact List.mem_cons_of_mem _ h

theorem reported_step {id : String} (h : Reported pool.trace a id) : Reported (pool.step m.action).trace a id := by
  obtain ⟨hid, t, call, output, url, he, hcall, hout⟩ := h
  exact ⟨hid, t, call, output, url, trace_grows m he, hcall, hout⟩

theorem confirmed_step {fact : Told} (h : Confirmed pool fact) : Confirmed (pool.step m.action) fact := by
  rcases fact with a | ⟨call, output⟩ | ⟨task, call, output⟩
  · obtain ⟨b, hb, hab, hconn⟩ := h
    rcases step_cases pool m with ⟨hworld, -⟩ | ⟨t, env, q, next, -, -, -, hs⟩
    · exact ⟨b, by rw [hworld]; exact hb, hab, hconn⟩
    · rw [hs]
      obtain ⟨c, hc, rfl | ⟨u, hg, rfl⟩⟩ := effect_row (answer_effect env pool.world q) hb
      · exact ⟨_, hc, hab, hconn⟩
      · exact ⟨_, hc, hab.trans (AttemptUpdate.advances hg).toEndures, by rw [AttemptUpdate.set_connection, hconn]⟩
  · exact h
  · obtain ⟨htask, t, url, he⟩ := h
    exact ⟨htask, t, url, trace_grows m he⟩

/-- What a client is told is on record. -/
theorem confirmed_told {t : ℕ} {env : Env} {runner : AdapterInvocation → RunnerAnswers} {q : Request}
    {threads : List (Service Unit)} {trace : List (Event signature)}
    (hstart : ∀ call, q = .start call → call.adapter = codexRunner → finishedAtStart (runner call) call = false)
    {fact : Told} (h : fact ∈ told q (answer (withRunner env runner) q w).1) :
    Confirmed ⟨(answer (withRunner env runner) q w).2, threads, ⟨t, q, (answer (withRunner env runner) q w).1⟩ :: trace⟩
      fact := by
  cases q
  case selectAttempts =>
    obtain ⟨a, ha, rfl⟩ := h
    exact ⟨a, mem_ordered.1 ha, .refl a, rfl⟩
  case selectLatest stepId activationId =>
    obtain ⟨a, ha, rfl⟩ := h
    exact ⟨a, (latestAttempt_mem ha).1, .refl a, rfl⟩
  case selectAttempt key =>
    obtain ⟨a, ha, rfl⟩ := h
    exact ⟨a, List.mem_of_find?_eq_some ha, .refl a, rfl⟩
  case start call =>
    obtain ⟨output, url, diagnostics, hresult, rfl⟩ := h
    intro hadapter
    have hanswer : runnerStart (runner call) call = .ok ⟨.completed output url, diagnostics⟩ := by
      rw [← hresult]
      exact (if_pos hadapter).symm
    have hfinished := runnerStart_completed hanswer
    rw [hstart call rfl hadapter] at hfinished
    cases hfinished
  case check task call =>
    obtain ⟨output, url, hresult, rfl⟩ := h
    refine ⟨fun hadapter => ?_, t, url, ?_⟩
    · have hanswer : runnerCheck (runner call) task = .ok (.completed output url) := by
        rw [← hresult]
        exact (if_pos hadapter).symm
      exact runnerCheck_completed hanswer
    · rw [hresult]
      exact List.mem_cons_self ..
  all_goals cases h

theorem reported_of_founded {known : Set Told} (hh : History pool.world.db.attempts)
    (hk : ∀ fact ∈ known, Confirmed pool fact) {b : StepAttempt} (hb : b ∈ pool.world.db.attempts) {output : String}
    (hf : Founded snapshot known b.key output) (hcodex : codexAgent snapshot b = true) :
    ∃ id, b.providerTaskId = some id ∧ isJobId id = true ∧ ∃ t call url,
      ⟨t, .check (some id) call, .ok (.completed output url)⟩ ∈ pool.trace ∧ call.key = b.key := by
  simp only [codexAgent, Bool.and_eq_true, beq_iff_eq] at hcodex
  have hrow : ∀ c, .read c ∈ known → c.key = b.key → Endures c b ∧ b.connectionKey = c.connectionKey := by
    intro c hc hck
    obtain ⟨b', hb', hcb, hconn⟩ := hk _ hc
    obtain rfl : b' = b := hh.eq_of_key hb' hb (hcb.key.trans hck)
    exact ⟨hcb, hconn⟩
  obtain ⟨a, ha, hak, hp | ⟨call, hcall, hadapter, hs | ⟨task, hc, htask⟩⟩⟩ := hf
  · rw [hcodex.1] at hp
    exact absurd hp (by decide)
  all_goals
    have hrunner : call.adapter = codexRunner := by
      rw [← (hrow a ha hak).2, hcodex.2] at hadapter
      exact (Option.some.inj hadapter).symm
  · exact absurd hrunner (hk _ hs)
  · obtain ⟨hjob, t, url, he⟩ := hk _ hc
    obtain ⟨id, rfl, hid⟩ := hjob hrunner
    obtain ⟨c, hc', hck, hct⟩ := htask id rfl
    exact ⟨id, (hrow c hc' hck).1.task id hct, hid, t, call, url, he, hcall⟩

theorem recorded_step (h : Results snapshot pool) (m : Move)
    (ha : a ∈ (pool.step m.action).world.db.attempts) (hs : a.status = .succeeded)
    (hcodex : codexAgent snapshot a = true) :
    ∃ id, a.providerTaskId = some id ∧ Reported (pool.step m.action).trace a id := by
  have hold : a ∈ pool.world.db.attempts →
      ∃ id, a.providerTaskId = some id ∧ Reported (pool.step m.action).trace a id := by
    intro ha
    obtain ⟨id, hid, hr⟩ := h.recorded a ha hs hcodex
    exact ⟨id, hid, reported_step m hr⟩
  rcases step_cases pool m with ⟨hworld, -⟩ | ⟨t, env, q, next, -, hthread, -, hstep⟩
  · exact hold (hworld ▸ ha)
  · rw [hstep] at ha
    rcases effect_origin (answer_effect env pool.world q) ha with ha | ⟨u, b, rfl, hb, hg, rfl⟩ | hpending
    · exact hold ha
    · obtain ⟨output, url, rfl⟩ := completes_of_succeeded hg hs
      have hfounded : Founded snapshot (Pool.ghost (resultDiscipline snapshot) ∅ t pool.trace) b.key output :=
        (h.kept.threads t _ hthread).1 b.key output rfl
      obtain ⟨id, hid, hjob, t', call, url', he, hcall⟩ :=
        reported_of_founded h.numbered.history (h.confirmed t) hb hfounded hcodex
      exact ⟨id, hid, hjob, t', call, output, url', trace_grows m he, hcall, rfl⟩
    · rw [hpending] at hs
      cases hs

/-- **One step.** A turn in which no job is completed already when its start is answered keeps the invariant. -/
theorem results_step (h : Results snapshot pool) (turn : Turn) (hturn : startsUnfinished pool turn = true) :
    Results snapshot (pool.step turn.move.action) := by
  have hfrozen : (pool.step turn.move.action).world.db.run.snapshot = snapshot := by
    rcases step_cases pool turn.move with ⟨hworld, -⟩ | ⟨t, env, q, next, -, -, -, hstep⟩
    · rw [hworld]
      exact h.frozen
    · rw [hstep]
      exact (snapshot_stays env pool.world q).trans h.frozen
  have hadmits : Pool.Admits (resultDiscipline snapshot) ∅ pool turn.move.action := by
    rcases turn with c | ⟨t, env, runner⟩
    · exact founds_client c
    · exact fun q next _ => expected_answer _ _ q h.frozen
  refine ⟨numbered_step h.numbered turn.move, Pool.kept_step _ hadmits h.kept, hfrozen, fun t fact hfact => ?_,
    fun a ha hs hcodex => recorded_step h turn.move ha hs hcodex⟩
  rcases turn with c | ⟨t', env, runner⟩
  · exact confirmed_step (.client c) (h.confirmed t fact hfact)
  · rcases step_cases pool (.run t' (withRunner env runner)) with ⟨-, htrace⟩ | ⟨t'', env', q, next, hm, -, hasks, hstep⟩
    · exact confirmed_step (.run t' (withRunner env runner)) (h.confirmed t fact (by rw [← htrace]; exact hfact))
    · obtain ⟨rfl, rfl⟩ : t' = t'' ∧ withRunner env runner = env' := by simpa using hm
      have hstart : ∀ call, q = .start call → call.adapter = codexRunner →
          finishedAtStart (runner call) call = false := by
        rintro call rfl hadapter
        have hasks' : asks pool (.run t' env) = some (.start call) := hasks
        simpa [startsUnfinished, hasks', hadapter] using hturn
      have hfact' : fact ∈ Pool.ghost (resultDiscipline snapshot) ∅ t
          (pool.step (Turn.run t' env runner).move.action).trace := hfact
      simp only [Turn.move, hstep, Pool.ghost] at hfact'
      by_cases ht : t' = t
      · rw [if_pos ht] at hfact'
        rcases hfact' with hfact' | hfact'
        · exact confirmed_step (.run t' (withRunner env runner)) (h.confirmed t fact hfact')
        · show Confirmed (pool.step (.run t' (withRunner env runner) : Move).action) fact
          rw [hstep]
          exact confirmed_told hstart hfact'
      · rw [if_neg ht] at hfact'
        exact confirmed_step (.run t' (withRunner env runner)) (h.confirmed t fact hfact')

/-- **Runs.** -/
theorem results_run (h : Results snapshot pool) (turns : List Turn) (hturns : unfinished pool turns = true) :
    Results snapshot (pool.run ((turns.map Turn.move).map Move.action)) := by
  induction turns generalizing pool with
  | nil => exact h
  | cons turn turns ih =>
    rw [unfinished, Bool.and_eq_true] at hturns
    exact ih (results_step h turn hturns.1) hturns.2

end Runs

theorem resolveBound_of_task {detail : RunDetail} {target a : StepAttempt} {id : String} (hs : a.status = .succeeded)
    (hid : a.providerTaskId = some id) (hsource : target.conversationSource.bind (conversationAttempt detail) = some a) :
    resolveBoundConversationSource detail target = pure a := by
  simp [resolveBoundConversationSource, hsource, hs, hid]

theorem ne_empty_of_isJobId {id : String} (h : isJobId id = true) : id ≠ "" := by
  rintro rfl
  exact absurd h (by decide)

/-- **Codex results remain usable.** In every run of the clients of a new run, against every Runner and network, in which
no job is completed already when its start is answered or looked up, every succeeded attempt of a Codex agent has
recorded the job that its output was reported for; so a continuation of its conversation finds it, and so does a
publication of the step it is the last success of. -/
theorem codex_results_recorded (w : World) (hw : w.db.attempts = []) (turns : List Turn)
    (hturns : unfinished (Pool.init w) turns = true) :
    ∀ a ∈ (after w (turns.map Turn.move)).world.db.attempts, a.status = .succeeded →
      codexAgent w.db.run.snapshot a = true →
      (∃ id, a.providerTaskId = some id ∧ Reported (after w (turns.map Turn.move)).trace a id) ∧
      (∀ (detail : RunDetail) target, target.conversationSource.bind (conversationAttempt detail) = some a →
        resolveBoundConversationSource detail target = pure a) ∧
      ∀ (detail : RunDetail) (managed : String → Bool), detail.run.snapshot = w.db.run.snapshot →
        managed a.agentId = true → lastSucceeded detail a.key.stepId = some a →
        managedCodexResult detail managed a.key.stepId = .ok a := by
  intro a ha hs hcodex
  have h := results_run (results_init hw) turns hturns
  obtain ⟨id, hid, hreported⟩ := h.recorded a ha hs hcodex
  refine ⟨⟨id, hid, hreported⟩, fun detail target => resolveBound_of_task hs hid, fun detail managed hd hm hlast => ?_⟩
  have hadapter : adapterOf detail.run.snapshot a.connectionKey = some codexRunner := by
    rw [hd]
    simp only [codexAgent, Bool.and_eq_true, beq_iff_eq] at hcodex
    exact hcodex.2
  simp [managedCodexResult, hlast, hid, hm, hadapter, ne_empty_of_isJobId hreported.1]

/-! ### Runs to look at -/

def sampleJob : String := "0123456789abcdef0123456789abcdef0123456789abcdef"

def jobJson (state : String) (rest : List (String × Json)) : Json :=
  .obj (("jobId", .str sampleJob) :: ("state", .str state) :: rest)

/-- The Runner queues the job, and has completed it when it is asked for it. -/
def queueingRunner (_ : AdapterInvocation) : RunnerAnswers where
  options := .ok ()
  prepared := .ok ()
  capabilities := .response 200 1 (some (.obj [("conversationContinuation", .bool true)]))
  submit := .response 202 1 (some (jobJson "queued" []))
  byIdempotency := .response 404 1 (some (.obj [("error", .str "not_found")]))
  status := .response 200 1 (some (jobJson "completed" [("outputText", .str "done")]))

/-- The answer of the start is lost, and the job completed when it is looked up. -/
def losingRunner (call : AdapterInvocation) : RunnerAnswers :=
  { queueingRunner call with
    submit := .threw 30000 true .aborted
    byIdempotency := .response 200 30 (some (jobJson "completed" [("outputText", .str "done")])) }

def codexEnv (now : Time) : Env :=
  { admittingEnv now with live := fun _ => .ok ⟨true, codexRunner⟩ }

/-- The moves, against the Runner. -/
def Move.against (runner : AdapterInvocation → RunnerAnswers) : Move → Turn
  | .client c => .client c
  | .run t env => .run t env runner

def codexRun : World := createdRun { sampleSnapshot with connectionSnapshots := [("key", codexRunner)] }

/-- A call starts the attempt, and another one polls it. -/
def polledTwice : List Move :=
  admittedRun ++ .client (sampleCall 1 1) :: runs 2 17 (codexEnv 5) ++
    .client (sampleCall 1 1) :: runs 3 15 (codexEnv 10)

/-- The attempt is completed by the poll, and names its job. -/
theorem polledTwice_recorded :
    (∀ a ∈ (after codexRun ((polledTwice.map (Move.against queueingRunner)).map Turn.move)).world.db.attempts,
      a.status = .succeeded → codexAgent codexRun.db.run.snapshot a = true → ∃ id, a.providerTaskId = some id) ∧
    (after codexRun ((polledTwice.map (Move.against queueingRunner)).map Turn.move)).world.db.attempts.map
      (fun a => (a.status, codexAgent codexRun.db.run.snapshot a, a.providerTaskId, a.outputText)) =
      [(.succeeded, true, some sampleJob, some "done")] := by
  refine ⟨fun a ha hs hcodex => ?_, by decide +kernel⟩
  obtain ⟨⟨id, hid, -⟩, -⟩ := codex_results_recorded codexRun rfl (polledTwice.map (Move.against queueingRunner))
    (by decide +kernel) a ha hs hcodex
  exact ⟨id, hid⟩

/-- The attempt is completed by the answer of its start, and names no job; its step cannot be published. -/
theorem lookedUp_unrecorded :
    (after codexRun ((polledTwice.map (Move.against losingRunner)).map Turn.move)).world.db.attempts.map
      (fun a => (a.status, codexAgent codexRun.db.run.snapshot a, a.providerTaskId, a.outputText)) =
      [(.succeeded, true, none, some "done")] ∧
    (managedCodexResult
      ⟨(after codexRun ((polledTwice.map (Move.against losingRunner)).map Turn.move)).world.db.run,
        (after codexRun ((polledTwice.map (Move.against losingRunner)).map Turn.move)).world.db.orderedAttempts⟩
      (fun _ => true) "a").isOk = false := by
  decide +kernel

end ADT.Durable.System
