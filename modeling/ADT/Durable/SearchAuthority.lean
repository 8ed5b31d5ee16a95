import ADT.Durable.AttemptHistory
import ADT.Storage.Sequential
import ADT.Durable.SearchToken

/-!
# Durable.SearchAuthority — who may search the artifacts

The checks of `createArtifactSearchGateway` (`lib/artifact-search-gateway.ts`).  An authority is issued for one attempt;
the gateway compares it with the run as it finds it, the step that the run entered last among the rest.  In a run with
parallel branches that is the step of the branch that claimed last: `search_authority_iff` says that this is the one
thing that keeps an attempt from its search.
-/

namespace ADT.Durable.System

open Workflow Interleave Storage

/-- A tool grant of an agent: a name, or a record of a type. -/
inductive AgentTool
  | named (name : String)
  | typed (type name : String)

/-- `management` and `credentialSource` of a connection. -/
structure ConnectionManagement where
  management : String
  credentialSource : Option String

/-- What the gateway reads of a run besides its plan and its connections; `tools` of an agent without a snapshot are
`none`. -/
structure SearchSnapshot where
  engineVersion : String
  planVersion : Option ℕ
  connections : List ConnectionManagement
  repositoryContext : Option RunRepositoryContext
  tools : String → Option (List AgentTool)

def isLegacyRunReadOnly (frozen : SearchSnapshot) : Bool :=
  frozen.engineVersion == "1" || frozen.planVersion != some 2 || frozen.connections.any fun c =>
    c.management == "d1" || c.management == "git" && c.credentialSource != some "adt-vault"

def hasArtifactSearchGrant (tools : Option (List AgentTool)) : Bool :=
  (tools.getD []).any fun
    | .named name => name == "artifact_search"
    | .typed type name => type == "builtin" && name == "artifact_search"

def sameContext (a b : RunRepositoryContext) : Bool :=
  a.repositoryId == b.repositoryId && a.installationId == b.installationId && a.owner.toLower == b.owner.toLower &&
    a.repository.toLower == b.repository.toLower && a.branch == b.branch && a.root == b.root

/-! ### The gateway -/

/-- The order of `sort`: by iteration, then by attempt. -/
def notAfter (a b : StepAttempt) : Prop := toLex (a.key.iteration, a.key.attempt) ≤ toLex (b.key.iteration, b.key.attempt)

instance : DecidableRel notAfter := fun _ _ => inferInstanceAs (Decidable (toLex _ ≤ toLex _))

/-- `active` -/
def activeAttempt (detail : RunDetail) (stepId : String) : Option StepAttempt :=
  ((detail.attempts.filter (·.key.stepId == stepId)).insertionSort notAfter).getLast?

/-- The agent of a step, where the step is an agent node of the plan. -/
def stepAgent (detail : RunDetail) (stepId : String) : Option String :=
  (detail.run.snapshot.executionPlan.nodes.find? fun n => n.id == stepId && n.blockType == "agent").bind
    (·.config.agentIds.head?)

/-- The comparison of an authority with the run. -/
def authorises (frozen : SearchSnapshot) (detail : RunDetail) (authority : ArtifactSearchAuthority) : Bool :=
  detail.run.status == .running && detail.run.currentStepId == some authority.stepId &&
    match frozen.repositoryContext, stepAgent detail authority.stepId, activeAttempt detail authority.stepId with
    | some context, some agentId, some active =>
      hasArtifactSearchGrant (frozen.tools agentId) && (active.key.iteration : ℤ) == authority.iteration &&
        (active.key.attempt : ℤ) == authority.attempt && active.agentId == agentId && active.status == .starting &&
        (detail.run.snapshot.connectionSnapshots.find? (·.1 == active.connectionKey)).map (·.2) == some "openai-agents" &&
        !isLegacyRunReadOnly frozen && sameContext authority.context context
    | _, _, _ => false

/-- The requests of `createArtifactSearchGateway` that are not denied. -/
def searchAllowed (A : Aead) (secret : String) (frozen : SearchSnapshot) (detail : RunDetail) (token : List Char)
    (runId : String) (now : ℤ) : Bool :=
  match verifyArtifactSearchAuthority A secret token runId now with
  | some authority => runId == detail.run.snapshot.id && authorises frozen detail authority
  | none => false

/-! ### Who is entitled to it -/

/-- The attempt of the authority is the latest of its step; it is starting, on a connection of the adapter, for the agent
of the step, and the agent holds the grant. -/
def Entitled (frozen : SearchSnapshot) (detail : RunDetail) (authority : ArtifactSearchAuthority) : Prop :=
  ∃ a ∈ detail.attempts,
    (a.key.stepId = authority.stepId ∧ (a.key.iteration : ℤ) = authority.iteration ∧
      (a.key.attempt : ℤ) = authority.attempt) ∧
    (∀ b ∈ detail.attempts, b.key.stepId = authority.stepId → notAfter b a) ∧
    a.status = .starting ∧
    (detail.run.snapshot.connectionSnapshots.find? (·.1 == a.connectionKey)).map (·.2) = some "openai-agents" ∧
    stepAgent detail authority.stepId = some a.agentId ∧
    hasArtifactSearchGrant (frozen.tools a.agentId) = true

variable {frozen : SearchSnapshot} {detail : RunDetail} {authority : ArtifactSearchAuthority}

instance : Std.Total notAfter := ⟨fun _ _ => le_total _ _⟩

instance : IsTrans StepAttempt notAfter := ⟨fun _ _ _ h h' => le_trans h h'⟩

theorem sameContext_self (context : RunRepositoryContext) : sameContext context context = true := by
  simp [sameContext]

theorem key_eq {a b : StepAttempt} (hstep : a.key.stepId = b.key.stepId) (hab : notAfter a b) (hba : notAfter b a) :
    a.key = b.key := by
  have hnumbers := toLex.injective (le_antisymm hab hba)
  rw [Prod.mk.injEq] at hnumbers
  have hiteration : a.key.iteration = b.key.iteration := hnumbers.1
  have hattempt : a.key.attempt = b.key.attempt := hnumbers.2
  cases ha : a.key
  cases hb : b.key
  rw [ha, hb] at hstep hiteration hattempt
  simp_all

theorem notAfter_getLast {l : List StepAttempt} (hsorted : l.Pairwise notAfter) {a : StepAttempt}
    (hlast : l.getLast? = some a) : ∀ b ∈ l, notAfter b a := by
  obtain ⟨front, rfl⟩ := List.getLast?_eq_some_iff.1 hlast
  intro b hb
  rcases List.mem_append.1 hb with hb | hb
  · exact (List.pairwise_append.1 hsorted).2.2 b hb a (List.mem_singleton.2 rfl)
  · rw [List.mem_singleton.1 hb]
    exact le_refl (toLex (a.key.iteration, a.key.attempt))

theorem activeAttempt_iff (hkeys : (detail.attempts.map (·.key)).Nodup) {stepId : String} {a : StepAttempt} :
    activeAttempt detail stepId = some a ↔
      a ∈ detail.attempts ∧ a.key.stepId = stepId ∧ ∀ b ∈ detail.attempts, b.key.stepId = stepId → notAfter b a := by
  have hmem : ∀ b, b ∈ (detail.attempts.filter (·.key.stepId == stepId)).insertionSort notAfter ↔
      b ∈ detail.attempts ∧ b.key.stepId = stepId := by
    intro b
    rw [List.mem_insertionSort, List.mem_filter, beq_iff_eq]
  have hafter : ∀ {c : StepAttempt}, activeAttempt detail stepId = some c →
      c ∈ detail.attempts ∧ c.key.stepId = stepId ∧ ∀ b ∈ detail.attempts, b.key.stepId = stepId → notAfter b c := by
    intro c hc
    obtain ⟨hc₁, hc₂⟩ := (hmem c).1 (List.mem_of_getLast? hc)
    exact ⟨hc₁, hc₂, fun b hb hstep => notAfter_getLast (List.pairwise_insertionSort notAfter _) hc b ((hmem b).2 ⟨hb, hstep⟩)⟩
  refine ⟨hafter, fun ⟨ha, hstep, hmax⟩ => ?_⟩
  obtain ⟨c, hc⟩ : ∃ c, activeAttempt detail stepId = some c := by
    exact ⟨_, List.getLast?_eq_some_getLast (List.ne_nil_of_mem ((hmem a).2 ⟨ha, hstep⟩))⟩
  obtain ⟨hc₁, hc₂, hc₃⟩ := hafter hc
  have hkey := key_eq (hstep.trans hc₂.symm) (hc₃ a ha hstep) (hmax c hc₁ hc₂)
  rw [hc, List.inj_on_of_nodup_map hkeys hc₁ ha hkey.symm]

theorem authorises_iff (hkeys : (detail.attempts.map (·.key)).Nodup) (hrunning : detail.run.status = .running)
    (hlegacy : isLegacyRunReadOnly frozen = false) (hcontext : frozen.repositoryContext = some authority.context) :
    authorises frozen detail authority = true ↔
      detail.run.currentStepId = some authority.stepId ∧ Entitled frozen detail authority := by
  unfold authorises
  simp only [hrunning, hcontext, hlegacy, beq_self_eq_true, Bool.true_and, Bool.and_eq_true, beq_iff_eq,
    Bool.not_false, Bool.and_true]
  refine and_congr_right fun _ => ⟨fun h => ?_, fun ⟨a, ha, ⟨hstep, hiteration, hattempt⟩, hmax, hstart, hadapter, hagent,
    hgrant⟩ => ?_⟩
  · split at h
    · rename_i context agentId active hctx hagent hactive
      simp only [Bool.and_eq_true, beq_iff_eq] at h
      obtain ⟨⟨⟨⟨⟨⟨hgrant, hiteration⟩, hattempt⟩, hid⟩, hstart⟩, hadapter⟩, _⟩ := h
      obtain ⟨hmem, hstep, hmax⟩ := (activeAttempt_iff hkeys).1 hactive
      refine ⟨active, hmem, ⟨hstep, hiteration, hattempt⟩, hmax, hstart, hadapter, ?_, ?_⟩
      · rw [hagent, hid]
      · rw [hid]
        exact hgrant
    · exact absurd h (by simp)
  · rw [hagent, (activeAttempt_iff hkeys).2 ⟨ha, hstep, hmax⟩]
    simp [hgrant, hiteration, hattempt, hstart, hadapter, sameContext_self]

theorem keys_detail {w : World} (h : History w.db.attempts) : (w.detail.attempts.map (·.key)).Nodup :=
  ((List.perm_insertionSort _ w.db.attempts).map _).nodup_iff.2 h.keys

/-- The gateway takes an authority that was issued for the run where the attempt is entitled to it and its step is the
one that was entered last. -/
theorem searchAllowed_iff (A : Aead) (secret : String) (hkeys : (detail.attempts.map (·.key)).Nodup)
    (hlegacy : isLegacyRunReadOnly frozen = false) (hrun : authority.runId = detail.run.snapshot.id)
    (hcontext : frozen.repositoryContext = some authority.context) {nonce : List UInt8} (hnonce : nonce.length = 12)
    {token : List Char} (hissued : issueArtifactSearchAuthority A secret authority nonce = some token) {now : ℤ}
    (hlive : now < authority.expiresAt) (hrunning : detail.run.status = .running) :
    searchAllowed A secret frozen detail token authority.runId now = true ↔
      detail.run.currentStepId = some authority.stepId ∧ Entitled frozen detail authority := by
  unfold searchAllowed
  rw [verify_issued A secret hnonce hissued, if_pos hlive]
  have hsame : (authority.runId == detail.run.snapshot.id) = true := beq_iff_eq.2 hrun
  dsimp only
  rw [hsame, Bool.true_and]
  exact authorises_iff hkeys hrunning hlegacy hcontext

section Runs

variable {A : Aead} {secret : String} {w : World} {moves : List Move} {nonce : List UInt8} {token : List Char} {now : ℤ}

theorem allowed_after_iff (hw : w.db.attempts = []) (hlegacy : isLegacyRunReadOnly frozen = false)
    (hrun : authority.runId = (after w moves).world.db.run.snapshot.id)
    (hcontext : frozen.repositoryContext = some authority.context) (hnonce : nonce.length = 12)
    (hissued : issueArtifactSearchAuthority A secret authority nonce = some token) (hlive : now < authority.expiresAt)
    (hrunning : (after w moves).world.db.run.status = .running) :
    searchAllowed A secret frozen (after w moves).world.detail token authority.runId now = true ↔
      (after w moves).world.db.run.currentStepId = some authority.stepId ∧
        Entitled frozen (after w moves).world.detail authority :=
  searchAllowed_iff A secret (keys_detail (numbered_run hw moves).history) hlegacy hrun hcontext hnonce hissued hlive
    hrunning

end Runs

/-- **Search authorities.** In every state that the clients of a new run reach while it is running, the gateway takes an
authority that was issued for an attempt exactly when the attempt is entitled to it, if and only if the attempt, where
it is entitled, is one of the step that was entered last. -/
theorem search_authority_iff (A : Aead) (secret : String) (w : World) (hw : w.db.attempts = []) (moves : List Move)
    (frozen : SearchSnapshot) (hlegacy : isLegacyRunReadOnly frozen = false) (authority : ArtifactSearchAuthority)
    (hrun : authority.runId = (after w moves).world.db.run.snapshot.id)
    (hcontext : frozen.repositoryContext = some authority.context) (nonce : List UInt8) (hnonce : nonce.length = 12)
    (token : List Char) (hissued : issueArtifactSearchAuthority A secret authority nonce = some token) (now : ℤ)
    (hlive : now < authority.expiresAt) (hrunning : (after w moves).world.db.run.status = .running) :
    (searchAllowed A secret frozen (after w moves).world.detail token authority.runId now = true ↔
        Entitled frozen (after w moves).world.detail authority) ↔
      (Entitled frozen (after w moves).world.detail authority →
        (after w moves).world.db.run.currentStepId = some authority.stepId) := by
  rw [allowed_after_iff hw hlegacy hrun hcontext hnonce hissued hlive hrunning]
  exact ⟨fun h hentitled => (h.2 hentitled).1, fun h => ⟨And.right, fun hentitled => ⟨h hentitled, hentitled⟩⟩⟩

/-! ### Two branches -/

instance (frozen : SearchSnapshot) (detail : RunDetail) (authority : ArtifactSearchAuthority) :
    Decidable (Entitled frozen detail authority) :=
  inferInstanceAs (Decidable (∃ a ∈ detail.attempts, _))

/-- A cipher that can be evaluated: the text itself, and a tag of zeros. -/
def plainAead : Aead where
  sha256 bytes := bytes
  encrypt _ _ text := (text, List.replicate 16 0)
  decrypt _ _ ciphertext _ := some ciphertext
  decrypt_encrypt _ _ _ := rfl
  length_ciphertext _ _ _ := rfl
  length_tag _ _ _ := rfl

def sampleContext : RunRepositoryContext := ⟨1, 2, "owner", "library", "main", "artifacts"⟩

def sampleFrozen : SearchSnapshot :=
  ⟨"2", some 2, [⟨"git", some "adt-vault"⟩], some sampleContext, fun agentId =>
    if agentId = "agent" then some [.named "artifact_search"] else none⟩

def branchesId : String := "3b241101-e2bb-4255-8caf-4136c566a962"

/-- The authority of the first attempt of the node `a`. -/
def sampleAuthority : ArtifactSearchAuthority :=
  ⟨branchesId, "a", 1, 1, sampleContext, 300005, "7f2c9f6e-1d8a-4d0b-9a52-0c8f6f6f2b11"⟩

/-- An agent node, and two of them side by side behind it. -/
def branchesSnapshot : RunSnapshot :=
  { sampleSnapshot with
    id := branchesId
    executionPlan :=
      { nodes := [⟨"s", .agentV1 "agent"⟩, ⟨"a", .agentV1 "agent"⟩, ⟨"b", .agentV1 "agent"⟩, ⟨"j", .join⟩]
        edges := [⟨"s", "output", "a", "input"⟩, ⟨"s", "output", "b", "input"⟩, ⟨"a", "output", "j", "input"⟩,
          ⟨"b", "output", "j", "input"⟩]
        entryNodeId := "s"
        terminalNodeId := "j"
        maxStepExecutions := 8 }
    connectionSnapshots := [("key", "openai-agents")] }

/-- The graph asks for the activations. -/
def searchedEnv (activations : List Activation) : Env :=
  { sampleEnv 5 with
    advance := fun _ authorities => .ok (if authorities.isNone then .admissionRequired activations else .advanced)
    live := fun _ => .ok ⟨true, "openai-agents"⟩ }

/-- The first activation of a node. -/
def branchCall (nodeId activationId : String) : Client := .node 2 plainHost ⟨⟨nodeId, activationId⟩, 1, 1, 1⟩ "go"

/-- The run is launched, its first node answers, both nodes behind it are admitted, and the call for `a` is inside
`runtime.start`. -/
def firstStarted : List Move :=
  .client (.launch 1) :: runs 0 6 (searchedEnv []) ++
  .client (.driver 1 (branchesId ++ "-g1")) :: runs 1 25 (searchedEnv [⟨"s", "w"⟩]) ++
  .client (branchCall "s" "w") :: runs 2 25 (searchedEnv []) ++
  runs 1 20 (searchedEnv [⟨"a", "x"⟩, ⟨"b", "y"⟩]) ++
  .client (branchCall "a" "x") :: runs 3 14 (searchedEnv [])

def sampleSecret : String := "0123456789abcdef0123456789abcdef"

theorem sampleAuthority_issued :
    (issueArtifactSearchAuthority plainAead sampleSecret sampleAuthority (List.replicate 12 0)).isSome = true := by
  decide +kernel

/-- The attempt of `a` may search. -/
theorem firstStarted_searches : ∃ token,
    issueArtifactSearchAuthority plainAead sampleSecret sampleAuthority (List.replicate 12 0) = some token ∧
      (searchAllowed plainAead sampleSecret sampleFrozen (after (createdRun branchesSnapshot) firstStarted).world.detail
          token sampleAuthority.runId 5 = true ↔
        Entitled sampleFrozen (after (createdRun branchesSnapshot) firstStarted).world.detail sampleAuthority) := by
  obtain ⟨token, htoken⟩ := Option.isSome_iff_exists.1 sampleAuthority_issued
  refine ⟨token, htoken, (search_authority_iff plainAead sampleSecret (createdRun branchesSnapshot) rfl firstStarted
    sampleFrozen (by decide +kernel) sampleAuthority (by decide +kernel) rfl _ rfl token htoken 5 (by decide)
    (by decide +kernel)).2 fun _ => ?_⟩
  decide +kernel

/-- Then the call for `b` claims its attempt. -/
def secondStarted : List Move := firstStarted ++ .client (branchCall "b" "y") :: runs 4 9 (searchedEnv [])

/-- The attempt of `a` is still starting, and may not search any more. -/
theorem secondStarted_denied : ¬∀ (A : Aead) (secret : String) (w : World), w.db.attempts = [] → ∀ moves frozen,
    isLegacyRunReadOnly frozen = false → ∀ authority,
    authority.runId = (after w moves).world.db.run.snapshot.id →
    frozen.repositoryContext = some authority.context → ∀ nonce : List UInt8, nonce.length = 12 → ∀ token,
    issueArtifactSearchAuthority A secret authority nonce = some token → ∀ now < authority.expiresAt,
    (after w moves).world.db.run.status = .running →
    (searchAllowed A secret frozen (after w moves).world.detail token authority.runId now = true ↔
      Entitled frozen (after w moves).world.detail authority) := by
  intro h
  obtain ⟨token, htoken⟩ := Option.isSome_iff_exists.1 sampleAuthority_issued
  have hlegacy : isLegacyRunReadOnly sampleFrozen = false := by decide +kernel
  have hrun : sampleAuthority.runId = (after (createdRun branchesSnapshot) secondStarted).world.db.run.snapshot.id := by
    decide +kernel
  have hrunning : (after (createdRun branchesSnapshot) secondStarted).world.db.run.status = .running := by decide +kernel
  have hentitled : Entitled sampleFrozen (after (createdRun branchesSnapshot) secondStarted).world.detail sampleAuthority := by
    decide +kernel
  have hcontext : sampleFrozen.repositoryContext = some sampleAuthority.context := rfl
  have hlive : (5 : ℤ) < sampleAuthority.expiresAt := by decide
  have hallowed := (h plainAead sampleSecret _ rfl secondStarted sampleFrozen hlegacy sampleAuthority hrun hcontext _
    List.length_replicate token htoken 5 hlive hrunning).2 hentitled
  have hcurrent := ((allowed_after_iff rfl hlegacy hrun hcontext List.length_replicate htoken hlive hrunning).1 hallowed).1
  have hother : (after (createdRun branchesSnapshot) secondStarted).world.db.run.currentStepId = some "b" := by decide +kernel
  rw [hother] at hcurrent
  exact absurd (Option.some.inj hcurrent) (by decide)

end ADT.Durable.System
