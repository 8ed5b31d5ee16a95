import ADT.Durable.ManualRetry
import ADT.Lib.Knowing
import ADT.Storage.Lineage

/-!
# Durable.ConversationBinding — which attempt a conversation continues

A call chooses the source of its conversation among the attempts it has read, and binds it later, while others retry and
cancel.  `bindingDiscipline` follows a call with what it has read: it binds only a succeeded attempt of the node its plan
asks for, with a provider task; and what was such an attempt when it was read is one for good.
-/

namespace ADT.Durable.System

open Workflow Interleave Storage

/-! ### Clients bind what they have read -/

/-- The attempts an answer tells of. -/
def rowsRead : (q : Request) → Answer q → Set StepAttempt
  | .selectAttempts, rows => {a | a ∈ rows}
  | _, _ => ∅

/-- The run that is read is one of this snapshot. -/
def frozenRun (snapshot : RunSnapshot) : (q : Request) → Answer q → Prop
  | .selectRun, run => run.snapshot = snapshot
  | _, _ => True

/-- The source is of the node that the plan asks for, and it is known to be one. -/
def Chosen (snapshot : RunSnapshot) (known : Set StepAttempt) (key : AttemptKey)
    (source : ConversationSourceIdentity) : Prop :=
  planConversation snapshot key.stepId = some source.stepId ∧ ∃ a ∈ known, SourceOf a source

def bindingDiscipline (snapshot : RunSnapshot) : Discipline signature (Set StepAttempt) :=
  Discipline.remembering rowsRead
    (fun known q => ∀ key source, binding q = some (key, source) → Chosen snapshot known key source) (frozenRun snapshot)

def Unbound (q : Request) : Prop := binding q = none

instance : AdmitsReads Unbound := by constructor <;> intros <;> exact rfl

instance : AdmitsResult Unbound := ⟨fun _ _ => rfl⟩

instance (key : AttemptKey) : AdmitsWork Unbound key := by constructor <;> intros <;> exact rfl

instance (key : AttemptKey) : AdmitsCompletion Unbound key := ⟨fun _ _ => rfl⟩

instance : AdmitsClaims Unbound := by constructor <;> intros <;> exact rfl

instance : AdmitsRetries Unbound := ⟨fun _ _ _ => rfl⟩

section Clients

variable {snapshot : RunSnapshot} {known : Set StepAttempt} {α β : Type}

/-- From what it knows on, the service binds chosen sources only. -/
abbrev Binds (snapshot : RunSnapshot) (p : Service α) (known : Set StepAttempt) : Prop :=
  (bindingDiscipline snapshot).Keeps p known fun _ _ => True

/-- A service that issues no binding. -/
abbrev UnboundService (p : Service α) : Prop := p.Issues Unbound

variable {p : Service α} {f : α → Service β} {detail : RunDetail} {scope : NodeAuthority}

theorem needs_of_unbound (hp : UnboundService p) :
    p.Issues fun q => ∀ known : Set StepAttempt, ∀ key source, binding q = some (key, source) →
      Chosen snapshot known key source := by
  refine hp.mono fun q hq known key source h => ?_
  rw [hq] at h
  cases h

theorem binds_unbound (hp : UnboundService p) : Binds snapshot p known :=
  (Discipline.remembers_of_needs (needs_of_unbound hp)).mono fun _ _ _ => trivial

theorem binds_bind (hp : UnboundService p)
    (hf : ∀ a known', known ⊆ known' → p.Returns a → Binds snapshot (f a) known') : Binds snapshot (p >>= f) known :=
  Discipline.remembers_bind (needs_of_unbound hp) hf

theorem binds_then (hp : Binds snapshot p known) (hf : ∀ a, UnboundService (f a)) : Binds snapshot (p >>= f) known :=
  Discipline.remembers_then hp fun a => needs_of_unbound (hf a)

theorem binds_getRun {f : RunDetail → Service α}
    (h : ∀ detail known', detail.run.snapshot = snapshot → (∀ a ∈ detail.attempts, a ∈ known') →
      Binds snapshot (f detail) known') : Binds snapshot (getRun >>= f) known :=
  And.intro (fun _ _ h => by cases h) fun run hrun => And.intro (fun _ _ h => by cases h) fun rows _ =>
    h ⟨run, rows⟩ _ hrun fun _ ha => .inr ha

theorem bindConversationSource_binds {key : AttemptKey} {source : ConversationSourceIdentity}
    (h : Chosen snapshot known key source) : Binds snapshot (bindConversationSource key source) known := by
  unfold bindConversationSource
  split
  · trivial
  · refine binds_bind (attempt_issues key) fun existing known' hsub _ => ?_
    split
    · exact binds_unbound (by simp)
    · refine And.intro (fun key' source' hbind => ?_) fun bound _ => binds_unbound
        (Prog.issues_bind.2 ⟨trivial, fun bound _ => by simp⟩)
      obtain ⟨rfl, rfl⟩ : key = key' ∧ source = source' := by simpa [binding] using hbind
      obtain ⟨hplan, a, ha, hsource⟩ := h
      exact ⟨hplan, a, hsub ha, hsource⟩

theorem ensureConversationSourceBinding_binds {target : StepAttempt} {sourceNodeId : String}
    (hrows : ∀ a ∈ detail.attempts, a ∈ known) (hplan : planConversation snapshot target.key.stepId = some sourceNodeId) :
    Binds snapshot (ensureConversationSourceBinding detail target sourceNodeId) known := by
  unfold ensureConversationSourceBinding
  split
  · exact binds_unbound (by simp)
  split
  · trivial
  · rename_i source hlast
    obtain ⟨hmem, hof⟩ := List.mem_filter.1 (List.mem_of_getLast? hlast)
    simp only [Bool.and_eq_true, beq_iff_eq] at hof
    split
    · trivial
    · rename_i htask
      obtain ⟨id, hid⟩ : ∃ id, source.providerTaskId = some id :=
        Option.ne_none_iff_exists'.1 fun hnone => htask (by rw [hnone]; rfl)
      refine binds_then (bindConversationSource_binds ⟨?_, source, hrows source hmem, ?_⟩) fun bound => by simp
      · rw [hplan, ← hof.1]
      · exact ⟨rfl, rfl, hof.2, id, hid⟩

theorem prepared_binds {host : NodeHost} {a : StepAttempt}
    (hd : detail.run.snapshot = snapshot) (hrows : ∀ b ∈ detail.attempts, b ∈ known)
    (hstep : a.key.stepId = scope.activation.nodeId) : Binds snapshot (prepared host detail scope a) known := by
  refine Discipline.remembers_tryCatch (binds_then ?_ fun _ => trivial) fun e => needs_of_unbound (by simp)
  unfold prepareAgent
  split
  · rename_i sourceNodeId hplan
    split
    · trivial
    · refine binds_then (ensureConversationSourceBinding_binds hrows ?_) fun _ => by simp
      rw [hstep, ← hd]
      exact hplan
  · exact binds_unbound (by simp)

/-- **A node call binds chosen sources only.** -/
theorem executeWorkflowGraphNode_binds {depth : ℕ} {host : NodeHost} {inputText : String} :
    Binds snapshot (executeWorkflowGraphNode depth host scope inputText) known := by
  refine binds_getRun fun detail known' hd hrows => ?_
  split
  · rename_i a node hlast hnode
    have hstep : a.key.stepId = scope.activation.nodeId := by
      have hof := (List.mem_filter.1 (List.mem_of_getLast? hlast)).2
      simp only [Database.ofStep, Bool.and_eq_true, beq_iff_eq] at hof
      exact hof.1
    split
    · trivial
    split
    · exact binds_unbound (publishNode_issues _ _ _ _)
    split
    · refine binds_then (prepared_binds hd hrows hstep) fun ready => ?_
      split
      · exact takeTurn_issues _ _ _ _
      · exact conversationFailed_issues _ _ _
    · exact binds_unbound (takeTurn_issues _ _ _ _)
  · trivial

theorem unbound_of_launching (q : Request) (h : Launching q) : Unbound q := by
  unfold Unbound binding
  split
  · cases h
  · rfl

theorem client_binds (c : Client) : Binds snapshot c.service known := by
  by_cases hc : ∃ depth host scope inputText, c = .node depth host scope inputText
  · obtain ⟨depth, host, scope, inputText, rfl⟩ := hc
    exact binds_then executeWorkflowGraphNode_binds fun _ => trivial
  · exact binds_unbound ((client_launches c fun d h s i heq => hc ⟨d, h, s, i, heq⟩).mono unbound_of_launching)

end Clients

/-! ### Runs -/

variable {snapshot : RunSnapshot} {pool : Services} {w : World}

/-- What is kept: the lineage of the attempts, and that an attempt a client has read goes on as one of the run's. -/
def lineage (snapshot : RunSnapshot) : Knowledge machine (Set StepAttempt) where
  Inv w := w.db.run.snapshot = snapshot ∧ Lineage (planConversation snapshot) w.db.attempts
  Holds w _ known := ∀ a ∈ known, ∃ b ∈ w.db.attempts, Endures a b
  Did _ _ := True

theorem lineage_survives {env : Env} {t : ℕ} {known : Set StepAttempt} {q : Request} (hh : History w.db.attempts)
    (hinv : (lineage snapshot).Inv w) (hholds : (lineage snapshot).Holds w t known)
    (hneeds : (bindingDiscipline snapshot).needs known q) :
    (lineage snapshot).Survives (bindingDiscipline snapshot) w t known q (answer env q w).1 (answer env q w).2 := by
  have he := answer_effect env w q
  have hkeeps : ∀ known : Set StepAttempt, (∀ a ∈ known, ∃ b ∈ w.db.attempts, Endures a b) →
      ∀ a ∈ known, ∃ b ∈ (answer env q w).2.db.attempts, Endures a b := fun known h a ha => by
    obtain ⟨b, hb, hab⟩ := h a ha
    obtain ⟨c, hc, hbc⟩ := effect_advances he hb
    exact ⟨c, hc, hab.trans hbc.toEndures⟩
  refine ⟨?_, ⟨(snapshot_stays env w q).trans hinv.1, ?_⟩, ?_, fun _ _ _ => hkeeps _, fun _ _ => trivial, trivial⟩
  · show frozenRun snapshot q _
    unfold frozenRun
    split
    · exact hinv.1
    · trivial
  · refine hinv.2.effect hh he fun key source hbind => ?_
    obtain ⟨hplan, a, ha, hsource⟩ := hneeds key source hbind
    obtain ⟨b, hb, hab⟩ := hholds a ha
    exact ⟨hplan, b, hb, hsource.endures hab⟩
  · rintro a (ha | ha)
    · exact hkeeps known hholds a ha
    · cases q
      case selectAttempts => exact ⟨a, mem_ordered.1 ha, .refl a⟩
      all_goals cases ha

/-- The invariant of the runs. -/
structure Bound (snapshot : RunSnapshot) (pool : Services) : Prop where
  numbered : Numbered pool
  knowing : Pool.Knowing (lineage snapshot) (bindingDiscipline snapshot) ∅ pool

theorem bound_run (hw : w.db.attempts = []) (moves : List Move) : Bound w.db.run.snapshot (after w moves) := by
  induction moves using List.reverseRecOn with
  | nil =>
    refine ⟨numbered_init hw, Pool.knowing_init (M := machine) ⟨rfl, ?_⟩ fun t a ha => by cases ha⟩
    rw [hw]
    exact lineage_nil
  | append_singleton moves m ih =>
    rw [after_concat]
    refine ⟨numbered_step ih.numbered m, Pool.knowing_step ih.knowing (fun p hp => ?_) fun t env q next hm ht hneeds =>
      lineage_survives ih.numbered.history ih.knowing.inv (ih.knowing.holds t) hneeds⟩
    rcases m with c | ⟨t, env⟩
    · obtain rfl : c.service = p := by simpa [Move.action] using hp
      exact client_binds c
    · cases hp

theorem source_run (w : World) (moves more : List Move) {a : StepAttempt} {source : ConversationSourceIdentity}
    (ha : a ∈ (after w moves).world.db.attempts) (hs : a.conversationSource = some source) :
    ∃ b ∈ (after w (moves ++ more)).world.db.attempts, b.key = a.key ∧ b.conversationSource = some source := by
  induction more using List.reverseRecOn with
  | nil => exact ⟨a, by simpa using ha, rfl, hs⟩
  | append_singleton more m ih =>
    obtain ⟨b, hb, hkey, hbs⟩ := ih
    rw [← List.append_assoc, after_concat]
    rcases step_cases (after w (moves ++ more)) m with ⟨hworld, -⟩ | ⟨t, env, q, next, -, -, -, hstep⟩
    · exact ⟨b, hworld ▸ hb, hkey, hbs⟩
    · rw [hstep]
      obtain ⟨c, hc, hbc, hcs⟩ := source_stays (answer_effect env _ q) hb hbs
      exact ⟨c, hc, hbc.key.trans hkey, hcs⟩

/-- **Conversation sources.** Over every interleaving of the clients of a new run: an attempt that has a conversation
source keeps it; the source is an attempt of the node that the plan asks for, which has succeeded with a provider task
and stays so; and every retry of the attempt, automatic or manual, carries the same source. -/
theorem conversation_source_bound (w : World) (hw : w.db.attempts = []) (moves more : List Move) :
    ∀ a ∈ (after w moves).world.db.attempts, ∀ source, a.conversationSource = some source →
      (∃ b ∈ (after w (moves ++ more)).world.db.attempts, b.key = a.key ∧ b.conversationSource = some source) ∧
      planConversation w.db.run.snapshot a.key.stepId = some source.stepId ∧
      (∃ b ∈ (after w (moves ++ more)).world.db.attempts, SourceOf b source) ∧
      ∀ b ∈ (after w (moves ++ more)).world.db.attempts, Retries a b → b.conversationSource = some source := by
  intro a ha source hs
  obtain ⟨b, hb, hkey, hbs⟩ := source_run w moves more ha hs
  have hlineage := (bound_run hw (moves ++ more)).knowing.inv.2
  obtain ⟨hplan, hsource⟩ := hlineage.bound b hb source hbs
  refine ⟨⟨b, hb, hkey, hbs⟩, hkey ▸ hplan, hsource, fun c hc hac => ?_⟩
  refine hlineage.carried b hb c hc ⟨?_, ?_, ?_⟩ source hbs
  · rw [hkey]
    exact hac.step
  · rw [hkey]
    exact hac.iteration
  · rw [hkey]
    exact hac.attempt

/-- Agent `b` continues the conversation of agent `a`. -/
def continuedRun : World :=
  createdRun { sampleSnapshot with
    executionPlan := ⟨[⟨"a", .agentV1 "agent"⟩, ⟨"b", .agentV3 "agent" none (some "a")⟩], [], "a", "b", 8⟩ }

/-- The graph asks for agent `b`, whose provider is overloaded. -/
def continuingEnv (now : Time) : Env :=
  { admittingEnv now with
    advance := fun _ authorities => .ok (if authorities.isNone then .admissionRequired [⟨"b", "y"⟩] else .pending none)
    start := fun _ => .error (.withCategory "busy" .rateLimited) }

def continuingCall : Client := .node 2 plainHost ⟨⟨"b", "y"⟩, 1, 1, 1⟩ "go"

/-- The attempt of `a` is started and polled until it is done; `b` is admitted, and its call binds the conversation. -/
def boundRun : List Move :=
  admittedRun ++ .client (sampleCall 1 1) :: runs 2 17 (admittingEnv 5) ++
    .client (sampleCall 1 1) :: runs 3 15 (admittingEnv 10) ++ runs 1 30 (continuingEnv 20) ++
    .client continuingCall :: runs 4 6 (continuingEnv 25)

/-- The provider refuses the attempt, and the next call retries it. -/
def retriedRun : List Move :=
  runs 4 40 (continuingEnv 25) ++ .client continuingCall :: runs 5 30 (continuingEnv 30)

/-- The retry carries the source. -/
theorem retriedRun_carried : ((after continuedRun (boundRun ++ retriedRun)).world.db.attempts.map fun a =>
        (a.key, a.status, a.providerTaskId, a.conversationSource)) =
      [(⟨"a", 1, 1⟩, .succeeded, some "task", none), (⟨"b", 1, 1⟩, .failed, none, some ⟨"a", some "x", 1, 1⟩),
        (⟨"b", 1, 2⟩, .pending, none, some ⟨"a", some "x", 1, 1⟩)] ∧
      ∀ a ∈ (after continuedRun boundRun).world.db.attempts, ∀ source, a.conversationSource = some source →
        ∃ b ∈ (after continuedRun (boundRun ++ retriedRun)).world.db.attempts, SourceOf b source :=
  ⟨by decide +kernel, fun a ha source hs =>
    (conversation_source_bound continuedRun rfl boundRun retriedRun a ha source hs).2.2.1⟩

end ADT.Durable.System
