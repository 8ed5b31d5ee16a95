import ADT.Repository.Manager
import ADT.Repository.Requests

/-!
# Repository.Records — the records of the tasks and the pushes they allow

What a record says about its task (`RecordOk`), how it may go on (`Progress`), what every request and every reply finds
(`EntryOk`), and that a push is due at most once for each preparation that was completed.  `Needs` is what a request
needs for all this to hold after it.
-/

namespace ADT.Repository

open Interleave Runner Serial

variable {Tree : Type}

/-! ### Progress of a record -/

def TaskState.rank : TaskState → ℕ
  | .prepared => 0
  | .sealed => 1
  | .pushUncertain => 2
  | .published => 3

theorem TaskState.rank_injective : Function.Injective TaskState.rank := by
  intro s t h
  cases s <;> cases t <;> first | rfl | cases h

/-- What identifies a task and its base. -/
def ManagedTaskMetadata.identity (r : ManagedTaskMetadata Tree) :=
  (r.environmentKey, r.taskId, r.repository, r.baseBranch, r.baseSha, r.branch)

/-- A record goes on: its state does not go back, what identifies the task stays, and a commit once named stays. -/
structure Progress (r r' : ManagedTaskMetadata Tree) : Prop where
  identity : r'.identity = r.identity
  rank : r.state.rank ≤ r'.state.rank
  same : r.state = r'.state → r' = r
  sealed : ∀ c, r.sealedCommitSha = some c → r'.sealedCommitSha = some c
  pushed : ∀ c, r.pushedCommitSha = some c → r'.pushedCommitSha = some c

theorem Progress.refl (r : ManagedTaskMetadata Tree) : Progress r r :=
  ⟨rfl, le_rfl, fun _ => rfl, fun _ h => h, fun _ h => h⟩

theorem Progress.trans {r r' r'' : ManagedTaskMetadata Tree} (h : Progress r r') (h' : Progress r' r'') :
    Progress r r'' where
  identity := h'.identity.trans h.identity
  rank := h.rank.trans h'.rank
  same heq := by
    have hrank : r.state.rank = r'.state.rank := le_antisymm h.rank (heq ▸ h'.rank)
    have hmid : r.state = r'.state := TaskState.rank_injective hrank
    exact (h'.same (hmid.symm.trans heq)).trans (h.same hmid)
  sealed c hc := h'.sealed c (h.sealed c hc)
  pushed c hc := h'.pushed c (h.pushed c hc)

def ManagedTaskMetadata.due (r : ManagedTaskMetadata Tree) : Bool := r.state = .prepared || r.state = .sealed

def World.due (w : World Tree) (p : Place) : Bool := (w.record p).any (·.due)

theorem TaskDir.record_of_part {env : Env Tree} {d : TaskDir Tree} {r : ManagedTaskMetadata Tree}
    (h : (d.part env).record = some r) : d.record = some r := by
  unfold TaskDir.part at h
  dsimp only at h
  split at h
  · exact h
  · cases h

theorem TaskDir.git_of_part {env : Env Tree} {d : TaskDir Tree} {g : GitDir Tree} (h : (d.part env).git = some g) :
    d.git = some g := by
  unfold TaskDir.part at h
  dsimp only at h
  split_ifs at h
  all_goals exact h

section Views

variable [DecidableEq Tree] [Surroundings Tree]

variable (Tree) in
abbrev Seen := View (service Tree)

variable (Tree) in
abbrev Event := Entry (service Tree)

/-- A fetch or a push showed the branch of a repository at a commit. -/
def shows (repository : RepositoryName) (branch : String) (c : Commit Tree) :
    Event Tree → Prop
  | .call _ after (.fetchBranch _ repository' branch') (.ok _)
  | .call _ after (.gitPush _ repository' branch') (.ok _) =>
    sameRepository Tree repository repository' = true ∧ branch' = branch ∧
      after.remotes repository' branch' = some c
  | _ => False

def Shown (log : List (Event Tree)) (repository : RepositoryName) (branch : String)
    (c : Commit Tree) : Prop :=
  ∃ x ∈ log, shows repository branch c x

theorem Shown.cons {log : List (Event Tree)} {repository : RepositoryName} {branch : String}
    {c : Commit Tree} (h : Shown log repository branch c) (x : Event Tree) :
    Shown (x :: log) repository branch c := by
  obtain ⟨y, hy, hshows⟩ := h
  exact ⟨y, List.mem_cons_of_mem _ hy, hshows⟩

/-- What a record in place says. -/
structure RecordOk (log : List (Event Tree)) (p : Place) (r : ManagedTaskMetadata Tree) :
    Prop where
  environmentKey : r.environmentKey = p.environmentKey
  taskId : r.taskId = p.taskId
  available : r.worktreeAvailable = true ↔ r.state = .prepared
  unsealed : r.state = .prepared → r.sealedCommitSha = none
  sealed : r.state ≠ .prepared → ∃ c, r.sealedCommitSha = some c ∧ r.sealedChanged = some (c != r.baseSha)
  unpushed : r.due = true → r.pushedCommitSha = none
  pushed : r.due = false → r.pushedCommitSha = r.sealedCommitSha ∧ r.sealedChanged = some true
  shown : r.state = .published → ∀ c, r.pushedCommitSha = some c → Shown log r.repository r.branch c

theorem RecordOk.cons {log : List (Event Tree)} {p : Place} {r : ManagedTaskMetadata Tree}
    (h : RecordOk log p r) (x : Event Tree) : RecordOk (x :: log) p r :=
  { h with shown := fun hstate c hc => (h.shown hstate c hc).cons x }

/-- The git directory is on the branch of the record, and a sealed branch stands at the sealed commit. -/
def GitOk (r : ManagedTaskMetadata Tree) (g : GitDir Tree) : Prop :=
  g.head = r.branch ∧ (r.state ≠ .prepared → g.refs r.branch = r.sealedCommitSha)

/-- A record and the git directory beside it. -/
structure DirOk (log : List (Event Tree)) (p : Place) (d : TaskDir Tree) : Prop where
  record : ∀ r, d.record = some r → RecordOk log p r
  git : ∀ r g, d.record = some r → d.git = some g → GitOk r g

/-- The push is of the sealed commit, which is not the base commit, on the branch of the record and to its repository,
and the record says that it may be under way. -/
def PushOk (w : World Tree) (p : Place) (repository : RepositoryName) (branch : String) :
    Prop :=
  ∃ r c, w.record p = some r ∧ r.state = .pushUncertain ∧ r.sealedCommitSha = some c ∧ r.pushedCommitSha = some c ∧
    c ≠ r.baseSha ∧ branch = r.branch ∧ sameRepository Tree r.repository repository = true ∧
    ∀ g, w.git .task p = some g → g.refs branch = some c

/-- No task whose checkout is available loses it: a record that is left names the commit it was sealed in. -/
def RemovalOk (w : World Tree) (p : Place) : Prop :=
  ∀ r, w.record p = some r → r.worktreeAvailable = false ∧ ∃ c, r.sealedCommitSha = some c

/-- Only the removal of its directory ends a record. -/
def GoesOn (before after : World Tree) (q : Request Tree) : Prop :=
  ∀ p r, before.record p = some r → q = .removeDir .task p ∨ ∃ r', after.record p = some r' ∧ Progress r r'

/-- The commit has what `git add --all` makes of the checkout. -/
def TreeAt (w : World Tree) (p : Place) (cwd : String) (c : Commit Tree) : Prop :=
  ∃ work index, w.worktrees cwd p.taskId = some work ∧ c.tree = Surroundings.stage index work

/-- A record that is sealed names such a commit. -/
def SealOk (w : World Tree) (p : Place) (cwd : String) (r : ManagedTaskMetadata Tree) : Prop :=
  r.state = .sealed → ∃ c, r.sealedCommitSha = some c ∧ TreeAt w p cwd c

def CallOk (before after : World Tree) (q : Request Tree) : Prop :=
  GoesOn before after q ∧ match q with
    | .gitPush p repository branch => PushOk before p repository branch
    | .removeWorktree p _ => RemovalOk before p
    | .persist .task p cwd r => Surroundings.edits Tree = false → SealOk before p cwd r
    | _ => True

/-- A task with a record has been sealed, and its checkout is not there unless it is the checkout of `p`. -/
def HiddenAt (w : World Tree) (p : Place) (cwd : String) (candidate : RunnerEnvironment) (id : String) : Prop :=
  (⟨candidate.key, id⟩ : Place) ≠ p → ∀ r, w.record ⟨candidate.key, id⟩ = some r →
    r.worktreeAvailable = false ∧ ((candidate.cwd, id) ≠ (cwd, p.taskId) → w.worktrees candidate.cwd id = none)

/-- So it is with every other task of the enabled managed environments. -/
def Hidden (environments : List RunnerEnvironment) (w : World Tree) (p : Place) (cwd : String) : Prop :=
  ∀ candidate ∈ environments, candidate.enabled = true → candidate.repository.isSome = true →
    ∀ id, isTaskId id.toList = true → HiddenAt w p cwd candidate id

/-- What is answered: a preparation leaves its record in place and no other checkout; a publication names a commit that
was shown at the branch, or the base commit where nothing changed. -/
def ReplyOk (log : List (Event Tree)) (environments : List RunnerEnvironment)
    (w : World Tree) : Except SafeError (Reply Tree) → Prop
  | .ok (.prepared r cwd) => w.record ⟨r.environmentKey, r.taskId⟩ = some r ∧ r.state = .prepared ∧
      r.worktreeAvailable = true ∧ Hidden environments w ⟨r.environmentKey, r.taskId⟩ cwd
  | .ok (.published r true commitSha _) =>
    ∃ c, commitSha = some c ∧ r.sealedCommitSha = some c ∧ c ≠ r.baseSha ∧ Shown log r.repository r.branch c
  | .ok (.published r false commitSha _) => commitSha = some r.baseSha
  | _ => True

def pushed (p : Place) : Event Tree → Bool
  | .call _ _ (.gitPush p' _ _) _ => p' == p
  | _ => false

/-- A preparation of the task was completed. -/
def placed (p : Place) : Event Tree → Bool
  | .call _ _ (.placeTask p') (.ok _) => p' == p
  | _ => false

/-- Since a preparation of the task was completed no push of it was issued. -/
def Unpushed (p : Place) (log : List (Event Tree)) : Prop :=
  ∃ later x earlier, log = later ++ x :: earlier ∧ placed p x = true ∧ ∀ y ∈ later, pushed p y = false

def EntryOk (earlier : List (Event Tree)) :
    Event Tree → Prop
  | .call before after q a => CallOk before after q ∧
      ∀ p, pushed p (.call (V := service Tree) before after q a) = true → Unpushed p earlier
  | .reply environments w _ r => ReplyOk earlier environments w r

/-- The invariant of the service. -/
structure Sound (v : Seen Tree) : Prop where
  dirs : ∀ p d, v.world.task p = some d → DirOk v.log p d
  entries : ∀ later x earlier, v.log = later ++ x :: earlier → EntryOk earlier x
  due : ∀ p, v.world.due p = true → Unpushed p v.log

def Needs (v : Seen Tree) : Request Tree → Prop
  | .removeWorktree p _ => RemovalOk v.world p
  | .persist .task p cwd r => (∀ d, v.world.task p = some d → DirOk v.log p { d with record := some r }) ∧
      (∃ r₀, v.world.record p = some r₀ ∧ Progress r₀ r) ∧ (Surroundings.edits Tree = false → SealOk v.world p cwd r)
  | .placeTask p => ∀ d, v.world.staging.lookup p = some d → DirOk v.log p d
  | .gitCommit p => ∀ r, v.world.record p = some r → r.state = .prepared
  | .gitPush p repository branch => PushOk v.world p repository branch ∧ Unpushed p v.log
  | _ => True

/-! ### What a request keeps -/

section Answered

variable {log : List (Event Tree)} {v : Seen Tree} {p : Place}
  {d : TaskDir Tree}

theorem DirOk.cons (h : DirOk log p d) (x : Event Tree) : DirOk (x :: log) p d :=
  ⟨fun r hr => (h.record r hr).cons x, h.git⟩

theorem DirOk.part {env : Env Tree} (h : DirOk log p d) : DirOk log p (d.part env) :=
  ⟨fun r hr => h.record r (TaskDir.record_of_part hr),
    fun r g hr hg => h.git r g (TaskDir.record_of_part hr) (TaskDir.git_of_part hg)⟩

theorem Sound.record (h : Sound v) {r : ManagedTaskMetadata Tree} (hr : v.world.record p = some r) :
    RecordOk v.log p r := by
  obtain ⟨d, hd, hrecord⟩ := record_eq.mp hr
  exact (h.dirs p d hd).record r hrecord

theorem Sound.removalOk (h : Sound v) {r : ManagedTaskMetadata Tree} (hr : v.world.record p = some r)
    (hunavailable : r.worktreeAvailable = false) : RemovalOk v.world p := by
  intro r' hr'
  obtain rfl := Option.some.inj (hr.symm.trans hr')
  have hok := h.record hr
  have hstate : r.state ≠ .prepared := fun hstate => by
    rw [hok.available.mpr hstate] at hunavailable
    cases hunavailable
  obtain ⟨c, hc, -⟩ := hok.sealed hstate
  exact ⟨hunavailable, c, hc⟩

/-- What a request makes of the directory of a task. -/
structure DirStep (v : Seen Tree) (w : World Tree) (q : Request Tree) (p : Place) : Prop where
  dir : ∀ d, w.task p = some d → DirOk v.log p d
  goesOn : ∀ r, v.world.record p = some r → q = .removeDir .task p ∨ ∃ r', w.record p = some r' ∧ Progress r r'
  comes : ∀ r', w.record p = some r' → (∃ r, v.world.record p = some r ∧ Progress r r') ∨ q = .placeTask p

variable {w : World Tree} {q : Request Tree} {env : Env Tree}

theorem Sound.dirStep_same (h : Sound v) (htask : w.task p = v.world.task p) : DirStep v w q p where
  dir d hd := h.dirs p d (htask ▸ hd)
  goesOn r hr := .inr ⟨r, (congrArg (Option.bind · TaskDir.record) htask).trans hr, .refl r⟩
  comes r hr := .inl ⟨r, (congrArg (Option.bind · TaskDir.record) htask).symm.trans hr, .refl r⟩

theorem Sound.dirStep_git (h : Sound v) {f : GitDir Tree → GitDir Tree}
    (hgit : ∀ r g, v.world.record p = some r → GitOk r g → GitOk r (f g)) :
    DirStep v (World.onGit v.world .task p f) q p where
  dir d' hd' := by
    obtain ⟨d, hd, rfl⟩ := Option.map_eq_some_iff.mp (task_onDir.symm.trans hd')
    refine ⟨(h.dirs p d hd).record, fun r g' hr hg' => ?_⟩
    obtain ⟨g, hg, rfl⟩ := Option.map_eq_some_iff.mp hg'
    exact hgit r g (record_eq.mpr ⟨d, hd, hr⟩) ((h.dirs p d hd).git r g hr hg)
  goesOn r hr := .inr ⟨r, (record_onGit ..).trans hr, .refl r⟩
  comes r hr := .inl ⟨r, (record_onGit ..).symm.trans hr, .refl r⟩

theorem Sound.dirStep_after (h : Sound v) (hneeds : Needs v q) (htouches : q.touches p)
    (hplace : q = .placeTask p → World.record v.world p = none) : DirStep v (q.after env v.world) q p := by
  cases q with
  | removeDir dir p' =>
    cases dir <;> cases htouches
    have htask : (World.setDir v.world .task p none).task p = none := (task_setDir ..).trans (if_pos rfl)
    refine ⟨fun d hd => ?_, fun r _ => .inl rfl, fun r hr => ?_⟩
    · cases htask.symm.trans hd
    · obtain ⟨d, hd, -⟩ := record_eq.mp hr
      cases htask.symm.trans hd
  | persist dir p' cwd r' =>
    cases dir <;> cases htouches
    obtain ⟨hdir, ⟨r₀, hr₀, hprogress⟩, -⟩ := hneeds
    obtain ⟨d₀, hd₀, -⟩ := record_eq.mp hr₀
    have htask : (World.onDir v.world .task p fun d => { d with record := some r' }).task p =
        some { d₀ with record := some r' } := task_onDir.trans (congrArg (Option.map _) hd₀)
    have hrecord : (World.onDir v.world .task p fun d => { d with record := some r' }).record p = some r' :=
      record_eq.mpr ⟨_, htask, rfl⟩
    refine ⟨fun d hd => ?_, fun r hr => .inr ⟨r', hrecord, ?_⟩, fun r hr => .inl ⟨r₀, hr₀, ?_⟩⟩
    · obtain rfl := Option.some.inj (htask.symm.trans hd)
      exact hdir d₀ hd₀
    · exact Option.some.inj (hr₀.symm.trans hr) ▸ hprogress
    · exact Option.some.inj (hrecord.symm.trans hr) ▸ hprogress
  | placeTask p' =>
    cases htouches
    refine ⟨fun d hd => hneeds d ((task_setDir ..).symm.trans hd ▸ (if_pos rfl).symm), fun r hr => ?_,
      fun r _ => .inr rfl⟩
    cases (hplace rfl).symm.trans hr
  | gitAdd p' cwd =>
    cases htouches
    exact h.dirStep_git fun r g _ hg => hg
  | gitCommit p' =>
    cases htouches
    -- only a task that is not sealed yet is committed to
    exact h.dirStep_git fun r g hr hg => ⟨hg.1, fun hne => absurd (hneeds r hr) hne⟩
  | _ => cases htouches

theorem Sound.dirStep_part (h : Sound v) : DirStep v (q.part env v.world) q p := by
  by_cases htouches : q = .removeDir .task p
  · subst htouches
    refine ⟨fun d hd => ?_, fun r _ => .inl rfl, fun r hr => ?_⟩
    · obtain ⟨d₀, hd₀, rfl⟩ := Option.map_eq_some_iff.mp (task_onDir.symm.trans hd)
      exact (h.dirs p d₀ hd₀).part
    · obtain ⟨d, hd, hrecord⟩ := record_eq.mp hr
      obtain ⟨d₀, hd₀, rfl⟩ := Option.map_eq_some_iff.mp (task_onDir.symm.trans hd)
      exact .inl ⟨r, record_eq.mpr ⟨d₀, hd₀, TaskDir.record_of_part hrecord⟩, .refl r⟩
  · refine h.dirStep_same ?_
    cases q with
    | removeDir dir p' =>
      cases dir
      · exact (task_setDir ..).trans (if_neg fun hp => htouches (by rw [hp]))
      · rfl
    | _ => rfl

theorem Sound.dirStep (h : Sound v) (hneeds : Needs v q) (env : Env Tree) (p : Place) :
    DirStep v (answer env q v.world).2 q p := by
  by_cases htouches : q.touches p
  · rcases answer_cases v.world env q with ⟨a, ha, heq⟩ | ⟨-, heq | heq | ⟨hgit, heq⟩⟩ <;> rw [heq]
    · refine h.dirStep_after hneeds htouches fun hq => ?_
      subst hq
      -- the directory that is in place has no record
      have hfree := ((Bool.and_eq_true _ _).mp (when_some ha)).2
      rcases ht : World.task v.world p with _ | t
      · rw [World.record, ht]
        rfl
      · rw [World.record, ht]
        simpa [ht] using ((Bool.and_eq_true _ _).mp (show (t.record.isNone && t.git.isNone) = true by
          simpa [ht] using hfree)).1
    · exact h.dirStep_same rfl
    · exact h.dirStep_part
    · refine h.dirStep_after hneeds htouches fun hq => ?_
      subst hq
      cases hgit
  · exact h.dirStep_same (task_answer htouches)

omit [DecidableEq Tree] [Surroundings Tree] in
theorem due_of_progress {r r' : ManagedTaskMetadata Tree} (h : Progress r r') (hdue : r'.due = true) : r.due = true := by
  have hrank := h.rank
  unfold ManagedTaskMetadata.due at hdue ⊢
  cases hr : r.state <;> cases hr' : r'.state <;> rw [hr, hr'] at hrank <;> rw [hr'] at hdue <;>
    simp_all [TaskState.rank]

theorem Sound.due_answered (h : Sound v) (hneeds : Needs v q) (hdue : World.due (v.answered env q).2.world p = true) :
    World.due v.world p = true ∨
      placed p (.call v.world (v.answered env q).2.world q (v.answered env q).1 : Event Tree) = true := by
  obtain ⟨r', hr', hdue'⟩ := (Option.any_eq_true _ _).mp hdue
  rcases (h.dirStep hneeds env p).comes r' hr' with ⟨r, hr, hprogress⟩ | rfl
  · refine .inl ?_
    rw [World.due, hr]
    exact due_of_progress hprogress hdue'
  · have hkept : (v.answered env (.placeTask p)).2.world = v.world → World.due v.world p = true := fun heq => by
      rw [← heq]
      exact hdue
    rcases answer_cases v.world env (.placeTask p) with ⟨a, -, heq⟩ | ⟨-, heq | heq | ⟨hgit, -⟩⟩
    · refine .inr ?_
      show placed p (.call _ _ (.placeTask p) (answer env (.placeTask p) v.world).1 : Event Tree) = true
      rw [heq]
      exact beq_self_eq_true p
    · exact .inl (hkept heq)
    · exact .inl (hkept heq)
    · cases hgit

theorem Needs.callOk (hneeds : Needs v q) (hgoes : GoesOn v.world w q) :
    CallOk v.world w q := by
  refine ⟨hgoes, ?_⟩
  cases q with
  | gitPush p repository branch => exact hneeds.1
  | removeWorktree p cwd => exact hneeds
  | persist dir p cwd r =>
    cases dir with
    | task => exact hneeds.2.2
    | staging => trivial
  | _ => trivial

theorem push_of_pushed {a : Except SafeError (Result q)}
    (h : pushed p (.call v.world w q a : Event Tree) = true) : ∃ repository branch, q = .gitPush p repository branch := by
  cases q with
  | gitPush p' repository branch =>
    obtain rfl := eq_of_beq h
    exact ⟨repository, branch, rfl⟩
  | _ => cases h

omit [DecidableEq Tree] in
theorem PushOk.due {w : World Tree} {repository : RepositoryName} {branch : String}
    (h : PushOk w p repository branch) : w.due p = false := by
  obtain ⟨r, c, hr, hstate, -⟩ := h
  rw [World.due, hr, Option.any_some, ManagedTaskMetadata.due, hstate]
  rfl

theorem Unpushed.cons (h : Unpushed p log) {x : Event Tree} (hx : pushed p x = false) :
    Unpushed p (x :: log) := by
  obtain ⟨later, y, earlier, rfl, hplaced, hlater⟩ := h
  exact ⟨x :: later, y, earlier, rfl, hplaced, List.forall_mem_cons.mpr ⟨hx, hlater⟩⟩

/-- **A request.** What it needs is enough for the invariant to hold after it. -/
theorem sound_answered (h : Sound v) (env : Env Tree) (hneeds : Needs v q) : Sound (v.answered env q).2 where
  dirs p d hd := ((h.dirStep hneeds env p).dir d hd).cons _
  entries later x earlier hlog := by
    rcases later with _ | ⟨y, later⟩
    · obtain ⟨rfl, rfl⟩ := List.cons.inj hlog
      refine ⟨hneeds.callOk fun p => (h.dirStep hneeds env p).goesOn, fun p hpush => ?_⟩
      obtain ⟨repository, branch, rfl⟩ := push_of_pushed hpush
      exact hneeds.2
    · exact h.entries later x earlier (List.cons.inj hlog).2
  due p hdue := by
    rcases h.due_answered hneeds hdue with hbefore | hplaced
    · refine (h.due p hbefore).cons (Bool.eq_false_iff.mpr fun hpush => ?_)
      -- a push is made of a record that says so
      obtain ⟨repository, branch, rfl⟩ := push_of_pushed hpush
      rw [hneeds.1.due] at hbefore
      cases hbefore
    · exact ⟨[], _, _, rfl, hplaced, fun _ hy => by cases hy⟩

theorem sound_moved (h : Sound v) (m : Move Tree) : Sound (v.moved m) := ⟨h.dirs, h.entries, h.due⟩

theorem sound_reply (h : Sound v) (environments : List RunnerEnvironment) (op : Op)
    (r : Except SafeError (Reply Tree)) (hr : ReplyOk v.log environments v.world r) :
    Sound (⟨v.world, .reply environments v.world op r :: v.log⟩ : Seen Tree) where
  dirs p d hd := (h.dirs p d hd).cons _
  entries later x earlier hlog := by
    rcases later with _ | ⟨y, later⟩
    · obtain ⟨rfl, rfl⟩ := List.cons.inj hlog
      exact hr
    · exact h.entries later x earlier (List.cons.inj hlog).2
  due p hdue := (h.due p hdue).cons rfl

theorem sound_init (remotes : RepositoryName → String → Option (Commit Tree)) :
    Sound (⟨World.start remotes, []⟩ : Seen Tree) where
  dirs p d hd := by cases hd
  entries later x earlier hlog := by simp at hlog
  due p hdue := by cases hdue

end Answered

end Views

end ADT.Repository
