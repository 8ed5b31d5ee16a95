import ADT.Repository.Records

/-!
# Repository.Sealing — rules for the operations, and the sealing of tasks

The rules for the parts of the operations, and the sealing of a task and of all others: what is known while a part runs
is kept by the others and by its requests, and each request has what it needs.
-/

namespace ADT.Repository

open Interleave Runner Serial

variable {Tree : Type} [DecidableEq Tree] [Surroundings Tree] {α β : Type} {v : Seen Tree} {q : Request Tree}
  {F F' : Seen Tree → Prop} {p : Place} {cwd : String}

/-! ### What is kept -/

theorem stable_sound : Stable (Sound : Seen Tree → Prop) := fun _ m _ h => sound_moved h m

/-- What the others and the request keep. -/
structure Kept (q : Request Tree) (F : Seen Tree → Prop) : Prop where
  stable : Stable F
  keeps : ∀ v env, Sound v → Needs v q → F v → F (v.answered env q).2

theorem kept_const (A : Prop) : Kept q fun _ => A := ⟨stable_const A, fun _ _ _ _ h => h⟩

theorem Kept.and (hF : Kept q F) (hF' : Kept q F') : Kept q fun v => F v ∧ F' v :=
  ⟨hF.stable.and hF'.stable, fun v env h hq hf => ⟨hF.keeps v env h hq hf.1, hF'.keeps v env h hq hf.2⟩⟩

theorem kept_forall {G : β → Seen Tree → Prop} (hG : ∀ b, Kept q (G b)) : Kept q fun v => ∀ b, G b v :=
  ⟨fun v m hm h b => (hG b).stable v m hm (h b), fun v env h hq hf b => (hG b).keeps v env h hq (hf b)⟩

theorem kept_imp {A : Prop} (hF : A → Kept q F) : Kept q fun v => A → F v :=
  ⟨fun v m hm h ha => (hF ha).stable v m hm (h ha), fun v env h hq hf ha => (hF ha).keeps v env h hq (hf ha)⟩

theorem kept_or {A : Prop} (hF : Kept q F) : Kept q fun v => A ∨ F v :=
  ⟨fun v m hm h => h.imp_right (hF.stable v m hm), fun v env h hq hf => hf.imp_right (hF.keeps v env h hq)⟩

theorem kept_record (A : Option (ManagedTaskMetadata Tree) → Prop) (hq : ¬q.records p) :
    Kept q fun v => A (World.record v.world p) where
  stable _ _ _ h := h
  keeps v env _ _ h := by
    have hrecord : World.record (v.answered env q).2.world p = World.record v.world p := record_answer hq
    rw [hrecord]
    exact h

/-- The requests that bring a checkout or the directory of a task. -/
def Request.brings : Request Tree → Prop
  | .placeTask _ | .makeWorktree _ _ | .gitReset _ _ _ => True
  | _ => False

/-- What is kept by a part of an operation that brings nothing and changes records of `places` only. -/
def Frame (places : Place → Prop) (F : Seen Tree → Prop) : Prop :=
  ∀ q : Request Tree, ¬q.brings → (∀ p, q.records p → places p) → Kept q F

theorem frame_record (A : Option (ManagedTaskMetadata Tree) → Prop) :
    Frame (· ≠ p) fun v : Seen Tree => A (World.record v.world p) :=
  fun _ _ hq => kept_record A fun hp => hq p hp rfl

variable {places : Place → Prop}

theorem Frame.and (hF : Frame places F) (hF' : Frame places F') : Frame places fun v => F v ∧ F' v :=
  fun q hbrings hrecords => (hF q hbrings hrecords).and (hF' q hbrings hrecords)

theorem frame_true (places : Place → Prop) : Frame places fun _ : Seen Tree => True := fun _ _ _ => kept_const True

theorem Frame.quiet (hF : Frame places F) (hbrings : ¬q.brings) (hrecords : ∀ p, ¬q.records p) : Kept q F :=
  hF q hbrings fun p hp => absurd hp (hrecords p)

/-! ### Rules -/

/-- How a part of an operation ends: with the invariant, and `Post` or `Err` beside it. -/
def Ends (Post : α → Seen Tree → Prop) (Err : Seen Tree → Prop) : Except SafeError α → Seen Tree → Prop
  | .ok a, v => Sound v ∧ Post a v
  | .error _, v => Sound v ∧ Err v

/-- A request that was done in `v`, and what came of it. -/
structure Done (q : Request Tree) (a : Result q) (env : Env Tree) (v v' : Seen Tree) : Prop where
  before : Sound v
  result : q.result env v.world = some a
  world : v'.world = q.after env v.world
  log : v'.log = .call v.world v'.world q (.ok a) :: v.log
  sound : Sound v'

section Rules

variable {Post : α → Seen Tree → Prop} {Err P : Seen Tree → Prop}

theorem wp_request {Post : Result q → Seen Tree → Prop} (hP : Stable P) (h : Sound v) (hv : P v)
    (hneeds : ∀ v, Sound v → P v → Needs v q)
    (herr : ∀ env e v, Sound v → P v → (v.answered env q).1 = .error e → Err (v.answered env q).2)
    (hpost : ∀ env a v v', Done q a env v v' → P v → v' = (v.answered env q).2 → Post a v') :
    Wp Sound (call q) (Ends Post Err) v := by
  refine wp_ask (stable_sound.and hP) ⟨h, hv⟩ fun v env ⟨h, hv⟩ => ?_
  have h' := sound_answered h env (hneeds v h hv)
  refine ⟨h', ?_⟩
  rcases ha : (v.answered env q).1 with e | a
  · exact ⟨h', herr env e v h hv ha⟩
  · obtain ⟨hresult, hworld⟩ := answer_ok ha
    have hlog := congrArg (fun r => (.call v.world (v.answered env q).2.world q r : Event Tree) :: v.log) ha
    exact ⟨h', hpost env a v _ ⟨h, hresult, hworld, hlog, h'⟩ hv rfl⟩

theorem wp_call {Post : Result q → Seen Tree → Prop} (hP : Stable P) (hF : Kept q F) (h : Sound v) (hv : P v) (hf : F v)
    (hneeds : ∀ v, Sound v → P v → F v → Needs v q) (herr : ∀ v, F v → Err v)
    (hpost : ∀ env a v v', Done q a env v v' → P v → F v → F v' → Post a v') :
    Wp Sound (call q) (Ends Post Err) v :=
  wp_request (hP.and hF.stable) h ⟨hv, hf⟩ (fun v h hk => hneeds v h hk.1 hk.2)
    (fun env _ v h hk _ => herr _ (hF.keeps v env h (hneeds v h hk.1 hk.2) hk.2))
    fun env a v _ hd hk heq => hpost env a v _ hd hk.1 hk.2
      (heq ▸ hF.keeps v env hd.before (hneeds v hd.before hk.1 hk.2) hk.2)

variable {k : β → Manager Tree α}

theorem wp_part {part : Manager Tree β} {M : β → Seen Tree → Prop}
    (hpart : Wp Sound part (Ends M Err) v) (hk : ∀ b v, Sound v → M b v → Wp Sound (k b) (Ends Post Err) v) :
    Wp Sound (part >>= k) (Ends Post Err) v := by
  refine wp_bind (hpart.mono fun r v' h => ?_)
  rcases r with e | b
  · exact h
  · exact hk b v' h.1 h.2

theorem wp_then {k : Result q → Manager Tree α} (hP : Stable P) (hF : Kept q F) (h : Sound v) (hv : P v) (hf : F v)
    (hneeds : ∀ v, Sound v → P v → F v → Needs v q) (herr : ∀ v, F v → Err v)
    (hk : ∀ env a v v', Done q a env v v' → P v → F v → F v' → Wp Sound (k a) (Ends Post Err) v') :
    Wp Sound (call q >>= k) (Ends Post Err) v :=
  wp_part (M := fun a v' => Wp Sound (k a) (Ends Post Err) v') (wp_call hP hF h hv hf hneeds herr hk)
    fun _ _ _ hk => hk

theorem wp_step {k : Result q → Manager Tree α} (hF : Kept q F) (h : Sound v) (hf : F v)
    (hneeds : ∀ v, Sound v → F v → Needs v q) (herr : ∀ v, F v → Err v)
    (hk : ∀ a v, Sound v → F v → Wp Sound (k a) (Ends Post Err) v) : Wp Sound (call q >>= k) (Ends Post Err) v :=
  wp_then (stable_const True) hF h trivial hf (fun v h _ hf => hneeds v h hf) herr
    fun _ a _ v' hd _ _ hf' => hk a v' hd.sound hf'

theorem wp_check {x : Except SafeError β} (h : Sound v) (herr : Err v)
    (hk : ∀ b, x = .ok b → Wp Sound (k b) (Ends Post Err) v) : Wp Sound (check x >>= k) (Ends Post Err) v := by
  rcases x with e | b
  · exact ⟨h, herr⟩
  · exact hk b rfl

theorem wp_refuse {c : Prop} [Decidable c] {e : SafeError} {k : Manager Tree α} (h : Sound v) (herr : Err v)
    (hk : ¬c → Wp Sound k (Ends Post Err) v) :
    Wp Sound (do
      if c then throw e
      k) (Ends Post Err) v := by
  by_cases hc : c
  · simp only [if_pos hc]
    exact ⟨h, herr⟩
  · simp only [if_neg hc]
    exact hk hc

end Rules

/-! ### Sealing -/

section Seal

variable {r : ManagedTaskMetadata Tree} {places : Place → Prop} {w : World Tree} {env : Env Tree}

theorem stable_unedited {A : World Tree → Prop} (hA : ∀ w remotes, A w → A { w with remotes := remotes }) :
    Stable fun v : Seen Tree => Surroundings.edits Tree = false → A v.world := by
  intro v m hm h hedits
  cases m with
  | edit => cases hm.symm.trans hedits
  | remote => exact hA _ _ (h hedits)

/-- The commit at `HEAD`. -/
def HeadAt (w : World Tree) (p : Place) (c : Commit Tree) : Prop := ∃ g, w.git .task p = some g ∧ g.commit? = some c

/-- The index is what `git add --all` made of the checkout. -/
def Staged (w : World Tree) (p : Place) (cwd : String) : Prop :=
  ∃ g work index, w.git .task p = some g ∧ w.worktrees cwd p.taskId = some work ∧
    g.index = Surroundings.stage index work

/-- The commit at `HEAD` has what `git add --all` made of the checkout. -/
def Caught (w : World Tree) (p : Place) (cwd : String) : Prop := ∃ c, HeadAt w p c ∧ TreeAt w p cwd c

theorem caught_status (h : Request.result env w (.gitStatus p cwd) = some false) : Caught w p cwd := by
  obtain ⟨g, hg, h⟩ := Option.bind_eq_some_iff.mp h
  obtain ⟨work, hwork, h⟩ := Option.bind_eq_some_iff.mp h
  have hclean : g.clean work = true := by simpa using h
  obtain ⟨c, hc, hsame⟩ := (Option.any_eq_true _ _).mp hclean
  obtain ⟨hindex, hstage⟩ := of_decide_eq_true hsame
  exact ⟨c, ⟨g, hg, hc⟩, work, g.index, hwork, (hstage.trans hindex).symm⟩

variable {a : Unit}

theorem staged_add (h : Request.result env w (.gitAdd p cwd) = some a) :
    Staged (Request.after env w (.gitAdd p cwd)) p cwd := by
  obtain ⟨hg, hwork⟩ := (Bool.and_eq_true _ _).mp (when_some h)
  obtain ⟨g, hg⟩ := Option.isSome_iff_exists.mp hg
  obtain ⟨work, hwork⟩ := Option.isSome_iff_exists.mp hwork
  exact ⟨_, work, g.index, git_onGit.trans (congrArg _ hg), hwork, by rw [hwork]; rfl⟩

omit [DecidableEq Tree] in
theorem caught_commit (h : Staged w p cwd) : Caught (Request.after env w (.gitCommit p)) p cwd := by
  obtain ⟨g, work, index, hg, hwork, hindex⟩ := h
  have hcommit : ∃ c, (g.commit env.stamp).commit? = some c ∧ c.tree = g.index := by
    unfold GitDir.commit
    cases g.commit? <;> exact ⟨_, Function.update_self .., rfl⟩
  obtain ⟨c, hc, htree⟩ := hcommit
  exact ⟨c, ⟨_, git_onGit.trans (congrArg _ hg), hc⟩, work, index, hwork, htree.trans hindex⟩

theorem dirOk_sealedAt {d : TaskDir Tree} {c : Commit Tree} (hd : DirOk v.log p d) (hr : d.record = some r)
    (hstate : r.state = .prepared) (hgit : ∀ g, d.git = some g → g.commit? = some c) :
    DirOk v.log p { d with record := some (r.sealedAt c) } := by
  have hok := hd.record r hr
  have hunpushed : r.pushedCommitSha = none := hok.unpushed (by rw [ManagedTaskMetadata.due, hstate]; rfl)
  refine ⟨fun r' hr' => ?_, fun r' g hr' hg => ?_⟩ <;> cases hr'
  · exact ⟨hok.environmentKey, hok.taskId, ⟨fun h => (by cases h), fun h => (by cases h)⟩, fun h => (by cases h),
      fun _ => ⟨c, rfl, rfl⟩, fun _ => hunpushed, fun h => (by cases h), fun h => (by cases h)⟩
  · have hhead := (hd.git r g hr hg).1
    refine ⟨hhead, fun _ => ?_⟩
    have hcommit := hgit g hg
    rw [GitDir.commit?, hhead] at hcommit
    exact hcommit

theorem progress_sealedAt (hok : RecordOk v.log p r) (hstate : r.state = .prepared) (c : Commit Tree) :
    Progress r (r.sealedAt c) where
  identity := rfl
  rank := by
    rw [hstate]
    exact Nat.zero_le _
  same h := by
    rw [hstate] at h
    cases h
  sealed c' hc' := by
    rw [hok.unsealed hstate] at hc'
    cases hc'
  pushed _ h := h

theorem Done.record_persist {env : Env Tree} {v v' : Seen Tree} (h : Done (.persist .task p cwd r) a env v v') :
    World.record v'.world p = some r := by
  obtain ⟨d, hd⟩ := Option.isSome_iff_exists.mp (when_some h.result)
  rw [h.world]
  exact record_eq.mpr ⟨_, task_onDir.trans (congrArg _ hd), rfl⟩

theorem Done.worktree_removed {env : Env Tree} {v v' : Seen Tree} (h : Done (.removeWorktree p cwd) a env v v') :
    World.worktrees v'.world cwd p.taskId = none := by
  rw [h.world]
  exact (worktrees_setWorktree ..).trans (if_pos ⟨rfl, rfl⟩)

/-- A task is sealed: its record is in place and its checkout is gone. -/
def SealedAt (p : Place) (cwd : String) (r s : ManagedTaskMetadata Tree) (w : World Tree) : Prop :=
  w.record p = some s ∧ s.state ≠ .prepared ∧ s.repository = r.repository ∧
    (r.worktreeAvailable = true → w.worktrees cwd p.taskId = none)

theorem wp_sealHead (hF : Frame places F) (hp : places p) (hstate : r.state = .prepared) (h : Sound v)
    (hv : World.record v.world p = some r ∧ F v) (hcaught : Surroundings.edits Tree = false → Caught v.world p cwd) :
    Wp Sound (call (.gitHead p) >>= fun commit => call (.persist .task p cwd (r.sealedAt commit)) >>= fun _ =>
        call (.removeWorktree p cwd) >>= fun _ => (pure (r.sealedAt commit) : Manager Tree _))
      (Ends (fun s v => SealedAt p cwd r s v.world ∧ F v) fun _ => True) v := by
  refine wp_then (stable_unedited (A := fun w => Caught w p cwd) fun _ _ h => h) ((kept_record (· = some r) id).and
    (hF.quiet id fun _ => id)) h hcaught hv (fun _ _ _ _ => trivial) (fun _ _ => trivial) fun env c v v' hd hcaught _ hv => ?_
  obtain ⟨g, hg, hc⟩ := Option.bind_eq_some_iff.mp hd.result
  have htree : Surroundings.edits Tree = false → TreeAt v'.world p cwd c := by
    intro hedits
    obtain ⟨c', ⟨g', hg', hc'⟩, htree⟩ := hcaught hedits
    obtain rfl := Option.some.inj (hg.symm.trans hg')
    obtain rfl := Option.some.inj (hc.symm.trans hc')
    rw [hd.world]
    exact htree
  have hhead : HeadAt v'.world p c := by
    rw [hd.world]
    exact ⟨g, hg, hc⟩
  have hknown : Stable fun v : Seen Tree => (World.record v.world p = some r ∧ HeadAt v.world p c) ∧
      (Surroundings.edits Tree = false → TreeAt v.world p cwd c) :=
    Stable.and (fun _ _ _ h => h) (stable_unedited (A := fun w => TreeAt w p cwd c) fun _ _ h => h)
  refine wp_then hknown (hF _ id fun _ hp' => hp' ▸ hp) hd.sound ⟨⟨hv.1, hhead⟩, htree⟩ hv.2 (fun v h hk _ => ?_)
    (fun _ _ => trivial) fun env _ v v' hd _ _ hf => ?_
  · obtain ⟨⟨hr, g, hg, hc⟩, htree⟩ := hk
    obtain ⟨d, hd, hrecord⟩ := record_eq.mp hr
    refine ⟨fun d' hd' => ?_, ⟨r, hr, progress_sealedAt (h.record hr) hstate c⟩, fun hedits _ => ⟨c, rfl, htree hedits⟩⟩
    obtain rfl := Option.some.inj (hd.symm.trans hd')
    refine dirOk_sealedAt (h.dirs p d hd) hrecord hstate fun g' hg' => ?_
    obtain rfl := Option.some.inj (hg.symm.trans (git_eq.mpr ⟨d, hd, hg'⟩))
    exact hc
  · refine wp_then (stable_const True) ((kept_record (· = some (r.sealedAt c)) id).and (hF.quiet id fun _ => id)) hd.sound
      trivial ⟨hd.record_persist, hf⟩ (fun v h _ hk => h.removalOk hk.1 rfl) (fun _ _ => trivial)
      fun env _ v v' hd _ _ hv => ?_
    exact wp_pure ⟨hd.sound, ⟨hv.1, nofun, rfl, fun _ => hd.worktree_removed⟩, hv.2⟩

theorem wp_sealTask (hF : Frame places F) (hp : places p) (h : Sound v)
    (hr : World.record v.world p = some r) (hf : F v) :
    Wp Sound (sealTask p cwd r) (Ends (fun s v => SealedAt p cwd r s v.world ∧ F v) fun _ => True) v := by
  have hok := h.record hr
  unfold sealTask
  refine wp_ite (fun hsealed => ?_) fun havailable => ?_
  · have hne : ¬r.worktreeAvailable = true := by simpa using hsealed
    exact wp_pure ⟨h, ⟨hr, fun hstate => hne (hok.available.mpr hstate), rfl, fun hav => absurd hav hne⟩, hf⟩
  · have hstate : r.state = .prepared := hok.available.mp (by simpa using havailable)
    have hkept : ∀ q : Request Tree, ¬q.brings → (∀ p, ¬q.records p) →
        Kept q fun v => World.record v.world p = some r ∧ F v :=
      fun q hbrings hrecords => (kept_record (· = some r) (hrecords p)).and (hF.quiet hbrings hrecords)
    have hneeds : ∀ v : Seen Tree, World.record v.world p = some r →
        ∀ r', World.record v.world p = some r' → r'.state = .prepared :=
      fun v hr r' hr' => Option.some.inj (hr.symm.trans hr') ▸ hstate
    refine wp_step (hkept _ id fun _ => id) h ⟨hr, hf⟩ (fun _ _ _ => trivial) (fun _ _ => trivial) fun _ v h hk => ?_
    refine wp_then (stable_const True) (hkept _ id fun _ => id) h trivial hk (fun _ _ _ _ => trivial) (fun _ _ => trivial)
      fun env dirty v v' hd _ _ hk => ?_
    cases dirty with
    | false =>
      refine wp_sealHead hF hp hstate hd.sound hk fun _ => ?_
      rw [hd.world]
      exact caught_status hd.result
    | true =>
      refine wp_then (stable_const True) (hkept _ id fun _ => id) hd.sound trivial hk (fun _ _ _ _ => trivial)
        (fun _ _ => trivial) fun env _ v v' hd _ _ hk => ?_
      have hstaged : Staged v'.world p cwd := hd.world ▸ staged_add hd.result
      refine wp_then (P := fun v => Surroundings.edits Tree = false → Staged v.world p cwd)
        (stable_unedited (A := fun w => Staged w p cwd) fun _ _ h => h) (hkept _ id fun _ => id) hd.sound (fun _ => hstaged) hk
        (fun v _ _ hk => hneeds v hk.1) (fun _ _ => trivial) fun env _ v v' hd hstaged _ hk => ?_
      refine wp_sealHead hF hp hstate hd.sound hk fun hedits => ?_
      rw [hd.world]
      exact caught_commit (hstaged hedits)

end Seal

section Head

variable {environment : ManagedEnvironment} {branch : String} {Err : Seen Tree → Prop} {places : Place → Prop}

/-- The branch of the environment's repository was shown at the commit. -/
def ShownAt (environment : ManagedEnvironment) (branch : String) (c : Commit Tree) (log : List (Event Tree)) : Prop :=
  ∀ repository, sameRepository Tree repository environment.repository.name = true → Shown log repository branch c

theorem wp_remoteHead (hF : Frame places F) (herr : ∀ v, F v → Err v) (h : Sound v) (hf : F v) (branch : String) :
    Wp Sound (remoteHead environment branch) (Ends (fun c v => F v ∧ ShownAt environment branch c v.log) Err) v := by
  have hfetched : Stable fun v : Seen Tree =>
      ∃ c, World.mirrors v.world environment.key (mirrorRef branch) = some c ∧ ShownAt environment branch c v.log :=
    fun _ _ _ h => h
  refine wp_then (stable_const True) (hF.quiet id fun _ => id) h trivial hf (fun _ _ _ _ => trivial) herr
    fun env _ v v' hd _ _ hf => ?_
  obtain ⟨c, hc⟩ := Option.isSome_iff_exists.mp (when_some hd.result)
  refine wp_call hfetched (hF.quiet id fun _ => id) hd.sound ⟨c, ?_, fun repository hsame => ?_⟩ hf
    (fun _ _ _ _ => trivial) herr fun env c' v v' hd hv _ hf => ⟨hf, fun repository hsame => ?_⟩
  · rw [hd.world, ← hc]
    simp [Request.after, World.setMirror]
  · rw [hd.log]
    exact ⟨_, List.mem_cons_self .., hsame, rfl, by rw [hd.world]; exact hc⟩
  · obtain ⟨c, hmirror, hshown⟩ := hv
    obtain rfl := Option.some.inj (hmirror.symm.trans hd.result)
    rw [hd.log]
    exact (hshown repository hsame).cons _

end Head

/-! ### The other tasks -/

section Others

variable {candidate : RunnerEnvironment} {id : String} {places : Place → Prop}

/-- A request that brings nothing but what belongs to the task. -/
def Request.own (q : Request Tree) (p : Place) (cwd : String) : Prop :=
  q.brings → q = .placeTask p ∨ q = .makeWorktree p cwd ∨ ∃ branch, q = .gitReset p cwd branch

theorem gone_answered {env : Env Tree} (hq : q.writes p cwd → ¬q.brings) (h : World.worktrees v.world cwd p.taskId = none) :
    World.worktrees (v.answered env q).2.world cwd p.taskId = none := by
  by_cases hwrites : q.writes p cwd
  · refine (answer_keeps (fun w : World Tree => w.worktrees cwd p.taskId) ?_ ?_).trans h <;>
      cases q with
      | removeWorktree p' cwd' =>
        refine (worktrees_setWorktree ..).trans ((if_pos hwrites).trans ?_)
        obtain ⟨rfl, hid⟩ := hwrites
        simp [← hid, h]
      | makeWorktree | gitReset => exact absurd trivial (hq hwrites)
      | _ => cases hwrites
  · exact (worktrees_answer hwrites).trans h

theorem kept_hiddenAt (hq : q.own p cwd) : Kept q fun v => HiddenAt v.world p cwd candidate id where
  stable v m _ h hne r hr := by
    refine ⟨(h hne r hr).1, fun hother => ?_⟩
    have hgone := (h hne r hr).2 hother
    cases m with
    | edit cwd' id' tree =>
      refine (worktrees_setWorktree ..).trans ?_
      split_ifs with heq
      · rw [← heq.1, ← heq.2, hgone]
        rfl
      · exact hgone
    | remote => exact hgone
  keeps v env h hneeds hhidden hne r hr := by
    have hok := (sound_answered h env hneeds).record hr
    have hplace : q ≠ .placeTask ⟨candidate.key, id⟩ := fun heq => by
      subst heq
      rcases hq trivial with heq | heq | ⟨_, heq⟩
      · exact hne (Request.placeTask.inj heq)
      · cases heq
      · cases heq
    rcases (h.dirStep hneeds env ⟨candidate.key, id⟩).comes r hr with ⟨r₀, hr₀, hprogress⟩ | hplaced
    · obtain ⟨hunavailable, hgone⟩ := hhidden hne r₀ hr₀
      refine ⟨Bool.eq_false_iff.mpr fun havailable => ?_, fun hother => ?_⟩
      · have hrank := hprogress.rank
        rw [hok.available.mp havailable] at hrank
        have hstate : r₀.state = .prepared := TaskState.rank_injective (Nat.le_zero.mp hrank)
        rw [(h.record hr₀).available.mpr hstate] at hunavailable
        cases hunavailable
      · refine gone_answered (p := ⟨candidate.key, id⟩) (fun hwrites hbrings => ?_) (hgone hother)
        rcases hq hbrings with rfl | rfl | ⟨branch, rfl⟩
        · exact hwrites
        · exact hother (Prod.ext hwrites.1 hwrites.2)
        · exact hother (Prod.ext hwrites.1 hwrites.2)
    · exact absurd hplaced hplace

theorem kept_hidden {environments : List RunnerEnvironment} (hq : q.own p cwd) :
    Kept q fun v => Hidden environments v.world p cwd :=
  kept_forall fun _ => kept_imp fun _ => kept_imp fun _ => kept_imp fun _ => kept_forall fun _ => kept_imp fun _ =>
    kept_hiddenAt hq

theorem not_taskId_of_preparing {cs : List Char} (h : ".preparing-".toList.isPrefixOf cs = true) :
    isTaskId cs = false := by
  cases cs with
  | nil => cases h
  | cons c cs =>
    obtain rfl := eq_of_beq ((Bool.and_eq_true _ _).mp h).1
    refine Bool.eq_false_iff.mpr fun htask => ?_
    have hkey : isKeyChar '.' = true := by
      simp only [isTaskId, Bool.and_eq_true] at htask
      exact htask.1.2
    exact absurd hkey (by decide)

theorem hiddenAt_of_gone {s : ManagedTaskMetadata Tree} (h : Sound v)
    (hr : World.record v.world ⟨candidate.key, id⟩ = some s) (hstate : s.state ≠ .prepared)
    (hgone : World.worktrees v.world candidate.cwd id = none) : HiddenAt v.world p cwd candidate id := by
  intro _ r hr'
  obtain rfl := Option.some.inj (hr.symm.trans hr')
  exact ⟨Bool.eq_false_iff.mpr fun havailable => hstate ((h.record hr).available.mp havailable), fun _ => hgone⟩

theorem wp_sealOther (hF : Frame (· ≠ p) F) (h : Sound v) (hf : F v) (cwd name : String) :
    Wp Sound (sealOther p candidate name) (Ends (fun _ v =>
      (isTaskId name.toList = true → HiddenAt v.world p cwd candidate name) ∧ F v) fun _ => True) v := by
  unfold sealOther
  refine wp_ite (fun hskip => ?_) fun hother => ?_
  · refine wp_pure ⟨h, fun htask hne => ?_, hf⟩
    -- the task that is prepared, or no task at all
    simp only [Bool.or_eq_true, Bool.and_eq_true, Bool.not_eq_true'] at hskip
    rcases hskip with (⟨hkey, hname⟩ | hpreparing) | hnot
    · exact absurd (by rw [eq_of_beq hkey, eq_of_beq hname]) hne
    · rw [not_taskId_of_preparing hpreparing] at htask
      cases htask
    · rw [hnot] at htask
      cases htask
  · have hne : (⟨candidate.key, name⟩ : Place) ≠ p := fun heq => by
      subst heq
      simp at hother
    refine wp_then (stable_const True) (hF.quiet id fun _ => id) h trivial hf (fun _ _ _ _ => trivial) (fun _ _ => trivial)
      fun env record v v' hd _ _ hf => ?_
    have hrecord : World.record v'.world ⟨candidate.key, name⟩ = record := by
      rw [hd.world]
      exact Option.some.inj hd.result
    rcases record with _ | r
    · refine wp_pure ⟨hd.sound, fun _ _ r hr => ?_, hf⟩
      cases hrecord.symm.trans hr
    · refine wp_ite (fun havailable => ?_) fun hunavailable => ?_
      · refine wp_part (wp_sealTask hF hne hd.sound hrecord hf) fun s v h hs => ?_
        exact wp_pure ⟨h, fun _ => hiddenAt_of_gone h hs.1.1 hs.1.2.1 (hs.1.2.2.2 havailable), hs.2⟩
      · have hstate : r.state ≠ .prepared := fun hstate =>
          hunavailable ((hd.sound.record hrecord).available.mpr hstate)
        refine wp_call (stable_const True) ((kept_record (p := ⟨candidate.key, name⟩) (· = some r) id).and
          (hF.quiet id fun _ => id)) hd.sound trivial ⟨hrecord, hf⟩
          (fun v h _ hk => h.removalOk hk.1 (Bool.eq_false_iff.mpr hunavailable)) (fun _ _ => trivial)
          fun env _ v v' hd _ _ hk => ⟨fun _ => ?_, hk.2⟩
        exact hiddenAt_of_gone hd.sound hk.1 hstate hd.worktree_removed

/-- The tasks of a candidate that are not among the names are hidden. -/
def HiddenBut (names : List String) (w : World Tree) (p : Place) (cwd : String) (candidate : RunnerEnvironment) : Prop :=
  ∀ id, isTaskId id.toList = true → id ∈ names ∨ HiddenAt w p cwd candidate id

theorem frame_hiddenBut (names : List String) :
    Frame places fun v : Seen Tree => HiddenBut names v.world p cwd candidate :=
  fun _ hbrings _ => kept_forall fun _ => kept_imp fun _ => kept_or (kept_hiddenAt fun h => absurd h hbrings)

omit [DecidableEq Tree] [Surroundings Tree] in
theorem record_of_not_listed {w : World Tree} (h : id ∉ w.names candidate.key) : w.record ⟨candidate.key, id⟩ = none := by
  have hnone : w.tasks.lookup ⟨candidate.key, id⟩ = none := by
    refine AList.lookup_eq_none.mpr fun hmem => h (List.mem_append_left _ ?_)
    exact List.mem_map.mpr ⟨⟨candidate.key, id⟩, List.mem_filter.mpr ⟨hmem, beq_self_eq_true _⟩, rfl⟩
  rw [World.record, World.task, hnone]
  rfl

theorem hiddenBut_listed {env : Env Tree} {w : World Tree} {names : List String}
    (h : Request.result env w (.readdir candidate.key) = some names) : HiddenBut names w p cwd candidate := by
  intro id _
  by_cases hmem : id ∈ names
  · exact .inl hmem
  · refine .inr fun _ r hr => ?_
    have hnot : id ∉ w.names candidate.key := fun hin => hmem (by
      rw [← Option.some.inj h]
      split_ifs with hperm
      · exact (List.isPerm_iff.mp hperm).mem_iff.mpr hin
      · exact hin)
    cases (record_of_not_listed hnot).symm.trans hr

theorem wp_sealCandidate (hF : Frame (· ≠ p) F) (h : Sound v) (hf : F v) (cwd : String) :
    Wp Sound (call (.readdir candidate.key) >>= fun names => names.forM fun name => sealOther p candidate name)
      (Ends (fun _ v => HiddenBut [] v.world p cwd candidate ∧ F v) fun _ => True) v := by
  refine wp_then (stable_const True) (hF.quiet id fun _ => id) h trivial hf (fun _ _ _ _ => trivial) (fun _ _ => trivial)
    fun env names v v' hd _ _ hf => ?_
  refine wp_forM (P := fun rest v => Sound v ∧ HiddenBut rest v.world p cwd candidate ∧ F v)
    ⟨hd.sound, hd.world ▸ hiddenBut_listed hd.result, hf⟩ (fun v hv => hv) fun name rest v _ hv => ?_
  refine (wp_sealOther ((frame_hiddenBut (name :: rest)).and hF) hv.1 hv.2 cwd name).mono fun r v hr => ?_
  rcases r with e | ⟨⟩
  · exact hr
  · refine ⟨hr.1, fun id htask => ?_, hr.2.2.2⟩
    rcases hr.2.2.1 id htask with hmem | hhidden
    · rcases List.mem_cons.mp hmem with rfl | hmem
      · exact .inr (hr.2.1 htask)
      · exact .inl hmem
    · exact .inr hhidden

/-- The candidates that are not to come any more are dealt with. -/
def HiddenSave (rest environments : List RunnerEnvironment) (w : World Tree) (p : Place) (cwd : String) : Prop :=
  ∀ candidate ∈ environments, candidate.enabled = true → candidate.repository.isSome = true →
    candidate ∈ rest ∨ HiddenBut [] w p cwd candidate

theorem frame_hiddenSave (rest environments : List RunnerEnvironment) :
    Frame places fun v : Seen Tree => HiddenSave rest environments v.world p cwd :=
  fun q hbrings hrecords => kept_forall fun _ => kept_imp fun _ => kept_imp fun _ => kept_imp fun _ =>
    kept_or (frame_hiddenBut [] q hbrings hrecords)

theorem wp_sealOthers (hF : Frame (· ≠ p) F) (h : Sound v) (hf : F v) (cwd : String)
    (environments : List RunnerEnvironment) :
    Wp Sound (sealOthers environments p)
      (Ends (fun _ v => Hidden environments v.world p cwd ∧ F v) fun _ => True) v := by
  unfold sealOthers
  refine wp_forM (P := fun rest v => Sound v ∧ HiddenSave rest environments v.world p cwd ∧ F v)
    ⟨h, fun candidate hmem _ _ => .inl hmem, hf⟩ (fun v hv => ?_) fun candidate rest v _ hv => ?_
  · refine ⟨hv.1, fun candidate hmem henabled hmanaged id htask => ?_, hv.2.2⟩
    have hbut := (hv.2.1 candidate hmem henabled hmanaged).resolve_left List.not_mem_nil
    exact (hbut id htask).resolve_left List.not_mem_nil
  -- the head of the list is dealt with, by itself or by its tasks
  have hnext : ∀ v' : Seen Tree, HiddenSave (candidate :: rest) environments v'.world p cwd →
      (candidate.enabled = true → candidate.repository.isSome = true → HiddenBut [] v'.world p cwd candidate) →
      HiddenSave rest environments v'.world p cwd := by
    intro v' hsave hhead candidate' hmem henabled hmanaged
    rcases hsave candidate' hmem henabled hmanaged with hin | hhidden
    · rcases List.mem_cons.mp hin with rfl | hin
      · exact .inr (hhead henabled hmanaged)
      · exact .inl hin
    · exact .inr hhidden
  refine wp_ite (fun hskip => ?_) fun _ => ?_
  · refine wp_pure ⟨hv.1, hnext v hv.2.1 fun henabled hmanaged => ?_, hv.2.2⟩
    rw [henabled, Option.isNone_eq_false_iff.mpr hmanaged] at hskip
    cases hskip
  · refine (wp_sealCandidate ((frame_hiddenSave (candidate :: rest) environments).and hF) hv.1 hv.2 cwd).mono
      fun r v hr => ?_
    rcases r with e | ⟨⟩
    · exact hr
    · exact ⟨hr.1, hnext v hr.2.2.1 fun _ _ => hr.2.1, hr.2.2.2⟩

end Others

end ADT.Repository
