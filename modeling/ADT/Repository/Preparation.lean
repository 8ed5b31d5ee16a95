import ADT.Repository.Sealing

/-!
# Repository.Preparation — prepare keeps the invariant

A preparation that succeeds leaves the record of its task in place and hides every other task; one that fails on the way
leaves no record.
-/

namespace ADT.Repository

open Interleave Runner Serial

variable {Tree : Type} [DecidableEq Tree] [Surroundings Tree] {v v' : Seen Tree} {p : Place} {cwd : String}
  {environments : List RunnerEnvironment} {env : Env Tree} {q : Request Tree}

abbrev Answers (environments : List RunnerEnvironment) : Except SafeError (Reply Tree) → Seen Tree → Prop :=
  Ends (fun a v => ReplyOk v.log environments v.world (.ok a)) fun _ => True

/-! ### Before the task is in place -/

theorem kept_unrecorded (hq : q ≠ .placeTask p) : Kept q fun v => World.record v.world p = none where
  stable _ _ _ h := h
  keeps v env h hneeds hnone := by
    rcases hr : World.record (v.answered env q).2.world p with _ | r
    · rfl
    · rcases (h.dirStep hneeds env p).comes r hr with ⟨r₀, hr₀, -⟩ | hplaced
      · cases hnone.symm.trans hr₀
      · exact absurd hplaced hq

/-- The task has no record yet, and the others are hidden. -/
def Fresh (environments : List RunnerEnvironment) (p : Place) (cwd : String) (v : Seen Tree) : Prop :=
  World.record v.world p = none ∧ Hidden environments v.world p cwd

theorem kept_fresh (hq : q.own p cwd) (hplace : q ≠ .placeTask p) : Kept q (Fresh environments p cwd) :=
  (kept_unrecorded hplace).and (kept_hidden hq)

theorem frame_fresh : Frame (· ≠ p) (Fresh environments p cwd : Seen Tree → Prop) :=
  fun _ hbrings _ => kept_fresh (fun h => absurd h hbrings) fun heq => hbrings (heq ▸ trivial)

/-- The staging directory of the task: its git directory is on the branch. -/
def HeadOn (p : Place) (branch : String) (w : World Tree) : Prop :=
  ∀ d g, w.staging.lookup p = some d → d.git = some g → g.head = branch

/-- The staging directory of the task has the record. -/
def Recorded (p : Place) (m : ManagedTaskMetadata Tree) (w : World Tree) : Prop :=
  ∀ d, w.staging.lookup p = some d → d.record = some m

omit [DecidableEq Tree] [Surroundings Tree] in
theorem headOn_onGit {w w' : World Tree} {branch : String} {f : GitDir Tree → GitDir Tree}
    (hstaging : w'.staging = (w.onGit .staging p f).staging)
    (hf : ∀ d g, w.staging.lookup p = some d → d.git = some g → (f g).head = branch) : HeadOn p branch w' := by
  intro d' g' hd' hg'
  rw [hstaging] at hd'
  obtain ⟨d, hd, rfl⟩ := Option.map_eq_some_iff.mp ((staging_setDir ..).symm.trans hd')
  obtain ⟨g, hg, rfl⟩ := Option.map_eq_some_iff.mp hg'
  exact hf d g hd hg

omit [DecidableEq Tree] [Surroundings Tree] in
theorem recorded_persist {w : World Tree} {m : ManagedTaskMetadata Tree} {branch : String} (hhead : HeadOn p branch w) :
    HeadOn p branch (w.onDir .staging p fun d => { d with record := some m }) ∧
      Recorded p m (w.onDir .staging p fun d => { d with record := some m }) := by
  refine ⟨fun d' g hd' hg => ?_, fun d' hd' => ?_⟩ <;>
    obtain ⟨d, hd, rfl⟩ := Option.map_eq_some_iff.mp ((staging_setDir ..).symm.trans hd')
  · exact hhead d g hd hg
  · rfl

section Build

variable {α : Type} {environment : ManagedEnvironment} {branch : String} {base : Commit Tree}
  {Post : α → Seen Tree → Prop}

theorem dirOk_prepared {log : List (Event Tree)} {d : TaskDir Tree} (hkey : p.environmentKey = environment.key)
    (hrecord : d.record = some (preparedRecord environment p.taskId branch base))
    (hgit : ∀ g, d.git = some g → g.head = branch) : DirOk log p d := by
  refine ⟨fun r hr => ?_, fun r g hr hg => ?_⟩ <;> obtain rfl := Option.some.inj (hrecord.symm.trans hr)
  · exact ⟨hkey.symm, rfl, ⟨fun _ => rfl, fun _ => rfl⟩, fun _ => rfl, fun h => absurd rfl h, fun _ => rfl,
      fun h => (by cases h), fun h => (by cases h)⟩
  · exact ⟨hgit g hg, fun h => absurd rfl h⟩

theorem wp_build {P : Seen Tree → Prop} {k : Result q → Manager Tree α} {Err : Seen Tree → Prop} (hP : Stable P)
    (h : Sound v) (hv : P v) (hf : Fresh environments p cwd v) (hq : q.own p cwd) (hplace : q ≠ .placeTask p)
    (hneeds : ∀ v : Seen Tree, Fresh environments p cwd v → Needs v q)
    (herr : ∀ v : Seen Tree, Fresh environments p cwd v → Err v)
    (hk : ∀ env a v v', Done q a env v v' → P v → Fresh environments p cwd v' → Wp Sound (k a) (Ends Post Err) v') :
    Wp Sound (call q >>= k) (Ends Post Err) v :=
  wp_then hP (kept_fresh hq hplace) h hv hf (fun v _ _ hf => hneeds v hf) herr
    fun env a v v' hd hv _ hf' => hk env a v v' hd hv hf'

theorem wp_placeTask (hkey : p.environmentKey = environment.key) (h : Sound v) (hf : Fresh environments p cwd v)
    (hv : HeadOn p branch v.world ∧ Recorded p (preparedRecord environment p.taskId branch base) v.world) :
    Wp Sound (call (.placeTask p) >>= fun _ => (pure (preparedRecord environment p.taskId branch base) : Manager Tree _))
      (Ends (fun m v => World.record v.world p = some m ∧ m = preparedRecord environment p.taskId branch base ∧
        Hidden environments v.world p cwd) (Fresh environments p cwd)) v := by
  have hown : (Request.placeTask p : Request Tree).own p cwd := fun _ => .inl rfl
  have hneeds : ∀ v : Seen Tree, (HeadOn p branch v.world ∧
      Recorded p (preparedRecord environment p.taskId branch base) v.world) → Needs v (.placeTask p) :=
    fun v hv d hd => dirOk_prepared hkey (hv.2 d hd) fun g hg => hv.1 d g hd hg
  refine wp_part (wp_request (P := fun v => (HeadOn p branch v.world ∧
    Recorded p (preparedRecord environment p.taskId branch base) v.world) ∧ Fresh environments p cwd v)
    (Stable.and (fun _ _ _ h => h) (frame_fresh (.gitHead p) id fun _ => False.elim).stable) h ⟨hv, hf⟩
    (fun v _ hk => hneeds v hk.1) (fun env e v h hk herror => ?_) fun env _ v v' hd hk heq => ?_) fun _ v h hm =>
      wp_pure ⟨h, hm⟩
  · have hworld : (v.answered env (.placeTask p)).2.world = v.world := answer_error herror rfl rfl
    exact ⟨hworld ▸ hk.2.1, (kept_hidden hown).keeps v env h (hneeds v hk.1) hk.2.2⟩
  · obtain ⟨d, hd'⟩ := Option.isSome_iff_exists.mp ((Bool.and_eq_true _ _).mp (when_some hd.result)).1
    refine ⟨?_, rfl, heq ▸ (kept_hidden hown).keeps v env hd.before (hneeds v hk.1) hk.2.2⟩
    rw [hd.world]
    exact record_eq.mpr ⟨d, (task_setDir ..).trans ((if_pos rfl).trans hd'), hk.1.2 d hd'⟩

theorem wp_buildTask (hkey : p.environmentKey = environment.key) (h : Sound v)
    (hv : Fresh environments p environment.cwd v) :
    Wp Sound (buildTask environment p branch base)
      (Ends (fun m v => World.record v.world p = some m ∧ m = preparedRecord environment p.taskId branch base ∧
        Hidden environments v.world p environment.cwd) (Fresh environments p environment.cwd)) v := by
  have hstep : ∀ {q : Request Tree} {k : Result q → Manager Tree (ManagedTaskMetadata Tree)}
      {Post : ManagedTaskMetadata Tree → Seen Tree → Prop} (v : Seen Tree),
      Sound v → Fresh environments p environment.cwd v → q.own p environment.cwd → q ≠ .placeTask p →
      (∀ v : Seen Tree, Needs v q) →
      (∀ a v, Sound v → Fresh environments p environment.cwd v →
        Wp Sound (k a) (Ends Post (Fresh environments p environment.cwd)) v) →
      Wp Sound (call q >>= k) (Ends Post (Fresh environments p environment.cwd)) v :=
    fun v h hf hq hplace hneeds hk => wp_build (stable_const True) h trivial hf hq hplace (fun v _ => hneeds v)
      (fun _ hf => hf) fun _ a _ v' hd _ hf => hk a v' hd.sound hf
  unfold buildTask
  refine hstep _ h hv nofun nofun (fun _ => trivial) fun _ v h hv => ?_
  refine hstep _ h hv (fun _ => .inr (.inl rfl)) nofun (fun _ => trivial) fun _ v h hv => ?_
  refine hstep _ h hv nofun nofun (fun _ => trivial) fun _ v h hv => ?_
  refine hstep _ h hv nofun nofun (fun _ => trivial) fun _ v h hv => ?_
  refine hstep _ h hv nofun nofun (fun _ => trivial) fun _ v h hv => ?_
  refine hstep _ h hv nofun nofun (fun _ => trivial) fun _ v h hv => ?_
  refine wp_build (stable_const True) h trivial hv nofun nofun (fun _ _ => trivial) (fun _ hf => hf)
    fun env _ v v' hd _ hf => ?_
  have hhead : HeadOn p branch v'.world := headOn_onGit (congrArg World.staging hd.world) fun _ _ _ _ => rfl
  refine wp_build (P := fun v => HeadOn p branch v.world) (fun _ _ _ h => h) hd.sound hhead hf
    (fun _ => .inr (.inr ⟨_, rfl⟩)) nofun (fun _ _ => trivial) (fun _ hf => hf) fun env _ v v' hd hhead hf => ?_
  have hhead : HeadOn p branch v'.world := hd.world ▸ headOn_onGit rfl hhead
  refine wp_build (P := fun v => HeadOn p branch v.world) (fun _ _ _ h => h) hd.sound hhead hf nofun nofun
    (fun _ _ => trivial) (fun _ hf => hf) fun env _ v v' hd hhead hf => ?_
  exact wp_placeTask hkey hd.sound hf (hd.world ▸ recorded_persist hhead)

/-! ### The operation -/

theorem wp_prepareTask (hkey : p.environmentKey = environment.key) (sourceBranch : Option String) (h : Sound v)
    (hv : Fresh environments p environment.cwd v) :
    Wp Sound (prepareTask environment p branch sourceBranch) (Answers environments) v := by
  have hstep : ∀ {q : Request Tree} {k : Result q → Manager Tree (Reply Tree)} (v : Seen Tree),
      Sound v → Fresh environments p environment.cwd v → ¬q.brings →
      (∀ v : Seen Tree, World.record v.world p = none → Needs v q) →
      (∀ a v, Sound v → Fresh environments p environment.cwd v → Wp Sound (k a) (Answers environments) v) →
      Wp Sound (call q >>= k) (Answers environments) v :=
    fun v h hf hq hneeds hk => wp_build (stable_const True) h trivial hf (fun h => absurd h hq)
      (fun heq => hq (heq ▸ trivial)) (fun v hf => hneeds v hf.1) (fun _ _ => trivial)
      fun _ a _ v' hd _ hf => hk a v' hd.sound hf
  have hremove : ∀ v : Seen Tree, World.record v.world p = none → Needs v (.removeWorktree p environment.cwd) :=
    fun v hnone r hr => by cases hnone.symm.trans hr
  unfold prepareTask
  refine hstep _ h hv id (fun _ _ => trivial) fun _ v h hv => ?_
  refine hstep _ h hv id (fun _ _ => trivial) fun _ v h hv => ?_
  refine hstep _ h hv id hremove fun _ v h hv => ?_
  refine hstep _ h hv id (fun _ _ => trivial) fun _ v h hv => ?_
  refine wp_part (wp_remoteHead frame_fresh (fun _ _ => trivial) h hv _) fun base v h ⟨hv, _⟩ => ?_
  refine wp_tryCatch (wp_bind ((wp_buildTask hkey h hv).mono fun r v hr => ?_))
  rcases r with e | m
  · refine hstep _ hr.1 hr.2 id (fun _ _ => trivial) fun _ v h hv => ?_
    exact hstep _ h hv id hremove fun _ v h _ => wp_throw ⟨h, trivial⟩
  · obtain ⟨h, hrecord, rfl, hhidden⟩ := hr
    have hplace : (⟨environment.key, p.taskId⟩ : Place) = p := by rw [← hkey]
    exact wp_pure ⟨h, (congrArg (World.record v.world) hplace).trans hrecord, rfl, rfl,
      (congrArg (Hidden environments v.world · environment.cwd) hplace).mpr hhidden⟩

theorem wp_prepareOperation (input : PrepareInput) (h : Sound v) :
    Wp Sound (prepareOperation environments input) (Answers environments) v := by
  unfold prepareOperation
  refine wp_check h trivial fun environment henvironment => ?_
  refine wp_check h trivial fun id _ => ?_
  refine wp_check h trivial fun _ _ => ?_
  refine wp_check h trivial fun expected _ => ?_
  refine wp_refuse h trivial fun _ => wp_refuse h trivial fun _ => ?_
  refine wp_step (kept_const True) h trivial (fun _ _ _ => trivial) (fun _ _ => trivial) fun _ v h _ => ?_
  refine wp_then (stable_const True) (kept_const True) h trivial trivial (fun _ _ _ _ => trivial) (fun _ _ => trivial)
    fun env existing v v' hd _ _ _ => ?_
  have hrecord : World.record v'.world ⟨environment.key, id⟩ = existing := by
    rw [hd.world]
    exact Option.some.inj hd.result
  refine wp_refuse hd.sound trivial fun _ => wp_refuse hd.sound trivial fun _ => ?_
  refine wp_part (wp_sealOthers (frame_record (· = existing)) hd.sound hrecord environment.cwd environments)
    fun _ v h hv => ?_
  rcases existing with _ | record
  · exact wp_prepareTask rfl _ h ⟨hv.2, hv.1⟩
  · refine wp_refuse h trivial fun havailable => ?_
    have hkept : Kept (.accessWorktree environment.cwd id) fun v : Seen Tree =>
        World.record v.world ⟨environment.key, id⟩ = some record ∧
          Hidden environments v.world ⟨environment.key, id⟩ environment.cwd :=
      (kept_record (· = some record) (by exact fun h => h)).and (kept_hidden nofun)
    refine wp_step hkept h ⟨hv.2, hv.1⟩ (fun _ _ _ => trivial) (fun _ _ => trivial) fun _ v h hv => ?_
    have hok := h.record hv.1
    have hplace : (⟨record.environmentKey, record.taskId⟩ : Place) = ⟨environment.key, id⟩ := by
      rw [hok.environmentKey, hok.taskId]
    have havailable : record.worktreeAvailable = true := by simpa using havailable
    exact wp_pure ⟨h, hplace ▸ hv.1, hok.available.mp havailable, havailable, hplace ▸ hv.2⟩

end Build

end ADT.Repository
