import ADT.Repository.Preparation

/-!
# Repository.Publication — publish, inspect and cleanup keep the invariant

The record is marked before the push and after it: a push is made of a sealed task once, and a task is published with a
commit that a push or a fetch showed at its branch.
-/

namespace ADT.Repository

open Interleave Runner Serial

variable {Tree : Type} [DecidableEq Tree] [Surroundings Tree] {v : Seen Tree} {p : Place} {cwd : String}
  {environments : List RunnerEnvironment} {environment : ManagedEnvironment} {q : Request Tree}
  {r r' : ManagedTaskMetadata Tree} {commit : Commit Tree}

/-! ### Records on their way -/

/-- A sealed task whose push may be under way. -/
def ManagedTaskMetadata.pending (r : ManagedTaskMetadata Tree) (commit : Commit Tree) : ManagedTaskMetadata Tree :=
  { r with state := .pushUncertain, pushedCommitSha := some commit }

def ManagedTaskMetadata.atRemote (r : ManagedTaskMetadata Tree) (dirty : Option Bool) : ManagedTaskMetadata Tree :=
  { r with state := .published, dirty := dirty }

/-- What the record of a push makes of the one before it: a sealed task with something to push goes on. -/
structure Pushes (r r' : ManagedTaskMetadata Tree) (commit : Commit Tree) : Prop where
  fields : r' = { r with state := r'.state, pushedCommitSha := some commit, dirty := r'.dirty }
  state : r.state ≠ .prepared
  rank : r.state.rank < r'.state.rank
  sealed : r.sealedCommitSha = some commit
  changed : r.sealedChanged = some true
  pushed : ∀ c, r.pushedCommitSha = some c → c = commit

theorem RecordOk.ne_base {log : List (Event Tree)} (h : RecordOk log p r) (hstate : r.state ≠ .prepared)
    (hchanged : r.sealedChanged = some true) (hc : r.sealedCommitSha = some commit) : commit ≠ r.baseSha := by
  obtain ⟨c, hsealed, hsame⟩ := h.sealed hstate
  obtain rfl := Option.some.inj (hsealed.symm.trans hc)
  have hne : (c != r.baseSha) = true := Option.some.inj (hsame.symm.trans hchanged)
  simpa using hne

omit [DecidableEq Tree] [Surroundings Tree] in
theorem Pushes.progress (hpush : Pushes r r' commit) : Progress r r' where
  identity := congrArg (·.identity) hpush.fields
  rank := hpush.rank.le
  same hsame := absurd (congrArg TaskState.rank hsame) hpush.rank.ne
  sealed _ hc := (congrArg (·.sealedCommitSha) hpush.fields).trans hc
  pushed c hc := (congrArg (·.pushedCommitSha) hpush.fields).trans (congrArg some (hpush.pushed c hc).symm)

omit [DecidableEq Tree] [Surroundings Tree] in
theorem Pushes.state' (hpush : Pushes r r' commit) : r'.state ≠ .prepared ∧ r'.due = false := by
  have hrank := hpush.rank
  have hstate := hpush.state
  rw [ManagedTaskMetadata.due]
  cases hs : r.state <;> cases hs' : r'.state <;> rw [hs, hs'] at hrank <;> simp_all [TaskState.rank]

theorem Pushes.needs (hpush : Pushes r r' commit) (h : Sound v) (hr : World.record v.world p = some r)
    (hshown : r'.state = .published → Shown v.log r.repository r.branch commit) :
    Needs v (.persist .task p cwd r') := by
  have hok := h.record hr
  obtain ⟨hne, hdue⟩ := hpush.state'
  have hok' : RecordOk v.log p r' := by
    have hfields := hpush.fields
    generalize r'.state = s, r'.dirty = d at hfields hne hshown
    subst hfields
    exact ⟨hok.environmentKey, hok.taskId, ⟨fun ha => absurd (hok.available.mp ha) hpush.state, fun hs => absurd hs hne⟩,
      fun hs => absurd hs hne, fun _ => hok.sealed hpush.state, fun hd => absurd hd (Bool.eq_false_iff.mp hdue),
      fun _ => ⟨hpush.sealed.symm, hpush.changed⟩, fun hs c hc => Option.some.inj hc ▸ hshown hs⟩
  refine ⟨fun d hd => ⟨fun r'' hr'' => ?_, fun r'' g hr'' hg => ?_⟩, ⟨r, hr, hpush.progress⟩, fun _ hs => ?_⟩
  · cases hr''
    exact hok'
  · cases hr''
    obtain ⟨d', hd', hrecord⟩ := record_eq.mp hr
    obtain rfl := Option.some.inj (hd.symm.trans hd')
    obtain ⟨hhead, hrefs⟩ := (h.dirs p d hd).git r g hrecord hg
    have hbranch : r'.branch = r.branch := congrArg (·.branch) hpush.fields
    refine ⟨hhead.trans hbranch.symm, fun _ => ?_⟩
    rw [hbranch, hrefs hpush.state]
    exact (congrArg (·.sealedCommitSha) hpush.fields).symm
  · rw [ManagedTaskMetadata.due, hs] at hdue
    cases hdue

theorem pushes_atRemote {log : List (Event Tree)} (hok : RecordOk log p r) (hstate : r.state = .pushUncertain)
    (hpushed : r.pushedCommitSha = some commit) (dirty : Option Bool) : Pushes r (r.atRemote dirty) commit := by
  have hne : r.state ≠ .prepared := by rw [hstate]; exact nofun
  obtain ⟨hsame, hchanged⟩ := hok.pushed (by rw [ManagedTaskMetadata.due, hstate]; rfl)
  refine ⟨?_, hne, ?_, hsame.symm.trans hpushed, hchanged, fun c hc => Option.some.inj (hc.symm.trans hpushed)⟩
  · rw [← hpushed]
    rfl
  · rw [hstate]
    exact Nat.lt_succ_self 2

/-! ### The parts of a publication -/

section Parts

variable {Err : Seen Tree → Prop} {F : Seen Tree → Prop} {places : Place → Prop}

theorem wp_reconcilePush (hF : Frame places F) (h : Sound v) (hf : F v) (branch : String) (commit : Commit Tree) :
    Wp Sound (reconcilePush environment branch commit)
      (Ends (fun b v => F v ∧ (b = true → ShownAt environment branch commit v.log)) Err) v := by
  refine wp_tryCatch (wp_bind ((wp_remoteHead hF (fun _ hf => hf) h hf branch).mono fun r v hr => ?_))
  rcases r with e | head
  · exact wp_pure ⟨hr.1, hr.2, nofun⟩
  · refine wp_pure ⟨hr.1, hr.2.1, fun heq => ?_⟩
    rw [← eq_of_beq heq]
    exact hr.2.2

theorem wp_recordPublished (h : Sound v) (hr : World.record v.world p = some r) (hstate : r.state = .pushUncertain)
    (hpushed : r.pushedCommitSha = some commit) (hshown : Shown v.log r.repository r.branch commit) (cwd : String)
    (dirty : Option Bool) (reconciled : Bool) :
    Wp Sound (call (.persist .task p cwd (r.atRemote dirty)) >>= fun _ =>
        (pure (.published (r.atRemote dirty) true (some commit) reconciled) : Manager Tree (Reply Tree)))
      (Answers environments) v := by
  refine wp_then (P := fun v => World.record v.world p = some r ∧ Shown v.log r.repository r.branch commit)
    (fun _ _ _ h => h) (kept_const True) h ⟨hr, hshown⟩ trivial (fun v h hv _ => ?_) (fun _ _ => trivial)
    fun env _ v v' hd hv _ _ => ?_
  · exact (pushes_atRemote (h.record hv.1) hstate hpushed dirty).needs h hv.1 fun _ => hv.2
  · have hpush := pushes_atRemote (hd.before.record hv.1) hstate hpushed dirty
    refine wp_pure ⟨hd.sound, commit, rfl, hpush.sealed, ?_, hd.log ▸ hv.2.cons _⟩
    exact (hd.before.record hv.1).ne_base hpush.state hpush.changed hpush.sealed

theorem Done.shown_push {env : Env Tree} {v v' : Seen Tree} {a : Unit} {repository repository' : RepositoryName}
    {branch : String} (h : Done (.gitPush p repository' branch) a env v v')
    (hgit : ∀ g, World.git v.world .task p = some g → g.refs branch = some commit)
    (hsame : sameRepository Tree repository repository' = true) : Shown v'.log repository branch commit := by
  obtain ⟨g, hg, -⟩ := (Option.any_eq_true _ _).mp (when_some h.result)
  rw [h.log]
  refine ⟨_, List.mem_cons_self .., hsame, rfl, ?_⟩
  rw [h.world]
  simp [Request.after, World.setRemote, hg, hgit g hg]

section

variable (h : Sound v) (hr : World.record v.world p = some r)

include h hr

/-- Only the sealed commit is pushed. -/
theorem wp_pushTask (hstate : r.state = .sealed)
    (hsealed : r.sealedCommitSha = some commit) (hchanged : r.sealedChanged = some true)
    (hsame : sameRepository Tree r.repository environment.repository.name = true) :
    Wp Sound (pushTask environment p r commit) (Answers environments) v := by
  have hpending : ∀ {state : TaskState}, state ≠ .pushUncertain → (r.pending commit).state ≠ state := fun h => h.symm
  have hpush : ∀ v : Seen Tree, Sound v → World.record v.world p = some r → Pushes r (r.pending commit) commit := by
    intro v h hr
    refine ⟨rfl, by rw [hstate]; decide, ?_, hsealed, hchanged, fun c hc => ?_⟩
    · rw [hstate]
      exact Nat.lt_succ_self 1
    · rw [(h.record hr).unpushed (by rw [ManagedTaskMetadata.due, hstate]; rfl)] at hc
      cases hc
  have hpushOk : ∀ v : Seen Tree, Sound v → World.record v.world p = some (r.pending commit) →
      PushOk v.world p environment.repository.name r.branch := by
    intro v h hr
    refine ⟨_, commit, hr, rfl, hsealed, rfl, (h.record hr).ne_base (hpending (by decide)) hchanged hsealed, rfl, hsame,
      fun g hg => ?_⟩
    obtain ⟨d, hd, hrecord⟩ := record_eq.mp hr
    obtain ⟨d', hd', hg⟩ := git_eq.mp hg
    obtain rfl := Option.some.inj (hd.symm.trans hd')
    exact (((h.dirs p d hd).git _ g hrecord hg).2 (hpending (by decide))).trans hsealed
  show Wp Sound (call (.persist .task p environment.cwd (r.pending commit)) >>= fun _ => _) _ v
  refine wp_then (P := fun v => World.record v.world p = some r) (fun _ _ _ h => h) (kept_const True) h hr trivial
    (fun v h hr _ => (hpush v h hr).needs h hr fun hnow => absurd hnow (hpending (by decide))) (fun _ _ => trivial)
    fun env _ v v' hd hr _ _ => ?_
  have hunpushed : Unpushed p v'.log := by
    rw [hd.log]
    refine (hd.before.due p ?_).cons rfl
    rw [World.due, hr, Option.any_some, ManagedTaskMetadata.due, hstate]
    rfl
  have hcall : Wp Sound (call (.gitPush p environment.repository.name r.branch) : Manager Tree Unit)
      (Ends (fun _ v => World.record v.world p = some (r.pending commit) ∧ Shown v.log r.repository r.branch commit)
        fun v => World.record v.world p = some (r.pending commit)) v' := by
    refine wp_call (P := fun v => Unpushed p v.log) (fun _ _ _ h => h) (kept_record (· = some (r.pending commit)) id)
      hd.sound hunpushed hd.record_persist (fun v h hv hr => ⟨hpushOk v h hr, hv⟩) (fun _ hr => hr)
      fun env _ v v' hd _ hr hr' => ⟨hr', hd.shown_push ?_ hsame⟩
    obtain ⟨_, c, hr₀, -, hc, -, -, -, -, hgit⟩ := hpushOk v hd.before hr
    obtain rfl := Option.some.inj (hr.symm.trans hr₀)
    obtain rfl := Option.some.inj (hc.symm.trans hsealed)
    exact hgit
  refine wp_part (M := fun _ v => World.record v.world p = some (r.pending commit) ∧
    Shown v.log r.repository r.branch commit) (wp_tryCatch (hcall.mono fun result v hresult => ?_)) fun _ v h hv => ?_
  · rcases result with e | ⟨⟩
    · -- the push may have taken effect: only the branch itself tells
      refine wp_part (wp_reconcilePush (frame_record (· = some (r.pending commit))) hresult.1 hresult.2 r.branch commit)
        fun b v h hv => ?_
      refine wp_ite (fun _ => wp_throw ⟨h, trivial⟩) fun hb => wp_pure ⟨h, hv.1, ?_⟩
      exact hv.2 (by simpa using hb) _ hsame
    · exact hresult
  · exact wp_recordPublished h hv.1 rfl rfl hv.2 _ _ _

theorem wp_publishSealed (hsame : sameRepository Tree r.repository environment.repository.name = true) :
    Wp Sound (publishSealed environment p r)
      (Answers environments) v := by
  have hok := h.record hr
  unfold publishSealed
  refine wp_ite (fun hstate => ?_) fun _ => ?_
  · obtain ⟨hpushed, hchanged⟩ := hok.pushed (by rw [ManagedTaskMetadata.due, hstate]; rfl)
    obtain ⟨c, hsealed, -⟩ := hok.sealed (by rw [hstate]; decide)
    rw [hchanged]
    refine wp_pure ⟨h, c, hpushed.trans hsealed, hsealed, ?_, hok.shown hstate c (hpushed.trans hsealed)⟩
    exact hok.ne_base (by rw [hstate]; decide) hchanged hsealed
  · split
    · rename_i hstate hsealed
      rename_i c _
      obtain ⟨c', hsealed', hchanged⟩ := hok.sealed (by rw [hstate]; decide)
      obtain rfl := Option.some.inj (hsealed.symm.trans hsealed')
      rw [hchanged]
      refine wp_ite (fun hunchanged => ?_) fun hchange => ?_
      · refine wp_pure ⟨h, congrArg some ?_⟩
        simpa using hunchanged
      · refine wp_pushTask h hr hstate hsealed ?_ hsame
        rw [hchanged]
        simpa using hchange
    · exact wp_throw ⟨h, trivial⟩

theorem wp_reconcile (hstate : r.state = .pushUncertain)
    (hpushed : r.pushedCommitSha = some commit)
    (hsame : sameRepository Tree r.repository environment.repository.name = true) :
    Wp Sound (do
        if !(← reconcilePush environment r.branch commit) then throw resultUnknown
        let reconciled := { r with state := .published }
        call (.persist .task p environment.cwd reconciled)
        pure (.published reconciled true (some commit) true))
      (Answers environments) v := by
  refine wp_part (wp_reconcilePush (frame_record (· = some r)) h hr r.branch commit) fun b v h hv => ?_
  refine wp_refuse h trivial fun hb => ?_
  exact wp_recordPublished h hv.1 hstate hpushed (hv.2 (by simpa using hb) _ hsame) _ _ _

theorem wp_publishRest (hsame : sameRepository Tree r.repository environment.repository.name = true) :
    Wp Sound (match r.state, r.pushedCommitSha with
        | .pushUncertain, some commit => do
          if !(← reconcilePush environment r.branch commit) then throw resultUnknown
          let reconciled := { r with state := .published }
          call (.persist .task p environment.cwd reconciled)
          pure (.published reconciled true (some commit) true)
        | _, _ => do
          let sealed ← if r.state = .prepared then sealTask p environment.cwd r else pure r
          publishSealed environment p sealed)
      (Answers environments) v := by
  split
  · rename_i hstate hpushed
    exact wp_reconcile h hr hstate hpushed hsame
  · refine wp_ite (fun _ => ?_) fun _ => wp_publishSealed h hr hsame
    refine wp_part (wp_sealTask (frame_true fun _ => True) trivial h hr trivial) fun s v h hs => ?_
    obtain ⟨⟨hrecord, -, hrepository, -⟩, -⟩ := hs
    exact wp_publishSealed h hrecord (hrepository ▸ hsame)

theorem wp_publishTask (hsame : sameRepository Tree r.repository environment.repository.name = true) :
    Wp Sound (publishTask environment p r) (Answers environments) v := by
  unfold publishTask
  refine wp_step (kept_record (· = some r) id) h hr (fun _ _ _ => trivial) (fun _ _ => trivial) fun _ v h hr => ?_
  refine wp_ite (fun hunavailable => ?_) fun _ => wp_publishRest h hr hsame
  have hfalse : r.worktreeAvailable = false := by simpa using hunavailable
  exact wp_step (kept_record (· = some r) id) h hr (fun v h hr => h.removalOk hr hfalse) (fun _ _ => trivial)
    fun _ v h hr => wp_publishRest h hr hsame

end

end Parts

/-! ### The operations -/

theorem wp_publishOperation (input : PublishInput) (h : Sound v) :
    Wp Sound (publishOperation environments input) (Answers environments) v := by
  unfold publishOperation
  refine wp_check h trivial fun environment _ => ?_
  refine wp_check h trivial fun id _ => ?_
  refine wp_check h trivial fun _ _ => ?_
  refine wp_refuse h trivial fun _ => wp_check h trivial fun expected _ => ?_
  refine wp_then (stable_const True) (kept_const True) h trivial trivial (fun _ _ _ _ => trivial) (fun _ _ => trivial)
    fun env record? v v' hd _ _ _ => ?_
  rcases record? with _ | record
  · exact wp_throw ⟨hd.sound, trivial⟩
  · have hrecord : World.record v'.world ⟨environment.key, id⟩ = some record := by
      rw [hd.world]
      exact Option.some.inj hd.result
    refine wp_refuse hd.sound trivial fun hidentity => wp_publishTask hd.sound hrecord ?_
    simp only [Bool.or_eq_true, not_or, Bool.not_eq_true', Bool.not_eq_false] at hidentity
    have hsame := hidentity.2
    simp only [sameIdentity, Bool.and_eq_true] at hsame
    exact hsame.1.1

theorem wp_read {k : Result q → Manager Tree (Reply Tree)} (h : Sound v) (hneeds : ∀ v : Seen Tree, Needs v q)
    (hk : ∀ a v, Sound v → Wp Sound (k a) (Answers environments) v) :
    Wp Sound (call q >>= k) (Answers environments) v :=
  wp_step (kept_const True) h trivial (fun v _ _ => hneeds v) (fun _ _ => trivial) fun a v h _ => hk a v h

theorem wp_inspectOperation (key id : String) (h : Sound v) :
    Wp Sound (inspectOperation environments key id : Manager Tree (Reply Tree)) (Answers environments) v := by
  unfold inspectOperation
  refine wp_check h trivial fun environment _ => wp_check h trivial fun id _ => ?_
  refine wp_read h (fun _ => trivial) fun record? v h => ?_
  rcases record? with _ | record
  · exact wp_pure ⟨h, trivial⟩
  · refine wp_ite (fun _ => wp_pure ⟨h, trivial⟩) fun _ => ?_
    exact wp_read h (fun _ => trivial) fun _ v h => wp_pure ⟨h, trivial⟩

theorem wp_removeTask (h : Sound v) (cwd : String) :
    Wp Sound (call (.removeDir .task p) >>= fun _ => call (.removeWorktree p cwd) >>= fun _ =>
        (pure (.cleaned true) : Manager Tree (Reply Tree))) (Answers environments) v := by
  refine wp_then (stable_const True) (kept_const True) h trivial trivial (fun _ _ _ _ => trivial) (fun _ _ => trivial)
    fun env _ v v' hd _ _ _ => ?_
  have hnone : World.record v'.world p = none := by
    rw [hd.world]
    exact congrArg (Option.bind · TaskDir.record) ((task_setDir ..).trans (if_pos rfl))
  exact wp_step (kept_unrecorded nofun) hd.sound hnone (fun v _ hnone r hr => by cases hnone.symm.trans hr)
    (fun _ _ => trivial) fun _ v h _ => wp_pure ⟨h, trivial⟩

theorem wp_cleanupOperation (key id : String) (h : Sound v) :
    Wp Sound (cleanupOperation environments key id : Manager Tree (Reply Tree)) (Answers environments) v := by
  unfold cleanupOperation
  refine wp_check h trivial fun environment _ => wp_check h trivial fun id _ => ?_
  refine wp_read h (fun _ => trivial) fun record? v h => ?_
  rcases record? with _ | record
  · exact wp_pure ⟨h, trivial⟩
  · refine wp_read h (fun _ => trivial) fun _ v h => wp_ite (fun _ => ?_) fun _ => wp_removeTask h _
    exact wp_read h (fun _ => trivial) fun _ v h => wp_removeTask h _

theorem wp_operation (op : Op) (h : Sound v) : Wp Sound (operation environments op) (Answers environments) v := by
  cases op with
  | prepare input => exact wp_prepareOperation input h
  | publish input => exact wp_publishOperation input h
  | inspect key id => exact wp_inspectOperation key id h
  | cleanup key id => exact wp_cleanupOperation key id h

end ADT.Repository
