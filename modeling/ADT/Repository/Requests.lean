import ADT.Repository.Disk

/-!
# Repository.Requests — what a request changes

The ways a request comes out, and the parts of the disk that it leaves alone.  The record of a task changes where it is
persisted, where its directory is removed, and where a directory is put in its place.
-/

namespace ADT.Repository

variable {Tree : Type} {w : World Tree}

/-! ### Updates -/

section Updates

variable (w) (p p' : Place) (d : Option (TaskDir Tree))

theorem task_setDir : (w.setDir .task p d).task p' = if p' = p then d else w.task p' := Dirs.lookup_put _ _ _ _

theorem staging_setDir : (w.setDir .staging p d).staging.lookup p = d := (Dirs.lookup_put _ _ _ _).trans (if_pos rfl)

theorem worktrees_setWorktree (cwd id cwd' id' : String) (tree : Option Tree) :
    (w.setWorktree cwd id tree).worktrees cwd' id' = if cwd' = cwd ∧ id' = id then tree else w.worktrees cwd' id' := by
  by_cases hcwd : cwd' = cwd
  · subst hcwd
    by_cases hid : id' = id
    · subst hid
      simp [World.setWorktree]
    · simp [World.setWorktree, hid]
  · simp [World.setWorktree, hcwd]

end Updates

theorem record_eq {p : Place} {r : ManagedTaskMetadata Tree} :
    w.record p = some r ↔ ∃ d, w.task p = some d ∧ d.record = some r :=
  Option.bind_eq_some_iff

theorem git_eq {p : Place} {g : GitDir Tree} : w.git .task p = some g ↔ ∃ d, w.task p = some d ∧ d.git = some g :=
  Option.bind_eq_some_iff

theorem task_onDir {p : Place} {f : TaskDir Tree → TaskDir Tree} :
    (w.onDir .task p f).task p = (w.task p).map f := by
  exact (task_setDir ..).trans (if_pos rfl)

theorem record_onGit (p p' : Place) (f : GitDir Tree → GitDir Tree) : (w.onGit .task p f).record p' = w.record p' := by
  by_cases h : p' = p
  · subst h
    rw [World.record, World.onGit, task_onDir, World.record]
    cases w.task p' <;> rfl
  · exact congrArg (Option.bind · TaskDir.record) ((task_setDir ..).trans (if_neg h))

theorem git_onGit {p : Place} {f : GitDir Tree → GitDir Tree} :
    (w.onGit .task p f).git .task p = (w.git .task p).map f := by
  have htask : (w.onGit .task p f).task p = (w.task p).map fun d => { d with git := d.git.map f } := task_onDir
  show ((w.onGit .task p f).task p).bind (·.git) = ((w.task p).bind (·.git)).map f
  rw [htask]
  cases w.task p <;> rfl

/-! ### Outcomes -/

section Outcomes

variable [DecidableEq Tree] [Surroundings Tree] {env : Env Tree} {q : Request Tree} {p : Place}

theorem when_some {c : Bool} {a : Unit} (h : when c = some a) : c = true := by
  unfold when at h
  split at h
  · assumption
  · cases h

variable (env q w) in
theorem answer_cases : (∃ a, q.result env w = some a ∧ answer env q w = (.ok a, q.after env w)) ∨
    (answer env q w).1 = .error (q.error env) ∧ ((answer env q w).2 = w ∨ (answer env q w).2 = q.part env w ∨
      q.isGit = true ∧ (answer env q w).2 = q.after env w) := by
  unfold answer
  cases env.fate <;> rcases q.result env w with _ | a
  · exact .inr ⟨rfl, .inl rfl⟩
  · exact .inl ⟨a, rfl, rfl⟩
  · exact .inr ⟨rfl, .inr (.inl rfl)⟩
  · exact .inr ⟨rfl, .inr (.inl rfl)⟩
  · exact .inr ⟨rfl, .inl rfl⟩
  · by_cases hgit : q.isGit = true
    · exact .inr ⟨rfl, .inr (.inr ⟨hgit, if_pos hgit⟩)⟩
    · exact .inr ⟨rfl, .inr (.inl (if_neg hgit))⟩

theorem answer_ok {a : Result q} (h : (answer env q w).1 = .ok a) :
    q.result env w = some a ∧ (answer env q w).2 = q.after env w := by
  rcases answer_cases w env q with ⟨a', ha, heq⟩ | ⟨herror, -⟩
  · rw [heq] at h ⊢
    cases h
    exact ⟨ha, rfl⟩
  · cases herror.symm.trans h

theorem answer_error {e : SafeError} (h : (answer env q w).1 = .error e) (hgit : q.isGit = false)
    (hpart : q.part env w = w) : (answer env q w).2 = w := by
  rcases answer_cases w env q with ⟨a, -, heq⟩ | ⟨-, heq | heq | ⟨hgit', -⟩⟩
  · cases (congrArg Prod.fst heq).symm.trans h
  · exact heq
  · exact heq.trans hpart
  · cases hgit.symm.trans hgit'

theorem answer_keeps {β : Type} (f : World Tree → β) (hafter : f (q.after env w) = f w)
    (hpart : f (q.part env w) = f w) : f (answer env q w).2 = f w := by
  rcases answer_cases w env q with ⟨a, -, h⟩ | ⟨-, h | h | ⟨-, h⟩⟩ <;> rw [h]
  · exact hafter
  · exact hpart
  · exact hafter

/-- The requests that may change the directory of a task. -/
def Request.touches : Request Tree → Place → Prop
  | .removeDir .task p, p' | .persist .task p _ _, p' | .placeTask p, p' | .gitAdd p _, p' | .gitCommit p, p' => p' = p
  | _, _ => False

theorem task_answer (h : ¬q.touches p) : (answer env q w).2.task p = w.task p := by
  refine answer_keeps (World.task · p) ?_ ?_
  · cases q with
    | removeDir dir p' | persist dir p' =>
      cases dir
      · exact (task_setDir ..).trans (if_neg h)
      · rfl
    | placeTask | gitAdd | gitCommit => exact (task_setDir ..).trans (if_neg h)
    | _ => rfl
  · cases q with
    | removeDir dir p' =>
      cases dir
      · exact (task_setDir ..).trans (if_neg h)
      · rfl
    | _ => rfl

/-- The requests that may change the record of a task. -/
def Request.records : Request Tree → Place → Prop
  | .removeDir .task p, p' | .persist .task p _ _, p' | .placeTask p, p' => p' = p
  | _, _ => False

theorem record_answer (h : ¬q.records p) : (answer env q w).2.record p = w.record p := by
  cases q with
  | gitAdd | gitCommit => exact answer_keeps (World.record · p) (record_onGit ..) rfl
  | removeDir dir | persist dir => exact congrArg (Option.bind · TaskDir.record) (task_answer (by cases dir <;> exact h))
  | _ => exact congrArg (Option.bind · TaskDir.record) (task_answer h)

/-- The requests that write into the checkouts of an environment. -/
def Request.writes : Request Tree → Place → String → Prop
  | .removeWorktree p cwd, p', cwd' | .makeWorktree p cwd, p', cwd' | .gitReset p cwd _, p', cwd' =>
    cwd' = cwd ∧ p'.taskId = p.taskId
  | _, _, _ => False

theorem worktrees_answer {cwd : String} (h : ¬q.writes p cwd) :
    (answer env q w).2.worktrees cwd p.taskId = w.worktrees cwd p.taskId := by
  refine answer_keeps (fun w => w.worktrees cwd p.taskId) ?_ ?_
  · cases q with
    | removeDir dir | persist dir => cases dir <;> rfl
    | removeWorktree | makeWorktree | gitReset => exact (worktrees_setWorktree ..).trans (if_neg h)
    | _ => rfl
  · cases q with
    | removeDir dir => cases dir <;> rfl
    | removeWorktree | gitReset => exact (worktrees_setWorktree ..).trans (if_neg h)
    | _ => rfl

end Outcomes

end ADT.Repository
