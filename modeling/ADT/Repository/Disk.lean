import Mathlib.Data.List.AList
import ADT.Lib.Serial

/-!
# Repository.Disk — what the repository manager works on

The directories of `codex-runner/src/repository-manager.ts`: the task directories with their records and git
directories, the checkouts, the mirrors and the repositories at GitHub.  A request is one call of the file system or of
git; it is done or fails, a call of git may also take effect and be reported as failed, and a removal or a checkout that
fails may stop half-way.
-/

namespace ADT.Repository

open Interleave

/-- What the service does not decide: the empty directory, the index that `git add --all` makes of an index and a checkout
(what is ignored and not in the index stays out), how a name is put into lower case, and whether somebody edits checkouts
while the service works. -/
class Surroundings (Tree : Type) where
  empty : Tree
  stage : Tree → Tree → Tree
  toLowerCase : String → String
  edits : Bool

/-- A commit stands for its content and its history. -/
inductive Commit (Tree : Type)
  | root (tree : Tree) (stamp : ℕ)
  | child (parent : Commit Tree) (tree : Tree) (stamp : ℕ)
  deriving DecidableEq

variable {Tree : Type}

def Commit.tree : Commit Tree → Tree
  | .root tree _ => tree
  | .child _ tree _ => tree

inductive TaskState
  | prepared | sealed | pushUncertain | published
  deriving DecidableEq

structure RepositoryName where
  owner : String
  repo : String
  deriving DecidableEq

structure ManagedTaskMetadata (Tree : Type) where
  environmentKey : String
  repository : RepositoryName
  taskId : String
  baseBranch : String
  baseSha : Commit Tree
  branch : String
  worktreeAvailable : Bool
  state : TaskState
  sealedCommitSha : Option (Commit Tree)
  sealedChanged : Option Bool
  pushedCommitSha : Option (Commit Tree)
  dirty : Option Bool

/-- The directory of a task is named by its environment and its id. -/
structure Place where
  environmentKey : String
  taskId : String
  deriving DecidableEq

/-- A git directory: its branches, the branch `HEAD` names, and the index. -/
structure GitDir (Tree : Type) where
  refs : String → Option (Commit Tree)
  head : String
  index : Tree

def GitDir.commit? (g : GitDir Tree) : Option (Commit Tree) := g.refs g.head

structure TaskDir (Tree : Type) where
  record : Option (ManagedTaskMetadata Tree)
  git : Option (GitDir Tree)

/-- Task directories, and those that are being prepared. -/
inductive Dir
  | task | staging

abbrev Dirs (Tree : Type) := AList fun _ : Place => TaskDir Tree

def Dirs.put (m : Dirs Tree) (p : Place) : Option (TaskDir Tree) → Dirs Tree
  | none => AList.erase p m
  | some d => AList.insert p d m

theorem Dirs.lookup_put (m : Dirs Tree) (p p' : Place) (d : Option (TaskDir Tree)) :
    (m.put p d).lookup p' = if p' = p then d else m.lookup p' := by
  by_cases h : p' = p
  · subst h
    cases d with
    | none => exact (AList.lookup_erase _ _).trans (if_pos rfl).symm
    | some d => exact (AList.lookup_insert _).trans (if_pos rfl).symm
  · rw [if_neg h]
    cases d with
    | none => exact AList.lookup_erase_ne h
    | some d => exact AList.lookup_insert_ne h

structure World (Tree : Type) where
  tasks : Dirs Tree
  staging : Dirs Tree
  /-- The checkouts, by the directory of their environment and their task. -/
  worktrees : String → String → Option Tree
  /-- The refs `refs/adt/remote/…` of the mirrors. -/
  mirrors : String → String → Option (Commit Tree)
  remotes : RepositoryName → String → Option (Commit Tree)

namespace World

def dirs (w : World Tree) : Dir → Dirs Tree
  | .task => w.tasks
  | .staging => w.staging

def setDir (w : World Tree) (dir : Dir) (p : Place) (d : Option (TaskDir Tree)) : World Tree :=
  match dir with
  | .task => { w with tasks := w.tasks.put p d }
  | .staging => { w with staging := w.staging.put p d }

def onDir (w : World Tree) (dir : Dir) (p : Place) (f : TaskDir Tree → TaskDir Tree) : World Tree :=
  w.setDir dir p (((w.dirs dir).lookup p).map f)

def setWorktree (w : World Tree) (cwd id : String) (tree : Option Tree) : World Tree :=
  { w with worktrees := Function.update w.worktrees cwd (Function.update (w.worktrees cwd) id tree) }

def setMirror (w : World Tree) (key ref : String) (c : Option (Commit Tree)) : World Tree :=
  { w with mirrors := Function.update w.mirrors key (Function.update (w.mirrors key) ref c) }

def setRemote (w : World Tree) (repository : RepositoryName) (branch : String) (c : Option (Commit Tree)) : World Tree :=
  { w with remotes := Function.update w.remotes repository (Function.update (w.remotes repository) branch c) }

def task (w : World Tree) (p : Place) : Option (TaskDir Tree) := w.tasks.lookup p

/-- The record of a task that is in place. -/
def record (w : World Tree) (p : Place) : Option (ManagedTaskMetadata Tree) := (w.task p).bind (·.record)

/-- What `readdir` finds in the directory of an environment's tasks. -/
def names (w : World Tree) (key : String) : List String :=
  ((w.tasks.keys.filter (·.environmentKey == key)).map (·.taskId)) ++
    ((w.staging.keys.filter (·.environmentKey == key)).map fun p => ".preparing-" ++ p.taskId)

end World

/-- `code` and `status` of an error; what is thrown by the file system itself is reported as `runner_internal_error`. -/
structure SafeError where
  code : String
  status : ℕ

def internalError : SafeError := ⟨"runner_internal_error", 500⟩

def stateInvalid : SafeError := ⟨"repository_state_invalid", 409⟩

/-! ### Requests -/

inductive Request (Tree : Type)
  | provision (key : String)
  | readRecord (p : Place)
  | readdir (key : String)
  | accessWorktree (cwd id : String)
  | containedWorktree (cwd id : String)
  | containedTask (p : Place)
  | removeDir (dir : Dir) (p : Place)
  | removeWorktree (p : Place) (cwd : String)
  | ensureMirror (key : String)
  | fetchBranch (key : String) (repository : RepositoryName) (branch : String)
  | resolveBranch (key branch : String)
  | makeStaging (p : Place)
  | makeWorktree (p : Place) (cwd : String)
  | gitInit (p : Place)
  | gitConfig (p : Place) (name value : String)
  | gitFetchBase (p : Place) (base : Commit Tree) (branch : String)
  | gitSymbolicRef (p : Place) (branch : String)
  | gitReset (p : Place) (cwd branch : String)
  | persist (dir : Dir) (p : Place) (cwd : String) (r : ManagedTaskMetadata Tree)
  | placeTask (p : Place)
  | gitStatus (p : Place) (cwd : String)
  | gitAdd (p : Place) (cwd : String)
  | gitCommit (p : Place)
  | gitHead (p : Place)
  | gitPush (p : Place) (repository : RepositoryName) (branch : String)

/-- What a request gives when it is done. -/
abbrev Result : Request Tree → Type
  | .readRecord _ => Option (ManagedTaskMetadata Tree)
  | .readdir _ => List String
  | .resolveBranch _ _ => Commit Tree
  | .gitStatus _ _ => Bool
  | .gitHead _ => Commit Tree
  | _ => Unit

abbrev signature (Tree : Type) : Signature := ⟨Request Tree, fun q => Except SafeError (Result q)⟩

inductive Fate
  | done | failed | lost

/-- What a request comes to: its fate, whether git timed out, what a step that stops half-way leaves, the order in which
a directory is listed, and what sets a new commit apart. -/
structure Env (Tree : Type) where
  fate : Fate
  timeout : Bool
  left : Tree
  keepRecord : Bool
  keepGit : Bool
  names : List String
  stamp : ℕ

/-- `safeGitError` -/
def gitError (env : Env Tree) : SafeError :=
  if env.timeout then ⟨"repository_operation_timeout", 503⟩ else ⟨"repository_operation_failed", 409⟩

/-- `refs/adt/remote/${branch.replaceAll("/","-")}` -/
def mirrorRef (branch : String) : String :=
  "refs/adt/remote/" ++ String.ofList (branch.toList.map fun c => if c = '/' then '-' else c)

/-- What `rm` leaves of a task directory where it stops half-way. -/
def TaskDir.part (env : Env Tree) (d : TaskDir Tree) : TaskDir Tree :=
  ⟨if env.keepRecord then d.record else none, if env.keepGit then d.git else none⟩

section Git

variable [DecidableEq Tree] [Surroundings Tree]

/-- Nothing to report: the index is the commit's tree, and staging the checkout would not change it. -/
def GitDir.clean (g : GitDir Tree) (work : Tree) : Bool :=
  g.commit?.any fun c => g.index = c.tree ∧ Surroundings.stage g.index work = g.index

def GitDir.init : GitDir Tree := ⟨fun _ => none, "master", Surroundings.empty⟩

def GitDir.news (g : GitDir Tree) : Bool := g.commit?.all fun c => g.index != c.tree

/-- `git commit` -/
def GitDir.commit (g : GitDir Tree) (stamp : ℕ) : GitDir Tree :=
  let c := match g.commit? with
    | none => .root g.index stamp
    | some c => .child c g.index stamp
  { g with refs := Function.update g.refs g.head (some c) }

def World.git (w : World Tree) (dir : Dir) (p : Place) : Option (GitDir Tree) := ((w.dirs dir).lookup p).bind (·.git)

def World.onGit (w : World Tree) (dir : Dir) (p : Place) (f : GitDir Tree → GitDir Tree) : World Tree :=
  w.onDir dir p fun d => { d with git := d.git.map f }

def when (c : Bool) : Option Unit := if c then some () else none

/-- What a request gives where it can be done. -/
def Request.result (env : Env Tree) (w : World Tree) : (q : Request Tree) → Option (Result q)
  | .readRecord p => some (w.record p)
  | .readdir key => some (if env.names.isPerm (w.names key) then env.names else w.names key)
  | .accessWorktree cwd id | .containedWorktree cwd id => when (w.worktrees cwd id).isSome
  | .containedTask p => when (w.task p).isSome
  | .fetchBranch _ repository branch => when (w.remotes repository branch).isSome
  | .resolveBranch key branch => w.mirrors key (mirrorRef branch)
  | .makeStaging p => when (w.staging.lookup p).isNone
  | .makeWorktree p cwd => when (w.worktrees cwd p.taskId).isNone
  | .gitInit p => when (w.staging.lookup p).isSome
  | .gitConfig p _ _ | .gitFetchBase p _ _ | .gitSymbolicRef p _ => when (w.git .staging p).isSome
  | .gitReset p cwd branch =>
    when ((w.git .staging p).any (·.refs branch |>.isSome) && (w.worktrees cwd p.taskId).isSome)
  | .persist dir p _ _ => when ((w.dirs dir).lookup p).isSome
  | .placeTask p =>
    when ((w.staging.lookup p).isSome && (w.task p).all fun t => t.record.isNone && t.git.isNone)
  | .gitStatus p cwd => do
    let g ← w.git .task p
    let work ← w.worktrees cwd p.taskId
    pure (!g.clean work)
  | .gitAdd p cwd => when ((w.git .task p).isSome && (w.worktrees cwd p.taskId).isSome)
  | .gitCommit p => when ((w.git .task p).any (·.news))
  | .gitHead p => (w.git .task p).bind (·.commit?)
  | .gitPush p _ branch => when ((w.git .task p).any (·.refs branch |>.isSome))
  | .provision _ | .removeDir _ _ | .removeWorktree _ _ | .ensureMirror _ => some ()

/-- What a request that can be done makes of the world. -/
def Request.after (env : Env Tree) (w : World Tree) : Request Tree → World Tree
  | .removeDir dir p => w.setDir dir p none
  | .removeWorktree p cwd => w.setWorktree cwd p.taskId none
  | .fetchBranch key repository branch => w.setMirror key (mirrorRef branch) (w.remotes repository branch)
  | .makeStaging p => w.setDir .staging p (some ⟨none, none⟩)
  | .makeWorktree p cwd => w.setWorktree cwd p.taskId (some Surroundings.empty)
  | .gitInit p => w.onDir .staging p fun d => { d with git := some GitDir.init }
  | .gitFetchBase p base branch =>
    w.onGit .staging p fun g => { g with refs := Function.update g.refs branch (some base) }
  | .gitSymbolicRef p branch => w.onGit .staging p fun g => { g with head := branch }
  | .gitReset p cwd branch =>
    let c := (w.git .staging p).bind (·.refs branch)
    (w.onGit .staging p fun g =>
        { g with refs := Function.update g.refs g.head c, index := (c.map (·.tree)).getD g.index }).setWorktree cwd
      p.taskId (c.map (·.tree))
  | .persist dir p _ r => w.onDir dir p fun d => { d with record := some r }
  | .placeTask p => (w.setDir .staging p none).setDir .task p (w.staging.lookup p)
  | .gitAdd p cwd =>
    w.onGit .task p fun g => { g with index := ((w.worktrees cwd p.taskId).map (Surroundings.stage g.index)).getD g.index }
  | .gitCommit p => w.onGit .task p (·.commit env.stamp)
  | .gitPush p repository branch => w.setRemote repository branch ((w.git .task p).bind (·.refs branch))
  | _ => w

/-- What a request leaves that fails on the way. -/
def Request.part (env : Env Tree) (w : World Tree) : Request Tree → World Tree
  | .removeDir dir p => w.onDir dir p (TaskDir.part env)
  | .removeWorktree p cwd | .gitReset p cwd _ =>
    w.setWorktree cwd p.taskId ((w.worktrees cwd p.taskId).map fun _ => env.left)
  | _ => w

/-- The calls of git, which may have taken effect where they are reported as failed. -/
def Request.isGit : Request Tree → Bool
  | .ensureMirror _ | .fetchBranch _ _ _ | .resolveBranch _ _ | .gitInit _ | .gitConfig _ _ _ | .gitFetchBase _ _ _ |
    .gitSymbolicRef _ _ | .gitReset _ _ _ | .gitStatus _ _ | .gitAdd _ _ | .gitCommit _ | .gitHead _ |
    .gitPush _ _ _ => true
  | _ => false

def Request.error (env : Env Tree) (q : Request Tree) : SafeError :=
  if q.isGit then gitError env
  else match q with
    | .readRecord _ | .containedWorktree _ _ | .containedTask _ => stateInvalid
    | _ => internalError

def answer (env : Env Tree) (q : Request Tree) (w : World Tree) : Except SafeError (Result q) × World Tree :=
  match env.fate, q.result env w with
  | .done, some a => (.ok a, q.after env w)
  | .lost, some _ => (.error (q.error env), if q.isGit then q.after env w else q.part env w)
  | .failed, _ => (.error (q.error env), q.part env w)
  | _, none => (.error (q.error env), w)

end Git

end ADT.Repository
