import ADT.Repository.Disk
import ADT.Runner.Jobs

/-!
# Repository.Manager — the managed repository service

`ManagedRepositoryService` of `codex-runner/src/repository-manager.ts`: prepare, publish, inspect and cleanup, which the
service runs one at a time.
-/

namespace ADT.Repository

open Interleave Runner Serial

structure ManagedRepositoryConfiguration where
  owner : String
  repo : String
  baseBranch : String

def ManagedRepositoryConfiguration.name (r : ManagedRepositoryConfiguration) : RepositoryName := ⟨r.owner, r.repo⟩

structure RunnerEnvironment where
  key : String
  cwd : String
  enabled : Bool
  repository : Option ManagedRepositoryConfiguration

structure ManagedEnvironment where
  key : String
  cwd : String
  repository : ManagedRepositoryConfiguration

structure ExpectedRepository where
  owner : String
  repo : String
  baseBranch : Option String

structure PrepareInput where
  environmentKey : String
  taskId : String
  credential : String
  sourceBranch : Option String
  expectedRepository : Option ExpectedRepository

structure PublishInput where
  environmentKey : String
  taskId : String
  credential : String
  message : String
  expectedRepository : Option ExpectedRepository

inductive Op
  | prepare (input : PrepareInput)
  | publish (input : PublishInput)
  | inspect (environmentKey taskId : String)
  | cleanup (environmentKey taskId : String)

/-- What the operations answer; a publication also says whether it was reconciled. -/
inductive Reply (Tree : Type)
  | prepared (record : ManagedTaskMetadata Tree) (cwd : String)
  | published (record : ManagedTaskMetadata Tree) (changed : Bool) (commitSha : Option (Commit Tree)) (reconciled : Bool)
  | found (record : ManagedTaskMetadata Tree) (dirty : Bool)
  | notFound
  | cleaned (done : Bool)

/-! ### Checks -/

def invalidRequest : SafeError := ⟨"invalid_request", 400⟩

def identityMismatch : SafeError := ⟨"managed_repository_identity_mismatch", 409⟩

def resultUnknown : SafeError := ⟨"repository_publish_result_unknown", 503⟩

/-- `/^[a-z0-9]+(?:-[a-z0-9]+)*$/` -/
def isKey (s : String) : Bool := (s.toList.splitOn '-').all fun part => !part.isEmpty && part.all isKeyChar

/-- Of one to `max` units, without `\r`, `\n` and `\0`. -/
def isLine (max : ℕ) (s : String) : Bool :=
  1 ≤ utf16Length s && utf16Length s ≤ max && s.toList.all fun c => c != '\r' && c != '\n' && c != '\x00'

def taskId (value : String) : Except SafeError String :=
  if isTaskId value.toList then .ok value else .error invalidRequest

def token (value : String) : Except SafeError String := if isLine 2048 value then .ok value else .error invalidRequest

def expectedRepository (value : ExpectedRepository) : Except SafeError ExpectedRepository :=
  if isLine 100 value.owner && isLine 100 value.repo && value.baseBranch.all (isLine 255) then .ok value
  else .error invalidRequest

/-- `environment` of the service. -/
def environment (environments : List RunnerEnvironment) (key : String) : Except SafeError ManagedEnvironment :=
  if !isKey key then .error invalidRequest
  else match environments.find? (·.key == key) with
    | some ⟨key, cwd, true, some repository⟩ => .ok ⟨key, cwd, repository⟩
    | _ => .error ⟨"managed_environment_unavailable", 409⟩

variable {Tree : Type} [DecidableEq Tree] [Surroundings Tree]

/-- The names of the repositories are compared without regard to case. -/
def sameRepository (Tree : Type) [Surroundings Tree] (left right : RepositoryName) : Bool :=
  let lower := Surroundings.toLowerCase Tree
  lower left.owner == lower right.owner && lower left.repo == lower right.repo

def sameExpectedTarget (Tree : Type) [Surroundings Tree] (expected : ExpectedRepository)
    (repository : ManagedRepositoryConfiguration) : Bool :=
  sameRepository Tree ⟨expected.owner, expected.repo⟩ repository.name &&
    expected.baseBranch.all (· == repository.baseBranch)

/-- The record names the repository and the base branch of its environment, and those the caller expects. -/
def sameIdentity (record : ManagedTaskMetadata Tree) (repository : ManagedRepositoryConfiguration)
    (expected : Option ExpectedRepository) : Bool :=
  sameRepository Tree record.repository repository.name && record.baseBranch == repository.baseBranch &&
    expected.all fun e => sameRepository Tree record.repository ⟨e.owner, e.repo⟩ &&
      e.baseBranch.all (· == record.baseBranch)

/-! ### Operations -/

abbrev Manager (Tree α : Type) : Type := Prog (signature Tree) SafeError α

/-- A request whose failure is thrown. -/
def call (q : Request Tree) : Manager Tree (Result q) :=
  .ask q fun r => match r with
    | .ok a => .done a
    | .error e => .fail e

def check {α : Type} : Except SafeError α → Manager Tree α
  | .ok a => pure a
  | .error e => throw e

def remoteHead (environment : ManagedEnvironment) (branch : String) : Manager Tree (Commit Tree) := do
  call (.fetchBranch environment.key environment.repository.name branch)
  call (.resolveBranch environment.key branch)

/-- The record of a task whose checkout is sealed in a commit. -/
def ManagedTaskMetadata.sealedAt (record : ManagedTaskMetadata Tree) (commit : Commit Tree) :
    ManagedTaskMetadata Tree :=
  { record with
    state := .sealed
    worktreeAvailable := false
    sealedCommitSha := some commit
    sealedChanged := some (commit != record.baseSha)
    dirty := some false }

/-- `seal` -/
def sealTask (p : Place) (cwd : String) (record : ManagedTaskMetadata Tree) :
    Manager Tree (ManagedTaskMetadata Tree) :=
  if !record.worktreeAvailable then pure record else do
    call (.containedWorktree cwd p.taskId)
    let dirty ← call (.gitStatus p cwd)
    if dirty then do
      call (.gitAdd p cwd)
      call (.gitCommit p)
    let commit ← call (.gitHead p)
    let sealed := record.sealedAt commit
    call (.persist .task p cwd sealed)
    call (.removeWorktree p cwd)
    pure sealed

/-- One name in the directory of a candidate's tasks. -/
def sealOther (current : Place) (candidate : RunnerEnvironment) (name : String) : Manager Tree Unit :=
  if (candidate.key == current.environmentKey && name == current.taskId) ||
      ".preparing-".toList.isPrefixOf name.toList || !isTaskId name.toList then pure ()
  else do
    let record ← call (.readRecord ⟨candidate.key, name⟩)
    match record with
    | none => pure ()
    | some r =>
      if r.worktreeAvailable then do
        let _ ← sealTask ⟨candidate.key, name⟩ candidate.cwd r
        pure ()
      else call (.removeWorktree ⟨candidate.key, name⟩ candidate.cwd)

def sealOthers (environments : List RunnerEnvironment) (current : Place) : Manager Tree Unit :=
  environments.forM fun candidate =>
    if !candidate.enabled || candidate.repository.isNone then pure ()
    else do
      let names ← call (.readdir candidate.key)
      names.forM fun name => sealOther current candidate name

/-- The record of a preparation that is complete. -/
def preparedRecord (environment : ManagedEnvironment) (id branch : String) (baseSha : Commit Tree) :
    ManagedTaskMetadata Tree where
  environmentKey := environment.key
  repository := environment.repository.name
  taskId := id
  baseBranch := environment.repository.baseBranch
  baseSha := baseSha
  branch := branch
  worktreeAvailable := true
  state := .prepared
  sealedCommitSha := none
  sealedChanged := none
  pushedCommitSha := none
  dirty := none

/-- The task directory and its checkout are built from the base commit, and the directory is put in place. -/
def buildTask (environment : ManagedEnvironment) (p : Place) (branch : String) (baseSha : Commit Tree) :
    Manager Tree (ManagedTaskMetadata Tree) := do
  call (.makeStaging p)
  call (.makeWorktree p environment.cwd)
  call (.gitInit p)
  call (.gitConfig p "core.bare" "false")
  call (.gitConfig p "core.worktree" environment.cwd)
  call (.gitFetchBase p baseSha branch)
  call (.gitSymbolicRef p branch)
  call (.gitReset p environment.cwd branch)
  let metadata := preparedRecord environment p.taskId branch baseSha
  call (.persist .staging p environment.cwd metadata)
  call (.placeTask p)
  pure metadata

/-- The part of `prepareOperation` that follows its checks, for a task without a record. -/
def prepareTask (environment : ManagedEnvironment) (p : Place) (branch : String) (sourceBranch : Option String) :
    Manager Tree (Reply Tree) := do
  call (.removeDir .staging p)
  call (.removeDir .task p)
  call (.removeWorktree p environment.cwd)
  call (.ensureMirror environment.key)
  let baseSha ← remoteHead environment (sourceBranch.getD environment.repository.baseBranch)
  try
    let metadata ← buildTask environment p branch baseSha
    pure (.prepared metadata environment.cwd)
  catch error =>
    call (.removeDir .staging p)
    call (.removeWorktree p environment.cwd)
    throw error

def prepareOperation (environments : List RunnerEnvironment) (input : PrepareInput) :
    Manager Tree (Reply Tree) := do
  let environment ← check (environment environments input.environmentKey)
  let id ← check (taskId input.taskId)
  let _ ← check (token input.credential)
  let expected ← check (input.expectedRepository.mapM expectedRepository)
  if !expected.all (sameExpectedTarget Tree · environment.repository) then throw identityMismatch
  let p : Place := ⟨environment.key, id⟩
  let expectedBranch := input.sourceBranch.getD ("adt/codex/" ++ id)
  if !input.sourceBranch.all isBranch then throw invalidRequest
  call (.provision environment.key)
  let existing ← call (.readRecord p)
  if !existing.all (sameIdentity · environment.repository expected) then throw identityMismatch
  if !existing.all (·.branch == expectedBranch) then throw (⟨"idempotency_conflict", 409⟩ : SafeError)
  sealOthers environments p
  match existing with
  | some record =>
    if !record.worktreeAvailable then throw (⟨"managed_task_sealed", 409⟩ : SafeError)
    call (.accessWorktree environment.cwd id)
    pure (.prepared record environment.cwd)
  | none => prepareTask environment p expectedBranch input.sourceBranch

def reconcilePush (environment : ManagedEnvironment) (branch : String) (commit : Commit Tree) :
    Manager Tree Bool :=
  tryCatch (do
    let head ← remoteHead environment branch
    pure (head == commit)) fun _ => pure false

/-- The push of a sealed task, or what is known of one whose result was lost. -/
def pushTask (environment : ManagedEnvironment) (p : Place) (sealed : ManagedTaskMetadata Tree)
    (commit : Commit Tree) : Manager Tree (Reply Tree) := do
  let pending := { sealed with state := .pushUncertain, pushedCommitSha := some commit }
  call (.persist .task p environment.cwd pending)
  tryCatch (call (.gitPush p environment.repository.name sealed.branch)) fun _ => do
    if !(← reconcilePush environment sealed.branch commit) then throw resultUnknown
  let updated := { pending with state := .published, dirty := some false }
  call (.persist .task p environment.cwd updated)
  pure (.published updated true (some commit) false)

/-- The part of `publishOperation` that follows the sealing. -/
def publishSealed (environment : ManagedEnvironment) (p : Place) (sealed : ManagedTaskMetadata Tree) :
    Manager Tree (Reply Tree) :=
  if sealed.state = .published then
    pure (.published sealed (sealed.sealedChanged.getD true) sealed.pushedCommitSha false)
  else match sealed.state, sealed.sealedCommitSha with
    | .sealed, some commit =>
      if !sealed.sealedChanged.getD false then pure (.published sealed false (some commit) false)
      else pushTask environment p sealed commit
    | _, _ => throw stateInvalid

/-- The part of `publishOperation` that follows its checks. -/
def publishTask (environment : ManagedEnvironment) (p : Place) (record : ManagedTaskMetadata Tree) :
    Manager Tree (Reply Tree) := do
  call (.containedTask p)
  if !record.worktreeAvailable then call (.removeWorktree p environment.cwd)
  match record.state, record.pushedCommitSha with
  | .pushUncertain, some commit => do
    if !(← reconcilePush environment record.branch commit) then throw resultUnknown
    let reconciled := { record with state := .published }
    call (.persist .task p environment.cwd reconciled)
    pure (.published reconciled true (some commit) true)
  | _, _ => do
    let sealed ← if record.state = .prepared then sealTask p environment.cwd record else pure record
    publishSealed environment p sealed

def publishOperation (environments : List RunnerEnvironment) (input : PublishInput) :
    Manager Tree (Reply Tree) := do
  let environment ← check (environment environments input.environmentKey)
  let id ← check (taskId input.taskId)
  let _ ← check (token input.credential)
  if trim input.message = "" || !isLine 200 input.message then throw invalidRequest
  let expected ← check (input.expectedRepository.mapM expectedRepository)
  let p : Place := ⟨environment.key, id⟩
  let record? ← call (.readRecord p)
  match record? with
  | none => throw (⟨"managed_task_not_found", 404⟩ : SafeError)
  | some record =>
    if !expected.all (sameExpectedTarget Tree · environment.repository) ||
        !sameIdentity record environment.repository expected then throw identityMismatch
    publishTask environment p record

def inspectOperation (environments : List RunnerEnvironment) (key id : String) : Manager Tree (Reply Tree) := do
  let environment ← check (environment environments key)
  let id ← check (taskId id)
  let p : Place := ⟨environment.key, id⟩
  let record? ← call (.readRecord p)
  match record? with
  | none => pure .notFound
  | some record =>
    if !record.worktreeAvailable then pure (.found record false)
    else do
      let dirty ← call (.gitStatus p environment.cwd)
      pure (.found record dirty)

def cleanupOperation (environments : List RunnerEnvironment) (key id : String) : Manager Tree (Reply Tree) := do
  let environment ← check (environment environments key)
  let id ← check (taskId id)
  let p : Place := ⟨environment.key, id⟩
  let record? ← call (.readRecord p)
  match record? with
  | none => pure (.cleaned false)
  | some record =>
    call (.containedTask p)
    if record.worktreeAvailable then call (.containedWorktree environment.cwd id)
    call (.removeDir .task p)
    call (.removeWorktree p environment.cwd)
    pure (.cleaned true)

def operation (environments : List RunnerEnvironment) : Op → Manager Tree (Reply Tree)
  | .prepare input => prepareOperation environments input
  | .publish input => publishOperation environments input
  | .inspect key id => inspectOperation environments key id
  | .cleanup key id => cleanupOperation environments key id

/-- Somebody edits a checkout, or the branches of a repository change. -/
inductive Move (Tree : Type)
  | edit (cwd id : String) (tree : Tree)
  | remote (repository : RepositoryName) (branch : String) (c : Option (Commit Tree))

def move (m : Move Tree) (w : World Tree) : World Tree :=
  { w with
    worktrees := match m with
      | .edit cwd id tree => (w.setWorktree cwd id ((w.worktrees cwd id).map fun _ => tree)).worktrees
      | .remote .. => w.worktrees
    remotes := match m with
      | .edit .. => w.remotes
      | .remote repository branch c => (w.setRemote repository branch c).remotes }

variable (Tree) in
abbrev service : Service (signature Tree) SafeError where
  World := World Tree
  Env := Env Tree
  answer := answer
  Move := Move Tree
  move := move
  meanwhile
    | .edit .. => Surroundings.edits Tree
    | .remote .. => true
  Setup := List RunnerEnvironment
  Op := Op
  Reply := Reply Tree
  program := operation

/-- Before the first operation no task directory is there. -/
def World.start (remotes : RepositoryName → String → Option (Commit Tree)) : World Tree :=
  ⟨∅, ∅, fun _ _ => none, fun _ _ => none, remotes⟩

end ADT.Repository
