import ADT.Lib.Partial
import ADT.Sqlite.Backups

/-!
# Sqlite.Storage — restoring a backup set

`SqliteStorageManager.restore`, `SqliteStorageManager.initialize` and `bootstrapLegacySqlite` of
`codex-runner/src/sqlite-storage.ts`, over the directories they work on.  A rename is done or not done; a copy that does
not get through may leave a broken file, and a recursive removal may leave a part of its directory.
-/

namespace ADT.Sqlite

open Faults Faults.Run

/-- `SafeError`, or any other error. -/
inductive Thrown where
  | safe (code : String) (status : ℕ)
  | error (message : String)
  deriving DecidableEq

/-- `error instanceof SafeError && error.code === code` -/
def Thrown.is (code : String) : Thrown → Bool
  | .safe code' _ => code' == code
  | .error _ => false

/-! ### Directories -/

variable {F : Type}

/-- The regular files of a directory, each with its contents. -/
abbrev Directory (F : Type) := AList fun _ : String => F

/-- The order in which a directory is listed. -/
abbrev Listing := {order : List String → List String // ∀ names, (order names).Perm names}

/-- The files that are left of a directory. -/
def Directory.tear (d : Directory F) (names : List String) : Directory F := names.foldl (fun d n => d.erase n) d

inductive Place where
  | home
  | safety
  | stage

inductive Operation where
  | idle
  | backup
  | restore
  deriving DecidableEq

/-- The local variables of a call. -/
structure Locals where
  safety : Bool := false
  stage : Bool := false
  movedCurrent : Bool := false
  movedNames : List String := []
  stagedNames : List String := []
  promoted : List String := []

/-- The manager's fields, its call, and the disk: `home` is `sqliteHome`, `safety` the directory `.adt-pre-restore-…` of
the last restore with `marker` for its `.adt-recovery-required`, `stage` the staging directory of the last call;
`earlier` says that another `.adt-pre-restore-…` has such a marker.  `bootstrap` is `.adt-bootstrap-v1`, when it is there,
and whether it reads as complete. -/
structure World (F : Type) where
  operation : Operation
  recoveryRequired : Bool
  locals : Locals
  home : Directory F
  safety : Option (Directory F)
  marker : Bool
  earlier : Bool
  stage : Option (Directory F)
  bootstrap : Option Bool

namespace World

def dir (w : World F) : Place → Option (Directory F)
  | .home => some w.home
  | .safety => w.safety
  | .stage => w.stage

def put (w : World F) (d : Directory F) : Place → World F
  | .home => { w with home := d }
  | .safety => { w with safety := some d }
  | .stage => { w with stage := some d }

/-- The process is gone; the disk is not. -/
def restarted (w : World F) : World F := { w with operation := .idle, recoveryRequired := false, locals := {} }

end World

/-- Where the calls go to the outside, in the order of the source. -/
inductive Site where
  | latest | backupDirectory | manifest | checksum (name : String) | size (name : String) | makeStage
  | stageCopy (name : String) | close | makeSafety | listOriginals | moveAway (name : String) | moveBack (name : String)
  | dropReturned | place (name : String) | ready | dropReplaced | closeAgain | listHome | clear (name : String)
  | listSafety | copyBack (name : String) | readyAgain | dropRestored | writeMarker | removeStage | removeSafety
  | makeHome | entries | recoveryMarker | mountInfo | bootstrapHome | listExisting | bootstrapMarker | listLegacy
  | writeEmpty | bootstrapStage | usable (name : String) | bootstrapCopy (name : String) | promote (name : String)
  | stagedMarker | promoteMarker | demote (name : String) | removeBootstrapStage
  deriving DecidableEq

/-- What the calls find outside the manager. -/
structure Outside (F : Type) where
  latest : Option String
  backups : String → Option (Directory F)
  manifest : String → Option Json
  checksum : F → String
  size : F → ℕ
  parsesDate : String → Bool
  listing : Site → Listing
  torn : Site → List String
  shard : Site → Option F
  ready : Site → Bool
  network : Bool
  legacy : Directory F

def broken : Thrown := .error "EIO"

/-! ### File operations -/

section Operations

variable (o : Outside F)

abbrev Call (F α : Type) := Run Site (World F) Thrown α

/-- What the outside answers without touching the disk of the manager. -/
def inquire {α : Type} (site : Site) (answer : World F → Except Thrown α) : Call F α :=
  operate site broken (fun w => (answer w, w)) id

def renamed (p q : Place) (name : String) (w : World F) : Except Thrown Unit × World F :=
  match w.dir p, w.dir q with
  | some source, some target =>
    match source.lookup name with
    | some file => (.ok (), (w.put (source.erase name) p).put (target.insert name file) q)
    | none => (.error broken, w)
  | _, _ => (.error broken, w)

/-- `rename(join(p, name), join(q, name))` -/
def rename (site : Site) (p q : Place) (name : String) : Call F Unit :=
  operate site broken (renamed p q name) id

/-- A copy with `COPYFILE_EXCL`. -/
def copied (source : Option (Directory F)) (q : Place) (name : String) (w : World F) : Except Thrown Unit × World F :=
  match source.bind (·.lookup name), w.dir q with
  | some file, some target =>
    if name ∈ target then (.error (.error "EEXIST"), w) else (.ok (), w.put (target.insert name file) q)
  | _, _ => (.error broken, w)

/-- What is left of a copy that does not get through. -/
def shattered (shard : Option F) (q : Place) (name : String) (w : World F) : World F :=
  match shard, w.dir q with
  | some file, some target => if name ∈ target then w else w.put (target.insert name file) q
  | _, _ => w

def copyFile (site : Site) (source : World F → Option (Directory F)) (q : Place) (name : String) : Call F Unit :=
  operate site broken (fun w => copied (source w) q name w) (shattered (o.shard site) q name)

/-- `rm(directory, { recursive: true, force: true })` -/
def removeSafety (site : Site) : Call F Unit :=
  operate site broken (fun w => (.ok (), { w with safety := none, marker := false }))
    fun w => { w with safety := w.safety.map (·.tear (o.torn site)) }

def removeStage (site : Site) : Call F Unit :=
  operate site broken (fun w => (.ok (), { w with stage := none }))
    fun w => { w with stage := w.stage.map (·.tear (o.torn site)) }

/-- `rm(join(sqliteHome, name), { force: true })` -/
def removeFile (site : Site) (name : String) : Call F Unit :=
  operate site broken (fun w => (.ok (), { w with home := w.home.erase name })) id

/-- `readdir` -/
def names (site : Site) (p : Place) : Call F (List String) :=
  inquire site fun w => match w.dir p with
    | some d => .ok ((o.listing site).1 d.keys)
    | none => .error broken

/-! ### Restore -/

/-- The first lines of `createBackup` and of `restore`. -/
def claimOperation (operation : Operation) : Call F Unit := do
  let w ← look
  if w.operation ≠ .idle then throw (.safe "runner_busy" 409)
  amend fun w => { w with operation, locals := {} }

def safeBackupDirectory (id : String) : Call F (Directory F) := do
  if !isBackupId id then throw (.safe "invalid_backup_id" 400)
  inquire .backupDirectory fun _ => match o.backups id with
    | some d => .ok d
    | none => .error (.safe "backup_not_found" 404)

def schemaVersion (raw : Json) : Option ℤ :=
  match raw.get? "schemaVersion" with
  | some (.num n) => some n
  | _ => none

def readManifest (id : String) : Call F BackupMetadata := do
  let raw ← inquire .manifest fun _ => match o.manifest id with
    | some raw => .ok raw
    | none => .error broken
  if schemaVersion raw ≠ some 1 then throw (.safe "invalid_backup" 409)
  match parseBackupMetadata o.parsesDate id raw with
  | some metadata => pure metadata
  | none => throw (.error "invalid_backup")

def verify (directory : Directory F) (database : DatabaseRecord) : Call F Unit := do
  let found := fun (_ : World F) => match directory.lookup database.filename with
    | some file => Except.ok file
    | none => .error broken
  let file ← inquire (.checksum database.filename) found
  if o.checksum file ≠ database.sha256 then throw (.safe "invalid_backup" 409)
  let file ← inquire (.size database.filename) found
  if o.size file ≠ database.size then throw (.safe "invalid_backup" 409)

/-- `this.recoveryRequired = true`, and the marker that the next start looks for. -/
def failClosed {α : Type} : Call F α := do
  amend fun w => { w with recoveryRequired := true, operation := .restore }
  ignore (operate .writeMarker broken
    (fun w => match w.safety with
      | some _ => (.ok (), { w with marker := true })
      | none => (.error broken, w)) id)
  throw (.safe "restore_rollback_failed" 503)

/-- The handler of both rollbacks. -/
def giveUp {α : Type} (e : Thrown) : Call F α :=
  if e.is "restore_failed_rolled_back" then throw e else failClosed

/-- The originals go back where they came from. -/
def returnOriginals {α : Type} : Call F α :=
  tryCatch
    (do
      let w ← look
      each (fun n => rename (.moveBack n) .safety .home n) w.locals.movedNames.reverse
      removeSafety o .dropReturned
      amend fun w => { w with locals := { w.locals with safety := false } }
      throw (.safe "restore_failed_rolled_back" 503))
    giveUp

def moveOriginals (originalNames : List String) : Call F Unit :=
  tryCatch
    (each (fun n => do
        rename (.moveAway n) .home .safety n
        amend fun w => { w with locals := { w.locals with movedNames := w.locals.movedNames ++ [n] } })
      originalNames)
    fun _ => returnOriginals o

structure Restored where
  backupId : String
  rollbackOccurred : Bool
  deriving DecidableEq

/-- The id of the set that is restored. -/
def selectBackup (id : Option String) : Call F String := do
  match id with
  | some id => pure id
  | none =>
    match ← inquire .latest fun _ => .ok o.latest with
    | some selected => pure selected
    | none => throw (.safe "backup_not_found" 404)

/-- The copies of the set beside `sqliteHome`. -/
def stageBackup (directory : Directory F) (manifest : BackupMetadata) : Call F Unit := do
  operate .makeStage broken (fun w => (.ok (), { w with stage := some ∅ })) id
  amend fun w => { w with locals := { w.locals with stage := true } }
  each (fun n => copyFile o (.stageCopy n) (fun _ => some directory) .stage n) manifest.names

/-- From the shutdown of the App Server on: the set takes the place of the originals. -/
def replace (selected : String) (manifest : BackupMetadata) : Call F Restored := do
  tryCatch (inquire .close fun _ => .ok ()) fun _ => throw (.safe "app_server_shutdown_unconfirmed" 503)
  operate .makeSafety broken
    (fun w => (.ok (), { w with safety := some ∅, marker := false, earlier := w.earlier || w.marker })) id
  amend fun w => { w with locals := { w.locals with safety := true } }
  let originalNames ← names o .listOriginals .home
  moveOriginals o (originalNames.filter isLive)
  amend fun w => { w with locals := { w.locals with movedCurrent := true } }
  each (fun n => rename (.place n) .stage .home n) manifest.names
  let ready ← inquire .ready fun _ => .ok (o.ready .ready)
  if !ready then throw (.error "restore_readiness_failed")
  removeSafety o .dropReplaced
  amend fun w => { w with locals := { w.locals with safety := false } }
  pure ⟨selected, false⟩

/-- The body of `restore`. -/
def restoreSelected (id : Option String) : Call F Restored := do
  let selected ← selectBackup o id
  let directory ← safeBackupDirectory o selected
  let manifest ← readManifest o selected
  each (verify o directory) manifest.databases
  stageBackup o directory manifest
  replace o selected manifest

/-- The copy of the originals is put back in place of what was restored. -/
def putBack {α : Type} : Call F α :=
  tryCatch
    (do
      let found ← tryCatch (names o .listHome .home) fun _ => pure []
      each (fun n => if isLive n then removeFile (.clear n) n else pure ()) found
      let saved ← names o .listSafety .safety
      each (fun n => copyFile o (.copyBack n) (·.safety) .home n) saved
      let ready ← inquire .readyAgain fun _ => .ok (o.ready .readyAgain)
      if !ready then throw (.error "rollback_readiness_failed")
      removeSafety o .dropRestored
      amend fun w => { w with locals := { w.locals with safety := false } }
      throw (.safe "restore_failed_rolled_back" 503))
    giveUp

/-- The handler of `restore`. -/
def rollBack {α : Type} (e : Thrown) : Call F α := do
  let w ← look
  if w.locals.movedCurrent && w.locals.safety then
    tryCatch (inquire .closeAgain fun _ => .ok ()) fun _ => failClosed
    putBack o
  else throw e

/-- The `finally` of `restore`. -/
def cleanUp : Call F Unit := do
  let w ← look
  if w.locals.stage then removeStage o .removeStage
  let w ← look
  if !w.recoveryRequired && w.locals.safety then removeSafety o .removeSafety
  let w ← look
  if !w.recoveryRequired then amend fun w => { w with operation := .idle }

/-- `restore`; `none` stands for `"latest"`. -/
def restore (id : Option String) : Call F Restored := do
  claimOperation .restore
  always (tryCatch (restoreSelected o id) (rollBack o)) (cleanUp o)

/-! ### Initialization -/

/-- `databases(path)`, of the regular files -/
def databases (site : Site) (d : World F → Directory F) : Call F (List String) :=
  tryCatch
    (inquire site fun w => .ok ((((d w).keys.filter isDatabaseFilename).mergeSort).take (maxDatabases + 1)))
    fun _ => pure []

def sidecars (name : String) : List String := [name, name ++ "-wal", name ++ "-shm"]

/-- The copies of the legacy databases become those of `sqliteHome`. -/
def promoteLegacy (legacy : List String) : Call F Unit := do
  each (fun n => do
      let readable ← attempt (inquire (.usable n) fun _ => if n ∈ o.legacy then .ok () else .error broken)
      if readable then
        copyFile o (.bootstrapCopy n) (fun _ => some o.legacy) .stage n
        amend fun w => { w with locals := { w.locals with stagedNames := w.locals.stagedNames ++ [n] } })
    (legacy.flatMap sidecars)
  let w ← look
  each (fun n => do
      rename (.promote n) .stage .home n
      amend fun w => { w with locals := { w.locals with promoted := w.locals.promoted ++ [n] } })
    w.locals.stagedNames
  inquire .stagedMarker fun _ => .ok ()
  operate .promoteMarker broken (fun w => (.ok (), { w with bootstrap := some true })) id

def bootstrapLegacySqlite : Call F Unit := do
  inquire .bootstrapHome fun _ => .ok ()
  let existing ← databases .listExisting (·.home)
  if !existing.isEmpty then return
  let complete ← attempt (inquire .bootstrapMarker fun w => if w.bootstrap = some true then .ok () else .error broken)
  if complete then return
  let legacy ← databases .listLegacy fun _ => o.legacy
  if maxDatabases < legacy.length then throw (.error "sqlite_bootstrap_failed")
  if legacy.isEmpty then
    operate .writeEmpty broken
      (fun w => if w.bootstrap.isSome then (.error (.error "EEXIST"), w)
        else (.ok (), { w with bootstrap := some true }))
      fun w => { w with bootstrap := w.bootstrap.or (some false) }
    return
  operate .bootstrapStage broken (fun w => (.ok (), { w with stage := some ∅ })) id
  always
    (tryCatch (promoteLegacy o legacy) fun _ => do
      let w ← look
      each (fun n => ignore (removeFile (.demote n) n)) w.locals.promoted.reverse
      throw (.error "sqlite_bootstrap_failed"))
    (removeStage o .removeBootstrapStage)

/-- `initialize` -/
def initializeStorage : Call F Unit := do
  inquire .makeHome fun _ => .ok ()
  inquire .entries fun _ => .ok ()
  let marked ← attempt (inquire .recoveryMarker fun w =>
    if w.earlier || (w.safety.isSome && w.marker) then .ok () else .error broken)
  if marked then
    amend fun w => { w with recoveryRequired := true, operation := .restore }
    throw (.error "restore_recovery_required")
  let mounted ← attempt (inquire .mountInfo fun _ => .ok ())
  if mounted && o.network then throw (.error "network_filesystem_unsupported_for_sqlite")
  bootstrapLegacySqlite o

end Operations

end ADT.Sqlite
