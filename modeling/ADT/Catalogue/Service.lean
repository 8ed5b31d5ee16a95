import ADT.Artifacts.Repository
import ADT.Lib.Interleave

/-!
# Catalogue.Service — the cached catalogue of a branch

`ArtifactCatalogueService` of `lib/artifact-catalogue.ts` for one scope: any number of processes share a cache that forgets
nothing, holds a pointer to the chunks of a snapshot and a generation, and may fail.  A process keeps its own counter of
invalidations and the requests that are in flight.
-/

namespace ADT.Catalogue

open Interleave Artifacts

/-- The repository of a scope, the bytes of a list of artifacts as JSON, and `toLowerCase`. -/
structure Setting where
  services : Services
  tree : String → Option Tree
  jsonBytes : List (Artifact × String) → ℕ
  lower : String → String

/-! ### Snapshots -/

structure CatalogueIdentity where
  repositoryId : ℕ
  owner : String
  repository : String
  branch : String
  root : String

/-- An artifact and its `fileSha`. -/
abbrev StoredArtifact := Artifact × String

/-- Times are milliseconds. -/
structure Snapshot where
  revision : String
  refreshedAt : ℕ
  entries : List StoredArtifact
  deriving DecidableEq

structure ChunkKey where
  revision : String
  index : ℕ
  deriving DecidableEq

/-- The keys of a scope. -/
inductive Key
  | current
  | generation
  | chunk (key : ChunkKey)
  deriving DecidableEq

structure Pointer where
  identity : CatalogueIdentity
  revision : String
  refreshedAt : ℕ
  generation : Option ℕ
  publicationId : ℕ
  chunks : List ChunkKey

structure Chunk where
  identity : CatalogueIdentity
  revision : String
  index : ℕ
  entries : List StoredArtifact

@[reducible] def Key.Value : Key → Type
  | .current => Pointer
  | .generation => ℕ
  | .chunk _ => Chunk

/-- A change of the cache. -/
inductive Write
  | put (key : Key) (value : key.Value)
  | delete (key : Key)

inductive CacheState
  | fresh | refreshed | stale | degraded
  deriving DecidableEq

inductive StaleReason
  | repositoryUnavailable | rateLimited
  deriving DecidableEq

structure ResolvedCatalogue where
  artifacts : List Artifact
  fileShas : List (String × String)
  revision : String
  refreshedAt : ℕ
  cacheState : CacheState
  staleReason : Option StaleReason
  deriving DecidableEq

/-- What `list` and `findByIdWithRevision` return. -/
inductive Reply
  | catalogue (artifacts : List Artifact) (revision : String) (refreshedAt : ℕ) (cacheState : CacheState)
      (staleReason : Option StaleReason)
  | detail (artifact : Artifact) (currentFileSha : String) (revision : String) (refreshedAt : ℕ)
      (cacheState : CacheState) (staleReason : Option StaleReason)
  deriving DecidableEq

def Reply.revision : Reply → String
  | catalogue _ revision _ _ _ => revision
  | detail _ _ revision _ _ _ => revision

/-- `pending` is a promise that is not settled. -/
inductive CatalogueError
  | chunkRead
  | invalid
  | unavailable (status : Option ℕ)
  | content
  | pending

abbrev Result := Except CatalogueError ResolvedCatalogue

structure RefreshOptions where
  force : Bool
  full : Bool
  manual : Bool

def requestLevel (options : RefreshOptions) : ℕ := if options.full then 2 else if options.force then 1 else 0

/-- A service of a process. -/
structure Service where
  process : ℕ
  identity : CatalogueIdentity
  freshnessSeconds : ℕ

/-! ### Requests -/

/-- The events of the log. -/
inductive LogEvent
  | invalidated | invalidationFailure | manualRefresh | cacheHit | cacheMiss | revisionUnchanged | refreshSucceeded
  | refreshFailure | staleFallback | cacheReadFailure | cacheCorruption | publishAborted | publicationFailure
  | verificationCleanupFailure
  deriving DecidableEq

/-- How a call meets the requests in flight. -/
inductive Joining
  | joined (flight : ℕ)
  | started (flight : ℕ)
  | queued (flight existing : ℕ)

/-- The clock, the repository, the cache, random numbers, the memory of a process and the log; a write of the cache is
begun, and later awaited.  `accept` and `returned` are what `readSnapshot` and a call return.  The last three are not
requests of the service: a commit, time, and a write that takes effect. -/
inductive Request
  | now
  | getBaseRevision
  | loadCatalogue (revision : String)
  | get (key : Key)
  | put (key : Key) (value : key.Value)
  | putGeneration
  | delete (key : Key)
  | settled (tickets : List ℕ)
  | firstRejection
  | randomUUID
  | localGeneration (process : ℕ)
  | isInvalidated (process : ℕ)
  | distrust (process : ℕ)
  | trust (process : ℕ)
  | join (process level : ℕ)
  | result (flight : ℕ)
  | take (flight : ℕ)
  | settle (process flight : ℕ) (result : Result)
  | log (event : LogEvent)
  | accept (snapshot : Snapshot)
  | returned (reply : Reply)
  | commit (revision : String)
  | tick (milliseconds : ℕ)
  | land (ticket : ℕ)

@[reducible] def Answer : Request → Type
  | .now => ℕ
  | .getBaseRevision => Except CatalogueError String
  | .loadCatalogue _ => Except CatalogueError RepositoryCatalogue
  | .get key => Except Unit (Option key.Value)
  | .put _ _ => ℕ
  | .putGeneration => ℕ
  | .delete _ => ℕ
  | .settled _ => Bool
  | .firstRejection => ℕ
  | .randomUUID => ℕ
  | .localGeneration _ => ℕ
  | .isInvalidated _ => Bool
  | .join _ _ => Joining
  | .result _ => Option Result
  | _ => Unit

@[reducible] def signature : Signature := ⟨Request, Answer⟩

abbrev Program := Prog signature CatalogueError

def request (q : Request) : Program (Answer q) := .ask q .done

def log (event : LogEvent) : Program Unit := request (.log event)

/-- An `if` without an `else`. -/
def when (c : Bool) (p : Program Unit) : Program Unit := if c then p else return

def outcome {α : Type} (p : Program α) : Program (Except CatalogueError α) :=
  tryCatch (p >>= fun a => pure (.ok a)) fun e => pure (.error e)

/-! ### `Promise.all` -/

def settleAll {α : Type} : List (Program α) → Program (List (Except CatalogueError α))
  | [] => return []
  | p :: ps => do
    let result ← outcome p
    let results ← settleAll ps
    return result :: results

/-- All values, or the rejection that came first. -/
def promiseAll {α : Type} (ps : List (Program α)) : Program (List α) := do
  let results ← settleAll ps
  match results.mapM id with
  | .ok values => return values
  | .error e =>
    let rejections := results.filterMap fun | .ok _ => none | .error e => some e
    let first ← request .firstRejection
    throw (rejections[first % rejections.length]?.getD e)

section

variable (S : Setting) (service : Service)

/-! ### The parts of a snapshot -/

/-- `/^[a-f0-9]{7,64}$/i` -/
def isSha (s : String) : Bool :=
  7 ≤ s.length && s.length ≤ 64 &&
    s.toList.all fun c => ('a' ≤ c && c ≤ 'f') || ('A' ≤ c && c ≤ 'F') || ('0' ≤ c && c ≤ '9')

/-- `artifactSchema.parse`, on what has the properties of an artifact. -/
def parseStored (M : Matter) (artifact : Artifact) : Option Artifact := do
  let id ← trimmed (.str artifact.id)
  let title ← trimmed (.str artifact.title)
  let sourceId ← optional (artifact.sourceId.map .str) trimmed
  let createdAt ← optional (artifact.createdAt.map .str) (dateTime M)
  if utf16Length artifact.description ≤ 2000 then
    return { artifact with id := id, title := title, sourceId := sourceId, createdAt := createdAt }
  else none

/-- The `entries` of `chunkSchema.parse`. -/
def parseEntries (entries : List StoredArtifact) : Option (List StoredArtifact) :=
  entries.mapM fun entry => do
    let artifact ← parseStored S.services.matter entry.1
    if isSha entry.2 then return (artifact, entry.2) else none

def validateSnapshot (snapshot : Snapshot) : Bool :=
  isSha snapshot.revision &&
    snapshot.entries.all (fun entry =>
      (parseStored S.services.matter entry.1).isSome && isSha entry.2 && isSupportedArtifactPath entry.1.path) &&
    validateUniqueArtifactIds (snapshot.entries.map (·.1))

def maxChunkBytes : ℕ := 1500000

/-- The loop of `publish` over the entries, with the groups that are full. -/
def groupFrom (groups : List (List StoredArtifact)) (current : List StoredArtifact) :
    List StoredArtifact → List (List StoredArtifact)
  | [] => groups ++ [current]
  | entry :: entries =>
    let candidate := current ++ [entry]
    if current ≠ [] ∧ S.jsonBytes candidate > maxChunkBytes then groupFrom (groups ++ [current]) [entry] entries
    else groupFrom groups candidate entries

def groups (entries : List StoredArtifact) : List (List StoredArtifact) := groupFrom S [] [] entries

def chunkKeys (revision : String) (count : ℕ) : List ChunkKey := (List.range count).map fun index => ⟨revision, index⟩

/-- The check of an identity that was stored. -/
def sameIdentity (stored id : CatalogueIdentity) : Bool :=
  stored.repositoryId == id.repositoryId && S.lower stored.owner == S.lower id.owner &&
    S.lower stored.repository == S.lower id.repository && stored.branch == id.branch && stored.root == id.root

/-- `result` -/
def resolved (snapshot : Snapshot) (cacheState : CacheState) : ResolvedCatalogue :=
  ⟨snapshot.entries.map (·.1), snapshot.entries.map fun entry => (entry.1.id, entry.2), snapshot.revision,
    snapshot.refreshedAt, cacheState, none⟩

/-! ### Reading -/

structure GenerationRead where
  value : Option ℕ
  failed : Bool

def readGeneration : Program GenerationRead := do
  match ← request (.get .generation) with
  | .ok value => return ⟨value, false⟩
  | .error () =>
    log .cacheReadFailure
    return ⟨none, true⟩

structure SnapshotRead where
  snapshot : Option Snapshot
  generation : Option ℕ
  publicationId : Option ℕ
  failed : Bool
  corrupt : Bool

def readChunk (pointer : Pointer) (key : ChunkKey) (index : ℕ) : Program (List StoredArtifact) := do
  match ← request (.get (.chunk key)) with
  | .error () => throw .chunkRead
  | .ok none => throw .invalid
  | .ok (some chunk) =>
    match parseEntries S chunk.entries with
    | none => throw .invalid
    | some entries =>
      if isSha chunk.revision ∧ sameIdentity S chunk.identity service.identity ∧ chunk.revision = pointer.revision ∧
          chunk.index = index then
        return entries
      else throw .invalid

def readPointer (pointer : Pointer) : Program SnapshotRead := do
  if !isSha pointer.revision || pointer.chunks.isEmpty || !sameIdentity S pointer.identity service.identity then
    throw .invalid
  else
    let chunks ← promiseAll (pointer.chunks.zipIdx.map fun (key, index) => readChunk S service pointer key index)
    let snapshot : Snapshot := ⟨pointer.revision, pointer.refreshedAt, chunks.flatten⟩
    if validateSnapshot S snapshot then
      request (.accept snapshot)
      return ⟨some snapshot, pointer.generation, some pointer.publicationId, false, false⟩
    else throw .invalid

def readSnapshot : Program SnapshotRead := do
  match ← request (.get .current) with
  | .error () =>
    log .cacheReadFailure
    return ⟨none, none, none, true, false⟩
  | .ok none => return ⟨none, none, none, false, false⟩
  | .ok (some pointer) =>
    tryCatch (readPointer S service pointer) fun e =>
      match e with
      | .chunkRead => do
        log .cacheReadFailure
        return ⟨none, none, none, true, false⟩
      | _ => do
        log .cacheCorruption
        return ⟨none, none, none, false, true⟩

/-! ### Publishing -/

inductive AbortReason
  | generationChanged | revisionChanged

/-- `CataloguePublicationResult` -/
inductive Publication
  | published
  | competingPublication
  | aborted (reason : AbortReason)
  | degraded

def cleanupUnverifiedPublication (snapshot : Snapshot) (publicationId : ℕ) : Program Unit := do
  request (.distrust service.process)
  let ticket ← request .putGeneration
  let written ← request (.settled [ticket])
  when (!written) (log .verificationCleanupFailure)
  let visible ← readSnapshot S service
  let demonstrablyNewer := visible.publicationId != some publicationId &&
    visible.snapshot.any fun newer => newer.refreshedAt > snapshot.refreshedAt
  when (!demonstrablyNewer) do
    let ticket ← request (.delete .current)
    let deleted ← request (.settled [ticket])
    when (!deleted) (log .verificationCleanupFailure)

/-- `none` where the branch is still at the revision of the snapshot. -/
def verifyBaseRevision (snapshot : Snapshot) (publicationId : ℕ) (pointerPublished : Bool) :
    Program (Option Publication) := do
  match ← request .getBaseRevision with
  | .error error =>
    when pointerPublished (cleanupUnverifiedPublication S service snapshot publicationId)
    match error with
    | .unavailable _ =>
      log .publishAborted
      return some .degraded
    | _ => throw error
  | .ok revision =>
    if revision = snapshot.revision then return none
    else
      when pointerPublished (cleanupUnverifiedPublication S service snapshot publicationId)
      log .publishAborted
      return some (.aborted .revisionChanged)

def recoverCachePublication (snapshot : Snapshot) (generation : Option ℕ) (publicationId : ℕ) (pointerAttempted : Bool) :
    Program Publication := do
  log .publicationFailure
  let competing ← readSnapshot S service
  let recent := competing.snapshot.any fun other =>
    other.revision == snapshot.revision && other.refreshedAt ≥ snapshot.refreshedAt
  if competing.publicationId != some publicationId && recent && competing.generation == generation then
    return .competingPublication
  else
    when pointerAttempted (cleanupUnverifiedPublication S service snapshot publicationId)
    return .degraded

/-- The chunks of a snapshot, each begun. -/
def putChunks (revision : String) : ℕ → List (List StoredArtifact) → Program (List ℕ)
  | _, [] => return []
  | index, entries :: rest => do
    let ticket ← request (.put (.chunk ⟨revision, index⟩) ⟨service.identity, revision, index, entries⟩)
    let tickets ← putChunks revision (index + 1) rest
    return ticket :: tickets

/-- The end of `publish`, once the chunks are there and the generation is as it was. -/
def publishPointer (snapshot : Snapshot) (startingGeneration : Option ℕ) (publicationId : ℕ) (keys : List ChunkKey) :
    Program Publication := do
  match ← verifyBaseRevision S service snapshot publicationId false with
  | some preVerification => return preVerification
  | none =>
    let ticket ← request (.put .current
      ⟨service.identity, snapshot.revision, snapshot.refreshedAt, startingGeneration, publicationId, keys⟩)
    if !(← request (.settled [ticket])) then recoverCachePublication S service snapshot startingGeneration publicationId true
    else
      match ← verifyBaseRevision S service snapshot publicationId true with
      | some postVerification => return postVerification
      | none =>
        request (.trust service.process)
        return .published

def publish (snapshot : Snapshot) (startingGeneration : Option ℕ) (startingLocalGeneration : ℕ) :
    Program Publication := do
  let parts := groups S snapshot.entries
  let publicationId ← request .randomUUID
  let tickets ← putChunks service snapshot.revision 0 parts
  if !(← request (.settled tickets)) then
    recoverCachePublication S service snapshot startingGeneration publicationId false
  else
    let currentGeneration ← readGeneration
    let localGeneration ← request (.localGeneration service.process)
    if currentGeneration.failed then return .degraded
    else if currentGeneration.value ≠ startingGeneration ∨ localGeneration ≠ startingLocalGeneration then
      log .publishAborted
      return .aborted .generationChanged
    else
      publishPointer S service snapshot startingGeneration publicationId (chunkKeys snapshot.revision parts.length)

/-! ### Loading -/

/-- What `load` has read before it asks the repository. -/
structure Start where
  now : ℕ
  localGeneration : ℕ
  generation : GenerationRead
  cached : Option Snapshot
  degraded : Bool

def orThrow {α : Type} (r : Except CatalogueError α) : Program α :=
  match r with
  | .ok a => return a
  | .error e => throw e

/-- The artifacts and blob revisions of a catalogue. -/
def storedArtifacts (catalogue : RepositoryCatalogue) : List StoredArtifact :=
  catalogue.artifacts.map fun artifact => (artifact, (catalogue.fileShas.lookup artifact.id).getD "")

/-- The snapshot of a revision: the cached one with a later time, or one of the repository. -/
def snapshotOf (options : RefreshOptions) (start : Start) (revision : String) : Program Snapshot := do
  match start.cached.filter fun cached => !options.full && revision == cached.revision with
  | some cached =>
    log .revisionUnchanged
    return { cached with refreshedAt := start.now }
  | none =>
    let loaded ← orThrow (← request (.loadCatalogue revision))
    let snapshot : Snapshot := ⟨revision, start.now, storedArtifacts loaded⟩
    if validateSnapshot S snapshot then return snapshot else throw .invalid

/-- The `try` of `load`. -/
def refresh (options : RefreshOptions) (start : Start) : Program ResolvedCatalogue := do
  let revision ← orThrow (← request .getBaseRevision)
  let snapshot ← snapshotOf S options start revision
  let publication ← publish S service snapshot start.generation.value start.localGeneration
  let degraded := start.degraded || match publication with
    | .published | .competingPublication => false
    | .aborted _ | .degraded => true
  log .refreshSucceeded
  return resolved snapshot (if degraded then .degraded else .refreshed)

/-- The `catch` of `load`. -/
def fallBack (start : Start) (error : CatalogueError) : Program ResolvedCatalogue := do
  log .refreshFailure
  match start.cached, error with
  | some cached, .unavailable status =>
    log .staleFallback
    return { resolved cached .stale with
      staleReason := some (if status = some 429 then .rateLimited else .repositoryUnavailable) }
  | _, _ => throw error

def load (options : RefreshOptions) : Program ResolvedCatalogue := do
  let now ← request .now
  let localGeneration ← request (.localGeneration service.process)
  let generation ← readGeneration
  let cachedRead ← readSnapshot S service
  let invalidated ← request (.isInvalidated service.process)
  let cached := if invalidated || cachedRead.generation != generation.value then none else cachedRead.snapshot
  let degraded := generation.failed || cachedRead.failed
  when options.manual (log .manualRefresh)
  match cached.filter fun cached => !options.force && !degraded &&
      decide (now < cached.refreshedAt + service.freshnessSeconds * 1000) with
  | some cached =>
    log .cacheHit
    return resolved cached .fresh
  | none =>
    when cached.isNone (log .cacheMiss)
    let start : Start := ⟨now, localGeneration, generation, cached, degraded⟩
    tryCatch (refresh S service options start) (fallBack start)

/-- The load of a request in flight, and its end. -/
def fly (options : RefreshOptions) (flight : ℕ) : Program ResolvedCatalogue := do
  request (.take flight)
  let result ← outcome (load S service options)
  request (.settle service.process flight result)
  orThrow result

/-- The value of a promise, once it is settled. -/
def await (flight : ℕ) : Program Result := do
  match ← request (.result flight) with
  | none => throw .pending
  | some result => return result

def resolve (options : RefreshOptions) : Program ResolvedCatalogue := do
  match ← request (.join service.process (requestLevel options)) with
  | .joined flight => orThrow (← await flight)
  | .started flight => fly S service options flight
  | .queued flight existing =>
    let _ ← await existing
    fly S service options flight

def list (options : RefreshOptions) : Program Unit := do
  let result ← resolve S service options
  request (.returned (.catalogue result.artifacts result.revision result.refreshedAt result.cacheState result.staleReason))

def findByIdWithRevision (id : String) : Program Unit := do
  let result ← resolve S service ⟨false, false, false⟩
  match result.artifacts.find? (·.id == id), result.fileShas.lookup id with
  | some artifact, some currentFileSha =>
    if currentFileSha ≠ "" then
      request (.returned (.detail artifact currentFileSha result.revision result.refreshedAt result.cacheState
        result.staleReason))
    else return
  | _, _ => return

def invalidate : Program Unit := do
  request (.distrust service.process)
  let ticket ← request .putGeneration
  if ← request (.settled [ticket]) then
    let ticket ← request (.delete .current)
    if ← request (.settled [ticket]) then log .invalidated else log .invalidationFailure
  else log .invalidationFailure

end

/-- What runs: the calls of services, and what happens beside them. -/
inductive Client
  | list (service : Service) (options : RefreshOptions)
  | find (service : Service) (id : String)
  | invalidate (service : Service)
  | commit (revision : String)
  | tick (milliseconds : ℕ)
  | land (ticket : ℕ)

def Client.program (S : Setting) : Client → Program Unit
  | .list service options => Catalogue.list S service options
  | .find service id => findByIdWithRevision S service id
  | .invalidate service => Catalogue.invalidate service
  | .commit revision => request (.commit revision)
  | .tick milliseconds => request (.tick milliseconds)
  | .land ticket => request (.land ticket)

/-! ### The world -/

/-- The head of the branch at a time; `epoch` counts its commits. -/
structure Moment where
  time : ℕ
  epoch : ℕ
  head : String

structure Flight where
  level : ℕ
  promise : ℕ

/-- The `localGenerations`, `invalidatedScopes` and `flights` of a process. -/
structure Memory where
  localGeneration : ℕ
  invalidated : Bool
  flight : Option Flight

/-- A request in flight: the floor when its load began, and its result. -/
structure Promise where
  began : Option ℕ
  result : Option Result

/-- The branch with its past, the cache with the writes that are under way, and the processes.  `floor` is the epoch at
which the latest invalidation began that has returned true, and `due` is the floor when the call of a thread began;
`opened` is the epoch when a thread began its invalidation, `born` the one when a generation was written. -/
structure World where
  moment : Moment
  past : List Moment
  cache : (key : Key) → Option key.Value
  flying : List (ℕ × Write)
  tickets : ℕ
  drawn : ℕ
  memory : ℕ → Memory
  promises : List Promise
  born : ℕ → Option ℕ
  floor : ℕ
  opened : ℕ → Option ℕ
  due : ℕ → Option ℕ

/-- Who asks, and what is left open: failures of the repository and of the cache, a clock that is behind, a choice. -/
structure Env where
  thread : ℕ
  failure : Option CatalogueError
  cacheFails : Bool
  lag : ℕ
  choice : ℕ

namespace World

def initial (time : ℕ) (head : String) : World where
  moment := ⟨time, 0, head⟩
  past := []
  cache := fun _ => none
  flying := []
  tickets := 0
  drawn := 0
  memory := fun _ => ⟨0, false, none⟩
  promises := []
  born := fun _ => none
  floor := 0
  opened := fun _ => none
  due := fun _ => none

def history (w : World) : List Moment := w.moment :: w.past

def issue (w : World) (write : Write) : World :=
  { w with flying := w.flying ++ [(w.tickets, write)], tickets := w.tickets + 1 }

def apply (w : World) : Write → World
  | .put .generation value =>
    { w with cache := Function.update w.cache .generation (some value),
             born := Function.update w.born value (some w.moment.epoch) }
  | .put key value => { w with cache := Function.update w.cache key (some value) }
  | .delete key => { w with cache := Function.update w.cache key none }

def land (w : World) (ticket : ℕ) : World :=
  match w.flying.find? (·.1 == ticket) with
  | some (_, write) => { w.apply write with flying := w.flying.filter (·.1 != ticket) }
  | none => w

/-- The next moment of the branch. -/
def pass (w : World) (next : Moment) : World := { w with moment := next, past := w.moment :: w.past }

def setMemory (w : World) (process : ℕ) (memory : Memory) : World :=
  { w with memory := Function.update w.memory process memory }

/-- A call looks for a request in flight. -/
def join (w : World) (process level : ℕ) : Joining × World :=
  let memory := w.memory process
  let next := w.promises.length
  let inFlight : World := { w with
    promises := w.promises ++ [⟨none, none⟩]
    memory := Function.update w.memory process { memory with flight := some ⟨level, next⟩ } }
  match memory.flight with
  | some existing =>
    if level ≤ existing.level then (.joined existing.promise, w) else (.queued next existing.promise, inFlight)
  | none => (.started next, inFlight)

/-- A promise is settled once, and no longer in flight. -/
def settle (w : World) (process flight : ℕ) (result : Result) : World :=
  let memory := w.memory process
  let settled := { w with promises := w.promises.modify flight fun p => { p with result := p.result.or (some result) } }
  if memory.flight.map (·.promise) = some flight then settled.setMemory process { memory with flight := none } else settled

end World

def answer (S : Setting) (env : Env) (q : Request) (w : World) : Answer q × World :=
  match q with
  | .now => (w.moment.time - env.lag, w)
  | .getBaseRevision =>
    match env.failure with
    | some e => (.error e, w)
    | none => (.ok w.moment.head, w)
  | .loadCatalogue revision =>
    match env.failure with
    | some e => (.error e, w)
    | none =>
      match (S.tree revision).bind (loadCatalogue S.services) with
      | some catalogue => (.ok catalogue, w)
      | none => (.error .content, w)
  | .get key => (if env.cacheFails then .error () else .ok (w.cache key), w)
  | .put key value => (w.tickets, w.issue (.put key value))
  | .putGeneration => (w.tickets, { w.issue (.put .generation w.drawn) with drawn := w.drawn + 1 })
  | .delete key => (w.tickets, w.issue (.delete key))
  | .settled tickets => (!env.cacheFails && tickets.all fun ticket => w.flying.all (·.1 != ticket), w)
  | .firstRejection => (env.choice, w)
  | .randomUUID => (w.drawn, { w with drawn := w.drawn + 1 })
  | .localGeneration process => ((w.memory process).localGeneration, w)
  | .isInvalidated process => ((w.memory process).invalidated, w)
  | .distrust process =>
    let memory := w.memory process
    ((), { w.setMemory process { memory with localGeneration := memory.localGeneration + 1, invalidated := true } with
      opened := Function.update w.opened env.thread (some ((w.opened env.thread).getD w.moment.epoch)) })
  | .trust process => ((), w.setMemory process { w.memory process with invalidated := false })
  | .join process level =>
    let joining := w.join process level
    (joining.1, { joining.2 with
      due := Function.update w.due env.thread (some ((w.due env.thread).getD w.floor)) })
  | .result flight => (w.promises[flight]?.bind (·.result), w)
  | .take flight =>
    ((), { w with promises := w.promises.modify flight fun p => { p with began := p.began.or (some w.floor) } })
  | .settle process flight result => ((), w.settle process flight result)
  | .log .invalidated => ((), { w with floor := max w.floor ((w.opened env.thread).getD 0) })
  | .log _ => ((), w)
  | .accept _ => ((), w)
  | .returned _ => ((), w)
  | .commit revision => ((), w.pass ⟨w.moment.time, w.moment.epoch + 1, revision⟩)
  | .tick milliseconds => ((), w.pass ⟨w.moment.time + milliseconds, w.moment.epoch, w.moment.head⟩)
  | .land ticket => ((), w.land ticket)

@[reducible] def machine (S : Setting) : Machine signature := ⟨World, Env, answer S⟩

abbrev Processes (S : Setting) := Pool (machine S) CatalogueError

/-- Clients start, and requests name their thread. -/
def Allowed (S : Setting) (_ : Processes S) : Action (machine S) CatalogueError → Prop
  | .spawn p => ∃ client : Client, p = client.program S
  | .run t env => env.thread = t

end ADT.Catalogue
