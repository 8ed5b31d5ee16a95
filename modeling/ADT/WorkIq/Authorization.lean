import ADT.Lib.Clients
import ADT.Lib.Statement
import ADT.Lib.Json

/-!
# WorkIq.Authorization — delegated authorization of one `work-iq-rest` connection

The connection's file in Git, its bundle in the vault, the OAuth states and the snapshots of runs, and everything that
reads and writes them: `lib/work-iq-auth.ts`, `lib/work-iq-oauth.ts`, the routes of
`app/api/workflow-connections/[connectionKey]` and the launch of a run.  The connection keeps its key and its secret
reference, so both are left out; so is what routes answer with.
-/

namespace ADT.WorkIq

open Interleave

abbrev Time := ℕ

/-- 32 random bytes or more: a serial number that is never drawn again. -/
abbrev Token := ℕ

/-! ### Records -/

/-- `z.string().min(1).max(max)` -/
structure Text (max : ℕ) where
  value : String
  bounded : 1 ≤ utf16Length value ∧ utf16Length value ≤ max

def Text.parse (max : ℕ) (value : String) : Option (Text max) :=
  if h : 1 ≤ utf16Length value ∧ utf16Length value ≤ max then some ⟨value, h⟩ else none

/-- The safe configuration: whose tokens the connection uses. -/
structure Configuration where
  tenantId : String
  clientId : String
  deriving DecidableEq

/-- What of the connection's definition in Git can change. -/
structure ConnectionFile where
  name : String
  configuration : Configuration

/-- `ctx_` and 32 random bytes, with the configuration it was drawn for. -/
structure ContextId where
  serial : Token
  configuration : Configuration
  deriving DecidableEq

/-- `WorkIqPrivateBundle` -/
structure Bundle where
  clientSecret : Text 8192
  refreshToken : Option (Text 16384)
  authorizationContextId : Option ContextId
  connectedAt : Option Time
  delegated : refreshToken.isSome = authorizationContextId.isSome

/-- `createWorkIqPrivateBundle`, which is also what a disconnect leaves -/
def createWorkIqPrivateBundle (clientSecret : Text 8192) : Bundle := ⟨clientSecret, none, none, none, rfl⟩

/-- `{...bundle, clientSecret}` -/
def Bundle.withClientSecret (bundle : Bundle) (clientSecret : Text 8192) : Bundle := { bundle with clientSecret }

/-- `{...bundle, refreshToken, authorizationContextId, connectedAt}` -/
def Bundle.connect (bundle : Bundle) (refreshToken : Text 16384) (contextId : ContextId) (now : Time) : Bundle :=
  ⟨bundle.clientSecret, some refreshToken, some contextId, some now, rfl⟩

/-- `{...bundle, refreshToken: token.replacementRefreshToken}`, of a bundle that has a refresh token -/
def Bundle.rotate (bundle : Bundle) (replacement : Text 16384) : Bundle :=
  if h : bundle.refreshToken.isSome then
    { bundle with refreshToken := some replacement, delegated := h.symm.trans bundle.delegated }
  else bundle

theorem Bundle.rotate_refreshToken {bundle : Bundle} (replacement : Text 16384) (h : bundle.refreshToken.isSome = true) :
    (bundle.rotate replacement).refreshToken = some replacement := by
  rw [Bundle.rotate, dif_pos h]

@[simp] theorem Bundle.rotate_authorizationContextId (bundle : Bundle) (replacement : Text 16384) :
    (bundle.rotate replacement).authorizationContextId = bundle.authorizationContextId := by
  unfold Bundle.rotate
  split <;> rfl

@[simp] theorem Bundle.rotate_clientSecret (bundle : Bundle) (replacement : Text 16384) :
    (bundle.rotate replacement).clientSecret = bundle.clientSecret := by
  unfold Bundle.rotate
  split <;> rfl

structure VaultRow where
  bundle : Bundle
  revision : ℕ

structure StateRow where
  stateHash : String
  repositoryRevision : String
  configuration : Configuration
  sessionHash : String
  verifierSecretRef : Token
  expiresAt : Time
  consumedAt : Option Time

/-- What of the descriptor of the connection depends on what changes; a run keeps it as a snapshot. -/
structure ConnectionDescriptor where
  configuration : Configuration
  authorizationContextId : Option ContextId
  enabled : Bool
  repositoryRevision : String

/-! ### Requests -/

inductive WorkIqError
  | connectionUnavailable | connectionRevisionConflict | delegatedAccountDisconnectRequired
  | repositoryUnavailable | repositoryMutationUncertain
  | oauthStateInvalid | oauthCallbackInvalid | oauthCallbackDenied | oauthBindingChanged
  | secretExists | secretUnavailable | persistenceFailed | databaseUnavailable | invalidBundle
  | providerTimeout | providerUnavailable | authenticationFailed | permissionDenied | rateLimited
  | configurationInvalid | malformedResponse

/-- The members of the payload that are strings. -/
structure TokenPayload where
  accessToken : Option String
  tokenType : Option String
  refreshToken : Option String

/-- What comes of a request to the token endpoint; a response has no payload where its body is no JSON object. -/
inductive TokenReply
  | threw (timedOut : Bool)
  | response (status : ℕ) (payload : Option TokenPayload)

/-- The routes that ask for access to the repository. -/
inductive Route
  | connect | callback | clientSecret | disconnect | update | launch | test
  deriving DecidableEq

inductive Request
  | authenticate (route : Route)
  | clock
  | getConnection
  | updateConnection (definition : ConnectionFile) (expectedRevision : String)
  | randomToken
  | newAuthorizationContextId (configuration : Configuration)
  | selectBundle
  | replaceBundle (revision : ℕ) (bundle : Bundle)
  | insertVerifier (secretId verifier : Token)
  | selectVerifier (secretId : Token)
  | deleteVerifier (secretId : Token)
  | insertState (row : StateRow)
  | selectState (stateHash : String)
  | consumeState (stateHash : String) (now : Time)
  | removeConsumed (stateHash : String)
  | selectExpired (now : Time)
  | removeExpired (stateHash : String) (now : Time)
  | exchangeCode (configuration : Configuration) (clientSecret code : String) (verifier : Token)
  | redeemToken (configuration : Configuration) (clientSecret refreshToken : String)
  | createRun (snapshot : ConnectionDescriptor)
  | readRun (run : ℕ)
  | execute (connection : ConnectionDescriptor) (credential : String)

@[reducible] def Answer : Request → Type
  | .authenticate _ => Option Token
  | .clock => Time
  | .getConnection => Except WorkIqError ConnectionFile
  | .randomToken => Token
  | .newAuthorizationContextId _ => ContextId
  | .selectBundle => Except WorkIqError VaultRow
  | .selectVerifier _ => Except WorkIqError (Option Token)
  | .selectState _ => Except WorkIqError (Option StateRow)
  | .selectExpired _ => Except WorkIqError (List StateRow)
  | .exchangeCode _ _ _ _ | .redeemToken _ _ _ => TokenReply
  | .readRun _ => Except WorkIqError (Option ConnectionDescriptor)
  | .execute _ _ => Unit
  | _ => Outcome

@[reducible] def signature : Signature := ⟨Request, Answer⟩

abbrev Service := Prog signature WorkIqError

structure World where
  file : ConnectionFile
  bundle : VaultRow
  /-- The rows of the vault for the PKCE verifiers. -/
  verifiers : Token → Option Token
  states : List StateRow
  /-- The next token to be drawn. -/
  drawn : Token
  runs : List ConnectionDescriptor

/-- What the statement of an action comes to: it is done; it fails before it takes effect; or its answer is lost. -/
inductive Fate
  | done | failed | lost
  deriving DecidableEq

/-- The hash of a token, and the SHA of a file in Git. -/
structure Platform where
  hash : Token → String
  collisionFree : Function.Injective hash
  sha : ConnectionFile → String

structure Env where
  now : Time
  session : Option Token
  fate : Fate
  reply : TokenReply

def oauthTtlMs : Time := 10 * 60 * 1000

def cleanupLimit : ℕ := 20

/-- A write, which touches `n` rows where `touched` is the world after it. -/
def commit (fate : Fate) (w : World) (touched : Option World) : Outcome × World :=
  match fate, touched with
  | .failed, _ => (.threw false, w)
  | .done, none => (.changes 0, w)
  | .done, some w' => (.changes 1, w')
  | .lost, none => (.threw false, w)
  | .lost, some w' => (.threw true, w')

/-- An `INSERT`, which a row with the same key refuses. -/
def insertion (fate : Fate) (w : World) (inserted : Option World) : Outcome × World :=
  match inserted with
  | none => (.threw false, w)
  | some _ => commit fate w inserted

def reading {α : Type} (fate : Fate) (error : WorkIqError) (a : α) : Except WorkIqError α :=
  if fate = .done then .ok a else .error error

/-- `expires_at <= ? OR (consumed_at IS NOT NULL AND consumed_at <= ?)` -/
def StateRow.expired (row : StateRow) (now : Time) : Bool :=
  row.expiresAt ≤ now || row.consumedAt.any (· + oauthTtlMs ≤ now)

/-- `consumed_at IS NULL AND expires_at > ?` -/
def StateRow.open (row : StateRow) (now : Time) : Bool := row.consumedAt.isNone && now < row.expiresAt

/-- The rows with another hash, or that are not `p`, stay. -/
def deleteStates (w : World) (stateHash : String) (p : StateRow → Bool) : Option World :=
  if w.states.any fun row => row.stateHash == stateHash && p row then
    some { w with states := w.states.filter fun row => !(row.stateHash == stateHash && p row) }
  else none

def consumeStates (w : World) (stateHash : String) (now : Time) : Option World :=
  if w.states.any fun row => row.stateHash == stateHash && row.open now then
    some { w with states := w.states.map fun row =>
      if row.stateHash == stateHash && row.open now then { row with consumedAt := some now } else row }
  else none

def answer (P : Platform) (env : Env) : (q : Request) → World → Answer q × World
  | .authenticate _, w => (env.session, w)
  | .clock, w => (env.now, w)
  | .getConnection, w => (reading env.fate .repositoryUnavailable w.file, w)
  | .updateConnection definition expectedRevision, w =>
    commit env.fate w (if P.sha w.file = expectedRevision then some { w with file := definition } else none)
  | .randomToken, w => (w.drawn, { w with drawn := w.drawn + 1 })
  | .newAuthorizationContextId configuration, w => (⟨w.drawn, configuration⟩, { w with drawn := w.drawn + 1 })
  | .selectBundle, w => (reading env.fate .secretUnavailable w.bundle, w)
  | .replaceBundle revision bundle, w =>
    commit env.fate w
      (if w.bundle.revision = revision then some { w with bundle := ⟨bundle, revision + 1⟩ } else none)
  | .insertVerifier secretId verifier, w =>
    insertion env.fate w (if (w.verifiers secretId).isNone then
      some { w with verifiers := Function.update w.verifiers secretId (some verifier) } else none)
  | .selectVerifier secretId, w => (reading env.fate .secretUnavailable (w.verifiers secretId), w)
  | .deleteVerifier secretId, w =>
    commit env.fate w (some { w with verifiers := Function.update w.verifiers secretId none })
  | .insertState row, w =>
    insertion env.fate w (if w.states.any (·.stateHash == row.stateHash) then none
      else some { w with states := w.states ++ [row] })
  | .selectState stateHash, w =>
    (reading env.fate .databaseUnavailable (w.states.find? (·.stateHash == stateHash)), w)
  | .consumeState stateHash now, w => commit env.fate w (consumeStates w stateHash now)
  | .removeConsumed stateHash, w => commit env.fate w (deleteStates w stateHash (·.consumedAt.isSome))
  | .selectExpired now, w =>
    (reading env.fate .databaseUnavailable
      (((w.states.filter (·.expired now)).insertionSort fun a b => a.expiresAt ≤ b.expiresAt).take cleanupLimit), w)
  | .removeExpired stateHash now, w => commit env.fate w (deleteStates w stateHash (·.expired now))
  | .exchangeCode _ _ _ _, w => (env.reply, w)
  | .redeemToken _ _ _, w => (env.reply, w)
  | .createRun snapshot, w => commit env.fate w (some { w with runs := w.runs ++ [snapshot] })
  | .readRun run, w => (reading env.fate .databaseUnavailable w.runs[run]?, w)
  | .execute _ _, w => ((), w)

@[reducible] def machine (P : Platform) : Machine signature := ⟨World, Env, answer P⟩

abbrev Services (P : Platform) := Pool (machine P) WorkIqError

@[simp] def request (q : Request) : Service (Answer q) := .ask q .done

def orThrow {α : Type} : Except WorkIqError α → Service α
  | .ok a => pure a
  | .error e => throw e

/-- A write that may change nothing. -/
def changedAny : Outcome → Service Unit := Outcome.any .databaseUnavailable

def finallyDo {α : Type} (p : Service α) (cleanup : Service Unit) : Service α := do
  let a ← tryCatch p fun e => do
    cleanup
    throw e
  cleanup
  return a

/-! ### `provider-credential-vault.ts` -/

def resolveWithRevision : Service VaultRow := do
  orThrow (← request .selectBundle)

/-- `changes(result) === 1` -/
def changedOne : Outcome → Service Bool
  | .changes n => pure (n == 1)
  | .threw _ => throw .databaseUnavailable

def replaceIfRevision (expectedRevision : ℕ) (bundle : Bundle) : Service Bool :=
  if expectedRevision < 1 || 2 ^ 53 - 1 < expectedRevision then throw .persistenceFailed
  else do changedOne (← request (.replaceBundle expectedRevision bundle))

/-- The insert threw: it says whether the secret is there. -/
def insertRefused (secretId : Token) : Service Token := do
  match ← orThrow (← request (.selectVerifier secretId)) with
  | some _ => throw .secretExists
  | none => throw .persistenceFailed

def create (verifier : Token) : Service Token := do
  let secretId ← request .randomToken
  match ← request (.insertVerifier secretId verifier) with
  | .changes _ => return secretId
  | .threw _ => insertRefused secretId

def resolve (secretId : Token) : Service Token := do
  match ← orThrow (← request (.selectVerifier secretId)) with
  | some verifier => return verifier
  | none => throw .secretUnavailable

def delete (secretId : Token) : Service Unit := do
  changedAny (← request (.deleteVerifier secretId))

/-! ### `work-iq-auth.ts` -/

def tokenHttpFailure (status : ℕ) : WorkIqError :=
  if status = 400 ∨ status = 401 then .authenticationFailed
  else if status = 403 then .permissionDenied
  else if status = 429 then .rateLimited
  else if 500 ≤ status then .providerUnavailable
  else .configurationInvalid

def isOk (status : ℕ) : Bool := 200 ≤ status && status ≤ 299

def nonEmpty (s : Option String) : Option String := s.filter (· ≠ "")

/-- The access token of a payload, if it is a bearer token. -/
def TokenPayload.bearer (payload : TokenPayload) : Except WorkIqError String :=
  match nonEmpty payload.accessToken with
  | some accessToken => if payload.tokenType = some "Bearer" then .ok accessToken else .error .malformedResponse
  | none => .error .malformedResponse

/-- The payload of a response that is `ok`. -/
def TokenReply.payload (failure : ℕ → WorkIqError) : TokenReply → Except WorkIqError TokenPayload
  | .threw timedOut => .error (if timedOut then .providerTimeout else .providerUnavailable)
  | .response status payload =>
    if !isOk status then .error (failure status)
    else match payload with
      | some payload => .ok payload
      | none => .error .malformedResponse

/-- What `redeemWorkIqRefreshToken` makes of the answer: the access token, and the refresh token that replaces the one
that was sent. -/
def redeemed (reply : TokenReply) : Except WorkIqError (String × Option String) := do
  let payload ← reply.payload tokenHttpFailure
  return (← payload.bearer, nonEmpty payload.refreshToken)

def redeemWorkIqRefreshToken (configuration : Configuration) (bundle : Bundle) : Service (String × Option String) :=
  match bundle.refreshToken, bundle.authorizationContextId with
  | some refreshToken, some _ => do
    orThrow (redeemed (← request (.redeemToken configuration bundle.clientSecret.value refreshToken.value)))
  | _, _ => throw .connectionUnavailable

/-- `resolveWithRevision`, any error of which is `connection_unavailable` -/
def resolveBundle : Service VaultRow :=
  tryCatch resolveWithRevision fun _ => throw .connectionUnavailable

/-- The bundle has a refresh token and the authorization context of the snapshot. -/
def sameAuthorization (snapshot : ConnectionDescriptor) (bundle : Bundle) : Bool :=
  bundle.refreshToken.isSome && bundle.authorizationContextId == snapshot.authorizationContextId

def assertWorkIqSnapshot (snapshot : ConnectionDescriptor) : Service Unit :=
  if snapshot.authorizationContextId.isSome then pure () else throw .connectionUnavailable

/-- The bundle in the vault, if it has the authorization of the snapshot. -/
def resolveAuthorized (snapshot : ConnectionDescriptor) : Service VaultRow := do
  let row ← resolveBundle
  if sameAuthorization snapshot row.bundle then return row else throw .connectionUnavailable

def resolveWorkIqSnapshotAuthorization (snapshot : ConnectionDescriptor) : Service ConnectionDescriptor := do
  assertWorkIqSnapshot snapshot
  let _ ← resolveAuthorized snapshot
  return { snapshot with enabled := true }

def assertWorkIqConfigurationMutable : Service Unit := do
  let row ← resolveBundle
  if row.bundle.refreshToken.isSome || row.bundle.authorizationContextId.isSome then
    throw .delegatedAccountDisconnectRequired

/-- The refresh token that replaces another one is stored, unless somebody else has written meanwhile. -/
def storeReplacement (first : VaultRow) : Option String → Service Unit
  | none => pure ()
  | some replacement =>
    match Text.parse 16384 replacement with
    | none => throw .invalidBundle
    | some replacement => do
      let _ ← replaceIfRevision first.revision (first.bundle.rotate replacement)

/-- The credential that the connection is used with. -/
def resolveWorkIqConnection (snapshot : ConnectionDescriptor) : Service String := do
  assertWorkIqSnapshot snapshot
  let first ← resolveAuthorized snapshot
  let (accessToken, replacement) ← redeemWorkIqRefreshToken snapshot.configuration first.bundle
  storeReplacement first replacement
  let _ ← resolveAuthorized snapshot
  return accessToken

/-! ### `work-iq-oauth.ts` -/

section States

variable (P : Platform)

def lookup (state session : Token) (now : Time) : Service StateRow := do
  match ← orThrow (← request (.selectState (P.hash state))) with
  | none => throw .oauthStateInvalid
  | some row => if row.open now && row.sessionHash == P.hash session then return row else throw .oauthStateInvalid

def consume (state session : Token) : Service StateRow := do
  let now ← request .clock
  let row ← lookup P state session now
  if ← changedOne (← request (.consumeState (P.hash state) now)) then return row else throw .oauthStateInvalid

def removeConsumed (state : Token) : Service Unit := do
  changedAny (← request (.removeConsumed (P.hash state)))

def cleanupRows (now : Time) : List StateRow → Service Unit
  | [] => pure ()
  | row :: rows => do
    delete row.verifierSecretRef
    changedAny (← request (.removeExpired row.stateHash now))
    cleanupRows now rows

def cleanup (now : Time) : Service Unit := do
  cleanupRows now (← orThrow (← request (.selectExpired now)))

def discard (state session : Token) : Service Unit := do
  let row ← consume P state session
  delete row.verifierSecretRef
  removeConsumed P state

/-- The state is what the URL carries that the browser is sent to. -/
def beginWorkIqOAuth (file : ConnectionFile) (session : Token) : Service Token := do
  let now ← request .clock
  cleanup now
  let state ← request .randomToken
  let verifier ← request .randomToken
  let verifierSecretRef ← create verifier
  tryCatch
    (do changedAny (← request (.insertState
      { stateHash := P.hash state, repositoryRevision := P.sha file, configuration := file.configuration
        sessionHash := P.hash session, verifierSecretRef, expiresAt := now + oauthTtlMs, consumedAt := none })))
    fun e => do
      delete verifierSecretRef
      throw e
  return state

def exchangeFailure (status : ℕ) : WorkIqError :=
  if status = 403 then .permissionDenied
  else if status = 429 then .rateLimited
  else if 500 ≤ status then .providerUnavailable
  else .authenticationFailed

/-- The refresh token of the answer to an authorization code. -/
def exchanged (reply : TokenReply) : Except WorkIqError String := do
  let payload ← reply.payload exchangeFailure
  let _ ← payload.bearer
  match nonEmpty payload.refreshToken with
  | some refreshToken => return refreshToken
  | none => .error .malformedResponse

/-- The verifier of a state that was consumed, which is not needed any more. -/
def takeVerifier (row : StateRow) (file : ConnectionFile) : Service Token :=
  finallyDo
    (if row.repositoryRevision = P.sha file ∧ row.configuration = file.configuration then
      resolve row.verifierSecretRef
    else throw .oauthBindingChanged)
    (delete row.verifierSecretRef)

/-- The new authorization is stored, unless somebody has written since the bundle was read. -/
def storeAuthorization (current : VaultRow) (refreshToken : String) (contextId : ContextId) (now : Time) :
    Service Unit :=
  match Text.parse 16384 refreshToken with
  | none => throw .invalidBundle
  | some refreshToken => do
    if ← replaceIfRevision current.revision (current.bundle.connect refreshToken contextId now) then return
    else throw .connectionRevisionConflict

def authorize (row : StateRow) (code : String) (verifier : Token) : Service Unit := do
  let current ← resolveWithRevision
  let refreshToken ← orThrow (exchanged
    (← request (.exchangeCode row.configuration current.bundle.clientSecret.value code verifier)))
  let contextId ← request (.newAuthorizationContextId row.configuration)
  let now ← request .clock
  storeAuthorization current refreshToken contextId now

def completeWorkIqOAuth (state : Token) (code : String) (session : Token) (file : ConnectionFile) :
    Service Unit := do
  cleanup (← request .clock)
  let row ← consume P state session
  let verifier ← takeVerifier P row file
  finallyDo (authorize row code verifier) (removeConsumed P state)

/-! ### Routes -/

def getConnection : Service ConnectionFile := do
  orThrow (← request .getConnection)

/-- What a route does for a session that has access. -/
def authenticated (route : Route) (handler : Token → Service Unit) : Service Unit := do
  match ← request (.authenticate route) with
  | none => return
  | some session => handler session

def connect : Service Unit :=
  authenticated .connect fun session => do
    let file ← getConnection
    (beginWorkIqOAuth P file session).forget

/-- The callback of a state, with the code, if there is one. -/
def redirected (state : Token) (code : Option String) (session : Token) : Service Unit :=
  match code with
  | none => do
    discard P state session
    throw .oauthCallbackDenied
  | some code => do
    let file ← getConnection
    completeWorkIqOAuth P state code session file

/-- `code` is what a redirect without an error has, and is not empty. -/
def callback (state : Option Token) (code : Option String) : Service Unit :=
  authenticated .callback fun session =>
    match state with
    | none => throw .oauthCallbackInvalid
    | some state => do
      let now ← request .clock
      let _ ← lookup P state session now
      redirected P state code session

/-- A write that somebody else's write refuses. -/
def orConflict : Bool → Service Unit
  | true => pure ()
  | false => throw .connectionRevisionConflict

def changeClientSecret (clientSecret : Text 8192) (repositoryRevision : String) : Service Unit :=
  authenticated .clientSecret fun _ => do
    let file ← getConnection
    if repositoryRevision ≠ P.sha file then
      throw .connectionRevisionConflict
    else
      let current ← resolveWithRevision
      orConflict (← replaceIfRevision current.revision (current.bundle.withClientSecret clientSecret))

def disconnect : Service Unit :=
  authenticated .disconnect fun _ => do
    let _ ← getConnection
    let current ← resolveWithRevision
    orConflict (← replaceIfRevision current.revision (createWorkIqPrivateBundle current.bundle.clientSecret))

/-- The answer of Git to an update. -/
def committed : Outcome → Service Unit
  | .changes n => orConflict (n == 1)
  | .threw _ => throw .repositoryMutationUncertain

/-- The configuration can change only while no account is connected. -/
def assertConfigurable (file definition : ConnectionFile) : Service Unit :=
  if definition.configuration ≠ file.configuration then assertWorkIqConfigurationMutable else pure ()

/-- The definition that an update asks for; it keeps the configuration if none is given. -/
def definitionOf (file : ConnectionFile) (name : String) (configuration : Option Configuration) : ConnectionFile :=
  ⟨name, configuration.getD file.configuration⟩

def update (name : String) (configuration : Option Configuration) (repositoryRevision : Option String) :
    Service Unit :=
  authenticated .update fun _ => do
    let file ← getConnection
    if repositoryRevision ≠ some (P.sha file) then
      throw .connectionRevisionConflict
    else
      assertConfigurable file (definitionOf file name configuration)
      committed (← request (.updateConnection (definitionOf file name configuration) (P.sha file)))

/-- `delegatedDescriptor`, of the bundle that was read -/
def describe (file : ConnectionFile) (bundle : Bundle) : ConnectionDescriptor where
  configuration := file.configuration
  authorizationContextId := bundle.authorizationContextId
  enabled := bundle.refreshToken.isSome && bundle.authorizationContextId.isSome
  repositoryRevision := P.sha file

def delegatedDescriptor (file : ConnectionFile) : Service ConnectionDescriptor := do
  return describe P file (← resolveWithRevision).bundle

/-- The descriptor of a connection that is ready. -/
def readyDescriptor (file : ConnectionFile) : Service ConnectionDescriptor := do
  let descriptor ← delegatedDescriptor P file
  if descriptor.enabled then return descriptor else throw .connectionUnavailable

/-- The launch of a run with a node that uses the connection. -/
def launch : Service Unit :=
  authenticated .launch fun _ => do
    let file ← getConnection
    let descriptor ← readyDescriptor P file
    let snapshot ← resolveWorkIqSnapshotAuthorization descriptor
    changedAny (← request (.createRun snapshot))

/-- A node of the run uses the connection. -/
def executeRun (run : ℕ) : Service Unit := do
  match ← orThrow (← request (.readRun run)) with
  | none => throw .connectionUnavailable
  | some snapshot =>
    let credential ← resolveWorkIqConnection snapshot
    request (.execute snapshot credential)

/-- `resolveForExecution` without a snapshot: the connection is tested. -/
def test : Service Unit :=
  authenticated .test fun _ => do
    let file ← getConnection
    let descriptor ← readyDescriptor P file
    let credential ← resolveWorkIqConnection descriptor
    request (.execute descriptor credential)

end States

inductive Client
  | connect
  | callback (state : Option Token) (code : Option String)
  | changeClientSecret (clientSecret : Text 8192) (repositoryRevision : String)
  | disconnect
  | update (name : String) (configuration : Option Configuration) (repositoryRevision : Option String)
  | launch
  | executeRun (run : ℕ)
  | test

def Client.service (P : Platform) : Client → Service Unit
  | .connect => WorkIq.connect P
  | .callback state code => WorkIq.callback P state code
  | .changeClientSecret clientSecret repositoryRevision => WorkIq.changeClientSecret P clientSecret repositoryRevision
  | .disconnect => WorkIq.disconnect
  | .update name configuration repositoryRevision => WorkIq.update P name configuration repositoryRevision
  | .launch => WorkIq.launch P
  | .executeRun run => WorkIq.executeRun run
  | .test => WorkIq.test P

abbrev Move (P : Platform) := Interleave.Move (machine P) (Client.service P)

/-- A connection that was created with its client secret. -/
def World.created (file : ConnectionFile) (clientSecret : Text 8192) : World where
  file
  bundle := ⟨createWorkIqPrivateBundle clientSecret, 1⟩
  verifiers _ := none
  states := []
  drawn := 0
  runs := []

/-- The clients under way and what they did, after the moves. -/
abbrev after (P : Platform) (w : World) (moves : List (Move P)) : Services P :=
  (Pool.init (M := machine P) w).run (moves.map Move.action)

end ADT.WorkIq
