import ADT.Lib.Clients
import ADT.Lib.Statement
import Mathlib.Data.Int.Basic

/-!
# Session.Access — signing in, repository access and signing out

One session of `auth_sessions` and everything that reads and writes it: `exchangeGitHubCode`, `createSession`,
`resolveRepositoryAccess` and `destroySession` of `lib/auth.ts`, with the statements of `lib/auth-session-store.ts` and
the verification of `lib/repository-authorization.ts`.
-/

namespace ADT.Session

open Interleave

abbrev Time := ℕ

/-! ### Records -/

inductive DenialReason
  | configuration | allowlist | appAccess | userAccess | temporaryUnavailable
  deriving DecidableEq

inductive AuthorizationState
  | authorized | denied
  deriving DecidableEq

structure GitHubAppConfig where
  owner : String
  repo : String
  allowedLogins : List String

structure GitHubUser where
  id : ℤ
  login : String

/-- The columns of a row that an authorization is kept in; an id is `none` where it is no integer. -/
structure AuthorizationColumns where
  state : AuthorizationState
  denialReason : Option DenialReason
  owner : String
  repo : String
  repositoryId : Option ℤ
  installationId : Option ℤ
  checkedAt : Time

structure TokenColumns where
  encryptedUserAccessToken : Option String
  userAccessTokenExpiresAt : Option Time
  tokenIv : Option String

structure SessionRow where
  githubId : ℤ
  login : String
  expiresAt : Time
  revokedAt : Option Time
  authorization : AuthorizationColumns
  tokens : TokenColumns

structure RepositoryAuthorization extends AuthorizationColumns where
  login : String
  githubId : ℤ

structure SessionRecord where
  githubId : ℤ
  login : String
  expiresAt : Time
  repositoryAuthorization : RepositoryAuthorization
  tokens : TokenColumns

structure RepositoryAccessContext where
  owner : String
  repo : String
  login : String
  githubId : ℤ
  repositoryId : Option ℤ
  installationId : Option ℤ
  checkedAt : Time

inductive RepositoryAuthorizationStatus
  | ok (context : RepositoryAccessContext)
  | denied (reason : DenialReason)

def sessionTtlMs : Time := 8 * 60 * 60 * 1000

def authorizationFreshnessMs : Time := 7 * 60 * 1000

/-! ### Requests -/

structure GitHubRepository where
  id : Option ℤ
  name : String
  ownerLogin : String

/-- What GitHub answers; `unusable` where the body is no JSON or lacks what is read of it. -/
inductive Reply (α : Type)
  | value (a : α)
  | refused (status : ℕ)
  | unusable

inductive Request
  | clock
  /-- `Date.now()` and the configuration, which are read at once. -/
  | configuration
  | selectSession
  | insertSession (row : SessionRow)
  | updateAuthorization (authorization : AuthorizationColumns) (tokens : TokenColumns)
  | revoke (now : Time)
  | encrypt (token : String)
  | decrypt (ciphertext iv : String)
  | exchange
  | getUser (token : String)
  | getConfiguredRepository (config : GitHubAppConfig) (token : String)
  | createGitHubAppJwt
  | getRepositoryInstallation (config : GitHubAppConfig)
  /-- The handler of the request goes on with the access it was granted. -/
  | proceed (access : RepositoryAccessContext)

inductive AuthError
  | configuration | oauthFlowFailed | databaseUnavailable | activeSessionUpdateFailed | unexpected

@[reducible] def Answer : Request → Type
  | .clock => Time
  | .configuration => Time × Option GitHubAppConfig
  | .selectSession => Except AuthError (Option SessionRow)
  | .insertSession _ | .updateAuthorization _ _ | .revoke _ => Outcome
  | .encrypt _ => Option (String × String)
  | .decrypt _ _ => Option String
  | .exchange => Option (String × Option ℕ)
  | .getUser _ => Option GitHubUser
  | .getConfiguredRepository _ _ => Reply GitHubRepository
  | .createGitHubAppJwt => Except AuthError Unit
  | .getRepositoryInstallation _ => Reply (Option ℤ)
  | .proceed _ => Unit

@[reducible] def signature : Signature := ⟨Request, Answer⟩

abbrev Service := Prog signature AuthError

/-- AES-GCM, whose texts open to nothing but what was sealed, and the lower case of the platform. -/
structure Platform where
  Key : Type
  encrypt : Key → String → String → String
  decrypt : Key → String → String → Option String
  authentic : ∀ key iv text key' iv' text', decrypt key' iv' (encrypt key iv text) = some text' → text' = text
  toLowerCase : String → String

/-- What becomes of a statement: it is run, or fails before it is run, or its answer is lost. -/
inductive Fate
  | done | failed | lost
  deriving DecidableEq

/-- What the outside answers. -/
structure Env (P : Platform) where
  now : Time
  config : Option GitHubAppConfig
  fate : Fate
  key : P.Key
  iv : String
  exchange : Option (String × Option ℕ)
  user : String → Option GitHubUser
  repository : GitHubAppConfig → String → Reply GitHubRepository
  appJwt : Except AuthError Unit
  installation : GitHubAppConfig → Reply (Option ℤ)

/-- A statement on the row of the session, which takes effect on the rows of `w` only. -/
def execute (fate : Fate) (w : Option SessionRow) (touched : Option SessionRow) : Outcome × Option SessionRow :=
  match fate, touched with
  | .failed, _ => (.threw false, w)
  | .done, none => (.changes 0, w)
  | .done, some row => (.changes 1, some row)
  | .lost, none => (.threw false, w)
  | .lost, some row => (.threw true, some row)

/-- `WHERE id = ? AND revoked_at IS NULL` -/
def unrevoked (w : Option SessionRow) : Option SessionRow := w.filter (·.revokedAt.isNone)

def answer {P : Platform} (env : Env P) : (q : Request) → Option SessionRow → Answer q × Option SessionRow
  | .clock, w => (env.now, w)
  | .configuration, w => ((env.now, env.config), w)
  | .selectSession, w => (if env.fate = .done then .ok w else .error .databaseUnavailable, w)
  | .insertSession row, w => execute env.fate w (if w.isNone then some row else none)
  | .updateAuthorization authorization tokens, w =>
    execute env.fate w ((unrevoked w).map fun row => { row with authorization, tokens })
  | .revoke now, w => execute env.fate w ((unrevoked w).map fun row => { row with revokedAt := some now })
  | .encrypt token, w => (some (P.encrypt env.key env.iv token, env.iv), w)
  | .decrypt ciphertext iv, w => (P.decrypt env.key iv ciphertext, w)
  | .exchange, w => (env.exchange, w)
  | .getUser token, w => (env.user token, w)
  | .getConfiguredRepository config token, w => (env.repository config token, w)
  | .createGitHubAppJwt, w => (env.appJwt, w)
  | .getRepositoryInstallation config, w => (env.installation config, w)
  | .proceed _, w => ((), w)

@[reducible] def machine (P : Platform) : Machine signature := ⟨Option SessionRow, Env P, answer⟩

abbrev Services (P : Platform) := Pool (machine P) AuthError

@[simp] def request (q : Request) : Service (Answer q) := .ask q .done

/-! ### `auth-session-store.ts` -/

def isSafeInteger (n : ℤ) : Bool := decide (n.natAbs ≤ 2 ^ 53 - 1)

/-- `parseSession`, of what a row can hold -/
def parseSession (session : SessionRecord) (now : Time) : Option SessionRecord :=
  let authorization := session.repositoryAuthorization
  if isSafeInteger session.githubId && session.login ≠ "" && now < session.expiresAt && authorization.owner ≠ "" &&
      authorization.repo ≠ "" && authorization.login ≠ "" && isSafeInteger authorization.githubId then some session
  else none

def rowToSession (row : SessionRow) (now : Time) : Option SessionRecord :=
  parseSession
    { githubId := row.githubId, login := row.login, expiresAt := row.expiresAt, tokens := row.tokens,
      repositoryAuthorization := { row.authorization with login := row.login, githubId := row.githubId } } now

/-- `findSession`, of the row that was read -/
def foundSession (now : Time) : Option SessionRow → Option SessionRecord
  | none => none
  | some row => if row.revokedAt.isSome || row.expiresAt ≤ now then none else rowToSession row now

def orThrow {α : Type} : Except AuthError α → Service α
  | .ok a => pure a
  | .error e => throw e

def findSession : Service (Option SessionRecord) := do
  let now ← request .clock
  return foundSession now (← orThrow (← request .selectSession))

/-- A statement that must change one row. -/
def changedOne : Outcome → Service Unit
  | .changes 1 => pure ()
  | .changes _ => throw .activeSessionUpdateFailed
  | .threw _ => throw .databaseUnavailable

def updateSessionAuthorization (session : SessionRecord) : Service Unit := do
  changedOne (← request (.updateAuthorization session.repositoryAuthorization.toAuthorizationColumns session.tokens))

/-- A statement that may change none. -/
def changedAny : Outcome → Service Unit := Outcome.any .databaseUnavailable

def revokeSession : Service Unit := do
  let now ← request .clock
  changedAny (← request (.revoke now))

/-! ### `repository-authorization.ts` -/

def authorizationRequiresRevalidation (authorization : RepositoryAuthorization) (now : Time) : Bool :=
  authorization.denialReason = some .temporaryUnavailable || authorizationFreshnessMs ≤ now - authorization.checkedAt

def shouldRetainUserToken : RepositoryAuthorizationStatus → Bool
  | .ok _ => true
  | .denied reason => reason = .temporaryUnavailable

/-- `classify`, by the status of an answer -/
def classify : Option ℕ → DenialReason
  | none => .temporaryUnavailable
  | some status =>
    if status = 401 ∨ status = 403 ∨ status = 404 then .appAccess
    else if status = 429 ∨ 500 ≤ status ∨ status = 0 then .temporaryUnavailable
    else .configuration

def Reply.status {α : Type} : Reply α → Option ℕ
  | .refused status => some status
  | _ => none

/-- The denial of a repository that was not answered. -/
def repositoryDenial (reply : Reply GitHubRepository) : DenialReason :=
  if reply.status = some 401 ∨ reply.status = some 403 ∨ reply.status = some 404 then .userAccess
  else classify reply.status

section Verification

variable (lower : String → String)

/-- The answer names the configured repository. -/
def sameRepository (config : GitHubAppConfig) (owner repo : String) : Bool :=
  lower owner == lower config.owner && lower repo == lower config.repo

def allowed (config : GitHubAppConfig) (login : String) : Bool :=
  config.allowedLogins.isEmpty || config.allowedLogins.contains (lower login)

/-- The App's token is signed, and the installation asked for. -/
def verifyInstallation (user : GitHubUser) (config : GitHubAppConfig) (now : Time) (repositoryId : Option ℤ) :
    Service RepositoryAuthorizationStatus := do
  match ← request .createGitHubAppJwt with
  | .error .configuration => throw .configuration
  | .error _ => return .denied (classify none)
  | .ok () =>
    match ← request (.getRepositoryInstallation config) with
    | .value installationId =>
      return .ok ⟨config.owner, config.repo, user.login, user.id, repositoryId, installationId, now⟩
    | reply => return .denied (classify reply.status)

def verifyRepositoryAuthorization (user : GitHubUser) (userAccessToken : String) (config : GitHubAppConfig)
    (now : Time) : Service RepositoryAuthorizationStatus := do
  if !allowed lower config user.login then
    return .denied .allowlist
  else
    match ← request (.getConfiguredRepository config userAccessToken) with
    | .value repo =>
      if !sameRepository lower config repo.ownerLogin repo.name then
        return .denied .userAccess
      else
        verifyInstallation user config now repo.id
    | reply => return .denied (repositoryDenial reply)

def storedAuthorizationMatchesConfig (session : SessionRecord) (config : GitHubAppConfig) : Bool :=
  let authorization := session.repositoryAuthorization
  authorization.githubId == session.githubId && lower authorization.login == lower session.login &&
    sameRepository lower config authorization.owner authorization.repo

end Verification

def createRepositoryAuthorizationRecord (status : RepositoryAccessContext) (now : Time) : RepositoryAuthorization :=
  { state := .authorized, denialReason := none, owner := status.owner, repo := status.repo, login := status.login,
    githubId := status.githubId, repositoryId := status.repositoryId, installationId := status.installationId,
    checkedAt := now }

def createDeniedAuthorizationRecord (user : GitHubUser) (reason : DenialReason) (config : GitHubAppConfig)
    (now : Time) : RepositoryAuthorization :=
  { state := .denied, denialReason := some reason, owner := config.owner, repo := config.repo, login := user.login,
    githubId := user.id, repositoryId := none, installationId := none, checkedAt := now }

/-! ### `auth.ts` -/

def orConfigurationError {α : Type} : Option α → Service α
  | some a => pure a
  | none => throw .configuration

def orFlowFailed {α : Type} : Option α → Service α
  | some a => pure a
  | none => throw .oauthFlowFailed

structure Exchanged where
  user : GitHubUser
  repositoryAuthorization : RepositoryAuthorizationStatus
  userAccessToken : String
  userTokenExpiresAt : Time

def exchangeGitHubCode (lower : String → String) : Service Exchanged := do
  let (_, config) ← request .configuration
  let config ← orConfigurationError config
  let (token, expiresIn) ← orFlowFailed (← request .exchange)
  let userTokenExpiresAt := (← request .clock) + max 1 (expiresIn.getD 28800) * 1000
  let user ← orFlowFailed (← request (.getUser token))
  let now ← request .clock
  let status ← verifyRepositoryAuthorization lower user token config now
  return ⟨user, status, token, userTokenExpiresAt⟩

/-- The user's token is kept for as long as it may be needed again. -/
def tokenColumns (exchanged : Exchanged) : Service TokenColumns := do
  if shouldRetainUserToken exchanged.repositoryAuthorization then
    match ← request (.encrypt exchanged.userAccessToken) with
    | some (ciphertext, iv) => return ⟨some ciphertext, some exchanged.userTokenExpiresAt, some iv⟩
    | none => throw .unexpected
  else
    return ⟨none, none, none⟩

def initialAuthorization (exchanged : Exchanged) (config : GitHubAppConfig) (now : Time) : RepositoryAuthorization :=
  match exchanged.repositoryAuthorization with
  | .ok context => createRepositoryAuthorizationRecord context context.checkedAt
  | .denied reason => createDeniedAuthorizationRecord exchanged.user reason config now

def createSession (exchanged : Exchanged) : Service Unit := do
  let (_, config) ← request .configuration
  let config ← orConfigurationError config
  let tokens ← tokenColumns exchanged
  let now ← request .clock
  changedAny (← request (.insertSession
    { githubId := exchanged.user.id, login := exchanged.user.login, revokedAt := none, tokens
      expiresAt := min (now + sessionTtlMs) exchanged.userTokenExpiresAt
      authorization := (initialAuthorization exchanged config now).toAuthorizationColumns }))

def signIn (lower : String → String) : Service Unit := do
  createSession (← exchangeGitHubCode lower)

inductive Resolution
  | access (context : RepositoryAccessContext)
  | failure (reason : DenialReason)
  | reauthenticate

/-- The session with another authorization is written back, and the request goes on, or fails where it cannot be. -/
def persistAuthorization (session : SessionRecord) (authorization : RepositoryAuthorization) (result : Resolution) :
    Service Resolution :=
  tryCatch
    (do
      updateSessionAuthorization { session with repositoryAuthorization := authorization }
      return result)
    fun _ => return .failure .temporaryUnavailable

def reauthenticate : Service Resolution := do
  revokeSession
  return .reauthenticate

/-- The token a session can be verified again with: its ciphertext and the `iv`. -/
def usableToken (session : SessionRecord) (now : Time) : Option (String × String) :=
  match session.tokens with
  | ⟨some ciphertext, some expiresAt, some iv⟩ =>
    if ciphertext ≠ "" ∧ iv ≠ "" ∧ now < expiresAt then some (ciphertext, iv) else none
  | _ => none

def statusRecord (session : SessionRecord) (config : GitHubAppConfig) (now : Time) :
    RepositoryAuthorizationStatus → RepositoryAuthorization
  | .ok context => createRepositoryAuthorizationRecord context now
  | .denied reason => createDeniedAuthorizationRecord ⟨session.githubId, session.login⟩ reason config now

def statusResult : RepositoryAuthorizationStatus → Resolution
  | .ok context => .access context
  | .denied reason => .failure reason

/-- A stale authorization is verified again. -/
def revalidate (lower : String → String) (session : SessionRecord) (config : GitHubAppConfig) (now : Time) :
    Service Resolution :=
  match usableToken session now with
  | none => reauthenticate
  | some (ciphertext, iv) => do
    match ← request (.decrypt ciphertext iv) with
    | none => reauthenticate
    | some token =>
      let status ← verifyRepositoryAuthorization lower ⟨session.githubId, session.login⟩ token config now
      persistAuthorization session (statusRecord session config now status) (statusResult status)

/-- The authorization is one that can be granted as it is stored. -/
def storedUsable (authorization : RepositoryAuthorization) : Bool :=
  authorization.state = .authorized && authorization.repositoryId.any isSafeInteger &&
    authorization.installationId.any isSafeInteger

/-- The access a stored authorization gives. -/
def storedAccess (lower : String → String) (session : SessionRecord) : RepositoryAccessContext :=
  let authorization := session.repositoryAuthorization
  ⟨authorization.owner, authorization.repo, lower session.login, session.githubId, authorization.repositoryId,
    authorization.installationId, authorization.checkedAt⟩

def resolveRepositoryAccess (lower : String → String) (session : SessionRecord) : Service Resolution := do
  let (now, config) ← request .configuration
  let config ← orConfigurationError config
  let authorization := session.repositoryAuthorization
  if !storedAuthorizationMatchesConfig lower session config then
    persistAuthorization session
      (createDeniedAuthorizationRecord ⟨session.githubId, session.login⟩ .configuration config now)
      (.failure .configuration)
  else if authorizationRequiresRevalidation authorization now then
    revalidate lower session config now
  else if !storedUsable authorization then
    return .failure (authorization.denialReason.getD .configuration)
  else
    return .access (storedAccess lower session)

/-- `requireRepositoryAccess` and `requireApiRepositoryAccess`: what the handler does comes after the access. -/
def requireRepositoryAccess (lower : String → String) : Service Unit := do
  match ← findSession with
  | none => return
  | some session =>
    match ← resolveRepositoryAccess lower session with
    | .access context => request (.proceed context)
    | _ => return

inductive Client
  | signIn | access | signOut

def Client.service (P : Platform) : Client → Service Unit
  | .signIn => Session.signIn P.toLowerCase
  | .access => requireRepositoryAccess P.toLowerCase
  | .signOut => revokeSession

abbrev Move (P : Platform) := Interleave.Move (machine P) (Client.service P)

/-- The clients under way and what they did, after the moves, of a session that nobody has signed in to yet. -/
abbrev after {P : Platform} (moves : List (Move P)) : Services P :=
  (Pool.init (M := machine P) none).run (moves.map Move.action)

end ADT.Session
