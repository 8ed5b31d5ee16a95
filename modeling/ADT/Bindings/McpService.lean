import ADT.Bindings.Vault

/-!
# Bindings.McpService — `lib/mcp-tool-service.ts`

An MCP server is a file in Git, a secret and a row in `mcp_server_credentials`.  Each operation reads the file, makes
the secret and the row agree with it, writes Git, then the row, and compensates what it wrote when the row fails.
-/

namespace ADT.Bindings

open Faults Run
open Provider (Platform bounded)

/-- The calls of an operation on a server or a profile: on Git, on the secrets and on the bindings, forward and in its compensation. -/
inductive Site where
  | read
  | ensure
  | observe
  | secret
  | git
  | binding
  | replace
  | bindingBack
  | gitBack
  | retireCandidate
  | retireOld
  deriving DecidableEq

abbrev Fates := Site → Fate

abbrev Op (P : Platform) (α : Type) := Run Site (World P) Failure α

variable {P : Platform} (sha : FileSha P)

/-! ### `GitHubToolDefinitionRepository` -/

def repoGet (key : Key) (w : World P) : Except Failure (Option (McpServerDefinition P)) × World P :=
  (.ok (w.servers key), w)

def repoCreate (repositoryId : RepositoryId) (draft : McpServerDraft) (w : World P) :
    Except Failure (McpServerDefinition P) × World P :=
  match w.servers (repositoryId, draft.id), mcpServerDefinitionSchema draft with
  | some _, _ => (.error .conflict, w)
  | none, none => (.error .invalid, w)
  | none, some d => (.ok d, w.storeServer (repositoryId, draft.id) (some d))

def repoUpdate (repositoryId : RepositoryId) (draft : McpServerDraft) (fileSha : String) (w : World P) :
    Except Failure (McpServerDefinition P) × World P :=
  match w.servers (repositoryId, draft.id), mcpServerDefinitionSchema draft with
  | none, _ => (.error .notFound, w)
  | some old, d =>
    if sha.server old ≠ fileSha then (.error .conflict, w)
    else match d with
      | none => (.error .invalid, w)
      | some d => (.ok d, w.storeServer (repositoryId, draft.id) (some d))

def repoDelete (key : Key) (fileSha : String) (w : World P) : Except Failure Unit × World P :=
  match w.servers key with
  | none => (.error .notFound, w)
  | some old => if sha.server old ≠ fileSha then (.error .conflict, w) else (.ok (), w.storeServer key none)

/-! ### The operations -/

inductive AuthenticationMode where
  | none
  | bearer

/-- `mcpServerInputSchema`. -/
structure McpServerInput where
  id : String
  name : String
  endpointUrl : String
  authenticationMode : AuthenticationMode
  bearerToken : Option String
  short : bearerToken.all (utf16Length · ≤ 8192) = true

/-- `input.bearerToken?.trim()`, where it is not empty. -/
def McpServerInput.token (input : McpServerInput) : Option String :=
  input.bearerToken.filter fun token => trim token ≠ ""

def cleanupSecret (site : Site) : Option SecretId → Op P Unit
  | some s => ignore (call site .unavailable (delete s))
  | none => pure ()

/-- The secret of a new bearer server. -/
def createSecret (key : Key) (token : Option String) : Op P SecretId :=
  match token with
  | some token => call .secret .unavailable (create (.server key) token)
  | none => throw .credentialRequired

def newAuthentication (key : Key) (input : McpServerInput) : Op P Authentication :=
  match input.authenticationMode with
  | .bearer => do
    let ref ← createSecret key input.token
    return .bearer ref
  | .none => return .none

def Authentication.secret : Authentication → Option SecretId
  | bearer s => some s
  | none => Option.none

/-- Git, then the binding of the new server. -/
def establish (repositoryId : RepositoryId) (input : McpServerInput) (d : McpServerDefinition P) :
    Op P (McpServerDefinition P) := do
  let created ← tryCatch (call .git .unavailable (repoCreate repositoryId d.draft)) fun error => do
    cleanupSecret .retireCandidate d.authentication.secret
    throw error
  match d.authentication with
  | .none => return created
  | .bearer ref =>
    tryCatch (do
      let _ ← call .binding .unavailable (ensureMcpServerCredentialBinding (repositoryId, input.id) input.endpointUrl ref)
      return created) fun error => do
        -- the binding id is known only where the call succeeded, so there is none to revoke
        ignore (call .gitBack .unavailable (repoDelete sha (repositoryId, input.id) (sha.server created)))
        cleanupSecret .retireCandidate (some ref)
        throw error

def createMcpServer (repositoryId : RepositoryId) (input : McpServerInput) : Op P (McpServerDefinition P) := do
  let authentication ← newAuthentication (repositoryId, input.id) input
  match mcpServerDefinitionSchema ⟨input.id, input.name, input.endpointUrl, authentication⟩ with
  | none => throw .invalid
  | some d => establish sha repositoryId input d

/-- The secret and the binding id of a bearer server. -/
abbrev Authority := SecretId × BindingId

def currentAuthority (key : Key) (old : McpServerDefinition P) : Op P (Option Authority) :=
  match old.authentication with
  | .none => pure none
  | .bearer s => do
    let b ← call .ensure .unavailable (ensureMcpServerCredentialBinding key old.endpointUrl s)
    return some (s, b)

/-- The authentication an update asks for, and the secret created for it. -/
def nextAuthentication (key : Key) (old : Option Authority) (input : McpServerInput) :
    Op P (Authentication × Option SecretId) :=
  match input.authenticationMode, old, input.token with
  | .none, _, _ => pure (.none, none)
  | .bearer, some (s, _), none => pure (.bearer s, none)
  | .bearer, _, token => do
    let candidate ← createSecret key token
    return (.bearer candidate, some candidate)

/-- The secret an update leaves behind. -/
def obsolete (old : Option Authority) (next : Authentication) : Option SecretId :=
  if old.map Prod.fst = next.secret then none else old.map Prod.fst

/-- The call that makes the binding agree with the file in Git. -/
def moveBinding (key : Key) (old : Option Authority) (oldEndpoint newEndpoint : String) (next : Authentication) :
    Op P Unit :=
  match old, next with
  | some (s, b), .bearer s' =>
    if oldEndpoint ≠ newEndpoint then do
      let _ ← call .binding .unavailable (replaceMcpServerCredentialBinding key b oldEndpoint newEndpoint s')
    else if s' ≠ s then call .binding .unavailable (rotateMcpServerCredential key b newEndpoint s' s)
    else pure ()
  | some (_, b), .none => call .binding .unavailable (revokeMcpServerCredentialBinding key b)
  | none, .bearer s' => do
    let _ ← call .binding .unavailable (ensureMcpServerCredentialBinding key newEndpoint s')
  | none, .none => pure ()

/-- Put the binding of a bearer server back. -/
def restoreAuthority (key : Key) (old : Option Authority) (endpoint : String) : Op P Bool :=
  match old with
  | some (s, b) => attempt (call .bindingBack .unavailable (restoreMcpServerCredentialBinding key b endpoint s))
  -- a binding that was to be created is unknown where its call failed
  | none => pure true

/-- The secrets that an incomplete compensation retires. -/
def retire (authorityRestored gitRestored : Bool) (candidate old : Option SecretId) : Op P Unit :=
  if !authorityRestored || !gitRestored then do
    cleanupSecret .retireCandidate candidate
    if !gitRestored then cleanupSecret .retireOld old else pure ()
  else cleanupSecret .retireCandidate candidate

/-- The compensation of an update whose binding failed. -/
def compensate (repositoryId : RepositoryId) (old saved : McpServerDefinition P) (authority : Option Authority)
    (candidate : Option SecretId) : Op P Unit := do
  let authorityRestored ← restoreAuthority (repositoryId, old.id) authority old.endpointUrl
  let gitRestored ← attempt (call .gitBack .unavailable (repoUpdate sha repositoryId old.draft (sha.server saved)))
  retire authorityRestored gitRestored candidate (authority.map Prod.fst)

/-- Git, the binding, and the secret that is left behind. -/
def commitUpdate (repositoryId : RepositoryId) (input : McpServerInput) (fileSha : String) (old : McpServerDefinition P)
    (authority : Option Authority) (authentication : Authentication) (candidate : Option SecretId) :
    Op P (McpServerDefinition P) := do
  let saved ← tryCatch (call .git .unavailable
      (repoUpdate sha repositoryId ⟨old.id, input.name, input.endpointUrl, authentication⟩ fileSha)) fun error => do
    cleanupSecret .retireCandidate candidate
    throw error
  tryCatch (moveBinding (repositoryId, old.id) authority old.endpointUrl input.endpointUrl authentication)
    fun error => do
      compensate sha repositoryId old saved authority candidate
      throw error
  cleanupSecret .retireOld (obsolete authority authentication)
  return saved

def updateMcpServer (repositoryId : RepositoryId) (input : McpServerInput) (fileSha : String) :
    Op P (McpServerDefinition P) := do
  match ← call .read .unavailable (repoGet (repositoryId, input.id)) with
  | none => throw .notFound
  | some old =>
    let authority ← currentAuthority (repositoryId, input.id) old
    let next ← nextAuthentication (repositoryId, input.id) authority input
    commitUpdate sha repositoryId input fileSha old authority next.1 next.2

/-- The compensation of a deletion whose binding could not be revoked. -/
def undelete (repositoryId : RepositoryId) (old : McpServerDefinition P) (s : SecretId) (b : BindingId) : Op P Unit := do
  let authorityRestored ← attempt
    (call .bindingBack .unavailable (restoreMcpServerCredentialBinding (repositoryId, old.id) b old.endpointUrl s))
  let gitRestored ← attempt (call .gitBack .unavailable (repoCreate repositoryId old.draft))
  if !authorityRestored || !gitRestored then
    cleanupSecret .retireOld (some s)

def deleteMcpServer (repositoryId : RepositoryId) (id fileSha : String) : Op P Unit := do
  match ← call .read .unavailable (repoGet (repositoryId, id)) with
  | none => throw .notFound
  | some old =>
    let authority ← currentAuthority (repositoryId, id) old
    call .git .unavailable (repoDelete sha (repositoryId, id) fileSha)
    match authority with
    | none => return
    | some (s, b) =>
      tryCatch (call .binding .unavailable (revokeMcpServerCredentialBinding (repositoryId, id) b)) fun error => do
        undelete repositoryId old s b
        throw error
      cleanupSecret .retireOld (some s)

end ADT.Bindings
