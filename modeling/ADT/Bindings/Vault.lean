import ADT.Lib.Basics
import ADT.Lib.Faults
import ADT.Provider.Invocation

/-!
# Bindings.Vault — credentials bound to one trust target

The definitions of MCP servers and security profiles in Git, and the tables of `lib/provider-credential-vault.ts` that
hold their credentials: `provider_credential_vault`, and `mcp_server_credentials` and `security_profile_credentials`,
whose rows go with the secret they refer to (`ON DELETE CASCADE`).  A method of the vault for an MCP server writes at
most once, so it is one call here.
-/

namespace ADT.Bindings

open Provider (Platform bounded SecurityProfileDefinition)
open Workflow (definitionId matchDefinitionId)

/-- GitHub's number of a repository. -/
structure RepositoryId where
  value : ℕ
  positive : 1 ≤ value
  safe : value ≤ 2 ^ 53 - 1
  deriving DecidableEq

/-- A definition's place in Git: the repository and the id. -/
abbrev Key := RepositoryId × String

/-- Whose credential it is; the kind says which of the two binding tables has the row. -/
inductive Owner where
  | server (key : Key)
  | profile (key : Key)
  deriving DecidableEq

/-- `sec_` and 32 random bytes: a serial number that is never drawn again, with what the secret was created for. -/
structure SecretId where
  serial : ℕ
  owner : Owner
  deriving DecidableEq

/-- `mcpb_` or `spb_` and 32 random bytes, with what the binding was issued for. -/
structure BindingId where
  serial : ℕ
  owner : Owner
  trustTarget : String
  deriving DecidableEq

structure BindingRow where
  bindingId : BindingId
  trustTarget : String
  secretId : SecretId
  deriving DecidableEq

/-! ### Definitions -/

inductive Authentication where
  | none
  | bearer (credentialSecretRef : SecretId)
  deriving DecidableEq

section Definitions

variable (P : Platform)

def mcpTrustTarget (endpoint : String) : Option String :=
  (P.parseUrl endpoint).bind fun url => if url.protocol = "https:" then some (P.href url) else none

def securityTrustTarget (endpoint : String) : Option String :=
  (P.parseUrl endpoint).bind fun url =>
    if url.protocol ≠ "wss:" || url.username ≠ "" || url.password ≠ "" || url.search ≠ "" then none
    else some (P.href url.canonical)

/-- The value given to `mcpServerDefinitionSchema.parse`. -/
structure McpServerDraft where
  id : String
  name : String
  endpointUrl : String
  authentication : Authentication

/-- What `mcpServerDefinitionSchema` accepts. -/
@[ext] structure McpServerDefinition where
  id : String
  name : String
  endpointUrl : String
  authentication : Authentication
  identified : definitionId id = true
  named : bounded 120 name = true
  trimmed : trim name = name
  reachable : ∃ text, P.url text = some endpointUrl
  short : utf16Length endpointUrl ≤ 2048
  secure : (mcpTrustTarget P endpointUrl).isSome = true

variable {P}

def mcpServerDefinitionSchema (draft : McpServerDraft) : Option (McpServerDefinition P) :=
  match hurl : P.url draft.endpointUrl with
  | none => none
  | some endpointUrl =>
    if h : definitionId draft.id = true ∧ bounded 120 (trim draft.name) = true ∧ utf16Length endpointUrl ≤ 2048 ∧
        (mcpTrustTarget P endpointUrl).isSome = true then
      some
        { id := draft.id, name := trim draft.name, endpointUrl := endpointUrl, authentication := draft.authentication
          identified := h.1, named := h.2.1, trimmed := trim_trim draft.name, reachable := ⟨_, hurl⟩, short := h.2.2.1
          secure := h.2.2.2 }
    else none

def McpServerDefinition.draft (d : McpServerDefinition P) : McpServerDraft :=
  ⟨d.id, d.name, d.endpointUrl, d.authentication⟩

theorem mcpServerDefinitionSchema_some {draft : McpServerDraft} {d : McpServerDefinition P}
    (h : mcpServerDefinitionSchema draft = some d) :
    d.id = draft.id ∧ d.authentication = draft.authentication ∧ P.url draft.endpointUrl = some d.endpointUrl := by
  unfold mcpServerDefinitionSchema at h
  split at h
  · cases h
  · rename_i endpointUrl hurl
    split at h
    · cases h
      exact ⟨rfl, rfl, hurl⟩
    · cases h

theorem mcpServerDefinitionSchema_draft (hP : P.Lawful) (d : McpServerDefinition P) :
    mcpServerDefinitionSchema d.draft = some d := by
  obtain ⟨text, htext⟩ := d.reachable
  have hurl : P.url d.draft.endpointUrl = some d.endpointUrl := hP.url_url htext
  have htrim : trim d.draft.name = d.name := d.trimmed
  have hchecks : definitionId d.draft.id = true ∧ bounded 120 (trim d.draft.name) = true ∧
      utf16Length d.endpointUrl ≤ 2048 ∧ (mcpTrustTarget P d.endpointUrl).isSome = true :=
    ⟨d.identified, htrim ▸ d.named, d.short, d.secure⟩
  unfold mcpServerDefinitionSchema
  split
  · rename_i hnone
    rw [hurl] at hnone
    cases hnone
  · rename_i endpointUrl hsome
    rw [hurl] at hsome
    cases hsome
    rw [dif_pos hchecks]
    exact congrArg some (McpServerDefinition.ext rfl htrim rfl rfl)

end Definitions

/-! ### The stores -/

inductive Failure where
  | unavailable
  | credentialRequired
  | invalid
  | conflict
  | notFound
  | persistenceFailed
  | secretUnavailable
  | profileInUse
  deriving DecidableEq

/-- The files in Git, the secrets, the rows of the two binding tables by what they belong to, and the next number of the
supply of random ids. -/
structure World (P : Platform) where
  servers : Key → Option (McpServerDefinition P)
  profiles : Key → Option (SecurityProfileDefinition P)
  secrets : SecretId → Option String
  bindings : AList fun _ : Owner => BindingRow
  next : ℕ

/-- The `sha` of a file with this definition. -/
structure FileSha (P : Platform) where
  server : McpServerDefinition P → String
  profile : SecurityProfileDefinition P → String

variable {P : Platform}

def World.empty : World P := ⟨fun _ => none, fun _ => none, fun _ => none, ∅, 0⟩

namespace World

@[simps] def storeServer (key : Key) (d : Option (McpServerDefinition P)) (w : World P) : World P :=
  { w with servers := Function.update w.servers key d }

@[simps] def storeProfile (key : Key) (d : Option (SecurityProfileDefinition P)) (w : World P) : World P :=
  { w with profiles := Function.update w.profiles key d }

@[simps] def newSecret (o : Owner) (credential : String) (w : World P) : World P :=
  { w with secrets := Function.update w.secrets ⟨w.next, o⟩ (some credential), next := w.next + 1 }

/-- `DELETE FROM provider_credential_vault`, with the rows that refer to the secret. -/
@[simps] def dropSecret (s : SecretId) (w : World P) : World P :=
  { w with
    secrets := Function.update w.secrets s none
    bindings := restrict (fun e => decide (e.2.secretId ≠ s)) w.bindings }

@[simps] def putRow (o : Owner) (row : BindingRow) (w : World P) : World P :=
  { w with bindings := w.bindings.insert o row }

@[simps] def dropRow (o : Owner) (w : World P) : World P :=
  { w with bindings := w.bindings.erase o }

@[simps] def bindNew (o : Owner) (trustTarget : String) (s : SecretId) (w : World P) : World P :=
  { w with bindings := w.bindings.insert o ⟨⟨w.next, o, trustTarget⟩, trustTarget, s⟩, next := w.next + 1 }

end World

/-! ### `D1ProviderCredentialVault` -/

/-- `assertMcpIdentity`; the number of the repository is one. -/
def assertIdentity (key : Key) : Bool := matchDefinitionId false key.2.toList

def create (o : Owner) (credential : String) (w : World P) : Except Failure SecretId × World P :=
  (.ok ⟨w.next, o⟩, w.newSecret o credential)

def delete (s : SecretId) (w : World P) : Except Failure Unit × World P :=
  (.ok (), w.dropSecret s)

def resolve (s : SecretId) (w : World P) : Except Failure String :=
  match w.secrets s with
  | some credential => .ok credential
  | none => .error .secretUnavailable

def ensureMcpServerCredentialBinding (key : Key) (endpoint : String) (s : SecretId) (w : World P) :
    Except Failure BindingId × World P :=
  match assertIdentity key, mcpTrustTarget P endpoint with
  | true, some trustTarget =>
    match w.bindings.lookup (.server key) with
    | some current =>
      if current.secretId ≠ s ∨ current.trustTarget ≠ trustTarget then (.error .persistenceFailed, w)
      else (.ok current.bindingId, w)
    | none =>
      if (w.secrets s).isSome then (.ok ⟨w.next, .server key, trustTarget⟩, w.bindNew (.server key) trustTarget s)
      else (.error .persistenceFailed, w)
  | _, _ => (.error .persistenceFailed, w)

def rotateMcpServerCredential (key : Key) (b : BindingId) (endpoint : String) (s expected : SecretId) (w : World P) :
    Except Failure Unit × World P :=
  match w.bindings.lookup (.server key) with
  | some row =>
    if assertIdentity key = true ∧ row.bindingId = b ∧ some row.trustTarget = mcpTrustTarget P endpoint ∧
        row.secretId = expected ∧ (w.secrets s).isSome = true then
      (.ok (), w.putRow (.server key) { row with secretId := s })
    else (.error .persistenceFailed, w)
  | none => (.error .persistenceFailed, w)

def replaceMcpServerCredentialBinding (key : Key) (b : BindingId) (oldEndpoint newEndpoint : String) (s : SecretId)
    (w : World P) : Except Failure BindingId × World P :=
  match w.bindings.lookup (.server key), mcpTrustTarget P newEndpoint with
  | some row, some trustTarget =>
    if assertIdentity key = true ∧ row.bindingId = b ∧ some row.trustTarget = mcpTrustTarget P oldEndpoint ∧
        (w.secrets s).isSome = true then
      (.ok ⟨w.next, .server key, trustTarget⟩, w.bindNew (.server key) trustTarget s)
    else (.error .persistenceFailed, w)
  | _, _ => (.error .persistenceFailed, w)

def restoreMcpServerCredentialBinding (key : Key) (b : BindingId) (endpoint : String) (s : SecretId) (w : World P) :
    Except Failure Unit × World P :=
  match assertIdentity key, mcpTrustTarget P endpoint with
  | true, some trustTarget =>
    if w.bindings.lookup (.server key) = some ⟨b, trustTarget, s⟩ then (.ok (), w)
    else if (w.secrets s).isSome then (.ok (), w.putRow (.server key) ⟨b, trustTarget, s⟩)
    else (.error .persistenceFailed, w)
  | _, _ => (.error .persistenceFailed, w)

def revokeMcpServerCredentialBinding (key : Key) (b : BindingId) (w : World P) : Except Failure Unit × World P :=
  match w.bindings.lookup (.server key) with
  | some row =>
    if assertIdentity key = true ∧ row.bindingId = b then (.ok (), w.dropRow (.server key))
    else (.error .persistenceFailed, w)
  | none => (.error .persistenceFailed, w)

/-- The row of a binding id: `WHERE repository_id=? AND binding_id=?` in the table of the servers. -/
def serverRow (repositoryId : RepositoryId) (b : BindingId) (w : World P) : Option BindingRow :=
  w.bindings.entries.findSome? fun e => match e with
    | ⟨.server key, row⟩ => if key.1 = repositoryId ∧ row.bindingId = b then some row else none
    | ⟨.profile _, _⟩ => none

def resolveMcpServerCredential (repositoryId : RepositoryId) (b : BindingId) (w : World P) : Except Failure String :=
  match serverRow repositoryId b w with
  | none => .error .secretUnavailable
  | some row => resolve row.secretId w

end ADT.Bindings
