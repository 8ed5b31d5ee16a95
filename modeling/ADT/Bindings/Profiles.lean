import ADT.Bindings.Evolution

/-!
# Bindings.Profiles — credentials of security profiles

The methods of `lib/provider-credential-vault.ts` for a security profile, statement by statement, and the operations
on profiles: `app/api/security-profiles`, `lib/security-profile-authority.ts`.
-/

namespace ADT.Bindings

open Faults Run
open Provider (Platform SecurityProfileDefinition)

variable {P : Platform} (sha : FileSha P)

/-! ### Statements -/

def profileBinding (key : Key) (w : World P) : Except Failure (Option BindingRow) × World P :=
  (.ok (w.bindings.lookup (.profile key)), w)

def currentSecurityProfileCredentialBinding (key : Key) (endpoint : String) (w : World P) :
    Except Failure BindingId × World P :=
  match w.bindings.lookup (.profile key) with
  | some row =>
    if some row.trustTarget = securityTrustTarget P endpoint then (.ok row.bindingId, w)
    else (.error .secretUnavailable, w)
  | none => (.error .secretUnavailable, w)

/-- `INSERT INTO security_profile_credentials`. -/
def insertBinding (key : Key) (trustTarget : String) (s : SecretId) (w : World P) :
    Except Failure BindingId × World P :=
  if w.bindings.lookup (.profile key) = none ∧ (w.secrets s).isSome = true then
    (.ok ⟨w.next, .profile key, trustTarget⟩, w.bindNew (.profile key) trustTarget s)
  else (.error .persistenceFailed, w)

/-- `UPDATE security_profile_credentials`, where the row is as `expected` says. -/
def updateBinding (key : Key) (expected : BindingRow → Bool) (trustTarget : String) (s : SecretId) (w : World P) :
    Except Failure BindingId × World P :=
  if (w.bindings.lookup (.profile key)).any expected = true ∧ (w.secrets s).isSome = true then
    (.ok ⟨w.next, .profile key, trustTarget⟩, w.bindNew (.profile key) trustTarget s)
  else (.error .persistenceFailed, w)

/-- `UPDATE provider_credential_vault`. -/
def replaceSecret (s : SecretId) (credential : String) (w : World P) : Except Failure Unit × World P :=
  if (w.secrets s).isSome then (.ok (), { w with secrets := Function.update w.secrets s (some credential) })
  else (.error .secretUnavailable, w)

/-- The row of a binding id: `WHERE repository_id=? AND binding_id=?` in the table of the profiles. -/
def profileRow (repositoryId : RepositoryId) (b : BindingId) (w : World P) : Option BindingRow :=
  w.bindings.entries.findSome? fun e => match e with
    | ⟨.profile key, row⟩ => if key.1 = repositoryId ∧ row.bindingId = b then some row else none
    | ⟨.server _, _⟩ => none

def resolveSecurityProfileCredential (repositoryId : RepositoryId) (b : BindingId) (endpoint : String) (w : World P) :
    Except Failure String :=
  match profileRow repositoryId b w with
  | none => .error .secretUnavailable
  | some row =>
    if some row.trustTarget = securityTrustTarget P endpoint then resolve row.secretId w
    else .error .secretUnavailable

/-! ### `D1ProviderCredentialVault` -/

def withTarget {α : Type} (endpoint : String) (next : String → Op P α) : Op P α :=
  match securityTrustTarget P endpoint with
  | some trustTarget => next trustTarget
  | none => throw .persistenceFailed

def createSecurityProfileCredentialBinding (key : Key) (endpoint credential : String) : Op P BindingId := do
  let s ← call .secret .unavailable (create (.profile key) credential)
  withTarget endpoint fun trustTarget =>
    tryCatch (call .binding .unavailable (insertBinding key trustTarget s)) fun error => do
      cleanupSecret .retireCandidate (some s)
      throw error

/-- The row of the profile, observed, gives way to one with a new secret. -/
def supersede (key : Key) (observed : Option BindingRow) (expected : BindingRow → BindingRow → Bool)
    (trustTarget credential : String) : Op P BindingId := do
  let s ← call .secret .unavailable (create (.profile key) credential)
  let b ← tryCatch (match observed with
      | some row => call .binding .unavailable (updateBinding key (expected row) trustTarget s)
      | none => call .binding .unavailable (insertBinding key trustTarget s)) fun _ => do
    cleanupSecret .retireCandidate (some s)
    throw .persistenceFailed
  cleanupSecret .retireOld (observed.map BindingRow.secretId)
  return b

def recoverSecurityProfileCredentialBinding (key : Key) (endpoint credential : String) : Op P BindingId :=
  withTarget endpoint fun trustTarget => do
    let observed ← call .observe .unavailable (profileBinding key)
    supersede key observed (fun row current => current == row) trustTarget credential

def rotateSecurityProfileCredential (key : Key) (b : BindingId) (endpoint credential : String) : Op P Unit := do
  match ← call .observe .unavailable (profileBinding key) with
  | some row =>
    if row.bindingId = b ∧ some row.trustTarget = securityTrustTarget P endpoint then
      call .replace .unavailable (replaceSecret row.secretId credential)
    else throw .persistenceFailed
  | none => throw .persistenceFailed

def replaceSecurityProfileCredentialBinding (key : Key) (b : BindingId) (oldEndpoint newEndpoint credential : String) :
    Op P BindingId := do
  match ← call .observe .unavailable (profileBinding key) with
  | some old =>
    if old.bindingId = b ∧ some old.trustTarget = securityTrustTarget P oldEndpoint then
      withTarget newEndpoint fun trustTarget =>
        supersede key (some old)
          (fun row current => current.bindingId == row.bindingId && current.trustTarget == row.trustTarget) trustTarget
          credential
    else throw .persistenceFailed
  | none => throw .persistenceFailed

def revokeSecurityProfileCredentialBinding (key : Key) (b : BindingId) : Op P Unit := do
  match ← call .observe .unavailable (profileBinding key) with
  | some row =>
    if row.bindingId = b then call .retireOld .unavailable (delete row.secretId) else throw .persistenceFailed
  | none => throw .persistenceFailed

/-! ### `GitHubSecurityProfileDefinitionRepository` -/

def profileGet (key : Key) (w : World P) : Except Failure (Option (SecurityProfileDefinition P)) × World P :=
  (.ok (w.profiles key), w)

def profileCreate (repositoryId : RepositoryId) (d : SecurityProfileDefinition P) (w : World P) :
    Except Failure (SecurityProfileDefinition P) × World P :=
  match w.profiles (repositoryId, d.id) with
  | some _ => (.error .conflict, w)
  | none => (.ok d, w.storeProfile (repositoryId, d.id) (some d))

def profileUpdate (repositoryId : RepositoryId) (d : SecurityProfileDefinition P) (fileSha : String) (w : World P) :
    Except Failure (SecurityProfileDefinition P) × World P :=
  match w.profiles (repositoryId, d.id) with
  | none => (.error .notFound, w)
  | some old =>
    if sha.profile old ≠ fileSha then (.error .conflict, w)
    else (.ok d, w.storeProfile (repositoryId, d.id) (some d))

def profileDelete (key : Key) (fileSha : String) (w : World P) : Except Failure Unit × World P :=
  match w.profiles key with
  | none => (.error .notFound, w)
  | some old => if sha.profile old ≠ fileSha then (.error .conflict, w) else (.ok (), w.storeProfile key none)

/-! ### The operations -/

/-- `POST /api/security-profiles`. -/
def createSecurityProfile (repositoryId : RepositoryId) (d : SecurityProfileDefinition P) (apiKey : String) :
    Op P (SecurityProfileDefinition P) := do
  let b ← createSecurityProfileCredentialBinding (repositoryId, d.id) d.endpointUrl apiKey
  tryCatch (call .git .unavailable (profileCreate repositoryId d)) fun error => do
    ignore (revokeSecurityProfileCredentialBinding (repositoryId, d.id) b)
    throw error

/-- The binding in force, or nothing where it cannot be had. -/
def profileAuthority (key : Key) (endpoint : String) : Op P (Option BindingId) :=
  tryCatch (do
    let b ← call .ensure .unavailable (currentSecurityProfileCredentialBinding key endpoint)
    return some b) fun _ => return none

def moveProfileBinding (key : Key) (binding : Option BindingId) (oldEndpoint newEndpoint : String)
    (apiKey : Option String) : Op P Unit :=
  match binding, apiKey with
  | none, apiKey => do
    let _ ← recoverSecurityProfileCredentialBinding key newEndpoint (apiKey.getD "")
  | some b, apiKey =>
    if oldEndpoint ≠ newEndpoint then do
      let _ ← replaceSecurityProfileCredentialBinding key b oldEndpoint newEndpoint (apiKey.getD "")
    else match apiKey with
      | some apiKey => rotateSecurityProfileCredential key b newEndpoint apiKey
      | none => pure ()

def commitProfile (repositoryId : RepositoryId) (old d : SecurityProfileDefinition P) (fileSha : String)
    (binding : Option BindingId) (apiKey : Option String) : Op P (SecurityProfileDefinition P) := do
  let saved ← call .git .unavailable (profileUpdate sha repositoryId d fileSha)
  tryCatch (moveProfileBinding (repositoryId, d.id) binding old.endpointUrl saved.endpointUrl apiKey) fun error => do
    ignore (call .gitBack .unavailable (profileUpdate sha repositoryId old (sha.profile saved)))
    throw error
  return saved

def updateSecurityProfileAuthority (repositoryId : RepositoryId) (d : SecurityProfileDefinition P) (fileSha : String)
    (apiKey : Option String) : Op P (SecurityProfileDefinition P) := do
  match ← call .read .unavailable (profileGet (repositoryId, d.id)) with
  | none => throw .notFound
  | some old =>
    if sha.profile old ≠ fileSha then throw .conflict
    else do
      let binding ← profileAuthority (repositoryId, d.id) old.endpointUrl
      if binding = none ∧ (apiKey = none ∨ d.endpointUrl ≠ old.endpointUrl) ∨
          binding ≠ none ∧ old.endpointUrl ≠ d.endpointUrl ∧ apiKey = none then throw .credentialRequired
      else commitProfile sha repositoryId old d fileSha binding apiKey

/-- `PUT /api/security-profiles/[id]/credential`. -/
def rotateProfile (key : Key) (apiKey : String) : Op P Unit := do
  match ← call .read .unavailable (profileGet key) with
  | none => throw .notFound
  | some profile =>
    match ← profileAuthority key profile.endpointUrl with
    | none => throw .secretUnavailable
    | some b => rotateSecurityProfileCredential key b profile.endpointUrl apiKey

/-- `DELETE /api/security-profiles/[id]`; `inUse` says that an agent names the profile. -/
def deleteSecurityProfile (key : Key) (fileSha : String) (inUse : Bool) : Op P Unit :=
  if inUse then throw .profileInUse
  else do
    match ← call .read .unavailable (profileGet key) with
    | none => throw .notFound
    | some profile =>
      if sha.profile profile ≠ fileSha then throw .conflict
      else do
        let b ← call .ensure .unavailable (currentSecurityProfileCredentialBinding key profile.endpointUrl)
        revokeSecurityProfileCredentialBinding key b
        call .git .unavailable (profileDelete sha key fileSha)

/-! ### What an operation on a profile can change -/

section Evolution

variable {sha : FileSha P} {repositoryId : RepositoryId} {key : Key} {w₀ w : World P} {d : SecurityProfileDefinition P}
  {endpoint credential : String} {apiKey : Option String}

variable {trustTarget : String} {s : SecretId} {b : BindingId} {newEndpoint fileSha : String}
  {binding : Option BindingId}

theorem follows_insertBinding (h : Follows (.profile key) w₀ w)
    (hs : s.owner = .profile key) : Follows (.profile key) w₀ (insertBinding key trustTarget s w).2 := by
  unfold insertBinding
  split
  · rename_i hcond
    exact h.bindNew hcond.2 hs _
  · exact h

theorem follows_updateBinding {expected : BindingRow → Bool}
    (h : Follows (.profile key) w₀ w) (hs : s.owner = .profile key) :
    Follows (.profile key) w₀ (updateBinding key expected trustTarget s w).2 := by
  unfold updateBinding
  split
  · rename_i hcond
    exact h.bindNew hcond.2 hs _
  · exact h

theorem follows_replaceSecret {o : Owner} (h : Follows o w₀ w) (hs : s.owner = o) :
    Follows o w₀ (replaceSecret s credential w).2 := by
  unfold replaceSecret
  split
  · rename_i halive
    have hkept : ∀ s', (Function.update w.secrets s (some credential) s').isSome = (w.secrets s').isSome := by
      intro s'
      rw [Function.update_apply]
      split
      · rename_i heq
        rw [heq, halive]
        rfl
      · rfl
    exact
      { sound :=
          { filed := h.sound.filed
            profiled := h.sound.profiled
            named := h.sound.named
            stored := fun s' hs' => h.sound.stored s' (hkept s' ▸ hs')
            bound := fun o' row hrow =>
              ⟨(hkept row.secretId).trans (h.sound.bound o' row hrow).1, (h.sound.bound o' row hrow).2⟩ }
        later := h.later
        servers := h.servers
        profiles := h.profiles
        rows := h.rows
        secrets := fun s' hs' => by
          have hne : s' ≠ s := fun heq => hs' (heq ▸ hs)
          rw [← h.secrets s' hs']
          exact Function.update_of_ne hne _ _
        known := h.known }
  · exact h

theorem keeps_withTarget {α : Type} {R : α → Prop} {next : String → Op P α}
    (h : ∀ trustTarget, Keeps (Follows (.profile key) w₀) (next trustTarget) R) :
    Keeps (Follows (.profile key) w₀) (withTarget endpoint next) R := by
  unfold withTarget
  split
  · exact h _
  · exact keeps_throw

theorem keeps_create : Keeps (Follows (.profile key) w₀)
    (call .secret .unavailable (create (.profile key) credential) : Op P SecretId) fun s => s.owner = .profile key :=
  keeps_call fun _ hw => follows_create hw credential

theorem keeps_retire (hs : s.owner = .profile key) {site : Site} :
    Keeps (Follows (.profile key) w₀) (cleanupSecret site (some s) : Op P Unit) fun _ => True := by
  refine keeps_cleanupSecret ?_
  rintro _ ⟨⟩
  exact hs

theorem keeps_createBinding : Keeps (Follows (.profile key) w₀)
    (createSecurityProfileCredentialBinding key endpoint credential : Op P BindingId) fun _ => True := by
  refine keeps_bind keeps_create fun s hs => keeps_withTarget fun trustTarget => ?_
  exact keeps_tryCatch (keeps_call fun w hw => ⟨follows_insertBinding hw hs, fun _ _ => trivial⟩) fun _ =>
    keeps_bind (keeps_retire hs) fun _ _ => keeps_throw

theorem keeps_observe : Keeps (Follows (.profile key) w₀) (call .observe .unavailable (profileBinding key) : Op P _)
    fun observed => ∀ row, observed = some row → row.secretId.owner = .profile key := by
  refine keeps_call fun w hw => ⟨hw, ?_⟩
  rintro _ ⟨⟩ row hrow
  exact (hw.sound.bound _ row hrow).2.1

theorem keeps_supersede {observed : Option BindingRow} {expected : BindingRow → BindingRow → Bool}
    (hobserved : ∀ row, observed = some row → row.secretId.owner = .profile key) :
    Keeps (Follows (.profile key) w₀) (supersede key observed expected trustTarget credential : Op P BindingId)
      fun _ => True := by
  refine keeps_bind keeps_create fun s hs => ?_
  refine keeps_bind (R := fun _ => True) (keeps_tryCatch ?_ fun _ =>
    keeps_bind (keeps_retire hs) fun _ _ => keeps_throw) fun b _ => ?_
  · split
    · exact keeps_call fun w hw => ⟨follows_updateBinding hw hs, fun _ _ => trivial⟩
    · exact keeps_call fun w hw => ⟨follows_insertBinding hw hs, fun _ _ => trivial⟩
  · refine keeps_bind (keeps_cleanupSecret fun s' hs' => ?_) fun _ _ => keeps_pure trivial
    obtain ⟨row, hrow, rfl⟩ := Option.map_eq_some_iff.mp hs'
    exact hobserved row hrow

theorem keeps_recover : Keeps (Follows (.profile key) w₀)
    (recoverSecurityProfileCredentialBinding key endpoint credential : Op P BindingId) fun _ => True :=
  keeps_withTarget fun _ => keeps_bind keeps_observe fun _ hobserved => keeps_supersede hobserved

theorem keeps_rotate : Keeps (Follows (.profile key) w₀)
    (rotateSecurityProfileCredential key b endpoint credential : Op P Unit) fun _ => True := by
  refine keeps_bind keeps_observe fun observed hobserved => ?_
  split
  · rename_i row
    split
    · exact keeps_call fun w hw => ⟨follows_replaceSecret hw (hobserved row rfl), fun _ _ => trivial⟩
    · exact keeps_throw
  · exact keeps_throw

theorem keeps_replace : Keeps (Follows (.profile key) w₀)
    (replaceSecurityProfileCredentialBinding key b endpoint newEndpoint credential : Op P BindingId) fun _ => True := by
  refine keeps_bind keeps_observe fun observed hobserved => ?_
  split
  · split
    · exact keeps_withTarget fun _ => keeps_supersede hobserved
    · exact keeps_throw
  · exact keeps_throw

theorem keeps_revoke : Keeps (Follows (.profile key) w₀)
    (revokeSecurityProfileCredentialBinding key b : Op P Unit) fun _ => True := by
  refine keeps_bind keeps_observe fun observed hobserved => ?_
  split
  · rename_i row
    split
    · exact keeps_call fun w hw => ⟨hw.dropSecret (hobserved row rfl), fun _ _ => trivial⟩
    · exact keeps_throw
  · exact keeps_throw

theorem follows_profileCreate (h : Follows (.profile (repositoryId, d.id)) w₀ w) :
    Follows (.profile (repositoryId, d.id)) w₀ (profileCreate repositoryId d w).2 := by
  unfold profileCreate
  split
  · exact h
  · refine h.storeProfile ?_
    rintro _ ⟨⟩
    rfl

theorem follows_profileUpdate (hid : d.id = key.2) (h : Follows (.profile key) w₀ w) :
    Follows (.profile key) w₀ (profileUpdate sha key.1 d fileSha w).2 := by
  unfold profileUpdate
  rw [hid]
  split
  · exact h
  · split
    · exact h
    · refine h.storeProfile ?_
      rintro _ ⟨⟩
      exact hid

theorem follows_profileDelete (h : Follows (.profile key) w₀ w) :
    Follows (.profile key) w₀ (profileDelete sha key fileSha w).2 := by
  unfold profileDelete
  split
  · exact h
  · split
    · exact h
    · refine h.storeProfile ?_
      rintro _ ⟨⟩

theorem keeps_createSecurityProfile {apiKey : String} : Keeps (Follows (.profile (repositoryId, d.id)) w₀)
    (createSecurityProfile repositoryId d apiKey) fun _ => True :=
  keeps_bind keeps_createBinding fun _ _ => keeps_tryCatch
    (keeps_call fun _ hw => ⟨follows_profileCreate hw, fun _ _ => trivial⟩) fun _ =>
      keeps_bind keeps_revoke.ignore fun _ _ => keeps_throw

theorem keeps_profileAuthority :
    Keeps (Follows (.profile key) w₀) (profileAuthority key endpoint : Op P (Option BindingId)) fun _ => True := by
  refine keeps_tryCatch (keeps_bind (R := fun _ => True) (keeps_call fun w hw => ⟨?_, fun _ _ => trivial⟩) fun _ _ =>
    keeps_pure trivial) fun _ => keeps_pure trivial
  unfold currentSecurityProfileCredentialBinding
  repeat' split
  all_goals exact hw

theorem keeps_moveProfileBinding :
    Keeps (Follows (.profile key) w₀) (moveProfileBinding key binding endpoint newEndpoint apiKey : Op P Unit)
      fun _ => True := by
  unfold moveProfileBinding
  split
  · exact keeps_bind keeps_recover fun _ _ => keeps_pure trivial
  · split
    · exact keeps_bind keeps_replace fun _ _ => keeps_pure trivial
    · split
      · exact keeps_rotate
      · exact keeps_pure trivial

theorem keeps_profileGet : Keeps (Follows (.profile key) w₀) (call .read .unavailable (profileGet key) : Op P _)
    fun file => ∀ old, file = some old → old.id = key.2 := by
  refine keeps_call fun w hw => ⟨hw, ?_⟩
  rintro _ ⟨⟩ old hold
  exact hw.sound.profiled key old hold

theorem keeps_commitProfile {old : SecurityProfileDefinition P}
    (hid : old.id = d.id) : Keeps (Follows (.profile (repositoryId, d.id)) w₀)
      (commitProfile sha repositoryId old d fileSha binding apiKey) fun _ => True :=
  keeps_bind (R := fun _ => True) (keeps_call fun _ hw => ⟨follows_profileUpdate rfl hw, fun _ _ => trivial⟩) fun _ _ =>
    keeps_bind (keeps_tryCatch keeps_moveProfileBinding fun _ => keeps_bind (Keeps.ignore (R := fun _ => True)
      (keeps_call fun _ hw => ⟨follows_profileUpdate hid hw, fun _ _ => trivial⟩)) fun _ _ => keeps_throw) fun _ _ =>
        keeps_pure trivial

theorem keeps_updateSecurityProfile : Keeps (Follows (.profile (repositoryId, d.id)) w₀)
    (updateSecurityProfileAuthority sha repositoryId d fileSha apiKey) fun _ => True := by
  refine keeps_bind keeps_profileGet fun file hfile => ?_
  split
  · exact keeps_throw
  · rename_i old
    split
    · exact keeps_throw
    · refine keeps_bind keeps_profileAuthority fun binding _ => ?_
      split
      · exact keeps_throw
      · exact keeps_commitProfile (hfile old rfl)

theorem keeps_rotateProfile {apiKey : String} :
    Keeps (Follows (.profile key) w₀) (rotateProfile key apiKey : Op P Unit) fun _ => True := by
  refine keeps_bind keeps_profileGet fun file _ => ?_
  split
  · exact keeps_throw
  · refine keeps_bind keeps_profileAuthority fun binding _ => ?_
    split
    · exact keeps_throw
    · exact keeps_rotate

theorem keeps_deleteSecurityProfile {inUse : Bool} :
    Keeps (Follows (.profile key) w₀) (deleteSecurityProfile sha key fileSha inUse) fun _ => True := by
  unfold deleteSecurityProfile
  split
  · exact keeps_throw
  · refine keeps_bind keeps_profileGet fun file _ => ?_
    split
    · exact keeps_throw
    · split
      · exact keeps_throw
      · refine keeps_bind (R := fun _ => True) (keeps_call fun w hw => ⟨?_, fun _ _ => trivial⟩) fun b _ => ?_
        · unfold currentSecurityProfileCredentialBinding
          repeat' split
          all_goals exact hw
        · exact keeps_bind keeps_revoke fun _ _ =>
            keeps_call fun w hw => ⟨follows_profileDelete hw, fun _ _ => trivial⟩

end Evolution

end ADT.Bindings
