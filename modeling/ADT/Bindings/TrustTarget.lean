import ADT.Bindings.Manageable
import ADT.Bindings.Profiles

/-!
# Bindings.TrustTarget — what a binding id resolves

A binding id resolves only through the row of the server or profile and of the trust target it was issued for.  An
endpoint change, a removal or a deletion that succeeds ends all earlier ids, unless the server had no secret in Git
while a row was still stored (`bindings_trust`).
-/

namespace ADT.Bindings

open Faults Run
open Provider (Platform SecurityProfileDefinition)

variable {P : Platform} (sha : FileSha P)

/-! ### Operations -/

/-- The binding that the admission of a run freezes for a server. -/
def freezeServer (key : Key) : Op P (Option BindingId) := do
  match ← call .read .unavailable (repoGet key) with
  | none => throw .notFound
  | some d => do
    let authority ← currentAuthority key d
    return authority.map Prod.snd

inductive Operation (P : Platform) where
  | server (request : Request)
  | freeze (key : Key)
  | createProfile (repositoryId : RepositoryId) (d : SecurityProfileDefinition P) (apiKey : String)
  | updateProfile (repositoryId : RepositoryId) (d : SecurityProfileDefinition P) (fileSha : String)
      (apiKey : Option String)
  | rotateProfile (key : Key) (apiKey : String)
  | deleteProfile (key : Key) (fileSha : String) (inUse : Bool)

namespace Operation

def owner : Operation P → Owner
  | server request => .server request.key
  | freeze key => .server key
  | createProfile repositoryId d _ | updateProfile repositoryId d _ _ => .profile (repositoryId, d.id)
  | rotateProfile key _ | deleteProfile key _ _ => .profile key

def program : Operation P → Op P Unit
  | server (.create repositoryId input) => forget (createMcpServer sha repositoryId input)
  | server (.update repositoryId input fileSha) => forget (updateMcpServer sha repositoryId input fileSha)
  | server (.delete repositoryId id fileSha) => deleteMcpServer sha repositoryId id fileSha
  | freeze key => forget (freezeServer key)
  | createProfile repositoryId d apiKey => forget (createSecurityProfile repositoryId d apiKey)
  | updateProfile repositoryId d fileSha apiKey =>
    forget (updateSecurityProfileAuthority sha repositoryId d fileSha apiKey)
  | rotateProfile key apiKey => Bindings.rotateProfile key apiKey
  | deleteProfile key fileSha inUse => deleteSecurityProfile sha key fileSha inUse

/-- An endpoint change, a removal of the authentication, or a deletion. -/
def Withdraws (w : World P) : Operation P → Prop
  | server (.update repositoryId input _) => ∃ old, w.servers (repositoryId, input.id) = some old ∧
      (old.endpointUrl ≠ input.endpointUrl ∨ old.authentication ≠ .none ∧ input.authenticationMode = .none)
  | server (.delete _ _ _) => True
  | updateProfile repositoryId d _ _ =>
      ∃ old, w.profiles (repositoryId, d.id) = some old ∧ old.endpointUrl ≠ d.endpointUrl
  | deleteProfile _ _ _ => True
  | _ => False

end Operation

/-- An operation, and how its calls come out. -/
structure Event (P : Platform) where
  operation : Operation P
  fates : Fates

def Event.world (event : Event P) (w : World P) : World P := (event.operation.program sha event.fates w).2

def after (w : World P) (events : List (Event P)) : World P := events.foldl (fun w event => event.world sha w) w

/-- The binding id resolves to a credential. -/
def Resolves (w : World P) (b : BindingId) (credential : String) : Prop :=
  (∃ repositoryId, resolveMcpServerCredential repositoryId b w = .ok credential) ∨
    ∃ repositoryId endpoint, resolveSecurityProfileCredential repositoryId b endpoint w = .ok credential

/-- None of the binding ids that were issued for the owner before the event ever resolves again. -/
def Withdrawn (w : World P) (event : Event P) : Prop :=
  ∀ b, b.owner = event.operation.owner → b.serial < w.next →
    ∀ later credential, ¬Resolves (after sha (event.world sha w) later) b credential

/-- The server has a secret in Git, or no row is stored for it. -/
def Covered (w : World P) : Owner → Prop
  | .server key => (∃ d s, w.servers key = some d ∧ d.authentication = .bearer s) ∨
      w.bindings.lookup (.server key) = none
  | .profile _ => True

/-! ### Rows -/

section Rows

variable {sha} {w : World P} {b : BindingId} {credential : String}

theorem resolve_ok {s : SecretId} (h : resolve s w = .ok credential) : w.secrets s = some credential := by
  unfold resolve at h
  split at h
  · rename_i hs
    cases h
    exact hs
  · cases h

theorem serverRow_some {repositoryId : RepositoryId} {row : BindingRow} (h : serverRow repositoryId b w = some row) :
    ∃ key, w.bindings.lookup (.server key) = some row ∧ key.1 = repositoryId ∧ row.bindingId = b := by
  obtain ⟨⟨o, row'⟩, hmem, hrow⟩ := List.exists_of_findSome?_eq_some h
  cases o with
  | server key =>
    dsimp only at hrow
    split at hrow
    · rename_i hcond
      cases hrow
      exact ⟨key, AList.mem_lookup_iff.mpr hmem, hcond⟩
    · cases hrow
  | profile key => cases hrow

theorem profileRow_some {repositoryId : RepositoryId} {row : BindingRow} (h : profileRow repositoryId b w = some row) :
    ∃ key, w.bindings.lookup (.profile key) = some row ∧ key.1 = repositoryId ∧ row.bindingId = b := by
  obtain ⟨⟨o, row'⟩, hmem, hrow⟩ := List.exists_of_findSome?_eq_some h
  cases o with
  | server key => cases hrow
  | profile key =>
    dsimp only at hrow
    split at hrow
    · rename_i hcond
      cases hrow
      exact ⟨key, AList.mem_lookup_iff.mpr hmem, hcond⟩
    · cases hrow

theorem Resolves.row (h : Resolves w b credential) (hw : w.Sound) :
    ∃ row, w.bindings.lookup b.owner = some row ∧ row.bindingId = b ∧ row.trustTarget = b.trustTarget ∧
      row.secretId.owner = b.owner ∧ w.secrets row.secretId = some credential := by
  have hbound : ∀ o row, w.bindings.lookup o = some row → row.bindingId = b → w.secrets row.secretId = some credential →
      ∃ row, w.bindings.lookup b.owner = some row ∧ row.bindingId = b ∧ row.trustTarget = b.trustTarget ∧
        row.secretId.owner = b.owner ∧ w.secrets row.secretId = some credential := by
    intro o row hrow hb hs
    obtain ⟨-, hso, hbo, ht, -⟩ := hw.bound o row hrow
    subst hb
    rw [hbo]
    exact ⟨row, hrow, rfl, ht.symm, hso, hs⟩
  rcases h with ⟨repositoryId, h⟩ | ⟨repositoryId, endpoint, h⟩
  · unfold resolveMcpServerCredential at h
    split at h
    · cases h
    · rename_i row hrow
      obtain ⟨key, hlookup, -, hb⟩ := serverRow_some hrow
      exact hbound _ row hlookup hb (resolve_ok h)
  · unfold resolveSecurityProfileCredential at h
    split at h
    · cases h
    · rename_i row hrow
      obtain ⟨key, hlookup, -, hb⟩ := profileRow_some hrow
      split at h
      · exact hbound _ row hlookup hb (resolve_ok h)
      · cases h

theorem resolves_of_row (hw : w.Sound) {key : Key} {row : BindingRow}
    (hrow : w.bindings.lookup (.server key) = some row) : ∃ credential, Resolves w row.bindingId credential := by
  have hsome : (serverRow key.1 row.bindingId w).isSome = true := by
    unfold serverRow
    rw [List.findSome?_isSome_iff]
    exact ⟨⟨.server key, row⟩, AList.mem_lookup_iff.mp hrow, by simp⟩
  obtain ⟨row', hrow'⟩ := Option.isSome_iff_exists.mp hsome
  obtain ⟨key', hlookup, -, -⟩ := serverRow_some hrow'
  obtain ⟨credential, hs⟩ := Option.isSome_iff_exists.mp (hw.bound _ row' hlookup).1
  refine ⟨credential, .inl ⟨key.1, ?_⟩⟩
  unfold resolveMcpServerCredential
  rw [hrow']
  dsimp only
  rw [resolve, hs]

end Rows

section Evolution

variable {sha} {w : World P}

theorem follows_forget {o : Owner} {α : Type} {φ : Fates} {p : Op P α} (h : Follows o w (p φ w).2) :
    Follows o w (forget p φ w).2 := by
  refine Wp.world (wp_forget.mpr ?_)
  unfold Wp
  rcases hrun : p φ w with ⟨a | e | _, w'⟩ <;> rw [hrun] at h <;> exact h

theorem follows_freezeServer {key : Key} (hw : w.Sound) (φ : Fates) :
    Follows (.server key) w (freezeServer key φ w).2 :=
  follows_read hw φ keeps_throw fun _ hold => wp_authority hw hold fun _ _ _ _ _ => keeps_pure trivial

theorem follows_operation (hw : w.Sound) (operation : Operation P) (φ : Fates) :
    Follows operation.owner w (operation.program sha φ w).2 := by
  have hrefl := Follows.refl hw operation.owner
  cases operation with
  | server request =>
    cases request with
    | create repositoryId input => exact follows_forget (follows_createMcpServer hw φ)
    | update repositoryId input fileSha => exact follows_forget (follows_updateMcpServer hw φ)
    | delete repositoryId id fileSha => exact follows_deleteMcpServer hw φ
  | freeze key => exact follows_forget (follows_freezeServer hw φ)
  | createProfile repositoryId d apiKey => exact follows_forget (keeps_createSecurityProfile.world hrefl)
  | updateProfile repositoryId d fileSha apiKey => exact follows_forget (keeps_updateSecurityProfile.world hrefl)
  | rotateProfile key apiKey => exact keeps_rotateProfile.world hrefl
  | deleteProfile key fileSha inUse => exact keeps_deleteSecurityProfile.world hrefl

theorem sound_after : ∀ {w : World P} (events : List (Event P)), w.Sound → (after sha w events).Sound
  | _, [], hw => hw
  | _, event :: later, hw => sound_after later (follows_operation hw event.operation event.fates).sound

end Evolution

/-! ### Rows that were bound anew -/

/-- The row of the owner, if any, has a binding id that was drawn from `n` on. -/
def Renewed (n : ℕ) (o : Owner) (w : World P) : Prop :=
  ∀ row, w.bindings.lookup o = some row → n ≤ row.bindingId.serial

section Renewed

variable {sha} {n : ℕ} {o o' : Owner} {w w' : World P}

theorem renewed_of_unbound (h : w.bindings.lookup o = none) : Renewed n o w := by
  intro row hrow
  rw [h] at hrow
  cases hrow

theorem renewed_bindNew {trustTarget : String} {s : SecretId} (hn : n ≤ w.next) :
    Renewed n o (w.bindNew o trustTarget s) := by
  intro row hrow
  rw [World.bindNew_bindings, AList.lookup_insert] at hrow
  cases hrow
  exact hn

theorem Renewed.follows (h : Renewed n o w) (hf : Follows o' w w') (hn : n ≤ w.next) : Renewed n o w' := by
  intro row hrow
  by_cases ho : o = o'
  · subst ho
    obtain ⟨-, ⟨row', hrow', hb⟩ | hdrawn⟩ := hf.known row hrow
    · exact hb ▸ h row' hrow'
    · exact hn.trans hdrawn
  · exact h row ((hf.rows o ho).symm.trans hrow)

theorem Renewed.withdrawn {b : BindingId} {credential : String} :
    ∀ {w : World P} (later : List (Event P)), w.Sound → Renewed n b.owner w → n ≤ w.next → b.serial < n →
      ¬Resolves (after sha w later) b credential
  | _, [], hw, h, _, hb => fun hresolves => by
      obtain ⟨row, hrow, rfl, -⟩ := hresolves.row hw
      exact absurd (h row hrow) (Nat.not_le.mpr hb)
  | _, event :: later, hw, h, hn, hb =>
      have hf := follows_operation hw event.operation event.fates
      Renewed.withdrawn later hf.sound (h.follows hf hn) (hn.trans hf.later) hb

end Renewed

/-! ### Servers -/

/-- `Q` holds wherever the program returns. -/
abbrev Ends {α : Type} (p : Op P α) (φ : Fates) (Q : World P → Prop) (w : World P) : Prop :=
  Wp p φ (fun _ w' => Q w') (fun _ _ => True) (fun _ => True) w

theorem Ends.forget {α : Type} {p : Op P α} {φ : Fates} {Q : World P → Prop} {w : World P} (h : Ends p φ Q w)
    (hreturned : (Run.forget p φ w).1 = .returned ()) : Q (Run.forget p φ w).2 := by
  have hforget : Wp (Run.forget p) φ (fun _ w' => Q w') (fun _ _ => True) (fun _ => True) w := wp_forget.mpr h
  exact hforget.of_returned hreturned

section Servers

variable {sha} {φ : Fates} {repositoryId : RepositoryId} {key : Key} {input : McpServerInput} {fileSha : String}
  {w : World P} {old : McpServerDefinition P} {s : SecretId} {b : BindingId}

theorem ends_moveBinding {oldEndpoint newEndpoint : String} {next : Authentication} (hw : w.Sound)
    (hnext : ∀ s, next = .bearer s → s.owner = .server key) (hmoves : oldEndpoint ≠ newEndpoint ∨ next = .none) :
    Ends (moveBinding key (some (s, b)) oldEndpoint newEndpoint next) φ
      (fun w' => Follows (.server key) w w' ∧ Renewed w.next (.server key) w') w := by
  have hrefl := Follows.refl hw (.server key)
  unfold moveBinding
  split
  · rename_i s' b' s'' heq
    cases heq
    have hendpoint : oldEndpoint ≠ newEndpoint := hmoves.resolve_right (by rintro ⟨⟩)
    rw [if_pos hendpoint, Ends, wp_bind]
    refine wp_call_returns fun b₁ hb₁ => ⟨follows_replace hrefl (hnext _ rfl), ?_⟩
    unfold replaceMcpServerCredentialBinding at hb₁ ⊢
    split at hb₁
    · split at hb₁
      · rename_i hcond
        rw [if_pos hcond]
        exact renewed_bindNew (Nat.le_refl _)
      · cases hb₁
    · cases hb₁
  · rename_i s' b' heq
    cases heq
    refine wp_call_returns fun _ hok => ⟨follows_revoke hrefl, ?_⟩
    unfold revokeMcpServerCredentialBinding at hok ⊢
    split at hok
    · split at hok
      · rename_i hcond
        rw [if_pos hcond]
        exact renewed_of_unbound (AList.lookup_erase _ _)
      · cases hok
    · cases hok
  · rename_i heq
    cases heq
  · rename_i heq
    cases heq

theorem ends_nextAuthentication {authority : Option Authority} (hw : w.Sound)
    (ha : ∀ s, authority.map Prod.fst = some s → s.owner = .server key) :
    Wp (nextAuthentication key authority input) φ
      (fun a w' => Follows (.server key) w w' ∧ (∀ s, a.1 = .bearer s → s.owner = .server key) ∧
        (∀ s, a.2 = some s → s.owner = .server key) ∧ (input.authenticationMode = .none → a.1 = .none))
      (fun _ _ => True) (fun _ => True) w := by
  cases hmode : input.authenticationMode with
  | none =>
    unfold nextAuthentication
    rw [hmode]
    refine (wp_pure _).mpr ⟨Follows.refl hw _, ?_, ?_, fun _ => rfl⟩
    · rintro _ ⟨⟩
    · rintro _ ⟨⟩
  | bearer =>
    exact (keeps_nextAuthentication ha).returns (Follows.refl hw _) fun a w' hf hr =>
      ⟨hf, hr.1, hr.2, fun hm => by cases hm⟩

theorem ends_bearer {α : Type} {body : Option (McpServerDefinition P) → Op P α} {rest : Option Authority → Op P α}
    {Q : World P → Prop} (hw : w.Sound) (hold : w.servers key = some old) (hs : old.authentication = .bearer s)
    (hbody : body (some old) = currentAuthority key old >>= rest)
    (hrest : ∀ b w₁, Follows (.server key) w w₁ → Ends (rest (some (s, b))) φ Q w₁) :
    Ends (call .read .unavailable (repoGet key) >>= body) φ Q w := by
  rw [Ends, wp_bind]
  refine wp_call_returns fun file hfile => ?_
  cases hfile
  rw [hold, hbody, wp_bind]
  refine (wp_currentAuthority (Follows.refl hw _) hold).mono (fun authority w₁ h₁ => ?_) (fun _ _ _ => trivial)
    fun _ _ => trivial
  obtain ⟨hf₁, hsecret, -⟩ := h₁
  rw [hs] at hsecret
  obtain ⟨⟨s', b⟩, rfl, rfl⟩ := Option.map_eq_some_iff.mp hsecret
  exact hrest b w₁ hf₁

theorem ends_throw {α : Type} {p : Op P Unit} {e : Failure} {ret : α → World P → Prop} :
    Wp (do p; throw e : Op P α) φ ret (fun _ _ => True) (fun _ => True) w := by
  rw [wp_bind]
  exact (wp_trivial _).mono (fun _ _ _ => trivial) (fun _ _ _ => trivial) fun _ _ => trivial

theorem ends_retire {n : ℕ} {site : Site} {candidate : Option SecretId} (hw : w.Sound) (hn : n ≤ w.next)
    (h : Renewed n (.server key) w) (hs : ∀ s, candidate = some s → s.owner = .server key) :
    Ends (cleanupSecret site candidate) φ (Renewed n (.server key)) w :=
  Keeps.returns (keeps_cleanupSecret hs) (Follows.refl hw _) fun _ _ hf _ => h.follows hf hn

theorem ends_updateMcpServer (hw : w.Sound) (hold : w.servers (repositoryId, input.id) = some old)
    (hs : old.authentication = .bearer s)
    (hmoves : old.endpointUrl ≠ input.endpointUrl ∨ input.authenticationMode = .none) :
    Ends (updateMcpServer sha repositoryId input fileSha) φ (Renewed w.next (.server (repositoryId, input.id))) w := by
  have hid : old.id = input.id := hw.filed _ old hold
  have hsecret : s.owner = .server (repositoryId, old.id) := hid ▸ hw.named _ old s hold hs
  refine ends_bearer hw hold hs rfl fun b w₁ hf₁ => ?_
  have howner : ∀ s', Option.map Prod.fst (some (s, b)) = some s' → s'.owner = .server (repositoryId, old.id) := by
    rintro _ ⟨⟩
    exact hsecret
  rw [← hid] at hf₁ ⊢
  rw [Ends, wp_bind]
  refine (ends_nextAuthentication hf₁.sound howner).mono (fun next w₂ h₂ => ?_) (fun _ _ _ => trivial) fun _ _ => trivial
  obtain ⟨hf₂, hbearer, hcandidate, hnone⟩ := h₂
  unfold commitUpdate
  rw [wp_bind]
  have hgit : Keeps (Follows (.server (repositoryId, old.id)) w₂) (tryCatch (call .git .unavailable
      (repoUpdate sha repositoryId ⟨old.id, input.name, input.endpointUrl, next.1⟩ fileSha)) fun error => do
        cleanupSecret .retireCandidate next.2
        throw error) fun _ => True :=
    keeps_tryCatch (keeps_call fun w' hw' =>
      ⟨follows_repoUpdate ⟨old.id, input.name, input.endpointUrl, next.1⟩ hw' hbearer, fun _ _ => trivial⟩)
      fun _ => keeps_bind (keeps_cleanupSecret hcandidate) fun _ _ => keeps_throw
  refine hgit.returns (Follows.refl hf₂.sound _) fun saved w₃ hf₃ _ => ?_
  have hn : w.next ≤ w₃.next := (hf₁.later.trans hf₂.later).trans hf₃.later
  rw [wp_bind, wp_tryCatch]
  refine (ends_moveBinding hf₃.sound hbearer (hmoves.imp id hnone)).mono (fun _ w₄ h₄ => ?_) (fun e w₄ _ => ends_throw)
    fun _ _ => trivial
  obtain ⟨hf₄, hrenewed⟩ := h₄
  rw [wp_bind]
  refine ends_retire hf₄.sound (hn.trans hf₄.later) (fun row hrow => hn.trans (hrenewed row hrow)) fun s' hs' => ?_
  unfold obsolete at hs'
  split at hs'
  · cases hs'
  · exact howner s' hs'

theorem ends_deleteMcpServer {id : String} (hw : w.Sound) (hold : w.servers (repositoryId, id) = some old)
    (hs : old.authentication = .bearer s) :
    Ends (deleteMcpServer sha repositoryId id fileSha) φ (Renewed w.next (.server (repositoryId, id))) w := by
  refine ends_bearer hw hold hs rfl fun b w₁ hf₁ => ?_
  rw [Ends, wp_bind]
  have hgit : Keeps (Follows (.server (repositoryId, id)) w₁)
      (call .git .unavailable (repoDelete sha (repositoryId, id) fileSha) : Op P Unit) fun _ => True :=
    keeps_call fun w' hw' => ⟨follows_repoDelete hw', fun _ _ => trivial⟩
  refine hgit.returns (Follows.refl hf₁.sound _) fun _ w₂ hf₂ _ => ?_
  have hn : w.next ≤ w₂.next := hf₁.later.trans hf₂.later
  have hrevoke : Ends (moveBinding (repositoryId, id) (some (s, b)) "" "" .none) φ (fun w' =>
      Follows (.server (repositoryId, id)) w₂ w' ∧ Renewed w₂.next (.server (repositoryId, id)) w') w₂ :=
    ends_moveBinding hf₂.sound (fun _ hn => by cases hn) (.inr rfl)
  dsimp only
  rw [wp_bind, wp_tryCatch]
  refine Wp.mono hrevoke (fun _ w₃ h₃ => ?_) (fun e w₃ _ => ends_throw) fun _ _ => trivial
  obtain ⟨hf₃, hrenewed⟩ := h₃
  refine ends_retire hf₃.sound (hn.trans hf₃.later) (fun row hrow => hn.trans (hrenewed row hrow)) ?_
  rintro _ ⟨⟩
  exact hw.named _ old s hold hs

end Servers

/-! ### Profiles -/

section Profiles

variable {sha} {φ : Fates} {repositoryId : RepositoryId} {key : Key} {d : SecurityProfileDefinition P} {fileSha : String}
  {w : World P} {old : SecurityProfileDefinition P}

theorem bound_supersede {observed : Option BindingRow} {expected : BindingRow → BindingRow → Bool}
    {trustTarget : String} {s : SecretId} {n : ℕ} (hw : w.Sound) (hn : n ≤ w.next) (hs : s.owner = .profile key) :
    Wp (match observed with
      | some row => call .binding .unavailable (updateBinding key (expected row) trustTarget s)
      | none => call .binding .unavailable (insertBinding key trustTarget s)) φ
      (fun _ w₂ => Follows (.profile key) w w₂ ∧ Renewed n (.profile key) w₂) (fun _ _ => True) (fun _ => True) w := by
  split
  · rename_i row
    refine wp_call_returns fun b hb => ⟨follows_updateBinding (Follows.refl hw _) hs, ?_⟩
    unfold updateBinding at hb ⊢
    split at hb
    · rename_i hcond
      rw [if_pos hcond]
      exact renewed_bindNew hn
    · cases hb
  · refine wp_call_returns fun b hb => ⟨follows_insertBinding (Follows.refl hw _) hs, ?_⟩
    unfold insertBinding at hb ⊢
    split at hb
    · rename_i hcond
      rw [if_pos hcond]
      exact renewed_bindNew hn
    · cases hb

theorem ends_supersede {observed : Option BindingRow} {expected : BindingRow → BindingRow → Bool}
    {trustTarget credential : String} {n : ℕ} (hw : w.Sound) (hn : n ≤ w.next)
    (hobserved : ∀ row, observed = some row → row.secretId.owner = .profile key) :
    Ends (supersede key observed expected trustTarget credential) φ (Renewed n (.profile key)) w := by
  unfold supersede
  rw [Ends, wp_bind]
  refine keeps_create.returns (Follows.refl hw _) fun s w₁ hf₁ hs => ?_
  have hn₁ : n ≤ w₁.next := hn.trans hf₁.later
  rw [wp_bind, wp_tryCatch]
  refine (bound_supersede hf₁.sound hn₁ hs).mono (fun b w₂ h₂ => ?_) (fun e w₂ _ => ends_throw) fun _ _ => trivial
  obtain ⟨hf₂, hrenewed⟩ := h₂
  rw [wp_bind]
  have hretire : Keeps (Follows (.profile key) w₂)
      (cleanupSecret .retireOld (observed.map BindingRow.secretId) : Op P Unit) fun _ => True := by
    refine keeps_cleanupSecret fun s' hs' => ?_
    obtain ⟨row, hrow, rfl⟩ := Option.map_eq_some_iff.mp hs'
    exact hobserved row hrow
  exact hretire.returns (Follows.refl hf₂.sound _) fun _ w₃ hf₃ _ => hrenewed.follows hf₃ (hn₁.trans hf₂.later)

theorem ends_replace {b : BindingId} {endpoint newEndpoint credential : String} {n : ℕ} (hw : w.Sound)
    (hn : n ≤ w.next) :
    Ends (replaceSecurityProfileCredentialBinding key b endpoint newEndpoint credential) φ (Renewed n (.profile key))
      w := by
  unfold replaceSecurityProfileCredentialBinding
  rw [Ends, wp_bind]
  refine keeps_observe.returns (Follows.refl hw _) fun observed w₁ hf₁ hobserved => ?_
  split
  · split
    · unfold withTarget
      split
      · exact ends_supersede hf₁.sound (hn.trans hf₁.later) hobserved
      · exact trivial
    · exact trivial
  · exact trivial

theorem ends_updateSecurityProfile {apiKey : Option String} (hw : w.Sound)
    (hold : w.profiles (repositoryId, d.id) = some old) (hmoves : old.endpointUrl ≠ d.endpointUrl) :
    Ends (updateSecurityProfileAuthority sha repositoryId d fileSha apiKey) φ
      (Renewed w.next (.profile (repositoryId, d.id))) w := by
  unfold updateSecurityProfileAuthority
  rw [Ends, wp_bind]
  refine wp_call_returns fun file hfile => ?_
  cases hfile
  rw [hold]
  dsimp only
  split
  · exact trivial
  · rw [wp_bind]
    refine keeps_profileAuthority.returns (Follows.refl hw _) fun binding w₁ hf₁ _ => ?_
    split
    · exact trivial
    · rename_i hcond
      cases binding with
      | none => exact absurd (.inl ⟨rfl, .inr hmoves.symm⟩) hcond
      | some b =>
        unfold commitProfile
        rw [wp_bind]
        refine wp_call_returns fun saved hsaved => ?_
        have hf₂ : Follows (.profile (repositoryId, d.id)) w (profileUpdate sha repositoryId d fileSha w₁).2 :=
          follows_profileUpdate (show d.id = (repositoryId, d.id).2 from rfl) hf₁
        have hd : saved.endpointUrl = d.endpointUrl := by
          unfold profileUpdate at hsaved
          repeat' split at hsaved
          all_goals cases hsaved
          rfl
        rw [wp_bind, wp_tryCatch]
        unfold moveProfileBinding
        dsimp only
        rw [hd, if_pos hmoves, wp_bind]
        exact (ends_replace hf₂.sound hf₂.later).mono (fun _ _ h => h) (fun _ _ _ => ends_throw) fun _ _ => trivial

theorem ends_deleteSecurityProfile {inUse : Bool} (hw : w.Sound) :
    Ends (deleteSecurityProfile sha key fileSha inUse) φ (Renewed w.next (.profile key)) w := by
  unfold deleteSecurityProfile
  split
  · exact trivial
  · rw [Ends, wp_bind]
    refine keeps_profileGet.returns (Follows.refl hw _) fun file w₁ hf₁ _ => ?_
    split
    · exact trivial
    · split
      · exact trivial
      · rename_i profile _ _
        rw [wp_bind]
        have hcurrent : Keeps (Follows (.profile key) w) (call .ensure .unavailable
            (currentSecurityProfileCredentialBinding key profile.endpointUrl) : Op P BindingId) fun _ => True := by
          refine keeps_call fun w' hw' => ⟨?_, fun _ _ => trivial⟩
          unfold currentSecurityProfileCredentialBinding
          repeat' split
          all_goals exact hw'
        refine hcurrent.returns hf₁ fun b w₂ hf₂ _ => ?_
        unfold revokeSecurityProfileCredentialBinding
        rw [wp_bind, wp_bind]
        refine wp_call_returns fun observed hobserved => ?_
        cases hobserved
        cases hrow : w₂.bindings.lookup (.profile key) with
        | none => exact trivial
        | some row =>
          dsimp only
          split
          · refine wp_call_returns fun _ _ => ?_
            have hf₃ : Follows (.profile key) w (w₂.dropSecret row.secretId) :=
              hf₂.dropSecret (hf₂.sound.bound _ row hrow).2.1
            have hgone : (w₂.dropSecret row.secretId).bindings.lookup (.profile key) = none := by
              rw [lookup_dropSecret, hrow]
              simp [Option.filter]
            refine (keeps_call (I := Follows (.profile key) (w₂.dropSecret row.secretId)) (R := fun _ => True)
              fun w' hw' => ⟨follows_profileDelete hw', fun _ _ => trivial⟩).returns (Follows.refl hf₃.sound _)
              fun _ w₄ hf₄ _ => ?_
            exact (renewed_of_unbound hgone).follows hf₄ hf₃.later
          · exact trivial

end Profiles

/-! ### Servers without a secret -/

section Open

variable {sha} {φ : Fates} {repositoryId : RepositoryId} {key : Key} {input : McpServerInput} {fileSha : String}
  {w : World P} {old : McpServerDefinition P} {row : BindingRow}

theorem repoUpdate_bindings {draft : McpServerDraft} :
    (repoUpdate sha repositoryId draft fileSha w).2.bindings = w.bindings := by
  unfold repoUpdate
  repeat' split
  all_goals rfl

theorem repoDelete_bindings : (repoDelete sha key fileSha w).2.bindings = w.bindings := by
  unfold repoDelete
  repeat' split
  all_goals rfl

theorem ends_open {α : Type} {body : Option (McpServerDefinition P) → Op P α} {rest : Option Authority → Op P α}
    {Q : World P → Prop} (hold : w.servers key = some old) (hs : old.authentication = .none)
    (hbody : body (some old) = currentAuthority key old >>= rest) (hrest : Ends (rest none) φ Q w) :
    Ends (call .read .unavailable (repoGet key) >>= body) φ Q w := by
  rw [Ends, wp_bind]
  refine wp_call_returns fun file hfile => ?_
  cases hfile
  rw [hold, hbody, wp_bind, currentAuthority, hs]
  exact hrest

theorem ends_update_open (hw : w.Sound) (hold : w.servers (repositoryId, input.id) = some old)
    (hs : old.authentication = .none) (hrow : w.bindings.lookup (.server (repositoryId, input.id)) = some row) :
    Ends (updateMcpServer sha repositoryId input fileSha) φ
      (fun w' => w'.bindings.lookup (.server (repositoryId, input.id)) = some row) w := by
  have hid : old.id = input.id := hw.filed _ old hold
  refine ends_open hold hs rfl ?_
  rw [← hid] at hrow ⊢
  rw [Ends, wp_bind]
  unfold nextAuthentication
  cases hmode : input.authenticationMode with
  | none =>
    rw [wp_pure]
    unfold commitUpdate
    rw [wp_bind, wp_tryCatch]
    refine (wp_call_returns fun saved _ => ?_).mono (fun _ _ h => h) (fun _ _ _ => ends_throw) fun _ _ => trivial
    rw [← repoUpdate_bindings] at hrow
    exact hrow
  | bearer =>
    dsimp only
    rw [wp_bind]
    unfold createSecret
    split
    · rename_i token _
      have hrow' : ∀ draft, (repoUpdate sha repositoryId draft fileSha
          (create (.server (repositoryId, old.id)) token w).2).2.bindings.lookup (.server (repositoryId, old.id)) =
            some row :=
        fun _ => (congrArg (AList.lookup _) repoUpdate_bindings).trans hrow
      refine wp_call_returns fun s hcreated => ?_
      cases hcreated
      rw [wp_pure]
      unfold commitUpdate
      rw [wp_bind, wp_tryCatch]
      refine (wp_call_returns fun saved _ => ?_).mono (fun _ _ h => h) (fun _ _ _ => ends_throw) fun _ _ => trivial
      rw [wp_bind, wp_tryCatch]
      unfold moveBinding
      dsimp only
      rw [wp_bind]
      refine (wp_call_returns fun b hb => ?_).mono (fun _ _ h => h) (fun _ _ _ => ends_throw) fun _ _ => trivial
      rw [ensure_stale (hrow' _) (row_ne_next hw hrow)] at hb
      cases hb
    · exact trivial

theorem ends_delete_open {id : String} (hold : w.servers (repositoryId, id) = some old)
    (hs : old.authentication = .none) (hrow : w.bindings.lookup (.server (repositoryId, id)) = some row) :
    Ends (deleteMcpServer sha repositoryId id fileSha) φ
      (fun w' => w'.bindings.lookup (.server (repositoryId, id)) = some row) w := by
  refine ends_open hold hs rfl ?_
  rw [Ends, wp_bind]
  refine wp_call_returns fun _ _ => ?_
  rw [← repoDelete_bindings] at hrow
  exact hrow

end Open

/-! ### Operations that end the earlier ids -/

section Withdrawal

variable {sha} {w : World P} {event : Event P}

theorem withdrawn_of_covered (hw : w.Sound) (hwithdraws : event.operation.Withdraws w)
    (hreturned : (event.operation.program sha event.fates w).1 = .returned ()) (h : Covered w event.operation.owner) :
    Withdrawn sha w event := by
  have hf : Follows event.operation.owner w (event.world sha w) := follows_operation hw _ _
  have hrenewed : Renewed w.next event.operation.owner (event.world sha w) := by
    obtain ⟨operation, φ⟩ := event
    cases operation with
    | server request =>
      rcases h with ⟨d, s, hd, hs⟩ | hunbound
      · cases request with
        | create repositoryId input => exact hwithdraws.elim
        | update repositoryId input fileSha =>
          obtain ⟨old, hold, hmoves⟩ := hwithdraws
          cases hd.symm.trans hold
          have hends : Ends (updateMcpServer sha repositoryId input fileSha) φ _ w :=
            ends_updateMcpServer hw hold hs (hmoves.imp id And.right)
          exact Ends.forget hends hreturned
        | delete repositoryId id fileSha => exact Wp.of_returned (ends_deleteMcpServer hw hd hs) hreturned
      · exact (renewed_of_unbound hunbound).follows hf (Nat.le_refl _)
    | freeze key => exact hwithdraws.elim
    | createProfile repositoryId d apiKey => exact hwithdraws.elim
    | updateProfile repositoryId d fileSha apiKey =>
      obtain ⟨old, hold, hmoves⟩ := hwithdraws
      exact Ends.forget (ends_updateSecurityProfile hw hold hmoves) hreturned
    | rotateProfile key apiKey => exact hwithdraws.elim
    | deleteProfile key fileSha inUse => exact Wp.of_returned (ends_deleteSecurityProfile hw) hreturned
  intro b howner hserial later credential
  exact Renewed.withdrawn later hf.sound (howner ▸ hrenewed) hf.later hserial

/-- Where all that was issued is withdrawn, the server had a secret in Git, or no row. -/
theorem covered_of_withdrawn (hw : w.Sound) (hwithdraws : event.operation.Withdraws w)
    (hreturned : (event.operation.program sha event.fates w).1 = .returned ()) (h : Withdrawn sha w event) :
    Covered w event.operation.owner := by
  have hf : Follows event.operation.owner w (event.world sha w) := follows_operation hw _ _
  by_contra hcovered
  have hrow : ∃ key row, event.operation.owner = .server key ∧ w.bindings.lookup (.server key) = some row ∧
      (event.world sha w).bindings.lookup (.server key) = some row := by
    obtain ⟨operation, φ⟩ := event
    cases operation with
    | server request =>
      obtain ⟨hnamed, hbound⟩ := not_or.mp hcovered
      obtain ⟨row, hrow⟩ := Option.ne_none_iff_exists'.mp hbound
      have hopen : ∀ d, w.servers request.key = some d → d.authentication = .none := by
        intro d hd
        cases hauth : d.authentication with
        | none => rfl
        | bearer s => exact absurd ⟨d, s, hd, hauth⟩ hnamed
      cases request with
      | create repositoryId input => exact hwithdraws.elim
      | update repositoryId input fileSha =>
        obtain ⟨old, hold, -⟩ := hwithdraws
        have hends : Ends (updateMcpServer sha repositoryId input fileSha) φ _ w :=
          ends_update_open hw hold (hopen old hold) hrow
        exact ⟨_, row, rfl, hrow, Ends.forget hends hreturned⟩
      | delete repositoryId id fileSha =>
        cases hold : w.servers (repositoryId, id) with
        | none =>
          have hthrown : Wp (deleteMcpServer sha repositoryId id fileSha) φ (fun _ _ => False) (fun _ _ => True)
              (fun _ => True) w := by
            unfold deleteMcpServer
            rw [wp_bind]
            refine wp_call_returns fun file hfile => ?_
            cases hfile
            rw [hold]
            exact trivial
          exact (hthrown.of_returned hreturned).elim
        | some old =>
          exact ⟨_, row, rfl, hrow, Wp.of_returned (ends_delete_open hold (hopen old hold) hrow) hreturned⟩
    | freeze key => exact hwithdraws.elim
    | createProfile repositoryId d apiKey => exact absurd trivial hcovered
    | updateProfile repositoryId d fileSha apiKey => exact absurd trivial hcovered
    | rotateProfile key apiKey => exact hwithdraws.elim
    | deleteProfile key fileSha inUse => exact absurd trivial hcovered
  obtain ⟨key, row, howner, hrow, hrow'⟩ := hrow
  obtain ⟨credential, hresolves⟩ := resolves_of_row hf.sound hrow'
  obtain ⟨-, -, hb, -, hserial⟩ := hw.bound _ row hrow
  exact h row.bindingId (hb.trans howner.symm) hserial [] credential hresolves

/-- In every run, an id resolves only for what it was issued for; and an endpoint change, a removal or a deletion that
returns ends the earlier ids where the server had a secret in Git or no row. -/
theorem bindings_trust (earlier : List (Event P)) :
    (∀ b credential, Resolves (after sha .empty earlier) b credential →
      ∃ row, (after sha .empty earlier).bindings.lookup b.owner = some row ∧ row.bindingId = b ∧
        row.trustTarget = b.trustTarget ∧ row.secretId.owner = b.owner ∧
        (after sha .empty earlier).secrets row.secretId = some credential) ∧
    ∀ event : Event P, event.operation.Withdraws (after sha .empty earlier) →
      (event.operation.program sha event.fates (after sha .empty earlier)).1 = .returned () →
      (Withdrawn sha (after sha .empty earlier) event ↔ Covered (after sha .empty earlier) event.operation.owner) := by
  have hw : (after sha .empty earlier).Sound := sound_after earlier World.sound_empty
  exact ⟨fun b credential h => h.row hw, fun event hwithdraws hreturned =>
    ⟨covered_of_withdrawn hw hwithdraws hreturned, withdrawn_of_covered hw hwithdraws hreturned⟩⟩

/-- A server that is moved with every call done no longer resolves its first id. -/
def movedAway : Event twoUrls := ⟨.server (moved .done).request, fun _ => .done⟩

def registered : Event twoUrls := ⟨.server created.request, fun _ => .done⟩

theorem movedAway_withdrawn : Withdrawn endpointSha (after endpointSha .empty [registered]) movedAway := by
  have hfile : ((after endpointSha .empty [registered]).servers (toolkit, "docs")).map
      (fun d => (d.endpointUrl, d.authentication)) =
      some ("https://a.example/", .bearer ⟨0, .server (toolkit, "docs")⟩) := by decide +kernel
  obtain ⟨d, hd, hfields⟩ := Option.map_eq_some_iff.mp hfile
  obtain ⟨hendpoint, hauth⟩ := Prod.mk.injEq .. ▸ hfields
  have hwithdraws : movedAway.operation.Withdraws (after endpointSha .empty [registered]) :=
    ⟨d, hd, .inl (by rw [hendpoint]; decide)⟩
  have hreturned : (movedAway.operation.program endpointSha movedAway.fates
      (after endpointSha .empty [registered])).1 = .returned () := by decide +kernel
  exact ((bindings_trust [registered]).2 movedAway hwithdraws hreturned).mpr (.inl ⟨d, _, hd, hauth⟩)

/-- The deletion of a bearer server whose row, file and secret cannot be reached, so that the row stays. -/
def halfDeleted : Event twoUrls :=
  ⟨.server (.delete toolkit "docs" "https://a.example/"),
    fun site => if site = .binding ∨ site = .gitBack ∨ site = .retireOld then .failed else .done⟩

theorem no_token : (none : Option String).all (utf16Length · ≤ 8192) = true := rfl

/-- The server is defined again, without a secret. -/
def reopened : Event twoUrls :=
  ⟨.server (.create toolkit { docs "https://a.example/" none no_token with authenticationMode := .none }),
    fun _ => .done⟩

def deleted : Event twoUrls := ⟨.server (.delete toolkit "docs" "https://a.example/"), fun _ => .done⟩

/-- After a deletion that returns, the id of an earlier server of this name still resolves its secret. -/
theorem leftover_resolves :
    deleted.operation.Withdraws (after endpointSha .empty [registered, halfDeleted, reopened]) ∧
      (deleted.operation.program endpointSha deleted.fates
        (after endpointSha .empty [registered, halfDeleted, reopened])).1 = .returned () ∧
      ¬Withdrawn endpointSha (after endpointSha .empty [registered, halfDeleted, reopened]) deleted := by
  refine ⟨trivial, by decide +kernel, fun h => ?_⟩
  have hresolves : resolveMcpServerCredential toolkit ⟨1, .server (toolkit, "docs"), "https://a.example/"⟩
      (after endpointSha .empty [registered, halfDeleted, reopened, deleted]) = .ok "token" := by decide +kernel
  have hserial : 1 < (after endpointSha .empty [registered, halfDeleted, reopened]).next := by decide +kernel
  exact h ⟨1, .server (toolkit, "docs"), "https://a.example/"⟩ rfl hserial [] "token" (.inl ⟨toolkit, hresolves⟩)

end Withdrawal

end ADT.Bindings
