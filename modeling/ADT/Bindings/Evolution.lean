import ADT.Bindings.McpService

/-!
# Bindings.Evolution — what an operation on one owner can change

Whatever fails, an operation on a server or a profile leaves the files, rows and secrets of the others as they are, and
the binding ids of its own rows are those it found or new ones (`Follows`).
-/

namespace ADT.Bindings

open Faults Run
open Provider (Platform)

variable {P : Platform}

/-- Files are where their id says, and secrets and rows belong to what they were made for. -/
structure World.Sound (w : World P) : Prop where
  filed : ∀ key d, w.servers key = some d → d.id = key.2
  profiled : ∀ key d, w.profiles key = some d → d.id = key.2
  named : ∀ key d s, w.servers key = some d → d.authentication = .bearer s → s.owner = .server key
  stored : ∀ s, (w.secrets s).isSome = true → s.serial < w.next
  bound : ∀ o row, w.bindings.lookup o = some row → (w.secrets row.secretId).isSome = true ∧ row.secretId.owner = o ∧
    row.bindingId.owner = o ∧ row.bindingId.trustTarget = row.trustTarget ∧ row.bindingId.serial < w.next

theorem World.sound_empty : (World.empty : World P).Sound where
  filed _ _ h := by cases h
  profiled _ _ h := by cases h
  named _ _ _ h := by cases h
  stored _ h := by cases h
  bound _ _ h := by cases h

/-- A binding id of the owner that is stored in `w₀`, or that is drawn later. -/
def Known (w₀ : World P) (o : Owner) (b : BindingId) : Prop :=
  b.owner = o ∧ ((∃ row, w₀.bindings.lookup o = some row ∧ row.bindingId = b) ∨ w₀.next ≤ b.serial)

/-- What `w₀` can have become through calls of an operation on the owner `o`. -/
structure Follows (o : Owner) (w₀ w : World P) : Prop where
  sound : w.Sound
  later : w₀.next ≤ w.next
  servers : ∀ key, o ≠ .server key → w.servers key = w₀.servers key
  profiles : ∀ key, o ≠ .profile key → w.profiles key = w₀.profiles key
  rows : ∀ o', o' ≠ o → w.bindings.lookup o' = w₀.bindings.lookup o'
  secrets : ∀ s, s.owner ≠ o → w.secrets s = w₀.secrets s
  known : ∀ row, w.bindings.lookup o = some row → Known w₀ o row.bindingId

theorem Follows.refl {w : World P} (hw : w.Sound) (o : Owner) : Follows o w w where
  sound := hw
  later := Nat.le_refl _
  servers _ _ := rfl
  profiles _ _ := rfl
  rows _ _ := rfl
  secrets _ _ := rfl
  known row h := ⟨(hw.bound o row h).2.2.1, .inl ⟨row, h, rfl⟩⟩

/-! ### The stores -/

section Stores

variable {o : Owner} {w₀ w : World P}

theorem Follows.storeServer {key : Key} (h : Follows (.server key) w₀ w) {d : Option (McpServerDefinition P)}
    (hid : ∀ d', d = some d' → d'.id = key.2)
    (hs : ∀ d' s, d = some d' → d'.authentication = .bearer s → s.owner = .server key) :
    Follows (.server key) w₀ (w.storeServer key d) where
  sound :=
    { filed := by
        intro key' d' hd
        by_cases hkey : key' = key
        · subst hkey
          exact hid d' (by simpa [World.storeServer] using hd)
        · exact h.sound.filed key' d' (by simpa [World.storeServer, Function.update_of_ne hkey] using hd)
      profiled := h.sound.profiled
      named := by
        intro key' d' s hd hauth
        by_cases hkey : key' = key
        · subst hkey
          exact hs d' s (by simpa [World.storeServer] using hd) hauth
        · exact h.sound.named key' d' s (by simpa [World.storeServer, Function.update_of_ne hkey] using hd) hauth
      stored := h.sound.stored
      bound := h.sound.bound }
  later := h.later
  servers key' hne := by
    have hkey : key' ≠ key := fun heq => hne (heq ▸ rfl)
    rw [← h.servers key' hne]
    exact Function.update_of_ne hkey _ _
  profiles := h.profiles
  rows := h.rows
  secrets := h.secrets
  known := h.known

theorem Follows.storeProfile {key : Key} (h : Follows (.profile key) w₀ w)
    {d : Option (Provider.SecurityProfileDefinition P)} (hid : ∀ d', d = some d' → d'.id = key.2) :
    Follows (.profile key) w₀ (w.storeProfile key d) where
  sound :=
    { filed := h.sound.filed
      profiled := by
        intro key' d' hd
        by_cases hkey : key' = key
        · subst hkey
          exact hid d' (by simpa [World.storeProfile] using hd)
        · exact h.sound.profiled key' d' (by simpa [World.storeProfile, Function.update_of_ne hkey] using hd)
      named := h.sound.named
      stored := h.sound.stored
      bound := h.sound.bound }
  later := h.later
  servers := h.servers
  profiles key' hne := by
    have hkey : key' ≠ key := fun heq => hne (heq ▸ rfl)
    rw [← h.profiles key' hne]
    exact Function.update_of_ne hkey _ _
  rows := h.rows
  secrets := h.secrets
  known := h.known

theorem Follows.newSecret (h : Follows o w₀ w) (credential : String) : Follows o w₀ (w.newSecret o credential) where
  sound :=
    { filed := h.sound.filed
      profiled := h.sound.profiled
      named := h.sound.named
      stored := by
        intro s hs
        by_cases heq : s = ⟨w.next, o⟩
        · subst heq
          exact Nat.lt_succ_self _
        · have hold : (w.secrets s).isSome = true := by
            simpa [World.newSecret, Function.update_of_ne heq] using hs
          exact Nat.lt_succ_of_lt (h.sound.stored s hold)
      bound := by
        intro o' row hrow
        obtain ⟨halive, howner, hb⟩ := h.sound.bound o' row hrow
        have hne : row.secretId ≠ ⟨w.next, o⟩ := fun heq => by
          have hlt := h.sound.stored row.secretId halive
          rw [heq] at hlt
          exact Nat.lt_irrefl _ hlt
        refine ⟨?_, howner, hb.1, hb.2.1, Nat.lt_succ_of_lt hb.2.2⟩
        rw [World.newSecret_secrets, Function.update_of_ne hne]
        exact halive }
  later := Nat.le_succ_of_le h.later
  servers := h.servers
  profiles := h.profiles
  rows := h.rows
  secrets s hs := by
    have hne : s ≠ ⟨w.next, o⟩ := fun heq => hs (heq ▸ rfl)
    rw [← h.secrets s hs]
    exact Function.update_of_ne hne _ _
  known := h.known

theorem lookup_dropSecret (s : SecretId) (o' : Owner) :
    (w.dropSecret s).bindings.lookup o' = (w.bindings.lookup o').filter fun row => decide (row.secretId ≠ s) := by
  rw [World.dropSecret_bindings, lookup_restrict]

section

variable (h : Follows o w₀ w)

include h

theorem Follows.dropSecret {s : SecretId} (hs : s.owner = o) : Follows o w₀ (w.dropSecret s) where
  sound :=
    { filed := h.sound.filed
      profiled := h.sound.profiled
      named := h.sound.named
      stored := by
        intro s' hs'
        by_cases heq : s' = s
        · subst heq
          simp [World.dropSecret] at hs'
        · exact h.sound.stored s' (by simpa [World.dropSecret, Function.update_of_ne heq] using hs')
      bound := by
        intro o' row hrow
        rw [lookup_dropSecret, Option.filter_eq_some_iff] at hrow
        obtain ⟨halive, hb⟩ := h.sound.bound o' row hrow.1
        refine ⟨?_, hb⟩
        rw [World.dropSecret_secrets, Function.update_of_ne (of_decide_eq_true hrow.2)]
        exact halive }
  later := h.later
  servers := h.servers
  profiles := h.profiles
  rows o' hne := by
    rw [lookup_dropSecret, ← h.rows o' hne]
    cases hrow : w.bindings.lookup o' with
    | none => rfl
    | some row =>
      have howner := (h.sound.bound o' row hrow).2.1
      have hsecret : row.secretId ≠ s := fun heq => hne (by rw [← howner, heq, hs])
      simp [Option.filter, hsecret]
  secrets s' hs' := by
    have hne : s' ≠ s := fun heq => hs' (heq ▸ hs)
    rw [← h.secrets s' hs']
    exact Function.update_of_ne hne _ _
  known row hrow := by
    rw [lookup_dropSecret, Option.filter_eq_some_iff] at hrow
    exact h.known row hrow.1

theorem Follows.putRow (row : BindingRow) (halive : (w.secrets row.secretId).isSome = true)
    (hs : row.secretId.owner = o) (hb : Known w₀ o row.bindingId) (ht : row.bindingId.trustTarget = row.trustTarget)
    (hlt : row.bindingId.serial < w.next) : Follows o w₀ (w.putRow o row) where
  sound :=
    { filed := h.sound.filed
      profiled := h.sound.profiled
      named := h.sound.named
      stored := h.sound.stored
      bound := by
        intro o' row' hrow'
        by_cases heq : o' = o
        · subst heq
          rw [World.putRow_bindings, AList.lookup_insert] at hrow'
          cases hrow'
          exact ⟨halive, hs, hb.1, ht, hlt⟩
        · rw [World.putRow_bindings, AList.lookup_insert_ne heq] at hrow'
          exact h.sound.bound o' row' hrow' }
  later := h.later
  servers := h.servers
  profiles := h.profiles
  rows o' hne := by
    rw [World.putRow_bindings, AList.lookup_insert_ne hne]
    exact h.rows o' hne
  secrets := h.secrets
  known row' hrow' := by
    rw [World.putRow_bindings, AList.lookup_insert] at hrow'
    cases hrow'
    exact hb

theorem Follows.dropRow : Follows o w₀ (w.dropRow o) where
  sound :=
    { filed := h.sound.filed
      profiled := h.sound.profiled
      named := h.sound.named
      stored := h.sound.stored
      bound := by
        intro o' row hrow
        by_cases heq : o' = o
        · subst heq
          rw [World.dropRow_bindings, AList.lookup_erase] at hrow
          cases hrow
        · rw [World.dropRow_bindings, AList.lookup_erase_ne heq] at hrow
          exact h.sound.bound o' row hrow }
  later := h.later
  servers := h.servers
  profiles := h.profiles
  rows o' hne := by
    rw [World.dropRow_bindings, AList.lookup_erase_ne hne]
    exact h.rows o' hne
  secrets := h.secrets
  known row hrow := by
    rw [World.dropRow_bindings, AList.lookup_erase] at hrow
    cases hrow

theorem Follows.advance : Follows o w₀ { w with next := w.next + 1 } where
  sound :=
    { filed := h.sound.filed
      profiled := h.sound.profiled
      named := h.sound.named
      stored s hs := Nat.lt_succ_of_lt (h.sound.stored s hs)
      bound o' row hrow := by
        obtain ⟨h1, h2, h3, h4, h5⟩ := h.sound.bound o' row hrow
        exact ⟨h1, h2, h3, h4, Nat.lt_succ_of_lt h5⟩ }
  later := Nat.le_succ_of_le h.later
  servers := h.servers
  profiles := h.profiles
  rows := h.rows
  secrets := h.secrets
  known := h.known

theorem Follows.known_next (trustTarget : String) : Known w₀ o ⟨w.next, o, trustTarget⟩ :=
  ⟨rfl, .inr h.later⟩

theorem Follows.bindNew {s : SecretId} (halive : (w.secrets s).isSome = true) (hs : s.owner = o)
    (trustTarget : String) : Follows o w₀ (w.bindNew o trustTarget s) :=
  h.advance.putRow ⟨⟨w.next, o, trustTarget⟩, trustTarget, s⟩ halive hs (h.known_next trustTarget) rfl
    (Nat.lt_succ_self _)

end

theorem Follows.trans {w₁ w₂ : World P} (h : Follows o w₀ w₁) (h' : Follows o w₁ w₂) : Follows o w₀ w₂ where
  sound := h'.sound
  later := h.later.trans h'.later
  servers key hne := (h'.servers key hne).trans (h.servers key hne)
  profiles key hne := (h'.profiles key hne).trans (h.profiles key hne)
  rows o' hne := (h'.rows o' hne).trans (h.rows o' hne)
  secrets s hs := (h'.secrets s hs).trans (h.secrets s hs)
  known row hrow := by
    obtain ⟨howner, ⟨row₁, hrow₁, hb⟩ | hlt⟩ := h'.known row hrow
    · exact hb ▸ h.known row₁ hrow₁
    · exact ⟨howner, .inr (h.later.trans hlt)⟩

end Stores

/-! ### The vault -/

section Vault

variable {o : Owner} {key : Key} {w₀ w : World P} {s : SecretId} {endpoint : String}

theorem follows_create (h : Follows o w₀ w) (credential : String) :
    Follows o w₀ (create o credential w).2 ∧ ∀ s, (create o credential w).1 = .ok s → s.owner = o := by
  refine ⟨h.newSecret credential, fun s hs => ?_⟩
  cases hs
  rfl

theorem keeps_cleanupSecret {site : Site} {candidate : Option SecretId} (hs : ∀ s, candidate = some s → s.owner = o) :
    Keeps (Follows o w₀) (cleanupSecret site candidate : Op P Unit) fun _ => True := by
  cases candidate with
  | none => exact keeps_pure trivial
  | some s =>
    exact Keeps.ignore (R := fun _ => True) (keeps_call fun w hw => ⟨hw.dropSecret (hs s rfl), fun _ _ => trivial⟩)

/-- The row that an authority of a server stands for. -/
def Holds (w : World P) (key : Key) (endpoint : String) (s : SecretId) (b : BindingId) : Prop :=
  ∃ trustTarget, mcpTrustTarget P endpoint = some trustTarget ∧
    w.bindings.lookup (.server key) = some ⟨b, trustTarget, s⟩

theorem follows_ensure (endpoint : String) (h : Follows (.server key) w₀ w) (hs : s.owner = .server key) :
    Follows (.server key) w₀ (ensureMcpServerCredentialBinding key endpoint s w).2 ∧
      ∀ b, (ensureMcpServerCredentialBinding key endpoint s w).1 = .ok b →
        Holds (ensureMcpServerCredentialBinding key endpoint s w).2 key endpoint s b := by
  unfold ensureMcpServerCredentialBinding
  split
  · rename_i trustTarget _ htarget
    split
    · rename_i row hrow
      split
      · exact ⟨h, fun b hb => by cases hb⟩
      · rename_i hsame
        obtain ⟨rfl, rfl⟩ := not_or.mp hsame |>.imp not_not.mp not_not.mp
        refine ⟨h, fun b hb => ?_⟩
        cases hb
        exact ⟨_, htarget, hrow⟩
    · split
      · rename_i halive
        refine ⟨h.bindNew halive hs _, fun b hb => ?_⟩
        cases hb
        exact ⟨_, htarget, AList.lookup_insert _⟩
      · exact ⟨h, fun b hb => by cases hb⟩
  · exact ⟨h, fun b hb => by cases hb⟩

variable {b : BindingId}

section

variable (h : Follows (.server key) w₀ w)

include h

theorem follows_rotate {expected : SecretId} (hs : s.owner = .server key) :
    Follows (.server key) w₀ (rotateMcpServerCredential key b endpoint s expected w).2 := by
  unfold rotateMcpServerCredential
  split
  · rename_i row hrow
    split
    · rename_i hcond
      obtain ⟨-, -, hb⟩ := h.sound.bound _ row hrow
      exact h.putRow { row with secretId := s } hcond.2.2.2.2 hs (h.known row hrow) hb.2.1 hb.2.2
    · exact h
  · exact h

theorem follows_replace {newEndpoint : String} (hs : s.owner = .server key) :
    Follows (.server key) w₀ (replaceMcpServerCredentialBinding key b endpoint newEndpoint s w).2 := by
  unfold replaceMcpServerCredentialBinding
  split
  · split
    · rename_i hcond
      exact h.bindNew hcond.2.2.2 hs _
    · exact h
  · exact h

theorem follows_restore (hb : Holds w₀ key endpoint s b)
    (h₀ : w₀.Sound) : Follows (.server key) w₀ (restoreMcpServerCredentialBinding key b endpoint s w).2 := by
  obtain ⟨trustTarget, htarget, hrow⟩ := hb
  obtain ⟨-, howner, hbowner, hbtarget, hlt⟩ := h₀.bound _ _ hrow
  unfold restoreMcpServerCredentialBinding
  rw [htarget]
  split
  · rename_i heq
    cases heq
    split
    · exact h
    · split
      · rename_i halive
        exact h.putRow ⟨b, trustTarget, s⟩ halive howner ⟨hbowner, .inl ⟨_, hrow, rfl⟩⟩ hbtarget
          (Nat.lt_of_lt_of_le hlt h.later)
      · exact h
  · exact h

theorem follows_revoke : Follows (.server key) w₀ (revokeMcpServerCredentialBinding key b w).2 := by
  unfold revokeMcpServerCredentialBinding
  split
  · split
    · exact h.dropRow
    · exact h
  · exact h

end

end Vault

/-! ### Git -/

section Git

variable {sha : FileSha P} {repositoryId : RepositoryId} {w₀ w : World P} {key : Key}
variable (draft : McpServerDraft)

section

variable (h : Follows (.server (repositoryId, draft.id)) w₀ w)
  (hs : ∀ s, draft.authentication = .bearer s → s.owner = .server (repositoryId, draft.id))

include h hs

theorem follows_repoCreate : Follows (.server (repositoryId, draft.id)) w₀ (repoCreate repositoryId draft w).2 := by
  unfold repoCreate
  split
  · exact h
  · exact h
  · rename_i d _ hd
    obtain ⟨hid, hauth, -⟩ := mcpServerDefinitionSchema_some hd
    refine h.storeServer (fun d' hd' => ?_) fun d' s hd' hbearer => ?_
    · cases hd'
      exact hid
    · cases hd'
      exact hs s (hauth ▸ hbearer)

theorem follows_repoUpdate {fileSha : String} :
    Follows (.server (repositoryId, draft.id)) w₀ (repoUpdate sha repositoryId draft fileSha w).2 := by
  unfold repoUpdate
  split
  · exact h
  · split
    · exact h
    · split
      · exact h
      · rename_i d hd
        obtain ⟨hid, hauth, -⟩ := mcpServerDefinitionSchema_some hd
        refine h.storeServer (fun d' hd' => ?_) fun d' s hd' hbearer => ?_
        · cases hd'
          exact hid
        · cases hd'
          exact hs s (hauth ▸ hbearer)

end

theorem follows_repoDelete {fileSha : String} (h : Follows (.server key) w₀ w) :
    Follows (.server key) w₀ (repoDelete sha key fileSha w).2 := by
  unfold repoDelete
  split
  · exact h
  · split
    · exact h
    · exact h.storeServer (fun _ hd => by cases hd) fun _ _ hd => by cases hd

end Git

/-! ### The operations -/

section Operations

variable {sha : FileSha P} {repositoryId : RepositoryId} {key : Key} {w₀ w : World P} {input : McpServerInput}

theorem keeps_createSecret {token : Option String} :
    Keeps (Follows (.server key) w₀) (createSecret key token : Op P SecretId) fun s => s.owner = .server key := by
  cases token with
  | none => exact keeps_throw
  | some token => exact keeps_call fun w hw => follows_create hw token

theorem keeps_newAuthentication : Keeps (Follows (.server key) w₀) (newAuthentication key input : Op P Authentication)
    fun a => ∀ s, a = .bearer s → s.owner = .server key := by
  unfold newAuthentication
  split
  · refine keeps_bind keeps_createSecret fun s hs => keeps_pure ?_
    rintro _ ⟨⟩
    exact hs
  · refine keeps_pure ?_
    rintro _ ⟨⟩

theorem owner_of_secret {a : Authentication} (h : ∀ s, a = .bearer s → s.owner = .server key) :
    ∀ s, a.secret = some s → s.owner = .server key := by
  cases a with
  | none => exact fun s hs => by cases hs
  | bearer ref =>
    rintro s ⟨⟩
    exact h ref rfl

theorem keeps_establish {d : McpServerDefinition P} (hid : d.id = input.id)
    (hs : ∀ s, d.authentication = .bearer s → s.owner = .server (repositoryId, input.id)) :
    Keeps (Follows (.server (repositoryId, input.id)) w₀) (establish sha repositoryId input d) fun _ => True := by
  have hcreate : ∀ w, Follows (.server (repositoryId, input.id)) w₀ w →
      Follows (.server (repositoryId, input.id)) w₀ (repoCreate repositoryId d.draft w).2 := by
    rw [← hid] at hs ⊢
    exact fun w hw => follows_repoCreate d.draft hw hs
  have hsecret := owner_of_secret hs
  unfold establish
  refine keeps_bind (R := fun _ => True) (keeps_tryCatch (keeps_call fun w hw => ⟨hcreate w hw, fun _ _ => trivial⟩)
    fun _ => keeps_bind (keeps_cleanupSecret hsecret) fun _ _ => keeps_throw) fun created _ => ?_
  split
  · exact keeps_pure trivial
  · rename_i ref hbearer
    have href := hs ref hbearer
    refine keeps_tryCatch (keeps_bind (R := fun _ => True)
      (keeps_call fun w hw => ⟨(follows_ensure _ hw href).1, fun _ _ => trivial⟩) fun _ _ => keeps_pure trivial) fun _ => ?_
    refine keeps_bind (Keeps.ignore (R := fun _ => True)
      (keeps_call fun w hw => ⟨follows_repoDelete hw, fun _ _ => trivial⟩)) fun _ _ => ?_
    refine keeps_bind (keeps_cleanupSecret ?_) fun _ _ => keeps_throw
    rintro s ⟨⟩
    exact href

theorem follows_createMcpServer (hw : w.Sound) (φ : Fates) :
    Follows (.server (repositoryId, input.id)) w (createMcpServer sha repositoryId input φ w).2 := by
  refine Keeps.world (R := fun _ => True) ?_ (Follows.refl hw _)
  refine keeps_bind keeps_newAuthentication fun authentication ha => ?_
  split
  · exact keeps_throw
  · rename_i d hd
    obtain ⟨hid, hauth, -⟩ := mcpServerDefinitionSchema_some hd
    exact keeps_establish hid fun s hs => ha s (hauth.symm.trans hs)

def Stored (w : World P) (key : Key) (endpoint : String) (authority : Option Authority) : Prop :=
  ∀ s b, authority = some (s, b) → Holds w key endpoint s b

variable {old : McpServerDefinition P} {authority : Option Authority}

theorem wp_currentAuthority {φ : Fates} (h : Follows (.server key) w₀ w) (hold : w.servers key = some old) :
    Wp (currentAuthority key old) φ
      (fun a w' => Follows (.server key) w₀ w' ∧ a.map Prod.fst = old.authentication.secret ∧
        Stored w' key old.endpointUrl a) (fun _ w' => Follows (.server key) w₀ w') (Follows (.server key) w₀) w := by
  unfold currentAuthority
  split
  · rename_i hnone
    refine ⟨h, ?_, fun _ _ ha => by cases ha⟩
    rw [hnone]
    rfl
  · rename_i s hbearer
    obtain ⟨hfollows, hstored⟩ := follows_ensure old.endpointUrl h (h.sound.named key old s hold hbearer)
    rw [wp_bind]
    refine (wp_call_keeps (R := fun b w' => Holds w' key old.endpointUrl s b) h hfollows hstored).mono
      (fun b w' hb => ?_) (fun _ _ hw => hw) fun _ hw => hw
    refine ⟨hb.1, ?_, ?_⟩
    · rw [hbearer]
      rfl
    · rintro _ _ ⟨⟩
      exact hb.2

theorem Stored.owner {endpoint : String} (h : Stored w₀ key endpoint authority)
    (hw : w₀.Sound) : ∀ s, authority.map Prod.fst = some s → s.owner = .server key := by
  intro s hs
  obtain ⟨⟨_, b⟩, ha, rfl⟩ := Option.map_eq_some_iff.mp hs
  obtain ⟨trustTarget, -, hrow⟩ := h _ b ha
  exact (hw.bound _ _ hrow).2.1

theorem keeps_nextAuthentication (ha : ∀ s, authority.map Prod.fst = some s → s.owner = .server key) :
    Keeps (Follows (.server key) w₀) (nextAuthentication key authority input : Op P _)
      fun a => (∀ s, a.1 = .bearer s → s.owner = .server key) ∧ ∀ s, a.2 = some s → s.owner = .server key := by
  unfold nextAuthentication
  split
  · refine keeps_pure ⟨?_, ?_⟩
    · rintro _ ⟨⟩
    · rintro _ ⟨⟩
  · rename_i s b _ _
    refine keeps_pure ⟨?_, ?_⟩
    · rintro _ ⟨⟩
      exact ha s rfl
    · rintro _ ⟨⟩
  · refine keeps_bind keeps_createSecret fun s hs => keeps_pure ⟨?_, ?_⟩
    · rintro _ ⟨⟩
      exact hs
    · rintro _ ⟨⟩
      exact hs

theorem keeps_moveBinding {oldEndpoint newEndpoint : String} {next : Authentication}
    (hs : ∀ s, next = .bearer s → s.owner = .server key) :
    Keeps (Follows (.server key) w₀) (moveBinding key authority oldEndpoint newEndpoint next : Op P Unit)
      fun _ => True := by
  unfold moveBinding
  split
  · rename_i s'
    have howner := hs s' rfl
    split
    · exact keeps_bind (R := fun _ => True) (keeps_call fun w hw => ⟨follows_replace hw howner, fun _ _ => trivial⟩)
        fun _ _ => keeps_pure trivial
    · split
      · exact keeps_call fun w hw => ⟨follows_rotate hw howner, fun _ _ => trivial⟩
      · exact keeps_pure trivial
  · exact keeps_call fun w hw => ⟨follows_revoke hw, fun _ _ => trivial⟩
  · rename_i s'
    exact keeps_bind (R := fun _ => True) (keeps_call fun w hw => ⟨(follows_ensure _ hw (hs s' rfl)).1, fun _ _ => trivial⟩)
      fun _ _ => keeps_pure trivial
  · exact keeps_pure trivial

theorem keeps_compensate {saved : McpServerDefinition P} {candidate : Option SecretId} (h₀ : w₀.Sound)
    (hstored : Stored w₀ (repositoryId, old.id) old.endpointUrl authority)
    (hold : ∀ s, old.authentication = .bearer s → s.owner = .server (repositoryId, old.id))
    (hcandidate : ∀ s, candidate = some s → s.owner = .server (repositoryId, old.id)) :
    Keeps (Follows (.server (repositoryId, old.id)) w₀) (compensate sha repositoryId old saved authority candidate)
      fun _ => True := by
  have hrestore : Keeps (Follows (.server (repositoryId, old.id)) w₀)
      (restoreAuthority (repositoryId, old.id) authority old.endpointUrl : Op P Bool) fun _ => True := by
    unfold restoreAuthority
    split
    · rename_i s b
      exact Keeps.attempt (R := fun _ => True)
        (keeps_call fun w hw => ⟨follows_restore hw (hstored s b rfl) h₀, fun _ _ => trivial⟩)
    · exact keeps_pure trivial
  have hretire : Keeps (Follows (.server (repositoryId, old.id)) w₀)
      (cleanupSecret .retireCandidate candidate : Op P Unit) fun _ => True := keeps_cleanupSecret hcandidate
  unfold compensate
  refine keeps_bind hrestore fun authorityRestored _ => ?_
  refine keeps_bind (Keeps.attempt (R := fun _ => True)
    (keeps_call fun w hw => ⟨follows_repoUpdate old.draft hw hold, fun _ _ => trivial⟩))
    fun gitRestored _ => ?_
  unfold retire
  split
  · refine keeps_bind hretire fun _ _ => ?_
    split
    · exact keeps_cleanupSecret (hstored.owner h₀)
    · exact keeps_pure trivial
  · exact hretire

theorem follows_read {α : Type} {body : Option (McpServerDefinition P) → Op P α} (hw : w.Sound) (φ : Fates)
    (hnone : Keeps (Follows (.server key) w) (body none) fun _ => True)
    (hsome : ∀ old, w.servers key = some old →
      Wp (body (some old)) φ (fun _ w' => Follows (.server key) w w') (fun _ w' => Follows (.server key) w w')
        (Follows (.server key) w) w) :
    Follows (.server key) w ((call .read .unavailable (repoGet key) >>= body) φ w).2 := by
  have hrefl := Follows.refl hw (.server key)
  refine Wp.world ?_
  rw [wp_bind]
  refine (wp_call_ok rfl).mpr ⟨fun _ => ?_, fun _ => hrefl, fun _ => hrefl, fun _ => hrefl⟩
  cases hold : w.servers key with
  | none => exact (hnone φ w hrefl).mono (fun _ _ h => h.1) (fun _ _ h => h) fun _ h => h
  | some old => exact hsome old hold

theorem wp_authority {α : Type} {φ : Fates} {rest : Option Authority → Op P α}
    (hw : w.Sound) (hold : w.servers key = some old)
    (hrest : ∀ authority w₁, w₁.Sound → authority.map Prod.fst = old.authentication.secret →
      Stored w₁ key old.endpointUrl authority → Keeps (Follows (.server key) w₁) (rest authority) fun _ => True) :
    Wp (currentAuthority key old >>= rest) φ (fun _ w' => Follows (.server key) w w')
      (fun _ w' => Follows (.server key) w w') (Follows (.server key) w) w := by
  rw [wp_bind]
  refine (wp_currentAuthority (Follows.refl hw _) hold).mono (fun authority w₁ h => ?_) (fun _ _ h => h) fun _ h => h
  obtain ⟨hfollows, hsecret, hstored⟩ := h
  exact ((hrest authority w₁ hfollows.sound hsecret hstored).after (Follows.refl hfollows.sound _)
    fun w' h' => hfollows.trans h').mono (fun _ _ h => h.1) (fun _ _ h => h) fun _ h => h

/-- Whatever becomes of its requests, an update leads to a state that follows. -/
theorem follows_updateMcpServer {fileSha : String} (hw : w.Sound) (φ : Fates) :
    Follows (.server (repositoryId, input.id)) w (updateMcpServer sha repositoryId input fileSha φ w).2 := by
  refine follows_read hw φ keeps_throw fun old hold => wp_authority hw hold fun authority w₁ hw₁ hsecret hstored => ?_
  have hid : old.id = input.id := hw.filed _ old hold
  have howner := hstored.owner hw₁
  have hold' : ∀ s, old.authentication = .bearer s → s.owner = .server (repositoryId, input.id) :=
    fun s hs => hw.named _ old s hold hs
  rw [← hid] at howner hstored hold' ⊢
  refine keeps_bind (keeps_nextAuthentication howner) fun next hnext => ?_
  obtain ⟨authentication, candidate⟩ := next
  unfold commitUpdate
  have hupdate : ∀ w, Follows (.server (repositoryId, old.id)) w₁ w → Follows (.server (repositoryId, old.id)) w₁
      (repoUpdate sha repositoryId ⟨old.id, input.name, input.endpointUrl, authentication⟩ fileSha w).2 :=
    fun w hw => follows_repoUpdate ⟨old.id, input.name, input.endpointUrl, authentication⟩ hw hnext.1
  refine keeps_bind (R := fun _ => True) (keeps_tryCatch (keeps_call fun w hw => ⟨hupdate w hw, fun _ _ => trivial⟩)
    fun _ => keeps_bind (keeps_cleanupSecret hnext.2) fun _ _ => keeps_throw) fun saved _ => ?_
  refine keeps_bind (keeps_tryCatch (keeps_moveBinding hnext.1) fun _ =>
    keeps_bind (keeps_compensate hw₁ hstored hold' hnext.2) fun _ _ => keeps_throw) fun _ _ => ?_
  refine keeps_bind (keeps_cleanupSecret fun s hs => howner s ?_) fun _ _ => keeps_pure trivial
  unfold obsolete at hs
  split at hs
  · cases hs
  · exact hs

theorem keeps_undelete {s : SecretId} {b : BindingId} (h₀ : w₀.Sound)
    (hb : Holds w₀ (repositoryId, old.id) old.endpointUrl s b)
    (hold : ∀ s, old.authentication = .bearer s → s.owner = .server (repositoryId, old.id))
    (hs : s.owner = .server (repositoryId, old.id)) :
    Keeps (Follows (.server (repositoryId, old.id)) w₀) (undelete repositoryId old s b) fun _ => True := by
  unfold undelete
  refine keeps_bind (Keeps.attempt (R := fun _ => True)
    (keeps_call fun w hw => ⟨follows_restore hw hb h₀, fun _ _ => trivial⟩)) fun authorityRestored _ => ?_
  refine keeps_bind (Keeps.attempt (R := fun _ => True)
    (keeps_call fun w hw => ⟨follows_repoCreate old.draft hw hold, fun _ _ => trivial⟩)) fun gitRestored _ => ?_
  split
  · refine keeps_cleanupSecret ?_
    rintro _ ⟨⟩
    exact hs
  · exact keeps_pure trivial

theorem follows_deleteMcpServer {id fileSha : String} (hw : w.Sound) (φ : Fates) :
    Follows (.server (repositoryId, id)) w (deleteMcpServer sha repositoryId id fileSha φ w).2 := by
  refine follows_read hw φ keeps_throw fun old hold => wp_authority hw hold fun authority w₁ hw₁ hsecret hstored => ?_
  have hid : old.id = id := hw.filed _ old hold
  have howner := hstored.owner hw₁
  have hold' : ∀ s, old.authentication = .bearer s → s.owner = .server (repositoryId, id) :=
    fun s hs => hw.named _ old s hold hs
  subst hid
  refine keeps_bind (R := fun _ => True) (keeps_call fun w hw => ⟨follows_repoDelete hw, fun _ _ => trivial⟩)
    fun _ _ => ?_
  split
  · exact keeps_pure trivial
  · rename_i s b
    have hs := howner s rfl
    refine keeps_bind (keeps_tryCatch (R := fun _ => True)
      (keeps_call fun w hw => ⟨follows_revoke hw, fun _ _ => trivial⟩) fun _ =>
        keeps_bind (keeps_undelete hw₁ (hstored s b rfl) hold' hs) fun _ _ => keeps_throw) fun _ _ => ?_
    refine keeps_cleanupSecret ?_
    rintro _ ⟨⟩
    exact hs

end Operations

end ADT.Bindings
