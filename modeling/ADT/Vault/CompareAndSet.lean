import ADT.Lib.Clients
import ADT.Lib.Json

/-!
# Vault.CompareAndSet — `D1ProviderCredentialVault`

The secrets of `lib/provider-credential-vault.ts` and the token refresh of `lib/work-iq-auth.ts` that rotates one of
them.  `replaceIfRevision` compares the revision and raises it; `replace` leaves it as it is.  Where a statement that
does not raise the revision finds nobody who read it, `replaceIfRevision` succeeds only if nothing was written since the
revision was read (`compare_and_set`).
-/

namespace ADT.Vault

open Interleave

/-! ### The table and its statements -/

structure Envelope where
  ciphertext : String
  iv : String
  encryptionVersion : ℕ
  masterKeyVersion : ℕ

structure VaultRow where
  encrypted : Envelope
  revision : ℕ

inductive VaultError
  | secretIdInvalid | secretExists | secretUnavailable | persistenceFailed | credential | connectionUnavailable

/-- What a call of the vault asks for: the statements on `provider_credential_vault`, a random id, the cipher, and the
token endpoint, which answers with the bundle to store when it hands out another refresh token. -/
inductive Request
  | generateSecretId
  | encrypt (credential secretId : String)
  | decrypt (envelope : Envelope) (secretId : String)
  | select (secretId : String)
  | insert (secretId : String) (envelope : Envelope)
  | update (secretId : String) (envelope : Envelope)
  | updateIf (secretId : String) (revision : ℕ) (envelope : Envelope)
  | delete (secretId : String)
  | redeem (bundle : String)

@[reducible] def Answer : Request → Type
  | .generateSecretId => String
  | .encrypt _ _ => Except VaultError Envelope
  | .decrypt _ _ => Except VaultError String
  | .select _ => Option VaultRow
  | .insert _ _ | .update _ _ | .updateIf _ _ _ => Bool
  | .delete _ => Unit
  | .redeem _ => Except VaultError (Option String)

@[reducible] def signature : Signature := ⟨Request, Answer⟩

abbrev Service := Prog signature VaultError

/-- The rows by `secret_id`, the primary key. -/
abbrev Table := String → Option VaultRow

/-- What the outside answers. -/
structure Env where
  secretId : String
  encrypt : String → String → Except VaultError Envelope
  decrypt : Envelope → String → Except VaultError String
  redeem : String → Except VaultError (Option String)

def answer (env : Env) : (q : Request) → Table → Answer q × Table
  | .generateSecretId, t => (env.secretId, t)
  | .encrypt credential secretId, t => (env.encrypt credential secretId, t)
  | .decrypt envelope secretId, t => (env.decrypt envelope secretId, t)
  | .select secretId, t => (t secretId, t)
  | .insert secretId envelope, t =>
    if (t secretId).isSome then (false, t) else (true, Function.update t secretId (some ⟨envelope, 1⟩))
  | .update secretId envelope, t =>
    match t secretId with
    | some row => (true, Function.update t secretId (some { row with encrypted := envelope }))
    | none => (false, t)
  | .updateIf secretId revision envelope, t =>
    match t secretId with
    | some row =>
      if row.revision = revision then (true, Function.update t secretId (some ⟨envelope, row.revision + 1⟩))
      else (false, t)
    | none => (false, t)
  | .delete secretId, t => ((), Function.update t secretId none)
  | .redeem bundle, t => (env.redeem bundle, t)

@[reducible] def machine : Machine signature := ⟨Table, Env, answer⟩

abbrev Services := Pool machine VaultError

@[simp] def request (q : Request) : Service (Answer q) := .ask q .done

/-! ### The vault -/

/-- An answer that may be an error. -/
def orThrow {α : Type} : Except VaultError α → Service α
  | .ok a => pure a
  | .error e => throw e

/-- `^sec_[A-Za-z0-9_-]{43}$` -/
def isSecretId (s : String) : Bool :=
  s.toList.take 4 == "sec_".toList && s.toList.length == 47 &&
    (s.toList.drop 4).all fun c => c.isAlphanum || c == '_' || c == '-'

def assertSecretId (secretId : String) : Service Unit :=
  if isSecretId secretId then pure () else throw .secretIdInvalid

def insert (secretId credential : String) : Service Unit := do
  let encrypted ← orThrow (← request (.encrypt credential secretId))
  if ← request (.insert secretId encrypted) then
    return
  match ← request (.select secretId) with
  | some _ => throw .secretExists
  | none => throw .persistenceFailed

def create (credential : String) : Service String := do
  let secretId ← request .generateSecretId
  assertSecretId secretId
  insert secretId credential
  return secretId

structure Resolved where
  value : String
  revision : ℕ

def resolveWithRevision (secretId : String) : Service Resolved := do
  assertSecretId secretId
  match ← request (.select secretId) with
  | none => throw .secretUnavailable
  | some row =>
    let value ← orThrow (← request (.decrypt row.encrypted secretId))
    return ⟨value, row.revision⟩

def replaceIfRevision (secretId : String) (expectedRevision : ℕ) (credential : String) : Service Bool := do
  assertSecretId secretId
  if expectedRevision < 1 || 2 ^ 53 - 1 < expectedRevision then
    throw .persistenceFailed
  else
    let encrypted ← orThrow (← request (.encrypt credential secretId))
    request (.updateIf secretId expectedRevision encrypted)

def replace (secretId credential : String) : Service Unit := do
  assertSecretId secretId
  let encrypted ← orThrow (← request (.encrypt credential secretId))
  if ← request (.update secretId encrypted) then
    return
  throw .secretUnavailable

def delete (secretId : String) : Service Unit := do
  assertSecretId secretId
  request (.delete secretId)

/-- `resolveWorkIqConnection`: redeem the refresh token that is stored, and store the one that replaces it. -/
def resolveWorkIqConnection (secretRef : String) : Service Unit := do
  let first ← resolveWithRevision secretRef
  match ← orThrow (← request (.redeem first.value)) with
  | some replacement => (replaceIfRevision secretRef first.revision replacement).forget
  | none => pure ()
  (resolveWithRevision secretRef).forget

inductive Client
  | create (credential : String)
  | resolve (secretId : String)
  | replace (secretId credential : String)
  | replaceIfRevision (secretId : String) (expectedRevision : ℕ) (credential : String)
  | delete (secretId : String)
  | refresh (secretRef : String)

def Client.service : Client → Service Unit
  | .create credential => (Vault.create credential).forget
  | .resolve secretId => (resolveWithRevision secretId).forget
  | .replace secretId credential => Vault.replace secretId credential
  | .replaceIfRevision secretId revision credential => (Vault.replaceIfRevision secretId revision credential).forget
  | .delete secretId => Vault.delete secretId
  | .refresh secretRef => resolveWorkIqConnection secretRef

abbrev Move := Interleave.Move machine Client.service

/-- The clients under way and what they did, after the moves. -/
abbrev after (t : Table) (moves : List Move) : Services :=
  (Pool.init t).run (moves.map Move.action)

/-! ### Reads and writes of a secret -/

/-- The event read the secret at this revision. -/
def reads (secretId : String) (revision : ℕ) : Event signature → Bool
  | ⟨_, .select id, some row⟩ => id == secretId && row.revision == revision
  | _ => false

/-- The event changed what is stored for the secret. -/
def changes (secretId : String) : Event signature → Bool
  | ⟨_, .insert id _, ok⟩ | ⟨_, .update id _, ok⟩ | ⟨_, .updateIf id _ _, ok⟩ => id == secretId && ok
  | ⟨_, .delete id, _⟩ => id == secretId
  | _ => false

/-- A `replaceIfRevision` succeeded only if nothing changed the secret since any read of that revision. -/
def CompareAndSet (pool : Services) : Prop :=
  ∀ later thread secretId revision envelope mid read earlier,
    pool.trace = later ++ ⟨thread, .updateIf secretId revision envelope, true⟩ :: (mid ++ read :: earlier) →
    reads secretId revision read = true → ∀ e ∈ mid, changes secretId e = false

/-- Nobody has read what the statement leaves at a revision it did not raise. -/
def unread (trace : List (Event signature)) (t : Table) : Request → Bool
  | .update secretId _ =>
    match t secretId with
    | some row => trace.all fun e => !reads secretId row.revision e
    | none => true
  | .insert secretId _ => (t secretId).isSome || trace.all fun e => !(match e with
    | ⟨_, .select id, some _⟩ => id == secretId
    | _ => false)
  | _ => true

/-- The next request of the thread that moves meets `unread`. -/
def unreadMove (pool : Services) : Action machine VaultError → Bool
  | .spawn _ => true
  | .run t _ =>
    match pool.threads[t]? with
    | some (.ask q _) => unread pool.trace pool.world q
    | _ => true

def Unread (pool : Services) (a : Action machine VaultError) : Prop := unreadMove pool a = true

instance (pool : Services) (a : Action machine VaultError) : Decidable (Unread pool a) :=
  inferInstanceAs (Decidable (_ = true))

/-! ### One statement -/

section Statement

variable {t : Table} {env : Env} {q : Request} {thread : ℕ} {secretId : String} {row : VaultRow}

/-- Where a row comes from: it was there, or one of the writes made it. -/
theorem row_cases (h : (answer env q t).2 secretId = some row) :
    (t secretId = some row ∧ changes secretId ⟨thread, q, (answer env q t).1⟩ = false) ∨
    (∃ old envelope, t secretId = some old ∧ q = .update secretId envelope ∧ row.revision = old.revision) ∨
    (∃ old envelope revision, t secretId = some old ∧ q = .updateIf secretId revision envelope ∧
      row.revision = old.revision + 1) ∨
    ∃ envelope, t secretId = none ∧ q = .insert secretId envelope := by
  cases q
  case insert id envelope =>
    by_cases hid : id = secretId
    · subst hid
      rcases hold : t id with _ | old
      · exact .inr (.inr (.inr ⟨envelope, rfl, rfl⟩))
      · simp only [answer, hold, Option.isSome_some, if_true] at h ⊢
        exact .inl ⟨h, by simp [changes]⟩
    · refine .inl ⟨?_, by simp [changes, hid]⟩
      simp only [answer] at h
      split at h
      · exact h
      · simpa only [Function.update_of_ne (Ne.symm hid)] using h
  case update id envelope =>
    by_cases hid : id = secretId
    · subst hid
      rcases hold : t id with _ | old
      · simp [answer, hold] at h
      · simp only [answer, hold, Function.update_self, Option.some.injEq] at h
        exact .inr (.inl ⟨old, envelope, rfl, rfl, by rw [← h]⟩)
    · refine .inl ⟨?_, by simp [changes, hid]⟩
      simp only [answer] at h
      split at h
      · simpa only [Function.update_of_ne (Ne.symm hid)] using h
      · exact h
  case updateIf id revision envelope =>
    by_cases hid : id = secretId
    · subst hid
      rcases hold : t id with _ | old
      · simp [answer, hold] at h
      · by_cases hrev : old.revision = revision
        · simp only [answer, hold, if_pos hrev, Function.update_self, Option.some.injEq] at h
          exact .inr (.inr (.inl ⟨old, envelope, revision, rfl, rfl, by rw [← h]⟩))
        · simp only [answer, hold, if_neg hrev] at h ⊢
          exact .inl ⟨h, by simp [changes]⟩
    · refine .inl ⟨?_, by simp [changes, hid]⟩
      simp only [answer] at h
      split at h
      · split at h
        · simpa only [Function.update_of_ne (Ne.symm hid)] using h
        · exact h
      · exact h
  case delete id =>
    by_cases hid : id = secretId
    · subst hid
      simp [answer] at h
    · exact .inl ⟨by simpa only [answer, Function.update_of_ne (Ne.symm hid)] using h, by simp [changes, hid]⟩
  all_goals exact .inl ⟨h, rfl⟩

theorem reads_spec {revision : ℕ} {e : Event signature} (h : reads secretId revision e = true) :
    ∃ thread row, e = ⟨thread, .select secretId, some row⟩ ∧ row.revision = revision := by
  rcases e with ⟨thread, q, a⟩
  cases q
  case select id =>
    rcases a with _ | row
    · cases h
    · simp only [reads, Bool.and_eq_true, beq_iff_eq] at h
      obtain ⟨rfl, hrev⟩ := h
      exact ⟨thread, row, rfl, hrev⟩
  all_goals cases h

theorem updateIf_true {revision : ℕ} {envelope : Envelope}
    (h : (answer env (.updateIf secretId revision envelope) t).1 = true) :
    ∃ old, t secretId = some old ∧ old.revision = revision := by
  simp only [answer] at h
  split at h
  · rename_i old hold
    split at h
    · rename_i hrev
      exact ⟨old, hold, hrev⟩
    · cases h
  · cases h

end Statement

/-! ### Runs -/

/-- Everybody who read a secret is behind it, or it has not changed since. -/
structure Tracked (pool : Services) : Prop where
  known : ∀ mid read earlier secretId revision row, pool.trace = mid ++ read :: earlier →
    reads secretId revision read = true → pool.world secretId = some row →
    revision ≤ row.revision ∧ (row.revision = revision → ∀ e ∈ mid, changes secretId e = false)
  guarded : CompareAndSet pool

theorem tracked_init (t : Table) : Tracked (Pool.init t) where
  known := by simp [Pool.init]
  guarded := by simp [CompareAndSet, Pool.init]

variable {pool : Services} {thread : ℕ} {env : Env} {q : Request}
variable {read : Event signature} {secretId : String}

/-- A row at a revision that was read has not changed since. -/
theorem known_answer (h : Tracked pool) (hu : unread pool.trace pool.world q = true)
    {mid earlier : List (Event signature)} {revision : ℕ} {row : VaultRow}
    (htrace : (⟨thread, q, (answer env q pool.world).1⟩ : Event signature) :: pool.trace = mid ++ read :: earlier)
    (hread : reads secretId revision read = true) (hrow : (answer env q pool.world).2 secretId = some row) :
    revision ≤ row.revision ∧ (row.revision = revision → ∀ e ∈ mid, changes secretId e = false) := by
  rcases mid with _ | ⟨e, mid⟩
  · -- the request itself is the read
    obtain ⟨hhead, _⟩ := List.cons.inj htrace
    obtain ⟨thread', found, rfl, hrev⟩ := reads_spec hread
    obtain rfl : q = .select secretId := congrArg Event.request hhead
    have hfound : pool.world secretId = some found := by
      simp only [answer, Event.mk.injEq, heq_eq_eq, true_and] at hhead
      exact hhead.2
    have hsame : found = row := Option.some.inj (hfound.symm.trans hrow)
    exact ⟨by rw [← hrev, hsame], fun _ e he => by cases he⟩
  · obtain ⟨rfl, hrest⟩ := List.cons.inj htrace
    have hmem : read ∈ pool.trace := by rw [hrest]; simp
    rcases row_cases hrow with ⟨hold, hsame⟩ | ⟨old, envelope, hold, rfl, hrev⟩ |
      ⟨old, envelope, expected, hold, rfl, hrev⟩ | ⟨envelope, hold, rfl⟩
    · obtain ⟨hle, hmid⟩ := h.known mid read earlier secretId revision row hrest hread hold
      refine ⟨hle, fun heq e he => ?_⟩
      rcases List.mem_cons.1 he with rfl | he
      · exact hsame
      · exact hmid heq e he
    · -- nobody has read the revision that `replace` leaves
      obtain ⟨hle, _⟩ := h.known mid read earlier secretId revision old hrest hread hold
      refine ⟨by omega, fun heq => ?_⟩
      simp only [unread, hold, List.all_eq_true, Bool.not_eq_true'] at hu
      have := hu read hmem
      rw [← hrev, heq, hread] at this
      cases this
    · obtain ⟨hle, _⟩ := h.known mid read earlier secretId revision old hrest hread hold
      exact ⟨by omega, fun heq => by omega⟩
    · -- nobody has read the secret that `create` makes
      obtain ⟨thread', row', rfl, _⟩ := reads_spec hread
      simp only [unread, hold, Option.isSome_none, Bool.false_or, List.all_eq_true] at hu
      simpa using hu _ hmem

theorem guarded_answer (h : Tracked pool) {later mid earlier : List (Event signature)} {thread' : ℕ} {revision : ℕ}
    {envelope : Envelope}
    (htrace : (⟨thread, q, (answer env q pool.world).1⟩ : Event signature) :: pool.trace =
      later ++ ⟨thread', .updateIf secretId revision envelope, true⟩ :: (mid ++ read :: earlier))
    (hread : reads secretId revision read = true) : ∀ e ∈ mid, changes secretId e = false := by
  rcases later with _ | ⟨e, later⟩
  · obtain ⟨hhead, hrest⟩ := List.cons.inj htrace
    obtain rfl : q = .updateIf secretId revision envelope := congrArg Event.request hhead
    have htrue : (answer env (.updateIf secretId revision envelope) pool.world).1 = true := by
      simp only [Event.mk.injEq, heq_eq_eq, true_and] at hhead
      exact hhead.2
    obtain ⟨old, hold, hrev⟩ := updateIf_true htrue
    exact (h.known mid read earlier secretId revision old hrest hread hold).2 hrev
  · exact h.guarded later thread' secretId revision envelope mid read earlier (List.cons.inj htrace).2 hread

/-- **One move.** -/
theorem tracked_step (h : Tracked pool) {a : Action machine VaultError} (hu : Unread pool a) :
    Tracked (pool.step a) := by
  rcases Pool.step_cases pool a with ⟨p, rfl, hs⟩ | ⟨t, env, q, next, rfl, ht, hs⟩ | ⟨_, hs⟩
  · rw [hs]
    exact ⟨h.known, h.guarded⟩
  · have hq : unread pool.trace pool.world q = true := by simpa only [Unread, unreadMove, ht] using hu
    rw [hs]
    exact ⟨fun _ _ _ _ _ _ htrace hread hrow => known_answer h hq htrace hread hrow,
      fun _ _ _ _ _ _ _ _ htrace hread => guarded_answer h htrace hread⟩
  · rw [hs]
    exact h

/-- **Compare and set.** Where a statement that does not raise the revision of a secret finds nobody who read it, a
`replaceIfRevision` succeeds only if the secret has not changed since its revision was read. -/
theorem compare_and_set (t : Table) (moves : List Move)
    (h : Pool.Along Unread (Pool.init t) (moves.map Move.action)) : CompareAndSet (after t moves) :=
  (Pool.run_invariant (fun _ _ hu hp => tracked_step hp hu) h (tracked_init t)).guarded

def sampleId : String := "sec_0123456789abcdefghijABCDEFGHIJ0123456789_-_"

/-- A cipher that can be read, and a token endpoint that hands out another refresh token. -/
def sampleEnv : Env where
  secretId := sampleId
  encrypt credential _ := .ok ⟨credential, "", 1, 1⟩
  decrypt envelope _ := .ok envelope.ciphertext
  redeem _ := .ok (some "rotated")

def sampleTable : Table := Function.update (fun _ => none) sampleId (some ⟨⟨"first", "", 1, 1⟩, 1⟩)

/-- Thread `t` issues its next `n` requests. -/
abbrev runs (t n : ℕ) : List Move := Interleave.runs t n sampleEnv

/-- Two refreshes at once: both read the bundle, both redeem its token, and both store another one. -/
def refreshedTwice : List Move :=
  .client (.refresh sampleId) :: .client (.refresh sampleId) :: (runs 0 3 ++ runs 1 3 ++ runs 0 2 ++ runs 1 2)

theorem refreshedTwice_guarded : CompareAndSet (after sampleTable refreshedTwice) :=
  compare_and_set sampleTable refreshedTwice (by decide +kernel)

/-- The bundle is replaced while its token is being redeemed. -/
def replacedMeanwhile : List Move :=
  .client (.refresh sampleId) :: .client (.replace sampleId "second") :: (runs 0 3 ++ runs 1 2 ++ runs 0 2)

theorem replacedMeanwhile_overwritten : ¬∀ moves, CompareAndSet (after sampleTable moves) := by
  intro h
  have hmid := h replacedMeanwhile [] 0 sampleId 1 ⟨"rotated", "", 1, 1⟩
    [⟨0, .encrypt "rotated" sampleId, .ok ⟨"rotated", "", 1, 1⟩⟩, ⟨1, .update sampleId ⟨"second", "", 1, 1⟩, true⟩,
      ⟨1, .encrypt "second" sampleId, .ok ⟨"second", "", 1, 1⟩⟩, ⟨0, .redeem "first", .ok (some "rotated")⟩,
      ⟨0, .decrypt ⟨"first", "", 1, 1⟩ sampleId, .ok "first"⟩]
    ⟨0, .select sampleId, some ⟨⟨"first", "", 1, 1⟩, 1⟩⟩ [] rfl (by decide)
  have hupdate := hmid ⟨1, .update sampleId ⟨"second", "", 1, 1⟩, true⟩ (by simp)
  simp [changes] at hupdate

end ADT.Vault
