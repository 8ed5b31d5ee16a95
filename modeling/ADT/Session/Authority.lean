import ADT.Session.Access

/-!
# Session.Authority — what a granted access rests on

A denial is written like a success, whichever verification it comes from; so the success of a verification that started
before a denial was persisted can overwrite it.  In a run in which no such success is persisted, an access is granted
to a session that was not revoked when it was loaded, on a verification of the same user for the configured repository,
which is fresh and started after every denial that was persisted before the session was loaded (`session_authority`).
-/

namespace ADT.Session

open Interleave

abbrev Trace := List (Event signature)

/-! ### Verifications, denials and revocations -/

/-- The verification of a request starts as soon as its token is decrypted. -/
def starts (t : ℕ) : Event signature → Bool
  | ⟨t', .decrypt _ _, some _⟩ => t' == t
  | _ => false

/-- The event persisted the denial of a verification: one of a sign-in, or of a request that started one. -/
def denies (earlier : Trace) : Event signature → Bool
  | ⟨_, .insertSession row, outcome⟩ => row.authorization.state == .denied && outcome.effective
  | ⟨t, .updateAuthorization authorization _, outcome⟩ =>
    authorization.state == .denied && outcome.effective && earlier.any (starts t)
  | _ => false

def revokes : Event signature → Bool
  | ⟨_, .revoke _, outcome⟩ => outcome.effective
  | _ => false

/-- A denial was persisted since thread `t` started its verification. -/
def deniedSince (t : ℕ) : Trace → Bool
  | [] => false
  | e :: earlier => !starts t e && (denies earlier e || deniedSince t earlier)

/-- A verification: whom and what it is for, its clock, what it found, and where it started. -/
structure Verification where
  thread : ℕ
  user : GitHubUser
  token : String
  config : GitHubAppConfig
  now : Time
  repositoryId : Option ℤ
  installationId : Option ℤ
  start : Event signature
  /-- The events before the start. -/
  before : Trace

/-- What the verification grants. -/
def Verification.columns (v : Verification) : AuthorizationColumns :=
  ⟨.authorized, none, v.config.owner, v.config.repo, v.repositoryId, v.installationId, v.now⟩

/-- The verification succeeded: it read its clock and started, with a token that GitHub named the user of; the user is
one that is allowed; and GitHub answered with the configured repository and an installation. -/
structure Succeeded (P : Platform) (trace : Trace) (v : Verification) : Prop where
  begun : v.start = ⟨v.thread, .clock, v.now⟩ ∨
    ∃ ciphertext iv, v.start = ⟨v.thread, .decrypt ciphertext iv, some v.token⟩ ∧
      ⟨v.thread, .configuration, (v.now, some v.config)⟩ ∈ v.before
  identified : ∃ t, ⟨t, .getUser v.token, some v.user⟩ ∈ v.before
  allowed : allowed P.toLowerCase v.config v.user.login = true
  passed : ∃ mid repo, trace = mid ++ v.start :: v.before ∧
    ⟨v.thread, .getConfiguredRepository v.config v.token, .value repo⟩ ∈ mid ∧
    sameRepository P.toLowerCase v.config repo.ownerLogin repo.name = true ∧ repo.id = v.repositoryId ∧
    ⟨v.thread, .getRepositoryInstallation v.config, .value v.installationId⟩ ∈ mid

/-- The access of thread `t` rests on: a session that was not revoked when it was loaded, and a successful verification
of the same user for the repository that is configured, which started less than `authorizationFreshnessMs` before the
request read its clock and, in a run that is `timely`, after every denial that was persisted before the session was
loaded. -/
def Entitled (P : Platform) (timely : Prop) (trace : Trace) (t : ℕ) (access : RepositoryAccessContext) : Prop :=
  ∃ mid row before now config v,
    trace = mid ++ ⟨t, .selectSession, .ok (some row)⟩ :: before ∧ (∀ e ∈ before, revokes e = false) ∧
    ⟨t, .configuration, (now, some config)⟩ ∈ mid ∧
    Succeeded P trace v ∧ v.user.id = access.githubId ∧
    sameRepository P.toLowerCase config v.config.owner v.config.repo = true ∧
    access.repositoryId = v.repositoryId ∧ access.installationId = v.installationId ∧
    now - v.now < authorizationFreshnessMs ∧
    (timely → ∀ d b, d :: b <:+ before → denies b d = true → d :: b <:+ v.before)

/-! ### What a thread has done before it writes and before it goes on -/

abbrev Own := List ((q : Request) × Answer q)

/-- A successful verification, as its thread sees it. -/
structure Check where
  user : GitHubUser
  token : String
  config : GitHubAppConfig
  now : Time
  repo : GitHubRepository
  installationId : Option ℤ

def Check.own (v : Check) : Own :=
  [⟨.getRepositoryInstallation v.config, .value v.installationId⟩, ⟨.createGitHubAppJwt, .ok ()⟩,
    ⟨.getConfiguredRepository v.config v.token, .value v.repo⟩]

def Check.Passes (P : Platform) (v : Check) : Prop :=
  allowed P.toLowerCase v.config v.user.login = true ∧
    sameRepository P.toLowerCase v.config v.repo.ownerLogin v.repo.name = true

def Check.context (v : Check) : RepositoryAccessContext :=
  ⟨v.config.owner, v.config.repo, v.user.login, v.user.id, v.repo.id, v.installationId, v.now⟩

/-- A request that loaded the session and read the clock and the configuration. -/
structure Entry where
  loadedAt : Time
  row : SessionRow
  session : SessionRecord
  now : Time
  config : GitHubAppConfig

def Entry.own (x : Entry) : Own :=
  [⟨.configuration, (x.now, some x.config)⟩, ⟨.selectSession, .ok (some x.row)⟩, ⟨.clock, x.loadedAt⟩]

def Entry.Found (x : Entry) : Prop := foundSession x.loadedAt (some x.row) = some x.session

/-- The request verified its user again, with what the token of the session decrypts to. -/
def Verified (P : Platform) (own : Own) (x : Entry) (v : Check) : Prop :=
  v.user = ⟨x.session.githubId, x.session.login⟩ ∧ v.config = x.config ∧ v.now = x.now ∧ v.Passes P ∧
    ∃ ciphertext iv key, x.session.tokens.encryptedUserAccessToken = some ciphertext ∧
      x.session.tokens.tokenIv = some iv ∧ P.decrypt key iv ciphertext = some v.token ∧
      own = v.own ++ ⟨.decrypt ciphertext iv, some v.token⟩ :: x.own

/-- The token columns hold nothing but the token. -/
def Sealed (P : Platform) (tokens : TokenColumns) (token : String) : Prop :=
  ∀ ciphertext iv key text, tokens.encryptedUserAccessToken = some ciphertext → tokens.tokenIv = some iv →
    P.decrypt key iv ciphertext = some text → text = token

/-- A sign-in identified the user of the row, and verified it where the row is authorized. -/
def SignedIn (P : Platform) (own : Own) (row : SessionRow) : Prop :=
  ∃ user token, row.githubId = user.id ∧ row.login = user.login ∧ row.revokedAt = none ∧ Sealed P row.tokens token ∧
    ⟨.getUser token, some user⟩ ∈ own ∧ (row.authorization.state = .authorized → ∃ (v : Check) (later earlier : Own),
      v.user = user ∧ v.token = token ∧ v.Passes P ∧ own = later ++ (v.own ++ ⟨.clock, v.now⟩ :: earlier) ∧
      ⟨.getUser token, some user⟩ ∈ earlier ∧
      row.authorization = (createRepositoryAuthorizationRecord v.context v.now).toAuthorizationColumns)

/-- The authorization a request writes is one its verification granted, or a denial. -/
def Resolved (P : Platform) (own : Own) (authorization : AuthorizationColumns) (tokens : TokenColumns) : Prop :=
  ∃ x : Entry, x.Found ∧ x.own <:+ own ∧ tokens = x.session.tokens ∧ (authorization.state = .authorized →
    ∃ v, Verified P own x v ∧
      authorization = (createRepositoryAuthorizationRecord v.context v.now).toAuthorizationColumns)

/-- A request goes on with the access that is stored, or that it verified itself. -/
def Granted (P : Platform) (own : Own) (access : RepositoryAccessContext) : Prop :=
  ∃ x : Entry, x.Found ∧ (own = x.own ∧ storedAuthorizationMatchesConfig P.toLowerCase x.session x.config = true ∧
      authorizationRequiresRevalidation x.session.repositoryAuthorization x.now = false ∧
      storedUsable x.session.repositoryAuthorization = true ∧ access = storedAccess P.toLowerCase x.session ∨
    ∃ v own' written, Verified P own' x v ∧ own = written :: own' ∧ access = v.context)

def founded (P : Platform) (own : Own) : Request → Prop
  | .insertSession row => SignedIn P own row
  | .updateAuthorization authorization tokens => Resolved P own authorization tokens
  | .proceed access => Granted P own access
  | _ => True

/-- The cipher opens only to what was sealed. -/
def ciphers (P : Platform) : (q : Request) → Answer q → Prop
  | .encrypt token, answered => ∀ ciphertext iv key text, answered = some (ciphertext, iv) →
    P.decrypt key iv ciphertext = some text → text = token
  | .decrypt ciphertext iv, answered => ∀ token, answered = some token → ∃ key, P.decrypt key iv ciphertext = some token
  | _, _ => True

def authority (P : Platform) : Discipline signature Own := Discipline.recording (founded P) (ciphers P)

/-! ### Every client keeps the discipline -/

section Keeps

variable {P : Platform} {own : Own} {α : Type} {Q : Except AuthError α → Own → Prop}

/-- The program writes and goes on only as it may. -/
abbrev Acts (P : Platform) (p : Service α) (own : Own) : Prop := (authority P).Keeps p own fun _ _ => True

theorem keeps_ask {q : Request} {next : Answer q → Service α} (hq : founded P own q)
    (h : ∀ a, ciphers P q a → (authority P).Keeps (next a) (⟨q, a⟩ :: own) Q) : (authority P).Keeps (.ask q next) own Q :=
  ⟨hq, h⟩

theorem acts_revoke : Acts P revokeSession own := by
  refine keeps_ask trivial fun now _ => keeps_ask trivial fun outcome _ => ?_
  cases outcome <;> trivial

theorem keeps_verify {user : GitHubUser} {token : String} {config : GitHubAppConfig} {now : Time}
    {Q : Except AuthError RepositoryAuthorizationStatus → Own → Prop} (herror : ∀ e own', Q (.error e) own')
    (hdenied : ∀ reason own', own <:+ own' → Q (.ok (.denied reason)) own')
    (hok : ∀ v : Check, v.user = user → v.token = token → v.config = config → v.now = now → v.Passes P →
      Q (.ok (.ok v.context)) (v.own ++ own)) :
    (authority P).Keeps (verifyRepositoryAuthorization P.toLowerCase user token config now) own Q := by
  unfold verifyRepositoryAuthorization
  split
  · exact hdenied _ _ List.suffix_rfl
  rename_i hallowed
  refine keeps_ask trivial fun reply _ => ?_
  rcases reply with repo | status | _
  · show (authority P).Keeps (if !sameRepository P.toLowerCase config repo.ownerLogin repo.name then _ else _) _ _
    split
    · exact hdenied _ _ (List.suffix_cons _ _)
    rename_i hsame
    refine keeps_ask trivial fun jwt _ => ?_
    rcases jwt with e | _
    · cases e
      case configuration => exact herror _ _
      all_goals exact hdenied _ _ ((List.suffix_cons _ _).trans (List.suffix_cons _ _))
    refine keeps_ask trivial fun installation _ => ?_
    have hsuffix : own <:+ ⟨.getRepositoryInstallation config, installation⟩ :: ⟨.createGitHubAppJwt, .ok ()⟩ ::
        ⟨.getConfiguredRepository config token, .value repo⟩ :: own :=
      ((List.suffix_cons _ _).trans (List.suffix_cons _ _)).trans (List.suffix_cons _ _)
    rcases installation with installationId | status | _
    · exact hok ⟨user, token, config, now, repo, installationId⟩ rfl rfl rfl rfl
        ⟨by simpa using hallowed, by simpa using hsame⟩
    · exact hdenied _ _ hsuffix
    · exact hdenied _ _ hsuffix
  · exact hdenied _ _ (List.suffix_cons _ _)
  · exact hdenied _ _ (List.suffix_cons _ _)

/-! ### Signing in -/

theorem acts_createSession {exchanged : Exchanged}
    (hrow : ∀ config (now : Time) tokens own', own <:+ own' → Sealed P tokens exchanged.userAccessToken →
      SignedIn P own' { githubId := exchanged.user.id, login := exchanged.user.login, revokedAt := none, tokens
                        expiresAt := min (now + sessionTtlMs) exchanged.userTokenExpiresAt
                        authorization := (initialAuthorization exchanged config now).toAuthorizationColumns }) :
    Acts P (createSession exchanged) own := by
  refine keeps_ask trivial fun read _ => ?_
  rcases read with ⟨now₁, _ | config⟩
  · trivial
  have hinsert : ∀ tokens own', own <:+ own' → Sealed P tokens exchanged.userAccessToken → Acts P
      (do
        let now ← request .clock
        changedAny (← request (.insertSession
          { githubId := exchanged.user.id, login := exchanged.user.login, revokedAt := none, tokens
            expiresAt := min (now + sessionTtlMs) exchanged.userTokenExpiresAt
            authorization := (initialAuthorization exchanged config now).toAuthorizationColumns }))) own' := by
    intro tokens own' hsuffix hsealed
    refine keeps_ask trivial fun now _ => ?_
    refine keeps_ask (hrow config now tokens _ (hsuffix.trans (List.suffix_cons _ _)) hsealed) fun outcome _ => ?_
    cases outcome <;> trivial
  show Acts P (tokenColumns exchanged >>= _) _
  unfold tokenColumns
  split
  · refine keeps_ask trivial fun answered hcipher => ?_
    rcases answered with _ | ⟨ciphertext, iv⟩
    · trivial
    · refine hinsert _ _ ((List.suffix_cons _ _).trans (List.suffix_cons _ _)) ?_
      rintro _ _ key text ⟨⟩ ⟨⟩ hopen
      exact hcipher ciphertext iv key text rfl hopen
  · refine hinsert _ _ (List.suffix_cons _ _) ?_
    rintro _ _ key text ⟨⟩

theorem acts_signIn : Acts P (signIn P.toLowerCase) own := by
  refine keeps_ask trivial fun read _ => ?_
  rcases read with ⟨now₀, _ | config⟩
  · trivial
  refine keeps_ask trivial fun exchanged _ => ?_
  rcases exchanged with _ | ⟨token, expiresIn⟩
  · trivial
  refine keeps_ask trivial fun now₁ _ => keeps_ask trivial fun user _ => ?_
  rcases user with _ | user
  · trivial
  refine keeps_ask trivial fun now _ => ?_
  show Acts P ((verifyRepositoryAuthorization P.toLowerCase user token config now >>= fun status =>
    pure ⟨user, status, token, now₁ + max 1 (expiresIn.getD 28800) * 1000⟩) >>= createSession) _
  refine Discipline.keeps_bind (Discipline.keeps_bind (keeps_verify (fun e own' => trivial)
    (fun reason own' hsuffix => ?_) fun v huser htoken hconfig hnow hpasses => ?_))
  · refine acts_createSession fun config' now' tokens own'' hsuffix' hsealed => ?_
    refine ⟨user, token, rfl, rfl, rfl, hsealed, (hsuffix.trans hsuffix').mem (by simp), fun hstate => ?_⟩
    cases hstate
  · refine acts_createSession fun config' now' tokens own'' hsuffix' hsealed => ?_
    obtain ⟨later, rfl⟩ := hsuffix'
    refine ⟨user, token, rfl, rfl, rfl, hsealed, by simp, fun _ => ?_⟩
    exact ⟨v, later, _, huser, htoken, hpasses, by rw [hnow], by simp, rfl⟩

/-! ### Access -/

variable {x : Entry}
variable {session : SessionRecord}

theorem keeps_persist {authorization : RepositoryAuthorization} {result : Resolution}
    {Q : Except AuthError Resolution → Own → Prop}
    (hneeds : Resolved P own authorization.toAuthorizationColumns session.tokens)
    (hfailure : ∀ own', Q (.ok (.failure .temporaryUnavailable)) own') (hdone : ∀ outcome, Q (.ok result)
      (⟨.updateAuthorization authorization.toAuthorizationColumns session.tokens, outcome⟩ :: own)) :
    (authority P).Keeps (persistAuthorization session authorization result) own Q := by
  refine keeps_ask hneeds fun outcome _ => ?_
  rcases outcome with (_ | _ | n) | tookEffect
  · exact hfailure _
  · exact hdone _
  · exact hfailure _
  · exact hfailure _

/-- What a request may go on with, whatever came before. -/
abbrev Resolves (P : Platform) (p : Service Resolution) (own : Own) : Prop :=
  (authority P).Keeps p own fun r own' => ∀ context, r = .ok (.access context) → Granted P own' context

theorem resolves_reauthenticate : Resolves P reauthenticate own :=
  Discipline.keeps_bind (acts_revoke.mono fun r _ _ => by cases r <;> exact fun _ h => by cases h)

/-- A revalidation goes on only with a context that is granted. -/
theorem resolves_revalidate (hx : x.Found) : Resolves P (revalidate P.toLowerCase x.session x.config x.now) x.own := by
  unfold revalidate
  split
  · exact resolves_reauthenticate
  rename_i ciphertext iv husable
  refine keeps_ask trivial fun answered hcipher => ?_
  rcases answered with _ | token
  · exact resolves_reauthenticate
  show Resolves P (verifyRepositoryAuthorization P.toLowerCase ⟨x.session.githubId, x.session.login⟩ token x.config
    x.now >>= fun status =>
      persistAuthorization x.session (statusRecord x.session x.config x.now status) (statusResult status)) _
  refine Discipline.keeps_bind (keeps_verify (fun e own' => ?_) (fun reason own' hsuffix => ?_)
    fun v huser htoken hconfig hnow hpasses => ?_)
  · exact fun _ h => by cases h
  · refine keeps_persist ⟨x, hx, (List.suffix_cons _ _).trans hsuffix, rfl, fun hstate => ?_⟩ ?_ ?_
    · cases hstate
    · exact fun _ _ h => by cases h
    · exact fun _ _ h => by cases h
  · obtain ⟨key, hopen⟩ := hcipher token rfl
    have hcolumns : x.session.tokens.encryptedUserAccessToken = some ciphertext ∧
        x.session.tokens.tokenIv = some iv := by
      unfold usableToken at husable
      split at husable
      · rename_i htokens
        split at husable
        · cases husable
          rw [htokens]
          exact ⟨rfl, rfl⟩
        · cases husable
      · cases husable
    have hverified : Verified P (v.own ++ ⟨.decrypt ciphertext iv, some token⟩ :: x.own) x v :=
      ⟨huser, hconfig, hnow, hpasses, ciphertext, iv, key, hcolumns.1, hcolumns.2, by rw [htoken]; exact hopen,
        by rw [htoken]⟩
    refine keeps_persist ⟨x, hx, ?_, rfl, fun _ => ⟨v, hverified, by rw [hnow]; rfl⟩⟩ ?_ ?_
    · exact (List.suffix_cons _ _).trans (List.suffix_append _ _)
    · exact fun _ _ h => by cases h
    · rintro outcome context ⟨⟩
      exact ⟨x, hx, .inr ⟨v, _, _, hverified, rfl, rfl⟩⟩

theorem resolves_access {loadedAt : Time} {row : SessionRow}
    (hfound : foundSession loadedAt (some row) = some session) :
    Resolves P (resolveRepositoryAccess P.toLowerCase session) [⟨.selectSession, .ok (some row)⟩, ⟨.clock, loadedAt⟩] := by
  refine keeps_ask trivial fun read _ => ?_
  rcases read with ⟨now, _ | config⟩
  · exact fun _ h => by cases h
  have hx : (Entry.mk loadedAt row session now config).Found := hfound
  show Resolves P (if !storedAuthorizationMatchesConfig P.toLowerCase session config then _ else _) _
  split
  · refine keeps_persist ⟨_, hx, List.suffix_rfl, rfl, fun hstate => ?_⟩ ?_ ?_
    · cases hstate
    · exact fun _ _ h => by cases h
    · exact fun _ _ h => by cases h
  split
  · exact resolves_revalidate hx
  split
  · exact fun _ h => by cases h
  · rename_i hmatches hstale husable
    rintro context ⟨⟩
    exact ⟨_, hx, .inl ⟨rfl, by simpa using hmatches, by simpa using hstale, by simpa using husable, rfl⟩⟩

theorem acts_access : Acts P (requireRepositoryAccess P.toLowerCase) [] := by
  refine keeps_ask trivial fun loadedAt _ => keeps_ask trivial fun answered _ => ?_
  rcases answered with e | row
  · trivial
  show Acts P ((pure (foundSession loadedAt row) : Service (Option SessionRecord)) >>= _) _
  cases hfound : foundSession loadedAt row with
  | none => trivial
  | some session =>
    rcases row with _ | row
    · cases hfound
    show Acts P (resolveRepositoryAccess P.toLowerCase session >>= _) _
    refine Discipline.keeps_bind ((resolves_access hfound).mono fun r own' hgranted => ?_)
    rcases r with e | context | reason | _
    · trivial
    · exact keeps_ask (hgranted context rfl) fun _ _ => trivial
    · trivial
    · trivial

/-- **Every client keeps the discipline.** -/
theorem acts_client (c : Client) : Acts P (c.service P) [] := by
  cases c
  · exact acts_signIn
  · exact acts_access
  · exact acts_revoke

end Keeps

/-! ### Statements -/

section Statements

variable {P : Platform} {env : Env P} {w : Option SessionRow}

theorem execute_cases (fate : Fate) (w touched : Option SessionRow) :
    ((execute fate w touched).1.effective = false ∧ (execute fate w touched).2 = w) ∨
    ∃ row, touched = some row ∧ (execute fate w touched).1.effective = true ∧
      (execute fate w touched).2 = some row := by
  cases fate <;> cases touched <;> simp [execute, Outcome.effective]

theorem unrevoked_some {row : SessionRow} (h : unrevoked w = some row) : w = some row ∧ row.revokedAt = none := by
  obtain ⟨hw, hrow⟩ := Option.filter_eq_some_iff.1 h
  exact ⟨hw, by simpa using hrow⟩

/-- **Inversion.** What an event does to the row. -/
inductive Effect (t : ℕ) (w : Option SessionRow) : (q : Request) → Answer q → Option SessionRow → Prop
  | none {q : Request} {a : Answer q} (hd : ∀ earlier, denies earlier ⟨t, q, a⟩ = false)
      (hr : revokes ⟨t, q, a⟩ = false) : Effect t w q a w
  | insert {row : SessionRow} {outcome : Outcome} (hw : w = Option.none) (ho : outcome.effective = true) :
    Effect t w (.insertSession row) outcome (some row)
  | update {authorization : AuthorizationColumns} {tokens : TokenColumns} {row : SessionRow} {outcome : Outcome}
      (hw : w = some row) (hrow : row.revokedAt = Option.none) (ho : outcome.effective = true) :
    Effect t w (.updateAuthorization authorization tokens) outcome (some { row with authorization, tokens })
  | revoke {now : Time} {row : SessionRow} {outcome : Outcome} (hw : w = some row) :
    Effect t w (.revoke now) outcome (some { row with revokedAt := some now })

theorem answer_effect (env : Env P) (t : ℕ) (q : Request) (w : Option SessionRow) :
    Effect t w q (answer env q w).1 (answer env q w).2 := by
  cases q
  case insertSession row =>
    rcases execute_cases env.fate w (if w.isNone then some row else none) with ⟨ho, hw⟩ | ⟨row', htouched, ho, hw⟩
    · rw [show (answer env (.insertSession row) w).2 = w from hw]
      refine .none (fun _ => ?_) rfl
      simp only [denies, answer, ho, Bool.and_false]
    · split at htouched
      · rename_i hnone
        obtain rfl : row = row' := by simpa using htouched
        rw [show (answer env (.insertSession row) w).2 = some row from hw]
        exact .insert (by simpa using hnone) ho
      · cases htouched
  case updateAuthorization authorization tokens =>
    rcases execute_cases env.fate w ((unrevoked w).map fun row => { row with authorization, tokens }) with
      ⟨ho, hw⟩ | ⟨row', htouched, ho, hw⟩
    · rw [show (answer env (.updateAuthorization authorization tokens) w).2 = w from hw]
      refine .none (fun _ => ?_) rfl
      simp only [denies, answer, ho, Bool.and_false, Bool.false_and]
    · obtain ⟨row, hrow, rfl⟩ := Option.map_eq_some_iff.1 htouched
      obtain ⟨hsome, hopen⟩ := unrevoked_some hrow
      rw [show (answer env (.updateAuthorization authorization tokens) w).2 = _ from hw]
      exact .update hsome hopen ho
  case revoke now =>
    rcases execute_cases env.fate w ((unrevoked w).map fun row => { row with revokedAt := some now }) with
      ⟨ho, hw⟩ | ⟨row', htouched, ho, hw⟩
    · rw [show (answer env (.revoke now) w).2 = w from hw]
      exact .none (fun _ => rfl) ho
    · obtain ⟨row, hrow, rfl⟩ := Option.map_eq_some_iff.1 htouched
      rw [show (answer env (.revoke now) w).2 = _ from hw]
      exact .revoke (unrevoked_some hrow).1
  all_goals exact .none (fun _ => rfl) rfl

end Statements

/-! ### What a row rests on -/

section Rows

variable {P : Platform} {timely : Prop} {trace : Trace} {row : SessionRow} {e : Event signature} {v : Verification}

/-- GitHub named the user for a token, and the columns hold nothing but that token. -/
def Identified (P : Platform) (trace : Trace) (row : SessionRow) : Prop :=
  ∃ t token, ⟨t, .getUser token, some ⟨row.githubId, row.login⟩⟩ ∈ trace ∧ Sealed P row.tokens token

/-- An authorization comes from a verification of the user that, in a timely run, started after every denial. -/
def Standing (P : Platform) (timely : Prop) (trace : Trace) (row : SessionRow) : Prop :=
  row.authorization.state = .authorized → ∃ v, Succeeded P trace v ∧ v.user = ⟨row.githubId, row.login⟩ ∧
    row.authorization = v.columns ∧ (timely → ∀ d b, d :: b <:+ trace → denies b d = true → d :: b <:+ v.before)

/-- What is true of a row that the events left. -/
structure Backed (P : Platform) (timely : Prop) (trace : Trace) (row : SessionRow) : Prop where
  unrevoked : row.revokedAt = none → ∀ e ∈ trace, revokes e = false
  identified : Identified P trace row
  standing : Standing P timely trace row

theorem Succeeded.mono {later : Trace} (h : Succeeded P trace v) (hsub : trace <:+ later) : Succeeded P later v := by
  obtain ⟨mid, repo, rfl, hrest⟩ := h.passed
  obtain ⟨front, rfl⟩ := hsub
  refine ⟨h.begun, h.identified, h.allowed, front ++ mid, repo, by simp, ?_⟩
  exact ⟨List.mem_append_right _ hrest.1, hrest.2.1, hrest.2.2.1, List.mem_append_right _ hrest.2.2.2⟩

theorem Identified.cons (h : Identified P trace row) : Identified P (e :: trace) row := by
  obtain ⟨t, token, he, hsealed⟩ := h
  exact ⟨t, token, List.mem_cons_of_mem _ he, hsealed⟩

theorem denials_cons {before : Trace} (hd : denies trace e = false)
    (h : ∀ d b, d :: b <:+ trace → denies b d = true → d :: b <:+ before) (d : Event signature) (b : Trace)
    (hsuffix : d :: b <:+ e :: trace) (hdenies : denies b d = true) : d :: b <:+ before := by
  rcases List.suffix_cons_iff.1 hsuffix with heq | hsuffix
  · obtain ⟨rfl, rfl⟩ := List.cons.inj heq
    rw [hd] at hdenies
    cases hdenies
  · exact h d b hsuffix hdenies

theorem Standing.cons (h : Standing P timely trace row) (hd : denies trace e = false) :
    Standing P timely (e :: trace) row := by
  intro hstate
  obtain ⟨v, hv, huser, hcolumns, hafter⟩ := h hstate
  exact ⟨v, hv.mono (List.suffix_cons _ _), huser, hcolumns, fun htimely => denials_cons hd (hafter htimely)⟩

theorem not_revoked_cons (h : ∀ e ∈ trace, revokes e = false) (hr : revokes e = false) :
    ∀ e' ∈ e :: trace, revokes e' = false := by
  intro e' he'
  rcases List.mem_cons.1 he' with rfl | he'
  · exact hr
  · exact h e' he'

theorem Backed.cons (h : Backed P timely trace row) (hd : denies trace e = false) (hr : revokes e = false) :
    Backed P timely (e :: trace) row :=
  ⟨fun hrow => not_revoked_cons (h.unrevoked hrow) hr, h.identified.cons, h.standing.cons hd⟩

variable {start : Event signature}

theorem denied_before {t : ℕ} {mid before : Trace} (hs : denies before start = false)
    (hmid : ∀ e ∈ mid, starts t e = false)
    (h : deniedSince t (mid ++ start :: before) = false) (d : Event signature) (b : Trace)
    (hsuffix : d :: b <:+ mid ++ start :: before) (hdenies : denies b d = true) : d :: b <:+ before := by
  induction mid with
  | nil => exact denials_cons hs (fun _ _ h _ => h) d b hsuffix hdenies
  | cons e mid ih =>
    simp only [List.cons_append, deniedSince, hmid e (List.mem_cons_self ..), Bool.not_false, Bool.true_and,
      Bool.or_eq_false_iff] at h
    rcases List.suffix_cons_iff.1 hsuffix with heq | hsuffix
    · obtain ⟨rfl, rfl⟩ := List.cons.inj heq
      cases h.1.symm.trans hdenies
    · exact ih (fun e he => hmid e (List.mem_cons_of_mem _ he)) h.2 hsuffix

/-- The verification of a thread, in the trace. -/
def Check.verification (v : Check) (t : ℕ) (start : Event signature) (before : Trace) : Verification :=
  ⟨t, v.user, v.token, v.config, v.now, v.repo.id, v.installationId, start, before⟩

theorem Check.succeeded {v : Check} {t : ℕ} {mid before : Trace} (hv : v.Passes P)
    (hown : ∀ y ∈ v.own, y ∈ Pool.own t mid)
    (hbegun : start = ⟨t, .clock, v.now⟩ ∨ ∃ ciphertext iv, start = ⟨t, .decrypt ciphertext iv, some v.token⟩ ∧
      ⟨t, .configuration, (v.now, some v.config)⟩ ∈ before)
    (hident : ∃ t, ⟨t, .getUser v.token, some v.user⟩ ∈ before) :
    Succeeded P (mid ++ start :: before) (v.verification t start before) where
  begun := hbegun
  identified := hident
  allowed := hv.1
  passed := by
    have hrepo := Pool.mem_of_own (hown ⟨.getConfiguredRepository v.config v.token, .value v.repo⟩ (by simp [Check.own]))
    have hinstallation :=
      Pool.mem_of_own (hown ⟨.getRepositoryInstallation v.config, .value v.installationId⟩ (by simp [Check.own]))
    exact ⟨mid, v.repo, rfl, hrepo, hv.2, rfl, hinstallation⟩

end Rows

/-! ### Runs -/

section Runs

variable {P : Platform} {timely : Prop} {pool : Services P} {trace : Trace}

/-- A success is not written where a denial was persisted since its verification started. -/
def inTime (pool : Services P) : Move P → Bool
  | .client _ => true
  | .run t env =>
    match pool.threads[t]? with
    | some (.ask (.updateAuthorization authorization tokens) _) =>
      authorization.state == .denied || !deniedSince t pool.trace ||
        !(answer env (.updateAuthorization authorization tokens) pool.world).1.effective
    | _ => true

/-- Every move is so. -/
abbrev AllInTime (pool : Services P) (moves : List (Move P)) : Prop := Moves inTime pool moves

/-- The columns that requests leave alone. -/
structure SameUser (row row' : SessionRow) : Prop where
  githubId : row.githubId = row'.githubId
  login : row.login = row'.login
  tokens : row.tokens = row'.tokens

/-- The invariant, of a run that may be timely. -/
structure Sound (timely : Prop) (pool : Services P) : Prop where
  kept : Pool.Kept (authority P) [] pool
  unborn : pool.world = none → ∀ e earlier, e :: earlier <:+ pool.trace → denies earlier e = false ∧ revokes e = false
  backed : ∀ row, pool.world = some row → Backed P timely pool.trace row
  loaded : ∀ t row before, ⟨t, .selectSession, .ok (some row)⟩ :: before <:+ pool.trace →
    Backed P timely before row ∧ ∃ row', pool.world = some row' ∧ SameUser row row'

theorem sound_init : Sound timely (Pool.init none : Services P) where
  kept := Pool.kept_init (M := machine P) none
  unborn _ e earlier h := by
    have hnil : e :: earlier <:+ ([] : Trace) := h
    simp at hnil
  backed row h := by cases h
  loaded t row before h := by
    have hnil : (⟨t, .selectSession, .ok (some row)⟩ : Event signature) :: before <:+ ([] : Trace) := h
    simp at hnil

variable {x : Entry} {t : ℕ} {v : Check} {row : SessionRow} {outcome : Outcome} {w : Option SessionRow}

theorem Entry.Found.spec (h : x.Found) : x.row.revokedAt = none ∧ x.session.githubId = x.row.githubId ∧
    x.session.login = x.row.login ∧ x.session.tokens = x.row.tokens ∧
    x.session.repositoryAuthorization.toAuthorizationColumns = x.row.authorization := by
  unfold Entry.Found foundSession at h
  dsimp only at h
  split at h
  · cases h
  rename_i hopen
  unfold rowToSession parseSession at h
  dsimp only at h
  split at h
  · obtain ⟨hrevoked, -⟩ : x.row.revokedAt = none ∧ x.loadedAt < x.row.expiresAt := by simpa using hopen
    rw [← Option.some.inj h]
    exact ⟨hrevoked, rfl, rfl, rfl, rfl⟩
  · cases h

theorem Entry.located (front : Own) (h : Pool.own t trace = front ++ x.own) :
    ∃ mid before, trace = mid ++ ⟨t, .selectSession, .ok (some x.row)⟩ :: before ∧
      ⟨t, .configuration, (x.now, some x.config)⟩ ∈ mid := by
  have hsplit : Pool.own t trace = (front ++ [⟨.configuration, (x.now, some x.config)⟩]) ++
      ⟨.selectSession, .ok (some x.row)⟩ :: [⟨.clock, x.loadedAt⟩] := by
    rw [h, Entry.own, List.append_assoc]
    rfl
  obtain ⟨mid, before, htrace, hmid, -⟩ := Pool.split_of_own hsplit
  have hread : (⟨.configuration, (x.now, some x.config)⟩ : (q : Request) × Answer q) ∈ Pool.own t mid := by
    rw [hmid]
    simp
  exact ⟨mid, before, htrace, Pool.mem_of_own hread⟩

theorem Sound.verified (h : Sound timely pool) {own : Own} (front : Own) (hx : x.Found)
    (hv : Verified P own x v) (htrace : trace <:+ pool.trace) (hown : Pool.own t trace = front ++ own) :
    ∃ mid start before, trace = mid ++ start :: before ∧ Succeeded P trace (v.verification t start before) ∧
      v.user = ⟨x.row.githubId, x.row.login⟩ ∧ Pool.own t mid = front ++ v.own ∧ denies before start = false ∧
      ∃ mid' before', before = mid' ++ ⟨t, .selectSession, .ok (some x.row)⟩ :: before' ∧
        ⟨t, .configuration, (x.now, some x.config)⟩ ∈ mid' := by
  obtain ⟨huser, hconfig, hnow, hpasses, ciphertext, iv, key, hciphertext, hiv, hopen, rfl⟩ := hv
  rw [← List.append_assoc] at hown
  obtain ⟨mid, before, rfl, hmid, hbefore⟩ := Pool.split_of_own hown
  obtain ⟨mid', before', hbefore', hread⟩ := Entry.located [] hbefore
  obtain ⟨hrevoked, hid, hlogin, htokens, -⟩ := hx.spec
  have hload : (⟨t, .selectSession, .ok (some x.row)⟩ : Event signature) :: before' <:+ pool.trace := by
    refine List.IsSuffix.trans ?_ htrace
    rw [hbefore']
    exact ⟨mid ++ ⟨t, .decrypt ciphertext iv, some v.token⟩ :: mid', by simp⟩
  obtain ⟨⟨-, ⟨t', token, hnamed, hsealed⟩, -⟩, -⟩ := h.loaded t x.row before' hload
  have htoken : v.token = token :=
    hsealed ciphertext iv key v.token (htokens ▸ hciphertext) (htokens ▸ hiv) hopen
  have huser' : v.user = ⟨x.row.githubId, x.row.login⟩ := by rw [huser, hid, hlogin]
  refine ⟨mid, _, before, rfl, Check.succeeded hpasses (fun y hy => ?_) (.inr ⟨ciphertext, iv, rfl, ?_⟩) ⟨t', ?_⟩,
    huser', hmid, rfl, mid', before', hbefore', hread⟩
  · rw [hmid]
    exact List.mem_append_right _ hy
  · rw [hnow, hconfig, hbefore']
    exact List.mem_append_left _ hread
  · rw [htoken, huser', hbefore']
    exact List.mem_append_right _ (List.mem_cons_of_mem _ hnamed)

theorem not_started {mid : Trace} (h : Pool.own t mid = v.own) : ∀ e ∈ mid, starts t e = false := by
  intro e he
  by_contra hstarts
  rw [Bool.not_eq_false] at hstarts
  rcases e with ⟨t', q, a⟩
  cases q
  case decrypt ciphertext iv =>
    rcases a with _ | token
    · cases hstarts
    obtain rfl : t' = t := by simpa [starts] using hstarts
    have hmem : (⟨.decrypt ciphertext iv, some token⟩ : (q : Request) × Answer q) ∈ Pool.own t' mid :=
      List.mem_map.2 ⟨_, List.mem_filter.2 ⟨he, by simp⟩, rfl⟩
    rw [h] at hmem
    simp [Check.own] at hmem
  all_goals cases hstarts

theorem Sound.needs (h : Sound timely pool) {q : Request} {next : Answer q → Service Unit}
    (ht : pool.threads[t]? = some (.ask q next)) : founded P (Pool.own t pool.trace) q := by
  have hneeds := (h.kept.threads t _ ht).1
  rw [show Pool.ghost (authority P) [] t pool.trace = _ from Pool.ghost_recording t pool.trace] at hneeds
  exact hneeds

theorem Sound.entry (h : Sound timely pool) (hx : x.own <:+ Pool.own t pool.trace) :
    ∃ row, pool.world = some row ∧ SameUser x.row row := by
  obtain ⟨front, hown⟩ := hx
  obtain ⟨mid, before, htrace, -⟩ := Entry.located _ hown.symm
  exact (h.loaded t x.row before (by rw [htrace]; exact List.suffix_append _ _)).2

theorem Sound.backed_insert (h : Sound timely pool)
    (hneeds : SignedIn P (Pool.own t pool.trace) row) (hw : pool.world = none) :
    Backed P timely (⟨t, .insertSession row, outcome⟩ :: pool.trace) row := by
  obtain ⟨user, token, hid, hlogin, -, hsealed, hnamed, hauthorized⟩ := hneeds
  have huser : user = ⟨row.githubId, row.login⟩ := by rw [hid, hlogin]
  have hcalm := h.unborn hw
  refine ⟨fun _ => not_revoked_cons (fun e he => ?_) rfl, ?_, fun hstate => ?_⟩
  · obtain ⟨later, earlier, htrace⟩ := List.append_of_mem he
    exact (hcalm e earlier (by rw [htrace]; exact List.suffix_append _ _)).2
  · exact Identified.cons ⟨t, token, huser ▸ Pool.mem_of_own hnamed, hsealed⟩
  · obtain ⟨v, later, earlier, hvuser, hvtoken, hpasses, hown, hnamed', hcolumns⟩ := hauthorized hstate
    rw [← List.append_assoc] at hown
    obtain ⟨mid, before, htrace, hmid, hbefore⟩ := Pool.split_of_own hown
    have hsucceeded : Succeeded P pool.trace (v.verification t ⟨t, .clock, v.now⟩ before) := by
      rw [htrace]
      refine Check.succeeded hpasses (fun y hy => ?_) (.inl rfl) ⟨t, ?_⟩
      · rw [hmid]
        exact List.mem_append_right _ hy
      · rw [hvtoken, hvuser]
        rw [← hbefore] at hnamed'
        exact Pool.mem_of_own hnamed'
    refine ⟨_, hsucceeded.mono (List.suffix_cons _ _), hvuser.trans huser, hcolumns, fun _ d b hsuffix hdenies => ?_⟩
    rcases List.suffix_cons_iff.1 hsuffix with heq | hsuffix
    · obtain ⟨rfl, rfl⟩ := List.cons.inj heq
      simp [denies, hstate] at hdenies
    · rw [(hcalm d b hsuffix).1] at hdenies
      cases hdenies

theorem Sound.backed_update (h : Sound timely pool) {authorization : AuthorizationColumns}
    {tokens : TokenColumns} (hneeds : Resolved P (Pool.own t pool.trace) authorization tokens)
    (hw : pool.world = some row) (hopen : row.revokedAt = none)
    (htime : timely → authorization.state = .authorized → deniedSince t pool.trace = false) :
    tokens = row.tokens ∧ Backed P timely (⟨t, .updateAuthorization authorization tokens, outcome⟩ :: pool.trace)
      { row with authorization, tokens } := by
  obtain ⟨x, hx, hxown, rfl, hauthorized⟩ := hneeds
  obtain ⟨row', hw', hsame⟩ := h.entry hxown
  obtain rfl : row = row' := Option.some.inj (hw.symm.trans hw')
  have htokens : x.session.tokens = row.tokens := hx.spec.2.2.2.1.trans hsame.tokens
  have hbacked := h.backed row hw
  refine ⟨htokens, fun _ => not_revoked_cons (hbacked.unrevoked hopen) rfl, ?_, fun hstate => ?_⟩
  · rw [htokens]
    exact hbacked.identified.cons
  · obtain ⟨v, hv, hcolumns⟩ := hauthorized hstate
    obtain ⟨mid, start, before, htrace, hsucceeded, huser, hmid, hstart, -⟩ :=
      h.verified [] hx hv List.suffix_rfl rfl
    refine ⟨_, hsucceeded.mono (List.suffix_cons _ _), ?_, hcolumns, fun htimely =>
      denials_cons ?_ fun d b hsuffix hdenies => ?_⟩
    · show v.user = _
      rw [huser, hsame.githubId, hsame.login]
    · have hauth : authorization.state = .authorized := hstate
      simp [denies, hauth]
    · have hsince := htime htimely hstate
      rw [htrace] at hsince hsuffix
      exact denied_before hstart (not_started hmid) hsince d b hsuffix hdenies

theorem SameUser.trans {row' row'' : SessionRow} (h : SameUser row row') (h' : SameUser row' row'') :
    SameUser row row'' :=
  ⟨h.githubId.trans h'.githubId, h.login.trans h'.login, h.tokens.trans h'.tokens⟩

theorem Sound.loaded_cons (h : Sound timely pool) {e : Event signature}
    (hload : ∀ t row, e = ⟨t, .selectSession, .ok (some row)⟩ → pool.world = some row)
    (hrow : ∀ row, pool.world = some row → ∃ row', w = some row' ∧ SameUser row row') (t : ℕ) (row : SessionRow)
    (before : Trace) (hsuffix : ⟨t, .selectSession, .ok (some row)⟩ :: before <:+ e :: pool.trace) :
    Backed P timely before row ∧ ∃ row', w = some row' ∧ SameUser row row' := by
  rcases List.suffix_cons_iff.1 hsuffix with heq | hsuffix
  · obtain ⟨he, rfl⟩ := List.cons.inj heq
    have hw := hload t row he.symm
    exact ⟨h.backed row hw, hrow row hw⟩
  · obtain ⟨hbacked, row', hw, hsame⟩ := h.loaded t row before hsuffix
    obtain ⟨row'', hw', hsame'⟩ := hrow row' hw
    exact ⟨hbacked, row'', hw', hsame.trans hsame'⟩

/-- Every answer of the session store keeps the authority sound. -/
theorem Sound.answered (h : Sound timely pool) {q : Request} {a : Answer q}
    {threads : List (Service Unit)} (heffect : Effect t pool.world q a w)
    (hkept : Pool.Kept (authority P) [] (⟨w, threads, ⟨t, q, a⟩ :: pool.trace⟩ : Services P))
    (hneeds : founded P (Pool.own t pool.trace) q)
    (hload : ∀ t' row, (⟨t, q, a⟩ : Event signature) = ⟨t', .selectSession, .ok (some row)⟩ → pool.world = some row)
    (htime : timely → ∀ authorization tokens outcome, (⟨t, q, a⟩ : Event signature) =
      ⟨t, .updateAuthorization authorization tokens, outcome⟩ → outcome.effective = true →
      authorization.state = .authorized → deniedSince t pool.trace = false) :
    Sound timely (⟨w, threads, ⟨t, q, a⟩ :: pool.trace⟩ : Services P) := by
  rcases heffect with ⟨hd, hr⟩ | ⟨hw, ho⟩ | ⟨hw, hopen, ho⟩ | hw
  case none =>
    refine ⟨hkept, fun hw e earlier hsuffix => ?_, fun row hw => (h.backed row hw).cons (hd _) hr,
      h.loaded_cons hload fun row hw => ⟨row, hw, rfl, rfl, rfl⟩⟩
    rcases List.suffix_cons_iff.1 hsuffix with heq | hsuffix
    · obtain ⟨rfl, rfl⟩ := List.cons.inj heq
      exact ⟨hd _, hr⟩
    · exact h.unborn hw e earlier hsuffix
  case insert =>
    refine ⟨hkept, fun hw => (by cases hw), fun row' hw' => ?_, h.loaded_cons hload fun row' hw' => ?_⟩
    · cases hw'
      exact h.backed_insert hneeds hw
    · rw [hw] at hw'
      cases hw'
  case update =>
    obtain ⟨rfl, hbacked⟩ := h.backed_update hneeds hw hopen fun htimely => htime htimely _ _ _ rfl ho
    refine ⟨hkept, fun hw => (by cases hw), fun row' hw' => ?_, h.loaded_cons hload fun row' hw' => ?_⟩
    · cases hw'
      exact hbacked
    · obtain rfl := Option.some.inj (hw.symm.trans hw')
      exact ⟨_, rfl, rfl, rfl, rfl⟩
  case revoke =>
    refine ⟨hkept, fun hw => (by cases hw), fun row' hw' => ?_, h.loaded_cons hload fun row' hw' => ?_⟩
    · cases hw'
      have hbacked := h.backed _ hw
      exact ⟨fun hopen => (by cases hopen), hbacked.identified.cons, hbacked.standing.cons rfl⟩
    · obtain rfl := Option.some.inj (hw.symm.trans hw')
      exact ⟨_, rfl, rfl, rfl, rfl⟩

/-- **One step.** -/
theorem sound_step (h : Sound timely pool) (m : Move P) (hm : timely → inTime pool m = true) :
    Sound timely (pool.step m.action) := by
  have hadmits : Pool.Admits (authority P) [] pool m.action := by
    rcases m with c | ⟨t, env⟩
    · exact acts_client c
    · intro q next _
      cases q
      case encrypt token =>
        rintro ciphertext iv key text ⟨⟩ hopen
        exact P.authentic _ _ _ _ _ _ hopen
      case decrypt ciphertext iv => exact fun token hopen => ⟨env.key, hopen⟩
      all_goals trivial
  have hkept := Pool.kept_step m.action hadmits h.kept
  rcases m with c | ⟨t, env⟩
  · exact ⟨hkept, h.unborn, h.backed, h.loaded⟩
  rcases Pool.step_cases pool (Move.run t env).action with ⟨p, hmove, -⟩ | ⟨t', env', q, next, hmove, ht, hstep⟩ | ⟨-, hstep⟩
  · cases hmove
  · obtain ⟨rfl, rfl⟩ : t = t' ∧ env = env' := by simpa [Move.action] using hmove
    rw [hstep] at hkept ⊢
    refine h.answered (answer_effect env t q pool.world) hkept (h.needs ht) (fun t' row he => ?_)
      fun htimely authorization tokens outcome he ho hstate => ?_
    · cases q
      case selectSession =>
        have hanswer : (if env.fate = .done then Except.ok pool.world else .error AuthError.databaseUnavailable) =
            .ok (some row) := by
          obtain ⟨-, hanswer⟩ : t = t' ∧ _ = _ := by simpa [answer] using he
          exact hanswer
        split at hanswer
        · exact Except.ok.inj hanswer
        · cases hanswer
      all_goals cases he
    · cases q
      case updateAuthorization authorization' tokens' =>
        cases he
        simpa [inTime, ht, hstate, ho] using hm htimely
      all_goals cases he
  · rw [hstep]
    exact h

theorem sound_run (h : Sound timely pool) (moves : List (Move P)) (hmoves : timely → AllInTime pool moves) :
    Sound timely (pool.run (moves.map Move.action)) := by
  induction moves generalizing pool with
  | nil => exact h
  | cons m moves ih =>
    exact ih (sound_step h m fun htimely => (hmoves htimely).1) fun htimely => (hmoves htimely).2

/-! ### What is granted -/

theorem Sound.entered (h : Sound timely pool) {mid before : Trace} (hsuffix : trace <:+ pool.trace)
    (htrace : trace = mid ++ ⟨t, .selectSession, .ok (some x.row)⟩ :: before) : Backed P timely before x.row := by
  refine (h.loaded t x.row before (List.IsSuffix.trans ?_ hsuffix)).1
  rw [htrace]
  exact List.suffix_append _ _

theorem Sound.entitled_stored (h : Sound timely pool) (hx : x.Found) (hsuffix : trace <:+ pool.trace)
    (hown : Pool.own t trace = x.own)
    (hmatches : storedAuthorizationMatchesConfig P.toLowerCase x.session x.config = true)
    (hfresh : authorizationRequiresRevalidation x.session.repositoryAuthorization x.now = false)
    (husable : storedUsable x.session.repositoryAuthorization = true) :
    Entitled P timely trace t (storedAccess P.toLowerCase x.session) := by
  obtain ⟨mid, before, htrace, hread⟩ := Entry.located [] hown
  have hbacked := h.entered hsuffix htrace
  obtain ⟨hrevoked, hid, hlogin, -, hcolumns⟩ := hx.spec
  simp only [storedUsable, Bool.and_eq_true, decide_eq_true_eq] at husable
  obtain ⟨v, hv, huser, hauth, hafter⟩ := hbacked.standing (by rw [← hcolumns]; exact husable.1.1)
  have hgranted := hcolumns.trans hauth
  simp only [authorizationRequiresRevalidation, Bool.or_eq_false_iff, decide_eq_false_iff_not, not_le] at hfresh
  simp only [storedAuthorizationMatchesConfig, Bool.and_eq_true] at hmatches
  refine ⟨mid, x.row, before, x.now, x.config, v, htrace, hbacked.unrevoked hrevoked, hread, ?_, ?_, ?_, ?_, ?_, ?_,
    hafter⟩
  · refine hv.mono ?_
    rw [htrace]
    exact (List.suffix_cons _ _).trans (List.suffix_append _ _)
  · rw [huser]
    exact hid.symm
  · rw [show v.config.owner = _ from (congrArg AuthorizationColumns.owner hgranted).symm,
      show v.config.repo = _ from (congrArg AuthorizationColumns.repo hgranted).symm]
    exact hmatches.2
  · exact congrArg AuthorizationColumns.repositoryId hgranted
  · exact congrArg AuthorizationColumns.installationId hgranted
  · rw [show v.now = _ from (congrArg AuthorizationColumns.checkedAt hgranted).symm]
    exact hfresh.2

theorem Sound.entitled_verified (h : Sound timely pool) {own : Own}
    {written : (q : Request) × Answer q} (hx : x.Found) (hsuffix : trace <:+ pool.trace)
    (hown : Pool.own t trace = written :: own) (hv : Verified P own x v) : Entitled P timely trace t v.context := by
  obtain ⟨mid, start, before, htrace, hsucceeded, huser, -, -, mid', before', rfl, hread⟩ :=
    h.verified [written] hx hv hsuffix hown
  have htrace' : trace = (mid ++ start :: mid') ++ ⟨t, .selectSession, .ok (some x.row)⟩ :: before' := by
    rw [htrace, List.append_assoc, List.cons_append]
  refine ⟨_, x.row, before', x.now, x.config, _, htrace', (h.entered hsuffix htrace').unrevoked hx.spec.1, ?_,
    hsucceeded, rfl, ?_, rfl, rfl, ?_, fun _ d b hsuffix _ => ?_⟩
  · exact List.mem_append_right _ (List.mem_cons_of_mem _ hread)
  · show sameRepository P.toLowerCase x.config v.config.owner v.config.repo = true
    rw [hv.2.1]
    simp [sameRepository]
  · show x.now - v.now < authorizationFreshnessMs
    rw [hv.2.2.1, Nat.sub_self]
    decide
  · exact hsuffix.trans ((List.suffix_cons _ _).trans (List.suffix_append _ _))

end Runs

/-- **Session authority.** In every run of sign-ins, requests and sign-outs on a session, with every answer of GitHub, of
the database and of the platform: every access that is granted rests on a session that was not revoked when it was
loaded, and on a successful verification, fresh, of the same user for the configured repository.  In a run in which no
success is written where a denial was persisted since its verification started, that verification started after every
denial that was persisted before the session was loaded. -/
theorem session_authority (P : Platform) (moves : List (Move P)) :
    ∀ later t access earlier, (after moves).trace = later ++ ⟨t, .proceed access, ()⟩ :: earlier →
      Entitled P (AllInTime (Pool.init none) moves) earlier t access := by
  intro later t access earlier htrace
  have h : Sound (AllInTime (Pool.init none) moves) (after moves) := sound_run sound_init moves id
  have hneeds := h.kept.events later _ earlier htrace
  rw [show Pool.ghost (authority P) [] t earlier = _ from Pool.ghost_recording t earlier] at hneeds
  have hsuffix : earlier <:+ (after moves).trace := by
    rw [htrace]
    exact (List.suffix_cons _ _).trans (List.suffix_append _ _)
  obtain ⟨x, hx, ⟨hown, hmatches, hfresh, husable, rfl⟩ | ⟨v, own, written, hv, hown, rfl⟩⟩ := hneeds
  · exact h.entitled_stored hx hsuffix hown hmatches hfresh husable
  · exact h.entitled_verified hx hsuffix hown hv

/-! ### Runs to look at -/

def plainPlatform : Platform where
  Key := Unit
  encrypt _ _ text := text
  decrypt _ _ ciphertext := some ciphertext
  authentic _ _ _ _ _ _ h := (Option.some.inj h).symm
  toLowerCase := id

/-- GitHub answers with the configured repository, and an installation. -/
def grantingEnv (now : Time) : Env plainPlatform where
  now
  config := some ⟨"acme", "docs", []⟩
  fate := .done
  key := ()
  iv := "iv"
  exchange := some ("token", none)
  user _ := some ⟨7, "ada"⟩
  repository _ _ := .value ⟨some 1, "docs", "acme"⟩
  appJwt := .ok ()
  installation _ := .value (some 2)

/-- GitHub does not show the user the repository. -/
def hidingEnv (now : Time) : Env plainPlatform :=
  { grantingEnv now with repository := fun _ _ => .refused 404 }

abbrev runs (t n : ℕ) (env : Env plainPlatform) : List (Move plainPlatform) := Interleave.runs t n env

/-- A request comes just before what was verified at sign-in is stale. -/
def signedIn : List (Move plainPlatform) :=
  .client .signIn :: runs 0 12 (grantingEnv 0) ++ .client .access :: runs 1 3 (grantingEnv 419999)

def adaAccess (checkedAt : Time) : RepositoryAccessContext := ⟨"acme", "docs", "ada", 7, some 1, some 2, checkedAt⟩

/-- It is granted what is stored. -/
theorem signedIn_entitled : AllInTime (Pool.init none) (signedIn ++ runs 1 1 (grantingEnv 419999)) ∧
      Entitled plainPlatform (AllInTime (Pool.init none) (signedIn ++ runs 1 1 (grantingEnv 419999)))
        (after signedIn).trace 1 (adaAccess 0) :=
  ⟨by decide +kernel, session_authority plainPlatform (signedIn ++ runs 1 1 (grantingEnv 419999)) [] 1 (adaAccess 0)
    (after signedIn).trace rfl⟩

/-- Two requests verify the user again.  The second one is refused and persists its denial. -/
def deniedMeanwhile : List (Move plainPlatform) :=
  .client .signIn :: runs 0 12 (grantingEnv 0) ++ .client .access :: runs 1 7 (grantingEnv 420000) ++
    .client .access :: runs 2 6 (hidingEnv 420001)

/-- Then the first one writes its success, and another request loads the session. -/
def overwritten : List (Move plainPlatform) :=
  deniedMeanwhile ++ runs 1 2 (grantingEnv 420002) ++ .client .access :: runs 3 3 (grantingEnv 420003)

/-- The event asks GitHub for the repository. -/
def asksRepository : Event signature → Bool
  | ⟨_, .getConfiguredRepository _ _, _⟩ => true
  | _ => false

theorem suffix_before {front events mid before : Trace} {e : Event signature} (h : front ++ events = mid ++ e :: before)
    (hnone : ∀ e' ∈ events, e'.thread ≠ e.thread) : events <:+ before := by
  rcases List.append_eq_append_iff.1 h with ⟨rest, rfl, hrest⟩ | ⟨rest, rfl, hrest⟩
  · exact absurd rfl (hnone e (by rw [hrest]; simp))
  · rcases rest with _ | ⟨e', rest⟩
    · exact absurd rfl (hnone e (by rw [← List.nil_append events, ← hrest]; simp))
    · obtain ⟨-, hbefore⟩ := List.cons.inj hrest
      rw [hbefore]
      exact List.suffix_append _ _

theorem Succeeded.asks {P : Platform} {front events : Trace} {v : Verification} (h : Succeeded P (front ++ events) v)
    (hafter : events <:+ v.before) : ∃ e ∈ front, asksRepository e = true := by
  obtain ⟨mid, repo, htrace, hrepo, -⟩ := h.passed
  obtain ⟨between, hbefore⟩ := hafter
  rw [← hbefore, ← List.cons_append, ← List.append_assoc] at htrace
  have hfront := List.append_cancel_right htrace
  exact ⟨_, by rw [hfront]; exact List.mem_append_left _ hrepo, rfl⟩

/-- The request is granted access, and no verification that started after the denial has succeeded. -/
theorem overwritten_unentitled : (after (overwritten ++ runs 3 1 (grantingEnv 420003))).trace =
      ⟨3, .proceed (adaAccess 420000), ()⟩ :: (after overwritten).trace ∧
    ¬Entitled plainPlatform True (after overwritten).trace 3 (adaAccess 420000) := by
  refine ⟨rfl, ?_⟩
  rintro ⟨mid, row, before, now, config, v, htrace, -, -, hsucceeded, -, -, -, -, -, hafter⟩
  have hsplit : (after overwritten).trace = (after overwritten).trace.take 5 ++ (after deniedMeanwhile).trace := rfl
  have hdenied : (after deniedMeanwhile).trace =
      (after deniedMeanwhile).trace.head (by decide +kernel) :: (after deniedMeanwhile).trace.tail := rfl
  have hnone : (after deniedMeanwhile).trace.all (·.thread != 3) = true := by decide +kernel
  have hloaded : (after deniedMeanwhile).trace <:+ before := by
    refine suffix_before (hsplit.symm.trans htrace) fun e he => ?_
    simpa using List.all_eq_true.1 hnone e he
  have hstarted : (after deniedMeanwhile).trace <:+ v.before := by
    rw [hdenied] at hloaded ⊢
    exact hafter trivial _ _ hloaded (by decide +kernel)
  rw [hsplit] at hsucceeded
  obtain ⟨e, he, hasks⟩ := hsucceeded.asks hstarted
  have hquiet : ((after overwritten).trace.take 5).all (!asksRepository ·) = true := by decide +kernel
  simpa [hasks] using List.all_eq_true.1 hquiet e he

end ADT.Session
