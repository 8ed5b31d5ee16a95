import ADT.WorkIq.Authorization

/-!
# WorkIq.Writers — what a thread has done before it writes

Everybody who writes the bundle read it before and writes what they make of that reading; and a write that takes effect
finds the bundle as it was read (`Versioned.current`).
-/

namespace ADT.WorkIq

open Interleave

abbrev Own := List ((q : Request) × Answer q)

abbrev Trace := List (Event signature)

/-! ### The discipline -/

/-- The thread serves a request on the route, of a session that has access. -/
def Serves (route : Route) (session : Token) (own : Own) : Prop := ⟨.authenticate route, some session⟩ ∈ own

/-- The thread described the connection as ready, from one reading of the file and one of the bundle. -/
def Described (P : Platform) (route : Route) (own : Own) (descriptor : ConnectionDescriptor) : Prop :=
  ∃ row file session, own = [⟨.selectBundle, .ok row⟩, ⟨.getConnection, .ok file⟩, ⟨.authenticate route, some session⟩] ∧
    row.bundle.refreshToken.isSome = true ∧ descriptor = describe P file row.bundle

/-- The connection is resolved with the snapshot of a run, or to be tested. -/
def Uses (P : Platform) (own : Own) (descriptor : ConnectionDescriptor) : Prop :=
  (∃ run, own = [⟨.readRun run, .ok (some descriptor)⟩]) ∨ Described P .test own descriptor

/-- The thread read the bundle with the authorization of its descriptor. -/
def Refreshes (P : Platform) (own : Own) (descriptor : ConnectionDescriptor) (row : VaultRow) : Prop :=
  ∃ rest, own = ⟨.selectBundle, .ok row⟩ :: rest ∧ Uses P rest descriptor ∧
    sameAuthorization descriptor row.bundle = true

/-- What a thread makes of the row it read. -/
inductive Rewrites (P : Platform) : Own → VaultRow → Bundle → Prop
  | connect {row : VaultRow} {refreshToken : Text 16384} {contextId : ContextId} {now : Time} {code : String}
      {verifier : Token} {reply : TokenReply} {session : Token} {rest : Own}
      (hreply : exchanged reply = .ok refreshToken.value) (hserves : Serves .callback session rest) :
    Rewrites P (⟨.clock, now⟩ :: ⟨.newAuthorizationContextId contextId.configuration, contextId⟩ ::
        ⟨.exchangeCode contextId.configuration row.bundle.clientSecret.value code verifier, reply⟩ ::
        ⟨.selectBundle, .ok row⟩ :: rest) row (row.bundle.connect refreshToken contextId now)
  | clientSecret {row : VaultRow} {secret : Text 8192} {session : Token} {rest : Own}
      (hserves : Serves .clientSecret session rest) :
    Rewrites P (⟨.selectBundle, .ok row⟩ :: rest) row (row.bundle.withClientSecret secret)
  | disconnect {row : VaultRow} {session : Token} {rest : Own} (hserves : Serves .disconnect session rest) :
    Rewrites P (⟨.selectBundle, .ok row⟩ :: rest) row (createWorkIqPrivateBundle row.bundle.clientSecret)
  | rotate {row : VaultRow} {descriptor : ConnectionDescriptor} {clientSecret refreshToken accessToken : String}
      {replacement : Text 16384} {reply : TokenReply} {own : Own} (hread : Refreshes P own descriptor row)
      (hreply : redeemed reply = .ok (accessToken, some replacement.value)) :
    Rewrites P (⟨.redeemToken descriptor.configuration clientSecret refreshToken, reply⟩ :: own) row
      (row.bundle.rotate replacement)

def inserts : Request → Bool
  | .insertState _ => true
  | _ => false

def exchanges : Request → Bool
  | .exchangeCode _ _ _ _ => true
  | _ => false

/-- What a thread that did `own` may ask for. -/
def founded (P : Platform) (own : Own) : Request → Prop
  | .authenticate _ => own = []
  | .replaceBundle revision bundle => ∃ row, revision = row.revision ∧ Rewrites P own row bundle
  | .redeemToken configuration _ refreshToken => ∃ descriptor row token, Refreshes P own descriptor row ∧
    configuration = descriptor.configuration ∧ row.bundle.refreshToken = some token ∧ token.value = refreshToken
  | .createRun snapshot => ∃ row rest, own = ⟨.selectBundle, .ok row⟩ :: rest ∧ Described P .launch rest snapshot
  | .execute snapshot _ => ∃ row rest, own = ⟨.selectBundle, .ok row⟩ :: rest ∧
    sameAuthorization snapshot row.bundle = true ∧ ∃ start, start <:+ rest ∧ Uses P start snapshot
  | .insertState row => (∀ x ∈ own, inserts x.1 = false) ∧ ∃ state session, row.stateHash = P.hash state ∧
    row.sessionHash = P.hash session ∧ row.consumedAt = none ∧ ⟨.randomToken, state⟩ ∈ own ∧ Serves .connect session own
  | .consumeState stateHash _ => ∃ state session row rest, stateHash = P.hash state ∧
    own = ⟨.selectState stateHash, .ok (some row)⟩ :: rest ∧ row.sessionHash = P.hash session ∧
    Serves .callback session rest
  | .exchangeCode _ _ _ _ => (∀ x ∈ own, exchanges x.1 = false) ∧
    ∃ stateHash now, ⟨.consumeState stateHash now, .changes 1⟩ ∈ own
  | _ => True

/-- A context is drawn for the configuration that is given. -/
def drawnFor : (q : Request) → Answer q → Prop
  | .newAuthorizationContextId configuration, contextId => contextId.configuration = configuration
  | _, _ => True

def writers (P : Platform) : Discipline signature Own := Discipline.recording (founded P) drawnFor

section Keeps

variable {P : Platform} {own : Own} {α : Type} {Q : Except WorkIqError α → Own → Prop}

/-- The program asks only for what it may. -/
abbrev Acts (P : Platform) (p : Service α) (own : Own) : Prop := (writers P).Keeps p own fun _ _ => True

/-- A request that needs nothing of what was done, and neither inserts a state nor exchanges a code. -/
def Plain (q : Request) : Prop := (∀ P own, founded P own q) ∧ inserts q = false ∧ exchanges q = false

theorem plain_needs (q : Request) (own : Own) (h : Plain q) : founded P own q := h.1 P own

theorem keeps_ask {q : Request} {next : Answer q → Service α} (hq : founded P own q)
    (h : ∀ a, drawnFor q a → (writers P).Keeps (next a) (⟨q, a⟩ :: own) Q) : (writers P).Keeps (.ask q next) own Q :=
  ⟨hq, h⟩

theorem acts_of_plain {p : Service α} (hp : p.Issues Plain) : Acts P p own :=
  (Discipline.records_of_needs hp plain_needs).mono fun _ _ _ => trivial

theorem keeps_plain {β : Type} {p : Service α} {f : α → Service β} {R : Except WorkIqError β → Own → Prop}
    (hp : p.Issues Plain) (hf : ∀ a new, p.Returns a → (∀ x ∈ new, Plain x.1) → (writers P).Keeps (f a) (new ++ own) R)
    (he : ∀ e own', R (.error e) own') : (writers P).Keeps (p >>= f) own R :=
  Discipline.records_bind hp plain_needs hf fun e _ _ => he e _

theorem issues_finallyDo {p : Service α} {cleanup : Service Unit} (hp : p.Issues Plain) (hc : cleanup.Issues Plain) :
    (finallyDo p cleanup).Issues Plain := by
  refine Prog.issues_bind.2 ⟨Prog.issues_tryCatch.2 ⟨hp, fun e _ => Prog.issues_bind.2 ⟨hc, fun _ _ => trivial⟩⟩,
    fun a _ => Prog.issues_bind.2 ⟨hc, fun _ _ => trivial⟩⟩

theorem acts_finallyDo {p : Service α} {cleanup : Service Unit} (hp : Acts P p own) (hc : cleanup.Issues Plain) :
    Acts P (finallyDo p cleanup) own := by
  refine Discipline.keeps_bind (Discipline.keeps_tryCatch (hp.mono fun r own' _ => ?_))
  have hafter : ∀ (q : Service α), q.Issues Plain → Acts P (cleanup >>= fun _ => q) own' := fun q hq =>
    acts_of_plain (Prog.issues_bind.2 ⟨hc, fun _ _ => hq⟩)
  rcases r with e | a
  · exact (hafter (throw e) trivial).mono fun r _ _ => by
      rcases r with e' | a
      · trivial
      · exact acts_of_plain (Prog.issues_bind.2 ⟨hc, fun _ _ => trivial⟩)
  · exact hafter (pure a) trivial

/-! ### Plain programs -/

theorem issues_orThrow {P' : Request → Prop} (r : Except WorkIqError α) : (orThrow r).Issues P' := by
  cases r <;> trivial

theorem issues_changedAny {P' : Request → Prop} (o : Outcome) : (changedAny o).Issues P' := by
  cases o <;> trivial

theorem plain_delete (secretId : Token) : (delete secretId).Issues Plain :=
  ⟨⟨fun _ _ => trivial, rfl, rfl⟩, fun o => issues_changedAny o⟩

theorem plain_resolveBundle : resolveBundle.Issues Plain :=
  Prog.issues_tryCatch.2 ⟨⟨⟨fun _ _ => trivial, rfl, rfl⟩, fun r => issues_orThrow r⟩, fun _ _ => trivial⟩

theorem plain_cleanupRows (now : Time) (rows : List StateRow) : (cleanupRows now rows).Issues Plain := by
  induction rows with
  | nil => trivial
  | cons row rows ih =>
    refine Prog.issues_bind.2 ⟨plain_delete _, fun _ _ => ⟨⟨fun _ _ => trivial, rfl, rfl⟩, fun o => ?_⟩⟩
    show (changedAny o >>= fun _ => cleanupRows now rows).Issues Plain
    exact Prog.issues_bind.2 ⟨issues_changedAny o, fun _ _ => ih⟩

theorem plain_cleanup (now : Time) : (cleanup now).Issues Plain := by
  refine ⟨⟨fun _ _ => trivial, rfl, rfl⟩, fun r => ?_⟩
  show (orThrow r >>= fun rows => cleanupRows now rows).Issues Plain
  exact Prog.issues_bind.2 ⟨issues_orThrow r, fun rows _ => plain_cleanupRows now rows⟩

theorem plain_removeConsumed (state : Token) : (removeConsumed P state).Issues Plain :=
  ⟨⟨fun _ _ => trivial, rfl, rfl⟩, fun o => issues_changedAny o⟩

theorem plain_resolve (secretId : Token) : (resolve secretId).Issues Plain := by
  refine ⟨⟨fun _ _ => trivial, rfl, rfl⟩, fun r => ?_⟩
  rcases r with e | _ | verifier <;> trivial

theorem plain_create (verifier : Token) : (create verifier).Issues Plain := by
  refine ⟨⟨fun _ _ => trivial, rfl, rfl⟩, fun secretId => ⟨⟨fun _ _ => trivial, rfl, rfl⟩, fun o => ?_⟩⟩
  rcases o with n | _
  · trivial
  · refine ⟨⟨fun _ _ => trivial, rfl, rfl⟩, fun r => ?_⟩
    rcases r with e | _ | verifier <;> trivial

theorem plain_takeVerifier (row : StateRow) (file : ConnectionFile) : (takeVerifier P row file).Issues Plain := by
  refine issues_finallyDo ?_ (plain_delete _)
  split
  · exact plain_resolve _
  · trivial

/-- What the answer to a request says is used, or thrown. -/
theorem keeps_reading {α β : Type} {q : Request} {read : Answer q → Except WorkIqError α} {f : α → Service β}
    {R : Except WorkIqError β → Own → Prop} (hq : founded P own q)
    (hf : ∀ v a, read a = .ok v → (writers P).Keeps (f v) (⟨q, a⟩ :: own) R) (he : ∀ e own', R (.error e) own') :
    (writers P).Keeps (.ask q fun a => orThrow (read a) >>= f) own R := by
  refine keeps_ask hq fun a _ => ?_
  cases hread : read a with
  | error e => exact he _ _
  | ok v => exact hf v a hread

theorem keeps_resolveAuthorized {β : Type} {descriptor : ConnectionDescriptor} {f : VaultRow → Service β}
    {R : Except WorkIqError β → Own → Prop}
    (hf : ∀ row, sameAuthorization descriptor row.bundle = true →
      (writers P).Keeps (f row) (⟨.selectBundle, .ok row⟩ :: own) R) (he : ∀ e own', R (.error e) own') :
    (writers P).Keeps (resolveAuthorized descriptor >>= f) own R := by
  refine Discipline.keeps_bind ?_
  refine keeps_ask trivial fun answered _ => ?_
  rcases answered with e | row
  · exact he _ _
  show (writers P).Keeps (if sameAuthorization descriptor row.bundle = true then pure row else _) _ _
  by_cases hsame : sameAuthorization descriptor row.bundle = true
  · rw [if_pos hsame]
    exact hf row hsame
  · rw [if_neg hsame]
    exact he _ _

theorem keeps_replaceIfRevision {β : Type} {row : VaultRow} {bundle : Bundle} {f : Bool → Service β}
    {R : Except WorkIqError β → Own → Prop} (hrewrites : Rewrites P own row bundle)
    (hf : ∀ ok outcome, (writers P).Keeps (f ok) (⟨.replaceBundle row.revision bundle, outcome⟩ :: own) R)
    (he : ∀ e own', R (.error e) own') : (writers P).Keeps (replaceIfRevision row.revision bundle >>= f) own R := by
  unfold replaceIfRevision
  split
  · exact he _ _
  · refine keeps_ask ⟨row, rfl, hrewrites⟩ fun outcome _ => ?_
    rcases outcome with n | tookEffect
    · exact hf _ _
    · exact he _ _

theorem acts_orConflict (ok : Bool) : Acts P (orConflict ok) own := by
  cases ok <;> trivial

/-! ### The clients -/

theorem acts_authenticated {route : Route} {handler : Token → Service Unit}
    (h : ∀ session, Acts P (handler session) [⟨.authenticate route, some session⟩]) :
    Acts P (authenticated route handler) [] := by
  refine keeps_ask rfl fun answered _ => ?_
  rcases answered with _ | session
  · trivial
  · exact h session

theorem serves_cons {route : Route} {session : Token} {x : (q : Request) × Answer q} (h : Serves route session own) :
    Serves route session (x :: own) := List.mem_cons_of_mem _ h

theorem serves_append {route : Route} {session : Token} {new : Own} (h : Serves route session own) :
    Serves route session (new ++ own) := List.mem_append_right _ h

theorem acts_changeClientSecret (clientSecret : Text 8192) (repositoryRevision : String) :
    Acts P (changeClientSecret P clientSecret repositoryRevision) [] := by
  refine acts_authenticated fun session => keeps_reading trivial ?_ fun _ _ => trivial
  rintro file _ rfl
  split
  · trivial
  refine keeps_reading trivial ?_ fun _ _ => trivial
  rintro row _ rfl
  have hserves : Serves .clientSecret session [⟨.getConnection, .ok file⟩, ⟨.authenticate .clientSecret, some session⟩] :=
    serves_cons (List.mem_cons_self ..)
  exact keeps_replaceIfRevision (.clientSecret hserves) (fun ok _ => acts_orConflict ok) fun _ _ => trivial

theorem acts_disconnect : Acts P disconnect [] := by
  refine acts_authenticated fun session => keeps_reading trivial ?_ fun _ _ => trivial
  rintro file _ rfl
  refine keeps_reading trivial ?_ fun _ _ => trivial
  rintro row _ rfl
  have hserves : Serves .disconnect session [⟨.getConnection, .ok file⟩, ⟨.authenticate .disconnect, some session⟩] :=
    serves_cons (List.mem_cons_self ..)
  exact keeps_replaceIfRevision (.disconnect hserves) (fun ok _ => acts_orConflict ok) fun _ _ => trivial

theorem acts_update (name : String) (configuration : Option Configuration) (repositoryRevision : Option String) :
    Acts P (update P name configuration repositoryRevision) [] := by
  refine acts_authenticated fun session => keeps_reading trivial ?_ fun _ _ => trivial
  rintro file _ rfl
  split
  · trivial
  refine keeps_plain ?_ (fun _ new _ _ => keeps_ask trivial fun outcome _ => ?_) fun _ _ => trivial
  · unfold assertConfigurable
    split
    · refine Prog.issues_bind.2 ⟨plain_resolveBundle, fun row _ => ?_⟩
      split <;> trivial
    · trivial
  · rcases outcome with n | _
    · exact acts_orConflict _
    · trivial

/-! ### Resolving the connection -/

theorem keeps_readyDescriptor {route : Route} {session : Token} {file : ConnectionFile} {β : Type}
    {f : ConnectionDescriptor → Service β} {R : Except WorkIqError β → Own → Prop}
    (hf : ∀ descriptor own, Described P route own descriptor → (writers P).Keeps (f descriptor) own R)
    (he : ∀ e own', R (.error e) own') :
    (writers P).Keeps (readyDescriptor P file >>= f) [⟨.getConnection, .ok file⟩, ⟨.authenticate route, some session⟩]
      R := by
  refine Discipline.keeps_bind (Discipline.keeps_bind (keeps_reading trivial ?_ fun e own' => he e own'))
  rintro row _ rfl
  show (writers P).Keeps (if (describe P file row.bundle).enabled then _ else _) _ _
  by_cases hready : (describe P file row.bundle).enabled = true
  · rw [if_pos hready]
    refine hf _ _ ⟨row, file, session, rfl, ?_, rfl⟩
    simp only [describe, Bool.and_eq_true] at hready
    exact hready.1
  · rw [if_neg hready]
    exact he _ _

theorem acts_launch : Acts P (launch P) [] := by
  refine acts_authenticated fun session => keeps_reading trivial ?_ fun _ _ => trivial
  rintro file _ rfl
  refine keeps_readyDescriptor (fun descriptor own hdescribed => ?_) fun _ _ => trivial
  refine Discipline.keeps_bind ?_
  show (writers P).Keeps (assertWorkIqSnapshot descriptor >>= _) _ _
  unfold assertWorkIqSnapshot
  split
  swap
  · trivial
  refine keeps_resolveAuthorized (fun row _ => ?_) fun _ _ => trivial
  obtain ⟨row', file', session', rfl, hrefresh, rfl⟩ := hdescribed
  refine keeps_ask ⟨row, _, rfl, row', file', session', rfl, hrefresh, ?_⟩ fun outcome _ => ?_
  · simp [describe, hrefresh, ← row'.bundle.delegated]
  · cases outcome <;> trivial

theorem keeps_redeem {descriptor : ConnectionDescriptor} {row : VaultRow} {β : Type}
    {f : String × Option String → Service β} {R : Except WorkIqError β → Own → Prop}
    (hread : Refreshes P own descriptor row)
    (hf : ∀ accessToken replacement reply clientSecret refreshToken, redeemed reply = .ok (accessToken, replacement) →
      (writers P).Keeps (f (accessToken, replacement))
        (⟨.redeemToken descriptor.configuration clientSecret refreshToken, reply⟩ :: own) R)
    (he : ∀ e own', R (.error e) own') :
    (writers P).Keeps (redeemWorkIqRefreshToken descriptor.configuration row.bundle >>= f) own R := by
  unfold redeemWorkIqRefreshToken
  split
  · rename_i refreshToken _ htoken _
    refine keeps_ask ⟨descriptor, row, refreshToken, hread, rfl, htoken, rfl⟩ fun reply _ => ?_
    show (writers P).Keeps (orThrow (redeemed reply) >>= f) _ R
    cases hreply : redeemed reply with
    | error e => exact he _ _
    | ok tokens => exact hf tokens.1 tokens.2 _ _ _ hreply
  · exact he _ _

theorem keeps_storeReplacement {descriptor : ConnectionDescriptor} {row : VaultRow} {replacement : Option String}
    {reply : TokenReply} {accessToken clientSecret refreshToken : String} {β : Type} {f : Unit → Service β}
    {R : Except WorkIqError β → Own → Prop} (hread : Refreshes P own descriptor row)
    (hreply : redeemed reply = .ok (accessToken, replacement))
    (hf : ∀ new, (writers P).Keeps (f ()) (new ++ own) R) (he : ∀ e own', R (.error e) own') :
    (writers P).Keeps (storeReplacement row replacement >>= f)
      (⟨.redeemToken descriptor.configuration clientSecret refreshToken, reply⟩ :: own) R := by
  unfold storeReplacement
  split
  · exact hf [_]
  rename_i replacement
  split
  · exact he _ _
  rename_i stored hparse
  have hvalue : stored.value = replacement := by
    unfold Text.parse at hparse
    split at hparse
    · rw [← Option.some.inj hparse]
    · cases hparse
  rw [← hvalue] at hreply
  refine Discipline.keeps_bind (keeps_replaceIfRevision (.rotate hread hreply) (fun _ outcome => ?_) fun e own' => he e own')
  exact hf [_, _]

theorem acts_resolve {descriptor : ConnectionDescriptor} {own : Own} (huses : Uses P own descriptor) :
    Acts P (resolveWorkIqConnection descriptor >>= fun credential => request (.execute descriptor credential)) own := by
  refine Discipline.keeps_bind ?_
  show (writers P).Keeps (assertWorkIqSnapshot descriptor >>= _) _ _
  unfold assertWorkIqSnapshot
  split
  swap
  · trivial
  refine keeps_resolveAuthorized (fun row hsame => ?_) fun _ _ => trivial
  have hread : Refreshes P (⟨.selectBundle, .ok row⟩ :: own) descriptor row := ⟨own, rfl, huses, hsame⟩
  refine keeps_redeem hread (fun accessToken replacement reply clientSecret refreshToken hreply => ?_) fun _ _ => trivial
  refine keeps_storeReplacement hread hreply (fun new => ?_) fun _ _ => trivial
  refine keeps_resolveAuthorized (fun last hlast => ?_) fun _ _ => trivial
  refine keeps_ask ⟨last, _, rfl, hlast, own, ?_, huses⟩ fun _ _ => trivial
  exact (List.suffix_cons _ _).trans (List.suffix_append _ _)

theorem acts_test : Acts P (test P) [] := by
  refine acts_authenticated fun session => keeps_reading trivial ?_ fun _ _ => trivial
  rintro file _ rfl
  exact keeps_readyDescriptor (fun descriptor own hdescribed => acts_resolve (.inr hdescribed)) fun _ _ => trivial

theorem acts_executeRun (run : ℕ) : Acts P (executeRun run) [] := by
  refine keeps_ask trivial fun r _ => ?_
  rcases r with e | _ | snapshot
  · trivial
  · trivial
  · exact acts_resolve (.inl ⟨run, rfl⟩)

/-! ### Signing in to Microsoft -/

theorem acts_begin {file : ConnectionFile} {session : Token} (hserves : Serves .connect session own)
    (hfresh : ∀ x ∈ own, inserts x.1 = false) : Acts P (beginWorkIqOAuth P file session) own := by
  refine keeps_ask trivial fun now _ => ?_
  show Acts P (cleanup now >>= _) _
  refine keeps_plain (plain_cleanup now) (fun _ cleaned _ hcleaned => ?_) fun _ _ => trivial
  refine keeps_ask trivial fun state _ => keeps_ask trivial fun verifier _ => ?_
  show Acts P (create verifier >>= _) _
  refine keeps_plain (plain_create verifier) (fun secretId created _ hcreated => ?_) fun _ _ => trivial
  have hinsert : ∀ row : StateRow, row.stateHash = P.hash state → row.sessionHash = P.hash session →
      row.consumedAt = none → founded P (created ++ ⟨.randomToken, verifier⟩ :: ⟨.randomToken, state⟩ ::
        (cleaned ++ ⟨.clock, now⟩ :: own)) (.insertState row) := by
    intro row hstate hsession hconsumed
    refine ⟨fun x hx => ?_, state, session, hstate, hsession, hconsumed, by simp, ?_⟩
    · simp only [List.mem_append, List.mem_cons] at hx
      rcases hx with hx | rfl | rfl | hx | rfl | hx
      · exact (hcreated x hx).2.1
      · rfl
      · rfl
      · exact (hcleaned x hx).2.1
      · rfl
      · exact hfresh x hx
    · exact serves_append (serves_cons (serves_cons (serves_append (serves_cons hserves))))
  refine Discipline.keeps_bind (Discipline.keeps_tryCatch
    (keeps_ask (hinsert _ rfl rfl rfl) fun outcome _ => ?_))
  rcases outcome with n | _
  · trivial
  · have hdelete : ∀ own', Acts P (delete secretId >>= fun _ => throw .databaseUnavailable : Service Unit) own' :=
      fun _ => acts_of_plain (Prog.issues_bind.2 ⟨plain_delete _, fun _ _ => trivial⟩)
    show (writers P).Keeps (delete secretId >>= fun _ => throw .databaseUnavailable : Service Unit) _ _
    exact (hdelete _).mono fun r _ _ => by cases r <;> trivial

theorem acts_connect : Acts P (connect P) [] := by
  refine acts_authenticated fun session => keeps_reading trivial ?_ fun _ _ => trivial
  rintro file _ rfl
  refine Discipline.keeps_bind ((acts_begin (serves_cons (List.mem_cons_self ..)) fun x hx => ?_).mono
    fun r _ _ => by cases r <;> trivial)
  simp only [List.mem_cons, List.not_mem_nil, or_false] at hx
  rcases hx with rfl | rfl <;> rfl

theorem keeps_lookup {state session : Token} {now : Time} {β : Type} {f : StateRow → Service β}
    {R : Except WorkIqError β → Own → Prop}
    (hf : ∀ row, row.sessionHash = P.hash session →
      (writers P).Keeps (f row) (⟨.selectState (P.hash state), .ok (some row)⟩ :: own) R)
    (he : ∀ e own', R (.error e) own') : (writers P).Keeps (lookup P state session now >>= f) own R := by
  refine keeps_ask trivial fun r _ => ?_
  rcases r with e | _ | row
  · exact he _ _
  · exact he _ _
  · show (writers P).Keeps ((if row.open now && row.sessionHash == P.hash session then _ else _) >>= f) _ R
    by_cases hvalid : (row.open now && row.sessionHash == P.hash session) = true
    · rw [if_pos hvalid]
      simp only [Bool.and_eq_true, beq_iff_eq] at hvalid
      exact hf row hvalid.2
    · rw [if_neg hvalid]
      exact he _ _

theorem keeps_consume {state session : Token} {β : Type} {f : StateRow → Service β}
    {R : Except WorkIqError β → Own → Prop} (hserves : Serves .callback session own)
    (hf : ∀ row now, (writers P).Keeps (f row) (⟨.consumeState (P.hash state) now, .changes 1⟩ ::
      ⟨.selectState (P.hash state), .ok (some row)⟩ :: ⟨.clock, now⟩ :: own) R)
    (he : ∀ e own', R (.error e) own') : (writers P).Keeps (consume P state session >>= f) own R := by
  refine keeps_ask trivial fun now _ => ?_
  show (writers P).Keeps ((lookup P state session now >>= _) >>= f) _ R
  refine Discipline.keeps_bind (keeps_lookup (fun row hsession => ?_) fun e own' => he e own')
  refine keeps_ask ⟨state, session, row, _, rfl, rfl, hsession, serves_cons hserves⟩ fun outcome _ => ?_
  rcases outcome with (_ | _ | n) | _
  · exact he _ _
  · exact hf row now
  · exact he _ _
  · exact he _ _

theorem acts_authorize {row : StateRow} {code : String} {verifier : Token} (session : Token)
    (hserves : Serves .callback session own) (hfresh : ∀ x ∈ own, exchanges x.1 = false) {stateHash : String} {now : Time}
    (hconsumed : ⟨.consumeState stateHash now, .changes 1⟩ ∈ own) : Acts P (authorize row code verifier) own := by
  refine keeps_reading trivial ?_ fun _ _ => trivial
  rintro current _ rfl
  refine keeps_ask ⟨fun x hx => ?_, stateHash, now, List.mem_cons_of_mem _ hconsumed⟩ fun reply _ => ?_
  · rcases List.mem_cons.1 hx with rfl | hx
    · rfl
    · exact hfresh x hx
  show Acts P (orThrow (exchanged reply) >>= _) _
  cases hreply : exchanged reply with
  | error e => trivial
  | ok refreshToken =>
    refine keeps_ask trivial fun contextId hcontext => keeps_ask trivial fun connectedAt _ => ?_
    show Acts P (storeAuthorization current refreshToken contextId connectedAt) _
    unfold storeAuthorization
    split
    · trivial
    rename_i stored hparse
    have hvalue : stored.value = refreshToken := by
      unfold Text.parse at hparse
      split at hparse
      · rw [← Option.some.inj hparse]
      · cases hparse
    rw [← hvalue] at hreply
    have hcontext' : contextId.configuration = row.configuration := hcontext
    rw [← hcontext']
    refine keeps_replaceIfRevision (.connect hreply hserves) (fun ok _ => ?_) fun _ _ => trivial
    cases ok <;> trivial

theorem acts_complete {state session : Token} {code : String} {file : ConnectionFile}
    (hserves : Serves .callback session own) (hfresh : ∀ x ∈ own, exchanges x.1 = false) :
    Acts P (completeWorkIqOAuth P state code session file) own := by
  refine keeps_ask trivial fun now _ => ?_
  show Acts P (cleanup now >>= _) _
  refine keeps_plain (plain_cleanup now) (fun _ cleaned _ hcleaned => ?_) fun _ _ => trivial
  refine keeps_consume (serves_append (serves_cons hserves)) (fun row consumedAt => ?_) fun _ _ => trivial
  refine keeps_plain (plain_takeVerifier row file) (fun verifier taken _ htaken => ?_) fun _ _ => trivial
  refine acts_finallyDo (acts_authorize session ?_ (fun x hx => ?_)
    (List.mem_append_right _ (List.mem_cons_self ..))) (plain_removeConsumed state)
  · exact serves_append (serves_cons (serves_cons (serves_cons (serves_append (serves_cons hserves)))))
  · simp only [List.mem_append, List.mem_cons] at hx
    rcases hx with hx | rfl | rfl | rfl | hx | rfl | hx
    · exact (htaken x hx).2.2
    · rfl
    · rfl
    · rfl
    · exact (hcleaned x hx).2.2
    · rfl
    · exact hfresh x hx

theorem acts_discard {state session : Token} (hserves : Serves .callback session own) :
    Acts P (discard P state session) own := by
  refine keeps_consume hserves (fun row now => acts_of_plain ?_) fun _ _ => trivial
  exact Prog.issues_bind.2 ⟨plain_delete _, fun _ _ => plain_removeConsumed state⟩

theorem acts_callback (state : Option Token) (code : Option String) : Acts P (callback P state code) [] := by
  refine acts_authenticated fun session => ?_
  have hserves : Serves .callback session [⟨.authenticate .callback, some session⟩] := List.mem_cons_self ..
  rcases state with _ | state
  · trivial
  refine keeps_ask trivial fun now _ => ?_
  refine keeps_lookup (fun row hsession => ?_) fun _ _ => trivial
  rcases code with _ | code
  · refine Discipline.keeps_bind ((acts_discard (serves_cons (serves_cons hserves))).mono fun r _ _ => ?_)
    cases r <;> trivial
  · refine keeps_reading trivial ?_ fun _ _ => trivial
    rintro file _ rfl
    refine acts_complete (serves_cons (serves_cons (serves_cons hserves))) fun x hx => ?_
    simp only [List.mem_cons, List.not_mem_nil, or_false] at hx
    rcases hx with rfl | rfl | rfl | rfl <;> rfl

/-- **Every client keeps the discipline.** -/
theorem acts_client (c : Client) : Acts P (c.service P) [] := by
  cases c
  case connect => exact acts_connect
  case callback state code => exact acts_callback state code
  case changeClientSecret clientSecret repositoryRevision => exact acts_changeClientSecret _ _
  case disconnect => exact acts_disconnect
  case update name configuration repositoryRevision => exact acts_update _ _ _
  case launch => exact acts_launch
  case executeRun run => exact acts_executeRun run
  case test => exact acts_test

end Keeps

/-! ### What a request does to the world -/

section Statements

variable {P : Platform} {env : Env} {q : Request} {w : World}

/-- A write that did not take effect, or that left the world it was to leave. -/
def Settled (w : World) (touched : Option World) (r : Outcome × World) : Prop :=
  (r.1.effective = false ∧ r.2 = w) ∨ ∃ w', touched = some w' ∧ r.1.effective = true ∧ r.2 = w'

theorem commit_settled (fate : Fate) (w : World) (touched : Option World) :
    Settled w touched (commit fate w touched) := by
  cases fate <;> cases touched <;> simp [Settled, commit, Outcome.effective]

theorem insertion_settled (fate : Fate) (w : World) (inserted : Option World) :
    Settled w inserted (insertion fate w inserted) := by
  rcases inserted with _ | w'
  · exact .inl ⟨rfl, rfl⟩
  · exact commit_settled fate w (some w')

/-- The event changed the bundle. -/
def writes : Event signature → Bool
  | ⟨_, .replaceBundle _ _, outcome⟩ => outcome.effective
  | _ => false

/-- The file, the bundle and the runs stay. -/
structure Same (w w' : World) : Prop where
  file : w'.file = w.file
  bundle : w'.bundle = w.bundle
  runs : w'.runs = w.runs

theorem Settled.same {touched : Option World} {r : Outcome × World} (hsettled : Settled w touched r)
    (h : ∀ w', touched = some w' → Same w w') : Same w r.2 := by
  rcases hsettled with ⟨-, hw⟩ | ⟨w', htouched, -, hw⟩
  · rw [hw]
    exact ⟨rfl, rfl, rfl⟩
  · exact hw ▸ h w' htouched

theorem same_deleteStates {stateHash : String} {p : StateRow → Bool} {w' : World}
    (h : deleteStates w stateHash p = some w') : Same w w' := by
  unfold deleteStates at h
  split at h
  · exact Option.some.inj h ▸ ⟨rfl, rfl, rfl⟩
  · cases h

theorem same_consumeStates {stateHash : String} {now : Time} {w' : World} (h : consumeStates w stateHash now = some w') :
    Same w w' := by
  unfold consumeStates at h
  split at h
  · exact Option.some.inj h ▸ ⟨rfl, rfl, rfl⟩
  · cases h

/-- **Inversion.** What an answered request does to the file, the bundle and the runs. -/
inductive Effect (w : World) : (q : Request) → Answer q → World → Prop
  | quiet {q : Request} {a : Answer q} {w' : World} (hsame : Same w w') (hwrites : ∀ t, writes ⟨t, q, a⟩ = false) :
    Effect w q a w'
  | configure {definition : ConnectionFile} {expectedRevision : String} {outcome : Outcome}
      (ho : outcome.effective = true) :
    Effect w (.updateConnection definition expectedRevision) outcome { w with file := definition }
  | replace {bundle : Bundle} {outcome : Outcome} (ho : outcome.effective = true) :
    Effect w (.replaceBundle w.bundle.revision bundle) outcome { w with bundle := ⟨bundle, w.bundle.revision + 1⟩ }
  | freeze {snapshot : ConnectionDescriptor} {outcome : Outcome} :
    Effect w (.createRun snapshot) outcome { w with runs := w.runs ++ [snapshot] }

/-- **One request** has one of the effects. -/
theorem answer_effect (P : Platform) (env : Env) (q : Request) (w : World) :
    Effect w q (answer P env q w).1 (answer P env q w).2 := by
  cases q
  case updateConnection definition expectedRevision =>
    rcases commit_settled env.fate w (if P.sha w.file = expectedRevision then some { w with file := definition } else none)
      with ⟨-, hw⟩ | ⟨w', htouched, ho, hw⟩
    · rw [show (answer P env (.updateConnection definition expectedRevision) w).2 = w from hw]
      exact .quiet ⟨rfl, rfl, rfl⟩ fun _ => rfl
    · split at htouched
      · rw [show (answer P env (.updateConnection definition expectedRevision) w).2 = _ from hw, ← Option.some.inj htouched]
        exact .configure ho
      · cases htouched
  case replaceBundle revision bundle =>
    rcases commit_settled env.fate w
        (if w.bundle.revision = revision then some { w with bundle := ⟨bundle, revision + 1⟩ } else none)
      with ⟨ho, hw⟩ | ⟨w', htouched, ho, hw⟩
    · rw [show (answer P env (.replaceBundle revision bundle) w).2 = w from hw]
      exact .quiet ⟨rfl, rfl, rfl⟩ fun _ => ho
    · split at htouched
      · rename_i hrevision
        subst hrevision
        rw [show (answer P env (.replaceBundle w.bundle.revision bundle) w).2 = _ from hw, ← Option.some.inj htouched]
        exact .replace ho
      · cases htouched
  case createRun snapshot =>
    rcases commit_settled env.fate w (some { w with runs := w.runs ++ [snapshot] }) with ⟨-, hw⟩ | ⟨w', htouched, -, hw⟩
    · rw [show (answer P env (.createRun snapshot) w).2 = w from hw]
      exact .quiet ⟨rfl, rfl, rfl⟩ fun _ => rfl
    · rw [show (answer P env (.createRun snapshot) w).2 = _ from hw, ← Option.some.inj htouched]
      exact .freeze
  case insertVerifier secretId verifier =>
    refine .quiet ((insertion_settled ..).same fun w' h => ?_) fun _ => rfl
    split at h
    · exact Option.some.inj h ▸ ⟨rfl, rfl, rfl⟩
    · cases h
  case insertState row =>
    refine .quiet ((insertion_settled ..).same fun w' h => ?_) fun _ => rfl
    split at h
    · cases h
    · exact Option.some.inj h ▸ ⟨rfl, rfl, rfl⟩
  case deleteVerifier secretId =>
    exact .quiet ((commit_settled ..).same fun w' h => Option.some.inj h ▸ ⟨rfl, rfl, rfl⟩) fun _ => rfl
  case consumeState stateHash now =>
    exact .quiet ((commit_settled ..).same fun w' h => same_consumeStates h) fun _ => rfl
  case removeConsumed stateHash =>
    exact .quiet ((commit_settled ..).same fun w' h => same_deleteStates h) fun _ => rfl
  case removeExpired stateHash now =>
    exact .quiet ((commit_settled ..).same fun w' h => same_deleteStates h) fun _ => rfl
  all_goals exact .quiet ⟨rfl, rfl, rfl⟩ fun _ => rfl

theorem reading_ok {α : Type} {fate : Fate} {error : WorkIqError} {a b : α} (h : reading fate error a = .ok b) : a = b := by
  unfold reading at h
  split at h
  · exact Except.ok.inj h
  · cases h

end Statements

/-! ### Compare and set -/

section Runs

variable {P : Platform} {pool : Services P}

/-- Every thread keeps the discipline, and everybody who read the bundle is behind it, or it has not changed since. -/
structure Versioned (pool : Services P) : Prop where
  kept : Pool.Kept (writers P) [] pool
  known : ∀ mid t row earlier, pool.trace = mid ++ ⟨t, .selectBundle, .ok row⟩ :: earlier →
    row.revision ≤ pool.world.bundle.revision ∧
      (row.revision = pool.world.bundle.revision → row = pool.world.bundle ∧ ∀ e ∈ mid, writes e = false)

theorem versioned_init (w : World) : Versioned (Pool.init w : Services P) where
  kept := Pool.kept_init (M := machine P) w
  known mid t row earlier h := by simp [Pool.init] at h

theorem Versioned.needs (h : Versioned pool) {t : ℕ} {q : Request} {next : Answer q → Service Unit}
    (ht : pool.threads[t]? = some (.ask q next)) : founded P (Pool.own t pool.trace) q := by
  have hneeds := (h.kept.threads t _ ht).1
  rw [show Pool.ghost (writers P) [] t pool.trace = _ from Pool.ghost_recording t pool.trace] at hneeds
  exact hneeds

theorem Versioned.needed (h : Versioned pool) {e : Event signature} {earlier : Trace}
    (hsuffix : e :: earlier <:+ pool.trace) : founded P (Pool.own e.thread earlier) e.request := by
  obtain ⟨later, htrace⟩ := hsuffix
  have hneeds := h.kept.events later e earlier htrace.symm
  rw [show Pool.ghost (writers P) [] e.thread earlier = _ from Pool.ghost_recording e.thread earlier] at hneeds
  exact hneeds

theorem own_cons {t : ℕ} {q : Request} {a : Answer q} {trace : Trace} :
    Pool.own t (⟨t, q, a⟩ :: trace) = ⟨q, a⟩ :: Pool.own t trace := by
  simp [Pool.own]

theorem own_cons_ne {t t' : ℕ} {q : Request} {a : Answer q} {trace : Trace} (h : t ≠ t') :
    Pool.own t' (⟨t, q, a⟩ :: trace) = Pool.own t' trace := by
  simp [Pool.own, h]

theorem event_of_own {t : ℕ} {own : Own} {trace : Trace} {q : Request} {a : Answer q} (hsuffix : own <:+ Pool.own t trace)
    (h : ⟨q, a⟩ ∈ own) : ⟨t, q, a⟩ ∈ trace := by
  have hmem : (⟨q, a⟩ : (q : Request) × Answer q) ∈ Pool.own t trace := hsuffix.mem h
  exact Pool.mem_of_own hmem

theorem Versioned.begins (h : Versioned pool) {t : ℕ} {route : Route} {a : Option Token}
    (hmem : ⟨.authenticate route, a⟩ ∈ Pool.own t pool.trace) :
    ∃ front, Pool.own t pool.trace = front ++ [⟨.authenticate route, a⟩] := by
  obtain ⟨later, earlier, hown⟩ := List.append_of_mem hmem
  obtain ⟨later', earlier', htrace, -, hearlier⟩ := Pool.split_of_own hown
  have hneeds : Pool.own t earlier' = [] :=
    h.needed (e := ⟨t, .authenticate route, a⟩) (by rw [htrace]; exact List.suffix_append _ _)
  rw [← hearlier, hneeds] at hown
  exact ⟨later, hown⟩

theorem Versioned.route_unique (h : Versioned pool) {t : ℕ} {route route' : Route} {session session' : Token}
    (hserves : Serves route session (Pool.own t pool.trace)) (hserves' : Serves route' session' (Pool.own t pool.trace)) :
    route = route' ∧ session = session' := by
  obtain ⟨front, hfront⟩ := h.begins hserves
  obtain ⟨front', hfront'⟩ := h.begins hserves'
  have hlast := congrArg List.getLast? (hfront.symm.trans hfront')
  simpa using hlast

theorem Versioned.uses_test (h : Versioned pool) {t : ℕ} {own : Own} {descriptor : ConnectionDescriptor} {route : Route}
    {session : Token} (hown : own <:+ Pool.own t pool.trace) (huses : Uses P own descriptor)
    (hserves : Serves route session (Pool.own t pool.trace)) : route = .test := by
  obtain ⟨front, hfront⟩ := h.begins hserves
  rcases huses with ⟨run, rfl⟩ | ⟨row, file, session', rfl, -⟩
  · obtain ⟨front', hfront'⟩ := hown
    have hlast := congrArg List.getLast? (hfront.symm.trans hfront'.symm)
    simp at hlast
  · have hserves' : Serves .test session' (Pool.own t pool.trace) := hown.mem (by simp)
    exact (h.route_unique hserves hserves').1

theorem Rewrites.read {own : Own} {row : VaultRow} {bundle : Bundle} (h : Rewrites P own row bundle) :
    ⟨.selectBundle, .ok row⟩ ∈ own := by
  cases h with
  | connect _ _ => simp
  | clientSecret _ => simp
  | disconnect _ => simp
  | rotate hread _ =>
    obtain ⟨rest, rfl, -⟩ := hread
    simp

theorem Versioned.current (h : Versioned pool) {t : ℕ} {row : VaultRow}
    (hread : ⟨.selectBundle, .ok row⟩ ∈ Pool.own t pool.trace) (hrevision : row.revision = pool.world.bundle.revision) :
    ∃ mid earlier, pool.trace = mid ++ ⟨t, .selectBundle, .ok row⟩ :: earlier ∧ row = pool.world.bundle ∧
      ∀ e ∈ mid, writes e = false := by
  obtain ⟨mid, earlier, htrace⟩ := List.append_of_mem (Pool.mem_of_own hread)
  exact ⟨mid, earlier, htrace, (h.known mid t row earlier htrace).2 hrevision⟩

theorem select_spec (env : Env) {q : Request} {w : World} (row : VaultRow)
    (hq : (⟨q, (answer P env q w).1⟩ : (q : Request) × Answer q) = ⟨.selectBundle, .ok row⟩) : row = w.bundle := by
  obtain rfl : q = .selectBundle := congrArg Sigma.fst hq
  simp only [answer, Sigma.mk.injEq, heq_eq_eq, true_and] at hq
  exact (reading_ok hq).symm

theorem move_cases (pool : Services P) (m : Move P) :
    (pool.step m.action).world = pool.world ∧ (pool.step m.action).trace = pool.trace ∨
    ∃ t env q next, m = .run t env ∧ pool.threads[t]? = some (.ask q next) ∧
      (pool.step m.action).world = (answer P env q pool.world).2 ∧
      (pool.step m.action).trace = ⟨t, q, (answer P env q pool.world).1⟩ :: pool.trace :=
  Interleave.move_cases pool m

theorem kept_move (h : Pool.Kept (writers P) [] pool) (m : Move P) : Pool.Kept (writers P) [] (pool.step m.action) := by
  refine Pool.kept_step m.action ?_ h
  rcases m with c | ⟨t, env⟩
  · exact acts_client c
  · intro q next _
    cases q
    case newAuthorizationContextId configuration => rfl
    all_goals trivial

/-- **One move.** -/
theorem versioned_step (h : Versioned pool) (m : Move P) : Versioned (pool.step m.action) := by
  refine ⟨kept_move h.kept m, fun mid t row earlier htrace => ?_⟩
  rcases move_cases pool m with ⟨hworld, hsame⟩ | ⟨t', env, q, next, -, ht, hworld, hcons⟩
  · rw [hworld]
    exact h.known mid t row earlier (hsame.symm.trans htrace)
  rw [hcons] at htrace
  rw [hworld]
  have heffect := answer_effect P env q pool.world
  rcases mid with _ | ⟨e, mid⟩
  · -- the request is the reading
    obtain ⟨hhead, -⟩ := List.cons.inj htrace
    obtain rfl : q = .selectBundle := congrArg Event.request hhead
    have hrow : pool.world.bundle = row := by
      simp only [answer, Event.mk.injEq, heq_eq_eq, true_and] at hhead
      exact reading_ok hhead.2
    exact ⟨hrow ▸ le_refl _, fun _ => ⟨hrow.symm, fun e he => by cases he⟩⟩
  · obtain ⟨rfl, hrest⟩ := List.cons.inj htrace
    obtain ⟨hle, hsame⟩ := h.known mid t row earlier hrest
    generalize answer P env q pool.world = r at heffect ⊢
    obtain ⟨a, w⟩ := r
    dsimp only at heffect ⊢
    rcases heffect with ⟨hworld', hquiet⟩ | ho | ho | _
    case quiet =>
      rw [hworld'.bundle]
      refine ⟨hle, fun heq => ⟨(hsame heq).1, fun e he => ?_⟩⟩
      rcases List.mem_cons.1 he with rfl | he
      · exact hquiet t'
      · exact (hsame heq).2 e he
    case replace =>
      exact ⟨Nat.le_succ_of_le hle, fun heq => absurd heq (by show row.revision ≠ pool.world.bundle.revision + 1; omega)⟩
    all_goals
      refine ⟨hle, fun heq => ⟨(hsame heq).1, fun e he => ?_⟩⟩
      rcases List.mem_cons.1 he with rfl | he
      · rfl
      · exact (hsame heq).2 e he

end Runs

end ADT.WorkIq
