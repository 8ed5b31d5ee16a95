import ADT.WorkIq.Writers

/-!
# WorkIq.Tenancy — refresh tokens go back to where they come from

An update reads the vault before it writes the configuration to Git, and a callback reads Git before it stores a token;
a launch reads Git before it reads the vault.  In a run in which neither of the three is overtaken, every refresh token
is sent with the tenant and the client it was obtained from (`tokens_at_home`).
-/

namespace ADT.WorkIq

open Interleave

/-- The event obtained the refresh token from the token endpoint, for the tenant and the client. -/
def obtains (configuration : Configuration) (token : String) : Event signature → Bool
  | ⟨_, .exchangeCode c _ _ _, reply⟩ => c == configuration && (exchanged reply).toOption == some token
  | ⟨_, .redeemToken c _ _, reply⟩ => c == configuration && (redeemed reply).toOption.bind (·.2) == some token
  | _ => false

def Obtained (trace : Trace) (configuration : Configuration) (token : String) : Prop :=
  ∃ e ∈ trace, obtains configuration token e = true

/-- Every refresh token that is sent was obtained from the tenant and the client that it is sent with. -/
def TokensAtHome (trace : Trace) : Prop :=
  ∀ later t configuration clientSecret token reply earlier,
    trace = later ++ ⟨t, .redeemToken configuration clientSecret token, reply⟩ :: earlier →
      Obtained earlier configuration token

/-! ### The condition on a run -/

/-- The thread serves a callback. -/
def servesCallback (own : Own) : Bool :=
  own.any fun
    | ⟨.authenticate .callback, some _⟩ => true
    | _ => false

/-- The file of a connection that the thread is about to describe, to launch a run or to test it. -/
def describing : Own → Option ConnectionFile
  | [⟨.getConnection, .ok file⟩, ⟨.authenticate .launch, some _⟩] => some file
  | [⟨.getConnection, .ok file⟩, ⟨.authenticate .test, some _⟩] => some file
  | _ => none

/-- Of a request that is answered in `w`, to a thread that did `own`: a callback stores its token while its configuration
is the one in Git; the configuration changes in Git while the vault has no token; and a token is read for a descriptor
while the configuration of the descriptor is the one in Git. -/
def staysHome (own : Own) (w : World) : (q : Request) → Answer q → Bool
  | .replaceBundle _ bundle, outcome =>
    !servesCallback own || !outcome.effective ||
      bundle.authorizationContextId.all (·.configuration == w.file.configuration)
  | .updateConnection definition _, outcome =>
    definition.configuration == w.file.configuration || !outcome.effective || w.bundle.bundle.refreshToken.isNone
  | .selectBundle, .ok row =>
    row.bundle.refreshToken.isNone || (describing own).all (·.configuration == w.file.configuration)
  | _, _ => true

def inTenancy {P : Platform} (pool : Services P) : Move P → Bool
  | .client _ => true
  | .run t env =>
    match pool.threads[t]? with
    | some (.ask q _) => staysHome (Pool.own t pool.trace) pool.world q (answer P env q pool.world).1
    | _ => true

/-- Every move is so. -/
abbrev AllInTenancy {P : Platform} (pool : Services P) (moves : List (Move P)) : Prop := Moves inTenancy pool moves

/-! ### What the token of a bundle and the context of a descriptor are for -/

section Runs

variable {P : Platform} {pool : Services P} {trace : Trace}

/-- The token of the bundle was obtained for the configuration of its context. -/
def Bundle.AtHome (trace : Trace) (bundle : Bundle) : Prop :=
  ∀ token contextId, bundle.refreshToken = some token → bundle.authorizationContextId = some contextId →
    Obtained trace contextId.configuration token.value

/-- The context of the descriptor was drawn for its configuration. -/
def ConnectionDescriptor.Coherent (descriptor : ConnectionDescriptor) : Prop :=
  ∀ contextId, descriptor.authorizationContextId = some contextId →
    contextId.configuration = descriptor.configuration

theorem Obtained.cons {e : Event signature} {configuration : Configuration} {token : String}
    (h : Obtained trace configuration token) : Obtained (e :: trace) configuration token := by
  obtain ⟨e', he', hobtains⟩ := h
  exact ⟨e', List.mem_cons_of_mem _ he', hobtains⟩

theorem Bundle.AtHome.cons {e : Event signature} {bundle : Bundle} (h : bundle.AtHome trace) :
    bundle.AtHome (e :: trace) := fun token contextId ht hc => (h token contextId ht hc).cons

/-- The invariant. -/
structure Housed (pool : Services P) : Prop where
  versioned : Versioned pool
  stored : pool.world.bundle.bundle.AtHome pool.trace
  configured : ∀ contextId, pool.world.bundle.bundle.authorizationContextId = some contextId →
    contextId.configuration = pool.world.file.configuration
  seen : ∀ t row, ⟨t, .selectBundle, .ok row⟩ ∈ pool.trace → row.bundle.AtHome pool.trace
  described : ∀ t route own descriptor, route = .launch ∨ route = .test → own <:+ Pool.own t pool.trace →
    Described P route own descriptor → descriptor.Coherent
  frozen : ∀ snapshot ∈ pool.world.runs, snapshot.Coherent
  read : ∀ t run snapshot, ⟨t, .readRun run, .ok (some snapshot)⟩ ∈ pool.trace → snapshot.Coherent
  home : TokensAtHome pool.trace

theorem housed_init (file : ConnectionFile) (clientSecret : Text 8192) :
    Housed (Pool.init (World.created file clientSecret) : Services P) where
  versioned := versioned_init _
  stored token contextId ht hc := by cases ht
  configured contextId hc := by cases hc
  seen t row h := by cases h
  described t route own descriptor _ hsuffix hdescribed := by
    obtain ⟨row, file, session, rfl, -⟩ := hdescribed
    simp [Pool.own, Pool.init] at hsuffix
  frozen snapshot h := by cases h
  read t run snapshot h := by cases h
  home later t configuration clientSecret token reply earlier h := by simp [Pool.init] at h

variable {own : Own} {descriptor : ConnectionDescriptor} {row : VaultRow} {bundle : Bundle} {contextId : ContextId}

theorem Housed.coherent (h : Housed pool) {t : ℕ}
    (hsuffix : own <:+ Pool.own t pool.trace) (huses : Uses P own descriptor) : descriptor.Coherent := by
  rcases huses with ⟨run, rfl⟩ | hdescribed
  · exact h.read t run descriptor (event_of_own hsuffix (List.mem_singleton.2 rfl))
  · exact h.described t .test own descriptor (.inr rfl) hsuffix hdescribed

theorem Housed.refreshes (h : Housed pool) {t : ℕ}
    (hsuffix : own <:+ Pool.own t pool.trace) (hread : Refreshes P own descriptor row) :
    ∃ contextId, row.bundle.authorizationContextId = some contextId ∧ contextId.configuration = descriptor.configuration ∧
      ∀ token, row.bundle.refreshToken = some token → Obtained pool.trace descriptor.configuration token.value := by
  obtain ⟨rest, rfl, huses, hsame⟩ := hread
  simp only [sameAuthorization, Bool.and_eq_true, beq_iff_eq] at hsame
  have hsome := row.bundle.delegated.symm.trans hsame.1
  obtain ⟨contextId, hcontext⟩ := Option.isSome_iff_exists.1 hsome
  have hconfiguration : contextId.configuration = descriptor.configuration :=
    h.coherent ((List.suffix_cons _ _).trans hsuffix) huses contextId (hsame.2 ▸ hcontext)
  refine ⟨contextId, hcontext, hconfiguration, fun token htoken => ?_⟩
  rw [← hconfiguration]
  exact h.seen t row (event_of_own hsuffix (List.mem_cons_self ..)) token contextId htoken hcontext

/-! ### One move -/

theorem Housed.rewritten (h : Housed pool) {t : ℕ}
    (hown : own <:+ Pool.own t pool.trace) (hrewrites : Rewrites P own row bundle) : bundle.AtHome pool.trace := by
  have hread := h.seen t row (event_of_own hown hrewrites.read)
  intro token contextId htoken hcontext
  cases hrewrites with
  | connect hreply _ =>
    obtain ⟨rfl, rfl⟩ : _ = token ∧ _ = contextId := ⟨Option.some.inj htoken, Option.some.inj hcontext⟩
    refine ⟨_, event_of_own hown (List.mem_cons_of_mem _ (List.mem_cons_of_mem _ (List.mem_cons_self ..))), ?_⟩
    simp [obtains, hreply, Except.toOption]
  | clientSecret _ => exact hread token contextId htoken hcontext
  | disconnect _ => cases htoken
  | rotate hrefreshes hreply =>
    obtain ⟨contextId', hcontext', hconfiguration, -⟩ := h.refreshes ((List.suffix_cons _ _).trans hown) hrefreshes
    have hsome : row.bundle.refreshToken.isSome = true := by rw [row.bundle.delegated, hcontext']; rfl
    rw [Bundle.rotate_refreshToken _ hsome] at htoken
    rw [Bundle.rotate_authorizationContextId, hcontext'] at hcontext
    obtain ⟨rfl, rfl⟩ : _ = token ∧ _ = contextId := ⟨Option.some.inj htoken, Option.some.inj hcontext⟩
    refine ⟨_, event_of_own hown (List.mem_cons_self ..), ?_⟩
    simp [obtains, hreply, hconfiguration, Except.toOption]

theorem servesCallback_of {session : Token} (h : Serves .callback session own) : servesCallback own = true :=
  List.any_eq_true.2 ⟨_, h, rfl⟩

theorem Rewrites.context (h : Rewrites P own row bundle) (hcontext : bundle.authorizationContextId = some contextId) :
    servesCallback own = true ∨ row.bundle.authorizationContextId = some contextId := by
  cases h with
  | connect _ hserves =>
    exact .inl (servesCallback_of (serves_cons (serves_cons (serves_cons (serves_cons hserves)))))
  | clientSecret _ => exact .inr hcontext
  | disconnect _ => cases hcontext
  | rotate _ _ => exact .inr (by simpa using hcontext)

theorem Housed.replaced (h : Housed pool) {t : ℕ}
    (hneeds : founded P (Pool.own t pool.trace) (.replaceBundle pool.world.bundle.revision bundle)) :
    Rewrites P (Pool.own t pool.trace) pool.world.bundle bundle := by
  obtain ⟨row, hrevision, hrewrites⟩ := hneeds
  obtain ⟨-, -, -, hrow, -⟩ := h.versioned.current hrewrites.read hrevision.symm
  exact hrow ▸ hrewrites

variable {t : ℕ} {q : Request} {a : Answer q} {w : World}

section

variable (h : Housed pool)

include h

theorem Housed.configured_answer (hneeds : founded P (Pool.own t pool.trace) q)
    (heffect : Effect pool.world q a w) (hhome : staysHome (Pool.own t pool.trace) pool.world q a = true)
    (hcontext : w.bundle.bundle.authorizationContextId = some contextId) :
    contextId.configuration = w.file.configuration := by
  cases heffect with
  | quiet hsame _ =>
    rw [hsame.bundle] at hcontext
    rw [hsame.file]
    exact h.configured contextId hcontext
  | configure ho =>
    rename_i definition _
    have hconfigured := h.configured contextId hcontext
    simp only [staysHome, ho, Bool.not_true, Bool.or_false, Bool.or_eq_true, beq_iff_eq, Option.isNone_iff_eq_none] at hhome
    rcases hhome with hsame | hnone
    · exact hconfigured.trans hsame.symm
    · have hsome := pool.world.bundle.bundle.delegated
      have hcontext' : pool.world.bundle.bundle.authorizationContextId = some contextId := hcontext
      rw [hnone, hcontext'] at hsome
      cases hsome
  | replace ho =>
    rename_i bundle _
    rcases (h.replaced hneeds).context hcontext with hserves | hkept
    · have hcontext' : bundle.authorizationContextId = some contextId := hcontext
      simp only [staysHome, hserves, ho, Bool.not_true, Bool.false_or, hcontext', Option.all_some, beq_iff_eq] at hhome
      exact hhome
    · exact h.configured contextId hkept
  | freeze => exact h.configured contextId hcontext

theorem Housed.stored_answer (hneeds : founded P (Pool.own t pool.trace) q)
    (heffect : Effect pool.world q a w) : w.bundle.bundle.AtHome (⟨t, q, a⟩ :: pool.trace) := by
  cases heffect with
  | quiet hsame _ =>
    rw [hsame.bundle]
    exact h.stored.cons
  | configure _ => exact h.stored.cons
  | replace _ => exact (h.rewritten List.suffix_rfl (h.replaced hneeds)).cons
  | freeze => exact h.stored.cons

theorem Housed.described_answer (hread : ∀ row, (⟨q, a⟩ : (q : Request) × Answer q) =
      ⟨.selectBundle, .ok row⟩ → row = pool.world.bundle)
    (hhome : staysHome (Pool.own t pool.trace) pool.world q a = true) {route : Route}
    (hroute : route = .launch ∨ route = .test)
    (hsuffix : own <:+ ⟨q, a⟩ :: Pool.own t pool.trace) (hdescribed : Described P route own descriptor) :
    descriptor.Coherent := by
  rcases List.suffix_cons_iff.1 hsuffix with heq | hsuffix
  · obtain ⟨row, file, session, rfl, hrefresh, rfl⟩ := hdescribed
    obtain ⟨hhead, hrest⟩ := List.cons.inj heq
    obtain rfl := hread row hhead.symm
    cases hhead
    have hdescribing : describing (Pool.own t pool.trace) = some file := by
      rw [← hrest]
      rcases hroute with rfl | rfl <;> rfl
    intro contextId hcontext
    have hconfigured := h.configured contextId hcontext
    simp only [staysHome, hdescribing, Option.all_some, Bool.or_eq_true, beq_iff_eq, Option.isNone_iff_eq_none] at hhome
    rcases hhome with hnone | hsame
    · rw [hnone] at hrefresh
      cases hrefresh
    · exact hconfigured.trans hsame.symm
  · exact h.described t route own descriptor hroute hsuffix hdescribed

theorem Housed.frozen_answer (hneeds : founded P (Pool.own t pool.trace) q)
    (heffect : Effect pool.world q a w) : ∀ snapshot ∈ w.runs, snapshot.Coherent := by
  cases heffect with
  | quiet hsame _ =>
    rw [hsame.runs]
    exact h.frozen
  | configure _ => exact h.frozen
  | replace _ => exact h.frozen
  | freeze =>
    intro snapshot' hsnapshot
    rcases List.mem_append.1 hsnapshot with hsnapshot | hsnapshot
    · exact h.frozen snapshot' hsnapshot
    · rw [List.mem_singleton.1 hsnapshot]
      obtain ⟨row, rest, hown, hdescribed⟩ := hneeds
      exact h.described t .launch rest _ (.inl rfl) (by rw [hown]; exact List.suffix_cons _ _) hdescribed

theorem Housed.home_answer (hneeds : founded P (Pool.own t pool.trace) q) :
    TokensAtHome (⟨t, q, a⟩ :: pool.trace) := by
  intro later t' configuration clientSecret token reply earlier htrace
  rcases later with _ | ⟨e, later⟩
  · obtain ⟨hhead, rfl⟩ := List.cons.inj htrace
    cases hhead
    obtain ⟨descriptor, row, stored, hread, rfl, hstored, rfl⟩ := hneeds
    obtain ⟨-, -, -, hobtained⟩ := h.refreshes List.suffix_rfl hread
    exact hobtained stored hstored
  · exact h.home later t' configuration clientSecret token reply earlier (List.cons.inj htrace).2

/-- **One move.** -/
theorem housed_step (m : Move P) (hm : inTenancy pool m = true) : Housed (pool.step m.action) := by
  have hversioned := versioned_step h.versioned m
  rcases move_cases pool m with ⟨hworld, htrace⟩ | ⟨t, env, q, next, rfl, ht, hworld, htrace⟩
  · refine ⟨hversioned, ?_, ?_, ?_, ?_, ?_, ?_, ?_⟩ <;> simp only [hworld, htrace]
    exacts [h.stored, h.configured, h.seen, h.described, h.frozen, h.read, h.home]
  have hneeds := h.versioned.needs ht
  have heffect := answer_effect P env q pool.world
  simp only [inTenancy, ht] at hm
  have hselect : ∀ row, (⟨q, (answer P env q pool.world).1⟩ : (q : Request) × Answer q) = ⟨.selectBundle, .ok row⟩ →
      row = pool.world.bundle := select_spec env
  have hread : ∀ run snapshot, (⟨q, (answer P env q pool.world).1⟩ : (q : Request) × Answer q) =
      ⟨.readRun run, .ok (some snapshot)⟩ → snapshot ∈ pool.world.runs := by
    intro run snapshot hq
    obtain rfl : q = .readRun run := congrArg Sigma.fst hq
    simp only [answer, Sigma.mk.injEq, heq_eq_eq, true_and] at hq
    exact List.mem_of_getElem? (reading_ok hq)
  generalize answer P env q pool.world = r at heffect hm hworld htrace hselect hread
  obtain ⟨a, w⟩ := r
  dsimp only at heffect hm hworld htrace hselect hread
  refine ⟨hversioned, ?_, ?_, ?_, ?_, ?_, ?_, ?_⟩ <;> simp only [hworld, htrace]
  case refine_1 => exact h.stored_answer hneeds heffect
  case refine_2 => exact fun contextId hcontext => h.configured_answer hneeds heffect hm hcontext
  case refine_3 =>
    intro t' row hmem
    rcases List.mem_cons.1 hmem with heq | hmem
    · rw [hselect row (by cases heq; rfl)]
      exact h.stored.cons
    · exact (h.seen t' row hmem).cons
  case refine_4 =>
    intro t' route own descriptor hroute hsuffix hdescribed
    by_cases htt : t = t'
    · subst htt
      rw [own_cons] at hsuffix
      exact h.described_answer hselect hm hroute hsuffix hdescribed
    · rw [own_cons_ne htt] at hsuffix
      exact h.described t' route own descriptor hroute hsuffix hdescribed
  case refine_5 => exact h.frozen_answer hneeds heffect
  case refine_6 =>
    intro t' run snapshot hmem
    rcases List.mem_cons.1 hmem with heq | hmem
    · exact h.frozen snapshot (hread run snapshot (by cases heq; rfl))
    · exact h.read t' run snapshot hmem
  case refine_7 => exact h.home_answer hneeds

theorem housed_run (moves : List (Move P)) (hmoves : AllInTenancy pool moves) :
    Housed (pool.run (moves.map Move.action)) :=
  run_keeps h (fun _ m hm hpool => housed_step hpool m hm) hmoves

end

end Runs

/-- **Tokens at home.** In every run of everybody who uses the connection, with every answer of the token endpoint, of
Git and of the database, in which no callback stores a token after its configuration has changed in Git, no
configuration changes in Git while the vault has a token, and no descriptor mixes an old configuration with the token of
a new one: every refresh token is sent with the tenant and the client it was obtained from. -/
theorem tokens_at_home (P : Platform) (file : ConnectionFile) (clientSecret : Text 8192) (moves : List (Move P))
    (h : AllInTenancy (Pool.init (World.created file clientSecret) : Services P) moves) :
    TokensAtHome (after P (World.created file clientSecret) moves).trace :=
  (housed_run (housed_init file clientSecret) moves h).home

/-! ### Runs to look at -/

/-- Hashes as long as the token is great. -/
def plainPlatform : Platform where
  hash token := String.ofList (List.replicate token 'x')
  collisionFree a b h := by
    have hlength := congrArg (fun s => s.toList.length) h
    simpa using hlength
  sha file := file.configuration.tenantId

def contoso : ConnectionFile := ⟨"Work IQ", ⟨"contoso", "app"⟩⟩

def fabrikam : Configuration := ⟨"fabrikam", "app"⟩

def secret : Text 8192 := ⟨"secret", by decide⟩

/-- The session has access, every statement is done, and the token endpoint hands out this refresh token. -/
def grantingEnv (refreshToken : String) : Env where
  now := 0
  session := some 7
  fate := .done
  reply := .response 200 (some ⟨some "access", some "Bearer", some refreshToken⟩)

def runs (t n : ℕ) (refreshToken : String) : List (Move plainPlatform) := Interleave.runs t n (grantingEnv refreshToken)

/-- An account is connected, a run is launched, and a node uses the connection twice. -/
def connected : List (Move plainPlatform) :=
  .client .connect :: runs 0 9 "" ++ .client (.callback (some 0) (some "code")) :: runs 1 17 "first" ++
    .client .launch :: runs 2 5 "" ++ .client (.executeRun 0) :: runs 3 6 "second" ++
    .client (.executeRun 0) :: runs 4 6 "third"

theorem connected_at_home : TokensAtHome (after plainPlatform (World.created contoso secret) connected).trace :=
  tokens_at_home plainPlatform contoso secret connected (by decide +kernel)

/-- While a callback exchanges its code, the configuration is changed: the vault has no token yet. -/
def changedMeanwhile : List (Move plainPlatform) :=
  .client .connect :: runs 0 9 "" ++ .client (.callback (some 0) (some "code")) :: runs 1 15 "contoso's" ++
    .client (.update "Work IQ" (some fabrikam) (some "contoso")) :: runs 2 4 "" ++ runs 1 2 "" ++
    .client .launch :: runs 3 5 "" ++ .client (.executeRun 0) :: runs 4 2 ""

/-- The token of one tenant is sent to the other one. -/
theorem changedMeanwhile_strays :
    (after plainPlatform (World.created contoso secret) (changedMeanwhile ++ runs 4 1 "second")).trace =
      ⟨4, .redeemToken fabrikam "secret" "contoso's", (grantingEnv "second").reply⟩ ::
        (after plainPlatform (World.created contoso secret) changedMeanwhile).trace ∧
    ¬TokensAtHome (after plainPlatform (World.created contoso secret) (changedMeanwhile ++ runs 4 1 "second")).trace := by
  have htrace : (after plainPlatform (World.created contoso secret) (changedMeanwhile ++ runs 4 1 "second")).trace =
      ⟨4, .redeemToken fabrikam "secret" "contoso's", (grantingEnv "second").reply⟩ ::
        (after plainPlatform (World.created contoso secret) changedMeanwhile).trace := rfl
  refine ⟨htrace, fun h => ?_⟩
  obtain ⟨e, he, hobtains⟩ := h [] 4 fabrikam "secret" "contoso's" _ _ htrace
  have hnone : (after plainPlatform (World.created contoso secret) changedMeanwhile).trace.all
      (!obtains fabrikam "contoso's" ·) = true := by decide +kernel
  simpa [hobtains] using List.all_eq_true.1 hnone e he

end ADT.WorkIq
