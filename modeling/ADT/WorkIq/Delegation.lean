import ADT.Lib.Ran
import ADT.WorkIq.Writers

/-!
# WorkIq.Delegation — an authorization is not lost or resurrected

Whatever the order of the requests: an OAuth state is redeemed once, by the session that began it; after a disconnect
there is no refresh token until a callback that read the bundle later stores one; nobody undoes the change of a client
secret; and the connection is used only where its authorization was still the one of the snapshot (`delegation`).
-/

namespace ADT.WorkIq

open Interleave

/-! ### The statement -/

/-- The bundle that the events leave in the vault. -/
def stored (initial : Bundle) : Trace → Bundle
  | [] => initial
  | ⟨_, .replaceBundle _ bundle, outcome⟩ :: earlier => if outcome.effective then bundle else stored initial earlier
  | _ :: earlier => stored initial earlier

/-- The thread serves a request on the route. -/
def serves (route : Route) (own : Own) : Bool :=
  own.any fun
    | ⟨.authenticate r, some _⟩ => r == route
    | _ => false

/-- The event stored a bundle, for a request on the route. -/
def writesFor (route : Route) (earlier : Trace) (e : Event signature) : Bool :=
  writes e && serves route (Pool.own e.thread earlier)

/-- A callback stored an authorization, and it read the bundle among these events. -/
def Reconnected (events earlier : Trace) : Prop :=
  ∃ later w mid row before, events = later ++ w :: (mid ++ ⟨w.thread, .selectBundle, .ok row⟩ :: before) ∧
    writesFor .callback (mid ++ ⟨w.thread, .selectBundle, .ok row⟩ :: (before ++ earlier)) w = true

/-- The client secret of the last change that took effect. -/
def latestSecret (initial : Bundle) : Trace → Text 8192
  | [] => initial.clientSecret
  | ⟨t, .replaceBundle revision bundle, outcome⟩ :: earlier =>
    if writesFor .clientSecret earlier ⟨t, .replaceBundle revision bundle, outcome⟩ then bundle.clientSecret
    else latestSecret initial earlier
  | _ :: earlier => latestSecret initial earlier

/-- The event consumed the state. -/
def consumes (stateHash : String) : Event signature → Bool
  | ⟨_, .consumeState h _, outcome⟩ => h == stateHash && outcome.effective
  | _ => false

/-- A state with the hash was begun by the session. -/
def Began (trace : Trace) (stateHash : String) (session : Token) : Prop :=
  ∃ t row outcome, ⟨t, .insertState row, outcome⟩ ∈ trace ∧ row.stateHash = stateHash ∧
    ⟨t, .authenticate .connect, some session⟩ ∈ trace

structure Delegation (P : Platform) (initial : Bundle) (trace : Trace) : Prop where
  /-- Each state is consumed at most once. -/
  consumedOnce : ∀ stateHash, trace.countP (consumes stateHash) ≤ 1
  /-- It is consumed by the session that began it. -/
  sameSession : ∀ later (t : ℕ) stateHash now (outcome : Outcome) earlier,
    trace = later ++ ⟨t, .consumeState stateHash now, outcome⟩ :: earlier →
      ∃ session, Serves .callback session (Pool.own t earlier) ∧ Began earlier stateHash session
  /-- A code is exchanged after a state was consumed, and once. -/
  exchangedOnce : ∀ later (t : ℕ) configuration clientSecret code verifier (reply : TokenReply) earlier,
    trace = later ++ ⟨t, .exchangeCode configuration clientSecret code verifier, reply⟩ :: earlier →
      (∃ stateHash now, (⟨t, .consumeState stateHash now, Outcome.changes 1⟩ : Event signature) ∈ earlier) ∧
        ∀ x ∈ Pool.own t earlier, exchanges x.1 = false
  /-- After a disconnect there is no refresh token until a callback that read the bundle later stores one. -/
  disconnected : ∀ later d earlier, trace = later ++ d :: earlier → writesFor .disconnect earlier d = true →
    (stored initial trace).refreshToken = none ∨ Reconnected later (d :: earlier)
  /-- The client secret is the one of the last change. -/
  clientSecret : (stored initial trace).clientSecret = latestSecret initial trace
  /-- The connection is used with the snapshot that was frozen, and its authorization was the stored one when the vault
  was last read. -/
  resolved : ∀ later (t : ℕ) snapshot credential earlier, trace = later ++ ⟨t, .execute snapshot credential, ()⟩ :: earlier →
    ∃ mid row before, earlier = mid ++ ⟨t, .selectBundle, .ok row⟩ :: before ∧ Pool.own t mid = [] ∧
      row.bundle = stored initial before ∧ sameAuthorization snapshot row.bundle = true ∧
      ∃ start, start <:+ Pool.own t before ∧ Uses P start snapshot

/-! ### The bundle -/

section Bundles

variable {P : Platform} {pool : Services P} {initial : Bundle} {trace : Trace} {t : ℕ} {q : Request} {a : Answer q}
  {w : World}

theorem stored_of_quiet (h : writes ⟨t, q, a⟩ = false) : stored initial (⟨t, q, a⟩ :: trace) = stored initial trace := by
  cases q
  case replaceBundle revision bundle =>
    have ho : Outcome.effective a = false := h
    simp [stored, ho]
  all_goals rfl

theorem latestSecret_of_other (h : writesFor .clientSecret trace ⟨t, q, a⟩ = false) :
    latestSecret initial (⟨t, q, a⟩ :: trace) = latestSecret initial trace := by
  cases q
  case replaceBundle revision bundle => simp [latestSecret, h]
  all_goals rfl

variable {own : Own} {row : VaultRow} {bundle : Bundle}

theorem serves_of {route : Route} {session : Token} (h : Serves route session own) : serves route own = true :=
  List.any_eq_true.2 ⟨_, h, by simp⟩

theorem serves_iff {route : Route} : serves route own = true ↔ ∃ session, Serves route session own := by
  constructor
  · intro h
    obtain ⟨⟨q, a⟩, hmem, hserves⟩ := List.any_eq_true.1 h
    cases q
    case authenticate r =>
      rcases a with _ | session
      · cases hserves
      · obtain rfl : r = route := by simpa using hserves
        exact ⟨session, hmem⟩
    all_goals cases hserves
  · rintro ⟨session, h⟩
    exact serves_of h

/-- The invariant of the bundle. -/
structure Bundled (initial : Bundle) (pool : Services P) : Prop where
  versioned : Versioned pool
  now : pool.world.bundle.bundle = stored initial pool.trace
  seen : ∀ mid t row before, pool.trace = mid ++ ⟨t, .selectBundle, .ok row⟩ :: before → row.bundle = stored initial before
  disconnected : ∀ later d earlier, pool.trace = later ++ d :: earlier → writesFor .disconnect earlier d = true →
    (stored initial pool.trace).refreshToken = none ∨ Reconnected later (d :: earlier)
  clientSecret : (stored initial pool.trace).clientSecret = latestSecret initial pool.trace

theorem bundled_init (w : World) : Bundled w.bundle.bundle (Pool.init w : Services P) where
  versioned := versioned_init w
  now := rfl
  seen mid t row before h := by simp [Pool.init] at h
  disconnected later d earlier h := by simp [Pool.init] at h
  clientSecret := rfl

theorem Reconnected.cons {events earlier : Trace} {e : Event signature} (h : Reconnected events earlier) :
    Reconnected (e :: events) earlier := by
  obtain ⟨later, w, mid, row, before, rfl, hw⟩ := h
  exact ⟨e :: later, w, mid, row, before, rfl, hw⟩

theorem Bundled.disconnected_quiet (h : Bundled initial pool) (hquiet : writes ⟨t, q, a⟩ = false) :
    ∀ later d earlier, (⟨t, q, a⟩ : Event signature) :: pool.trace = later ++ d :: earlier →
      writesFor .disconnect earlier d = true →
      (stored initial (⟨t, q, a⟩ :: pool.trace)).refreshToken = none ∨ Reconnected later (d :: earlier) := by
  intro later d earlier htrace hd
  rcases later with _ | ⟨e, later⟩
  · obtain ⟨rfl, rfl⟩ := List.cons.inj htrace
    simp [writesFor, hquiet] at hd
  · obtain ⟨rfl, hrest⟩ := List.cons.inj htrace
    rw [stored_of_quiet hquiet]
    exact (h.disconnected later d earlier hrest hd).imp_right Reconnected.cons

theorem Rewrites.refreshToken (h : Rewrites P own row bundle) :
    bundle.refreshToken = none ∨ serves .callback own = true ∨ row.bundle.refreshToken ≠ none := by
  cases h with
  | connect _ hserves =>
    exact .inr (.inl (serves_of (serves_cons (serves_cons (serves_cons (serves_cons hserves))))))
  | clientSecret _ =>
    rw [or_iff_not_imp_left]
    exact .inr
  | disconnect _ => exact .inl rfl
  | rotate hread _ =>
    obtain ⟨rest, -, -, hsame⟩ := hread
    simp only [sameAuthorization, Bool.and_eq_true] at hsame
    exact .inr (.inr (Option.isSome_iff_ne_none.1 hsame.1))

theorem Bundled.disconnects (h : Bundled initial pool) (hrewrites : Rewrites P (Pool.own t pool.trace) row bundle)
    (hserves : serves .disconnect (Pool.own t pool.trace) = true) : bundle.refreshToken = none := by
  obtain ⟨session, hserves⟩ := serves_iff.1 hserves
  generalize hown : Pool.own t pool.trace = own at hrewrites
  have hother : ∀ {route session'}, Serves route session' own → route = .disconnect := fun hserves' =>
    (h.versioned.route_unique (hown ▸ hserves') hserves).1
  cases hrewrites with
  | connect _ hserves' => cases hother (serves_cons (serves_cons (serves_cons (serves_cons hserves'))))
  | clientSecret hserves' => cases hother (serves_cons hserves')
  | disconnect _ => rfl
  | rotate hread _ =>
    obtain ⟨rest, rfl, huses, -⟩ := hread
    have hsuffix : rest <:+ Pool.own t pool.trace := by
      rw [hown]
      exact (List.suffix_cons _ _).trans (List.suffix_cons _ _)
    cases h.versioned.uses_test hsuffix huses hserves

theorem Bundled.disconnected_write (h : Bundled initial pool) {outcome : Outcome} (ho : outcome.effective = true)
    (hneeds : founded P (Pool.own t pool.trace) (.replaceBundle pool.world.bundle.revision bundle)) :
    ∀ later d earlier, (⟨t, .replaceBundle pool.world.bundle.revision bundle, outcome⟩ : Event signature) :: pool.trace =
        later ++ d :: earlier → writesFor .disconnect earlier d = true →
      bundle.refreshToken = none ∨ Reconnected later (d :: earlier) := by
  intro later d earlier htrace hd
  obtain ⟨row, hrevision, hrewrites⟩ := hneeds
  rcases later with _ | ⟨e, later⟩
  · obtain ⟨rfl, rfl⟩ := List.cons.inj htrace
    simp only [writesFor, Bool.and_eq_true] at hd
    exact .inl (h.disconnects hrewrites hd.2)
  obtain ⟨rfl, hrest⟩ := List.cons.inj htrace
  obtain ⟨mid, before, hread, hrow, hquiet⟩ := h.versioned.current hrewrites.read hrevision.symm
  rcases hrewrites.refreshToken with hnone | hcallback | hsome
  · exact .inl hnone
  · -- nobody wrote since the bundle was read, so it was read after the disconnect
    have hwrites : writes d = true := by
      simp only [writesFor, Bool.and_eq_true] at hd
      exact hd.1
    rcases List.append_eq_append_iff.1 (hread.symm.trans hrest) with ⟨rest, hlater, hbefore⟩ | ⟨rest, hmid, hbefore⟩
    · rcases rest with _ | ⟨r, rest⟩
      · obtain ⟨rfl, -⟩ := List.cons.inj hbefore
        cases hwrites
      · obtain ⟨rfl, rfl⟩ := List.cons.inj hbefore
        refine .inr ⟨[], _, mid, row, rest, by rw [hlater]; rfl, ?_⟩
        simp only [writesFor, Bool.and_eq_true]
        refine ⟨ho, ?_⟩
        show serves .callback (Pool.own t (mid ++ _ :: (rest.append (d :: earlier)))) = true
        rw [← hread]
        exact hcallback
    · rcases rest with _ | ⟨r, rest⟩
      · obtain ⟨rfl, -⟩ := List.cons.inj hbefore
        cases hwrites
      · obtain ⟨rfl, -⟩ := List.cons.inj hbefore
        rw [hquiet d (by rw [hmid]; simp)] at hwrites
        cases hwrites
  · refine .inr ((h.disconnected later d earlier hrest hd).resolve_left ?_).cons
    rw [← h.now, ← hrow]
    exact hsome

theorem Rewrites.keeps_clientSecret (h : Rewrites P own row bundle) :
    serves .clientSecret own = true ∨ bundle.clientSecret = row.bundle.clientSecret := by
  cases h with
  | connect _ _ => exact .inr rfl
  | clientSecret hserves => exact .inl (serves_of (serves_cons hserves))
  | disconnect _ => exact .inr rfl
  | rotate _ _ => exact .inr (Bundle.rotate_clientSecret _ _)

/-- **One answer.** -/
theorem Bundled.answered (h : Bundled initial pool) {pool' : Services P} (hversioned : Versioned pool')
    (hworld : pool'.world = w) (htrace : pool'.trace = ⟨t, q, a⟩ :: pool.trace)
    (hneeds : founded P (Pool.own t pool.trace) q) (heffect : Effect pool.world q a w)
    (hselect : ∀ row, (⟨q, a⟩ : (q : Request) × Answer q) = ⟨.selectBundle, .ok row⟩ → row = pool.world.bundle) :
    Bundled initial pool' := by
  have hseen : ∀ mid t' row before, (⟨t, q, a⟩ : Event signature) :: pool.trace =
      mid ++ ⟨t', .selectBundle, .ok row⟩ :: before → row.bundle = stored initial before := by
    intro mid t' row before htrace
    rcases mid with _ | ⟨e, mid⟩
    · obtain ⟨hhead, rfl⟩ := List.cons.inj htrace
      rw [hselect row (by cases hhead; rfl)]
      exact h.now
    · exact h.seen mid t' row before (List.cons.inj htrace).2
  have hquiet : writes ⟨t, q, a⟩ = false → w.bundle = pool.world.bundle → Bundled initial pool' := by
    intro hquiet hbundle
    refine ⟨hversioned, ?_, ?_, ?_, ?_⟩ <;> simp only [hworld, htrace]
    case refine_1 => rw [stored_of_quiet hquiet, hbundle, h.now]
    case refine_2 => exact hseen
    case refine_3 => exact h.disconnected_quiet hquiet
    case refine_4 => rw [stored_of_quiet hquiet, latestSecret_of_other (by simp [writesFor, hquiet]), h.clientSecret]
  cases heffect with
  | quiet hsame hwrites => exact hquiet (hwrites t) hsame.bundle
  | configure _ => exact hquiet rfl rfl
  | freeze => exact hquiet rfl rfl
  | replace ho =>
    rename_i bundle outcome
    have hstored : stored initial (⟨t, .replaceBundle pool.world.bundle.revision bundle, outcome⟩ :: pool.trace) = bundle := by
      simp [stored, ho]
    refine ⟨hversioned, ?_, ?_, ?_, ?_⟩ <;> simp only [hworld, htrace, hstored]
    case refine_2 => exact hseen
    case refine_3 => exact h.disconnected_write ho hneeds
    case refine_4 =>
      simp only [latestSecret]
      split
      · rfl
      rename_i hserves
      obtain ⟨row, hrevision, hrewrites⟩ := hneeds
      obtain ⟨-, -, -, hrow, -⟩ := h.versioned.current hrewrites.read hrevision.symm
      have hwrites : writes ⟨t, .replaceBundle pool.world.bundle.revision bundle, outcome⟩ = true := ho
      simp only [writesFor, hwrites, Bool.true_and] at hserves
      rw [← h.clientSecret, ← h.now, ← hrow]
      exact hrewrites.keeps_clientSecret.resolve_left hserves

theorem bundled_step (h : Bundled initial pool) (m : Move P) : Bundled initial (pool.step m.action) := by
  have hversioned := versioned_step h.versioned m
  rcases move_cases pool m with ⟨hworld, htrace⟩ | ⟨t, env, q, next, rfl, ht, hworld, htrace⟩
  · refine ⟨hversioned, ?_, ?_, ?_, ?_⟩ <;> simp only [hworld, htrace]
    exacts [h.now, h.seen, h.disconnected, h.clientSecret]
  · exact h.answered hversioned hworld htrace (h.versioned.needs ht) (answer_effect P env q pool.world)
      (select_spec env)

end Bundles

/-! ### The states -/

section States

variable {P : Platform} {pool : Services P} {trace : Trace} {t : ℕ} {q : Request} {a : Answer q} {w w' : World}

/-- **Inversion.** What an answered request does to the states. -/
inductive StatesEffect (w : World) : (q : Request) → Answer q → World → Prop
  | shrink {q : Request} {a : Answer q} {w' : World} (hstates : w'.states.Sublist w.states) (hdrawn : w.drawn ≤ w'.drawn)
      (hconsumes : ∀ stateHash t, consumes stateHash ⟨t, q, a⟩ = false) (hdraws : q ≠ .randomToken) :
    StatesEffect w q a w'
  | draw {w' : World} (hstates : w'.states = w.states) (hdrawn : w'.drawn = w.drawn + 1) :
    StatesEffect w .randomToken w.drawn w'
  | insert {row : StateRow} {outcome : Outcome} {w' : World} (hnew : ∀ r ∈ w.states, r.stateHash ≠ row.stateHash)
      (hstates : w'.states = w.states ++ [row]) (hdrawn : w'.drawn = w.drawn) :
    StatesEffect w (.insertState row) outcome w'
  | consume {stateHash : String} {now : Time} {outcome : Outcome} {w' : World} {row : StateRow}
      (hrow : row ∈ w.states) (hhash : row.stateHash = stateHash) (hopen : row.open now = true)
      (hstates : w'.states = w.states.map fun row =>
        if row.stateHash == stateHash && row.open now then { row with consumedAt := some now } else row)
      (hdrawn : w'.drawn = w.drawn) : StatesEffect w (.consumeState stateHash now) outcome w'

theorem Settled.shrink {touched : Option World} {r : Outcome × World} (hsettled : Settled w touched r)
    (h : ∀ w', touched = some w' → w'.states.Sublist w.states ∧ w'.drawn = w.drawn) :
    r.2.states.Sublist w.states ∧ w.drawn ≤ r.2.drawn := by
  rcases hsettled with ⟨-, hw⟩ | ⟨w', htouched, -, hw⟩
  · rw [hw]
    exact ⟨List.Sublist.refl _, le_refl _⟩
  · rw [hw]
    exact ⟨(h w' htouched).1, (h w' htouched).2.ge⟩

theorem same_of_some {v : World} (hstates : v.states = w.states) (hdrawn : v.drawn = w.drawn) (w' : World)
    (h : some v = some w') : w'.states.Sublist w.states ∧ w'.drawn = w.drawn := by
  cases h
  exact ⟨hstates ▸ List.Sublist.refl _, hdrawn⟩

theorem same_of_ite {c : Prop} [Decidable c] {v : World} (hstates : v.states = w.states) (hdrawn : v.drawn = w.drawn)
    (w' : World) (h : (if c then some v else none) = some w') : w'.states.Sublist w.states ∧ w'.drawn = w.drawn := by
  split at h
  · exact same_of_some hstates hdrawn w' h
  · cases h

theorem shrink_deleteStates {stateHash : String} {p : StateRow → Bool} (h : deleteStates w stateHash p = some w') :
    w'.states.Sublist w.states ∧ w'.drawn = w.drawn := by
  unfold deleteStates at h
  split at h
  · rw [← Option.some.inj h]
    exact ⟨List.filter_sublist, rfl⟩
  · cases h

/-- **One request.** -/
theorem answer_states (P : Platform) (env : Env) (q : Request) (w : World) :
    StatesEffect w q (answer P env q w).1 (answer P env q w).2 := by
  cases q
  case randomToken => exact .draw rfl rfl
  case newAuthorizationContextId configuration =>
    exact .shrink (List.Sublist.refl _) (Nat.le_succ _) (fun _ _ => rfl) (by simp)
  case insertState row =>
    rcases insertion_settled env.fate w (if w.states.any (·.stateHash == row.stateHash) then none
        else some { w with states := w.states ++ [row] }) with ⟨-, hw⟩ | ⟨w', hinserted, -, hw⟩
    · rw [show (answer P env (.insertState row) w).2 = w from hw]
      exact .shrink (List.Sublist.refl _) (le_refl _) (fun _ _ => rfl) (by simp)
    · split at hinserted
      · cases hinserted
      · rename_i hnone
        rw [show (answer P env (.insertState row) w).2 = w' from hw, ← Option.some.inj hinserted]
        exact .insert (by simpa using hnone) rfl rfl
  case consumeState stateHash now =>
    rcases commit_settled env.fate w (consumeStates w stateHash now) with ⟨ho, hw⟩ | ⟨w', htouched, -, hw⟩
    · rw [show (answer P env (.consumeState stateHash now) w).2 = w from hw]
      refine .shrink (List.Sublist.refl _) (le_refl _) (fun h _ => ?_) (by simp)
      simp only [consumes, answer, ho, Bool.and_false]
    · unfold consumeStates at htouched
      split at htouched
      · rename_i hany
        obtain ⟨row, hrow, hmatch⟩ := List.any_eq_true.1 hany
        simp only [Bool.and_eq_true, beq_iff_eq] at hmatch
        rw [show (answer P env (.consumeState stateHash now) w).2 = w' from hw, ← Option.some.inj htouched]
        exact .consume hrow hmatch.1 hmatch.2 rfl rfl
      · cases htouched
  case removeConsumed stateHash =>
    obtain ⟨hstates, hdrawn⟩ := (commit_settled ..).shrink fun w' h => shrink_deleteStates h
    exact .shrink hstates hdrawn (fun _ _ => rfl) (by simp)
  case removeExpired stateHash now =>
    obtain ⟨hstates, hdrawn⟩ := (commit_settled ..).shrink fun w' h => shrink_deleteStates h
    exact .shrink hstates hdrawn (fun _ _ => rfl) (by simp)
  case updateConnection definition expectedRevision =>
    obtain ⟨hstates, hdrawn⟩ := (commit_settled env.fate w _).shrink (same_of_ite (c := P.sha w.file = expectedRevision)
      (v := { w with file := definition }) rfl rfl)
    exact .shrink hstates hdrawn (fun _ _ => rfl) (by simp)
  case replaceBundle revision bundle =>
    obtain ⟨hstates, hdrawn⟩ := (commit_settled env.fate w _).shrink (same_of_ite (c := w.bundle.revision = revision)
      (v := { w with bundle := ⟨bundle, revision + 1⟩ }) rfl rfl)
    exact .shrink hstates hdrawn (fun _ _ => rfl) (by simp)
  case insertVerifier secretId verifier =>
    obtain ⟨hstates, hdrawn⟩ := (insertion_settled env.fate w _).shrink (same_of_ite (c := (w.verifiers secretId).isNone = true)
      (v := { w with verifiers := Function.update w.verifiers secretId (some verifier) }) rfl rfl)
    exact .shrink hstates hdrawn (fun _ _ => rfl) (by simp)
  case deleteVerifier secretId =>
    obtain ⟨hstates, hdrawn⟩ := (commit_settled env.fate w _).shrink
      (same_of_some (v := { w with verifiers := Function.update w.verifiers secretId none }) rfl rfl)
    exact .shrink hstates hdrawn (fun _ _ => rfl) (by simp)
  case createRun snapshot =>
    obtain ⟨hstates, hdrawn⟩ := (commit_settled env.fate w _).shrink
      (same_of_some (v := { w with runs := w.runs ++ [snapshot] }) rfl rfl)
    exact .shrink hstates hdrawn (fun _ _ => rfl) (by simp)
  all_goals exact .shrink (List.Sublist.refl _) (le_refl _) (fun _ _ => rfl) (by simp)

/-- A state with the hash was inserted for the hash of a session. -/
def Inserted (trace : Trace) (stateHash sessionHash : String) : Prop :=
  ∃ t row outcome, ⟨t, .insertState row, outcome⟩ ∈ trace ∧ row.stateHash = stateHash ∧ row.sessionHash = sessionHash

theorem Inserted.cons {e : Event signature} {stateHash sessionHash : String} (h : Inserted trace stateHash sessionHash) :
    Inserted (e :: trace) stateHash sessionHash := by
  obtain ⟨t, row, outcome, he, hhash⟩ := h
  exact ⟨t, row, outcome, List.mem_cons_of_mem _ he, hhash⟩

/-- The invariant of the states. -/
structure Stated (pool : Services P) : Prop where
  versioned : Versioned pool
  unique : (pool.world.states.map (·.stateHash)).Nodup
  backed : ∀ row ∈ pool.world.states, Inserted pool.trace row.stateHash row.sessionHash
  looked : ∀ t stateHash row, ⟨t, .selectState stateHash, .ok (some row)⟩ ∈ pool.trace →
    Inserted pool.trace stateHash row.sessionHash
  drawn : ∀ (t n : ℕ), ⟨t, .randomToken, n⟩ ∈ pool.trace → n < pool.world.drawn
  drawer : ∀ (t t' n : ℕ), ⟨t, .randomToken, n⟩ ∈ pool.trace → ⟨t', .randomToken, n⟩ ∈ pool.trace → t = t'
  spent : ∀ stateHash, ∀ e ∈ pool.trace, consumes stateHash e = true →
    (∀ row ∈ pool.world.states, row.stateHash = stateHash → row.consumedAt ≠ none) ∧
      ∃ sessionHash, Inserted pool.trace stateHash sessionHash
  once : ∀ stateHash, pool.trace.countP (consumes stateHash) ≤ 1

theorem stated_init (file : ConnectionFile) (clientSecret : Text 8192) :
    Stated (Pool.init (World.created file clientSecret) : Services P) where
  versioned := versioned_init _
  unique := List.nodup_nil
  backed row h := by cases h
  looked t stateHash row h := by cases h
  drawn t n h := by cases h
  drawer t t' n h := by cases h
  spent stateHash e h := by cases h
  once stateHash := Nat.zero_le _

theorem Versioned.inserted (h : Versioned pool) {stateHash sessionHash : String}
    (hinserted : Inserted pool.trace stateHash sessionHash) : ∃ t row outcome state session,
      ⟨t, .insertState row, outcome⟩ ∈ pool.trace ∧ stateHash = P.hash state ∧ sessionHash = P.hash session ∧
      ⟨t, .randomToken, state⟩ ∈ pool.trace ∧ ⟨t, .authenticate .connect, some session⟩ ∈ pool.trace := by
  obtain ⟨t, row, outcome, hmem, rfl, rfl⟩ := hinserted
  obtain ⟨later, earlier, htrace⟩ := List.append_of_mem hmem
  have hsuffix : earlier <:+ pool.trace := by
    rw [htrace]
    exact (List.suffix_cons _ _).trans (List.suffix_append _ _)
  obtain ⟨-, state, session, hstate, hsession, -, hdrew, hserves⟩ :=
    h.needed (e := ⟨t, .insertState row, outcome⟩) (by rw [htrace]; exact List.suffix_append _ _)
  exact ⟨t, row, outcome, state, session, hmem, hstate, hsession, hsuffix.mem (event_of_own List.suffix_rfl hdrew),
    hsuffix.mem (event_of_own List.suffix_rfl hserves)⟩

theorem Stated.fresh (h : Stated pool) {row : StateRow} {sessionHash : String}
    (hneeds : founded P (Pool.own t pool.trace) (.insertState row)) : ¬Inserted pool.trace row.stateHash sessionHash := by
  intro hinserted
  obtain ⟨hnone, state, -, hstate, -, -, hdrew, -⟩ := hneeds
  obtain ⟨t', row', outcome, state', -, hmem, hstate', -, hdrew', -⟩ := h.versioned.inserted hinserted
  obtain rfl : state = state' := P.collisionFree (hstate.symm.trans hstate')
  obtain rfl := h.drawer t t' state (event_of_own List.suffix_rfl hdrew) hdrew'
  have hown : (⟨.insertState row', outcome⟩ : (q : Request) × Answer q) ∈ Pool.own t pool.trace :=
    List.mem_map.2 ⟨_, List.mem_filter.2 ⟨hmem, by simp⟩, rfl⟩
  cases hnone _ hown

theorem lookup_spec (env : Env) (stateHash : String) (row : StateRow)
    (hq : (⟨q, (answer P env q w).1⟩ : (q : Request) × Answer q) = ⟨.selectState stateHash, .ok (some row)⟩) :
    row ∈ w.states ∧ row.stateHash = stateHash := by
  obtain rfl : q = .selectState stateHash := congrArg Sigma.fst hq
  simp only [answer, Sigma.mk.injEq, heq_eq_eq, true_and] at hq
  have hfound := reading_ok hq
  exact ⟨List.mem_of_find?_eq_some hfound, by simpa using List.find?_some hfound⟩

theorem once_cons {e : Event signature} (h : ∀ stateHash, trace.countP (consumes stateHash) ≤ 1)
    (hnone : ∀ stateHash, consumes stateHash e = true → ∀ e' ∈ trace, consumes stateHash e' = false)
    (stateHash : String) : (e :: trace).countP (consumes stateHash) ≤ 1 := by
  rw [List.countP_cons]
  split
  · rename_i hconsumes
    rw [List.countP_eq_zero.2 fun e' he' => by simp [hnone stateHash hconsumes e' he']]
  · exact h stateHash

theorem Stated.unique_answered (h : Stated pool) (heffect : StatesEffect pool.world q a w) :
    (w.states.map (·.stateHash)).Nodup := by
  cases heffect with
  | shrink hstates => exact h.unique.sublist (hstates.map _)
  | draw hstates =>
    rw [hstates]
    exact h.unique
  | insert hnew hstates =>
    rw [hstates, List.map_append, List.nodup_append]
    refine ⟨h.unique, List.nodup_singleton _, fun x hx y hy => ?_⟩
    obtain ⟨r, hr, rfl⟩ := List.mem_map.1 hx
    rw [List.map_singleton, List.mem_singleton] at hy
    rw [hy]
    exact hnew r hr
  | @consume stateHash now outcome _ row _ _ _ hstates =>
    have hsame : ((fun r : StateRow => r.stateHash) ∘ fun r : StateRow =>
        if r.stateHash == stateHash && r.open now then { r with consumedAt := some now } else r) = (·.stateHash) := by
      funext r
      simp only [Function.comp]
      split <;> rfl
    rw [hstates, List.map_map, hsame]
    exact h.unique

theorem Stated.backed_answered (h : Stated pool) (heffect : StatesEffect pool.world q a w) :
    ∀ row ∈ w.states, Inserted (⟨t, q, a⟩ :: pool.trace) row.stateHash row.sessionHash := by
  intro r hr
  cases heffect with
  | shrink hstates => exact (h.backed r (hstates.subset hr)).cons
  | draw hstates =>
    rw [hstates] at hr
    exact (h.backed r hr).cons
  | @insert row outcome _ _ hstates =>
    rw [hstates] at hr
    rcases List.mem_append.1 hr with hr | hr
    · exact (h.backed r hr).cons
    · rw [List.mem_singleton.1 hr]
      exact ⟨t, row, outcome, List.mem_cons_self .., rfl, rfl⟩
  | @consume stateHash now outcome _ _ _ _ _ hstates =>
    rw [hstates] at hr
    obtain ⟨r', hr', rfl⟩ := List.mem_map.1 hr
    have hbacked := (h.backed r' hr').cons (e := ⟨t, .consumeState stateHash now, outcome⟩)
    split <;> exact hbacked

theorem Stated.looked_answered (h : Stated pool)
    (hlookup : ∀ stateHash row, (⟨q, a⟩ : (q : Request) × Answer q) = ⟨.selectState stateHash, .ok (some row)⟩ →
      row ∈ pool.world.states ∧ row.stateHash = stateHash) (t' : ℕ) (stateHash : String) (row : StateRow)
    (hmem : ⟨t', .selectState stateHash, .ok (some row)⟩ ∈ (⟨t, q, a⟩ : Event signature) :: pool.trace) :
    Inserted (⟨t, q, a⟩ :: pool.trace) stateHash row.sessionHash := by
  rcases List.mem_cons.1 hmem with heq | hmem
  · obtain ⟨hrow, rfl⟩ := hlookup stateHash row (by cases heq; rfl)
    exact (h.backed row hrow).cons
  · exact (h.looked t' stateHash row hmem).cons

theorem mem_drawn (hq : q ≠ .randomToken) {t' n : ℕ}
    (hmem : ⟨t', .randomToken, n⟩ ∈ (⟨t, q, a⟩ : Event signature) :: trace) :
    (⟨t', .randomToken, n⟩ : Event signature) ∈ trace := by
  rcases List.mem_cons.1 hmem with heq | hmem
  · cases heq
    exact absurd rfl hq
  · exact hmem

theorem Stated.drawn_answered (h : Stated pool) (heffect : StatesEffect pool.world q a w) (t' n : ℕ)
    (hmem : ⟨t', .randomToken, n⟩ ∈ (⟨t, q, a⟩ : Event signature) :: pool.trace) : n < w.drawn := by
  cases heffect with
  | shrink _ hdrawn _ hdraws => exact lt_of_lt_of_le (h.drawn t' n (mem_drawn hdraws hmem)) hdrawn
  | draw _ hdrawn =>
    rw [hdrawn]
    rcases List.mem_cons.1 hmem with heq | hmem
    · cases heq
      exact Nat.lt_succ_self _
    · exact Nat.lt_succ_of_lt (h.drawn t' n hmem)
  | insert _ _ hdrawn =>
    rw [hdrawn]
    exact h.drawn t' n (mem_drawn (by simp) hmem)
  | consume _ _ _ _ hdrawn =>
    rw [hdrawn]
    exact h.drawn t' n (mem_drawn (by simp) hmem)

theorem Stated.drawer_answered (h : Stated pool) (heffect : StatesEffect pool.world q a w) (t' t'' n : ℕ)
    (hmem : ⟨t', .randomToken, n⟩ ∈ (⟨t, q, a⟩ : Event signature) :: pool.trace)
    (hmem' : ⟨t'', .randomToken, n⟩ ∈ (⟨t, q, a⟩ : Event signature) :: pool.trace) : t' = t'' := by
  cases heffect with
  | shrink _ _ _ hdraws => exact h.drawer t' t'' n (mem_drawn hdraws hmem) (mem_drawn hdraws hmem')
  | draw _ _ =>
    -- the number that is drawn is larger than all before
    rcases List.mem_cons.1 hmem with heq | hmem
    · rcases List.mem_cons.1 hmem' with heq' | hmem'
      · cases heq
        cases heq'
        rfl
      · cases heq
        exact absurd (h.drawn t'' _ hmem') (lt_irrefl _)
    · rcases List.mem_cons.1 hmem' with heq' | hmem'
      · cases heq'
        exact absurd (h.drawn t' _ hmem) (lt_irrefl _)
      · exact h.drawer t' t'' n hmem hmem'
  | insert _ _ _ => exact h.drawer t' t'' n (mem_drawn (by simp) hmem) (mem_drawn (by simp) hmem')
  | consume _ _ _ _ _ => exact h.drawer t' t'' n (mem_drawn (by simp) hmem) (mem_drawn (by simp) hmem')

/-- A spent state was inserted, and stays spent. -/
theorem Stated.spent_answered (h : Stated pool) (hneeds : founded P (Pool.own t pool.trace) q)
    (heffect : StatesEffect pool.world q a w) (stateHash : String) (e : Event signature)
    (he : e ∈ ⟨t, q, a⟩ :: pool.trace) (hc : consumes stateHash e = true) :
    (∀ row ∈ w.states, row.stateHash = stateHash → row.consumedAt ≠ none) ∧
      ∃ sessionHash, Inserted (⟨t, q, a⟩ :: pool.trace) stateHash sessionHash := by
  have hspent : e ∈ pool.trace → ∃ sessionHash, Inserted (⟨t, q, a⟩ :: pool.trace) stateHash sessionHash :=
    fun he => (h.spent stateHash e he hc).2.imp fun _ => Inserted.cons
  cases heffect with
  | shrink hstates _ hconsumes _ =>
    rcases List.mem_cons.1 he with rfl | he
    · rw [hconsumes stateHash t] at hc
      cases hc
    · exact ⟨fun row hrow => (h.spent stateHash e he hc).1 row (hstates.subset hrow), hspent he⟩
  | draw hstates _ =>
    rw [hstates]
    rcases List.mem_cons.1 he with rfl | he
    · cases hc
    · exact ⟨(h.spent stateHash e he hc).1, hspent he⟩
  | insert _ hstates _ =>
    rw [hstates]
    rcases List.mem_cons.1 he with rfl | he
    · cases hc
    · refine ⟨fun r hr hhash => ?_, hspent he⟩
      rcases List.mem_append.1 hr with hr | hr
      · exact (h.spent stateHash e he hc).1 r hr hhash
      · obtain ⟨sessionHash, hinserted⟩ := (h.spent stateHash e he hc).2
        rw [List.mem_singleton.1 hr] at hhash
        exact absurd (hhash ▸ hinserted) (h.fresh hneeds)
  | @consume stateHash' now outcome _ row hrow hhash hopen hstates _ =>
    rw [hstates]
    rcases List.mem_cons.1 he with rfl | he
    · obtain rfl : stateHash' = stateHash := by
        simp only [consumes, Bool.and_eq_true, beq_iff_eq] at hc
        exact hc.1
      refine ⟨fun r' hr' hhash' => ?_, row.sessionHash, hhash ▸ (h.backed row hrow).cons⟩
      obtain ⟨r, hr, rfl⟩ := List.mem_map.1 hr'
      -- there is one row with the hash, and it is open
      have hsame : r = row := by
        refine List.inj_on_of_nodup_map h.unique hr hrow ?_
        rw [hhash, ← hhash']
        split <;> rfl
      rw [hsame, hhash, hopen]
      simp
    · refine ⟨fun r' hr' hhash' => ?_, hspent he⟩
      obtain ⟨r, hr, rfl⟩ := List.mem_map.1 hr'
      split
      · simp
      · rename_i hkept
        rw [if_neg hkept] at hhash'
        exact (h.spent stateHash e he hc).1 r hr hhash'

theorem Stated.once_answered (h : Stated pool) (heffect : StatesEffect pool.world q a w) (stateHash : String) :
    ((⟨t, q, a⟩ : Event signature) :: pool.trace).countP (consumes stateHash) ≤ 1 := by
  refine once_cons h.once (fun stateHash hc => ?_) stateHash
  cases heffect with
  | shrink _ _ hconsumes _ =>
    rw [hconsumes stateHash t] at hc
    cases hc
  | draw _ _ => cases hc
  | insert _ _ _ => cases hc
  | @consume stateHash' now outcome _ row hrow hhash hopen _ _ =>
    simp only [consumes, Bool.and_eq_true, beq_iff_eq] at hc
    obtain rfl : stateHash' = stateHash := hc.1
    intro e he
    -- the row is open, so that no event has consumed it
    by_contra hspent
    rw [Bool.not_eq_false] at hspent
    have hnone := (h.spent stateHash' e he hspent).1 row hrow hhash
    simp only [StateRow.open, Bool.and_eq_true, Option.isNone_iff_eq_none] at hopen
    exact hnone hopen.1

/-- **One answer.** -/
theorem Stated.answered (h : Stated pool) {pool' : Services P} (hversioned : Versioned pool')
    (hworld : pool'.world = w) (htrace : pool'.trace = ⟨t, q, a⟩ :: pool.trace)
    (hneeds : founded P (Pool.own t pool.trace) q) (heffect : StatesEffect pool.world q a w)
    (hlookup : ∀ stateHash row, (⟨q, a⟩ : (q : Request) × Answer q) = ⟨.selectState stateHash, .ok (some row)⟩ →
      row ∈ pool.world.states ∧ row.stateHash = stateHash) : Stated pool' := by
  refine ⟨hversioned, ?_, ?_, ?_, ?_, ?_, ?_, ?_⟩ <;> simp only [hworld, htrace]
  case refine_1 => exact h.unique_answered heffect
  case refine_2 => exact h.backed_answered heffect
  case refine_3 => exact h.looked_answered hlookup
  case refine_4 => exact h.drawn_answered heffect
  case refine_5 => exact h.drawer_answered heffect
  case refine_6 => exact h.spent_answered hneeds heffect
  case refine_7 => exact h.once_answered heffect

theorem stated_step (h : Stated pool) (m : Move P) : Stated (pool.step m.action) := by
  have hversioned := versioned_step h.versioned m
  rcases move_cases pool m with ⟨hworld, htrace⟩ | ⟨t, env, q, next, rfl, ht, hworld, htrace⟩
  · refine ⟨hversioned, ?_, ?_, ?_, ?_, ?_, ?_, ?_⟩ <;> simp only [hworld, htrace]
    exacts [h.unique, h.backed, h.looked, h.drawn, h.drawer, h.spent, h.once]
  · exact h.answered hversioned hworld htrace (h.versioned.needs ht) (answer_states P env q pool.world)
      (lookup_spec env)

end States

section Runs

variable {P : Platform} {pool : Services P} {initial : Bundle}

theorem bundled_run (h : Bundled initial pool) (moves : List (Move P)) :
    Bundled initial (pool.run (moves.map Move.action)) :=
  run_always h (fun _ m hpool => bundled_step hpool m) moves

theorem stated_run (h : Stated pool) (moves : List (Move P)) : Stated (pool.run (moves.map Move.action)) :=
  run_always h (fun _ m hpool => stated_step hpool m) moves

theorem Stated.began (h : Stated pool) {t : ℕ} {stateHash : String} {row : StateRow} {session : Token}
    (hlooked : ⟨t, .selectState stateHash, .ok (some row)⟩ ∈ pool.trace) (hsession : row.sessionHash = P.hash session) :
    Began pool.trace stateHash session := by
  obtain ⟨t', row', outcome, hmem, hhash, hsame⟩ := h.looked t stateHash row hlooked
  obtain ⟨later, earlier, htrace⟩ := List.append_of_mem hmem
  obtain ⟨-, state, session', -, hsession', -, -, hserves⟩ :=
    h.versioned.needed (e := ⟨t', .insertState row', outcome⟩) (by rw [htrace]; exact List.suffix_append _ _)
  obtain rfl : session' = session := P.collisionFree (hsession'.symm.trans (hsame.trans hsession))
  refine ⟨t', row', outcome, hmem, hhash, ?_⟩
  rw [htrace]
  exact List.mem_append_right _ (List.mem_cons_of_mem _ (event_of_own List.suffix_rfl hserves))

/-- Every state that is consumed was begun by the session. -/
def SameSession (trace : Trace) : Prop :=
  ∀ later (t : ℕ) stateHash now (outcome : Outcome) earlier,
    trace = later ++ ⟨t, .consumeState stateHash now, outcome⟩ :: earlier →
      ∃ session, Serves .callback session (Pool.own t earlier) ∧ Began earlier stateHash session

theorem sameSession_step (h : Stated pool) (hsame : SameSession pool.trace) (m : Move P) :
    SameSession (pool.step m.action).trace := by
  rcases move_cases pool m with ⟨-, htrace⟩ | ⟨t, env, q, next, rfl, ht, -, htrace⟩
  · rw [htrace]
    exact hsame
  rw [htrace]
  intro later t' stateHash now outcome earlier hsplit
  rcases later with _ | ⟨e, later⟩
  · obtain ⟨hhead, rfl⟩ := List.cons.inj hsplit
    have hneeds := h.versioned.needs ht
    obtain rfl : t = t' := congrArg Event.thread hhead
    obtain rfl : q = .consumeState stateHash now := congrArg Event.request hhead
    obtain ⟨state, session, row, rest, -, hown, hsession, hserves⟩ := hneeds
    refine ⟨session, by rw [hown]; exact serves_cons hserves, ?_⟩
    exact h.began (event_of_own List.suffix_rfl (by rw [hown]; exact List.mem_cons_self ..)) hsession
  · exact hsame later t' stateHash now outcome earlier (List.cons.inj hsplit).2

theorem sameSession_run (h : Stated pool) (hsame : SameSession pool.trace) (moves : List (Move P)) :
    SameSession (pool.run (moves.map Move.action)).trace := by
  have hkept : Stated (pool.run (moves.map Move.action)) ∧ SameSession (pool.run (moves.map Move.action)).trace :=
    run_always (I := fun pool => Stated pool ∧ SameSession pool.trace) ⟨h, hsame⟩
      (fun _ m hpool => ⟨stated_step hpool.1 m, sameSession_step hpool.1 hpool.2 m⟩) moves
  exact hkept.2

end Runs

/-! ### What the routes answer -/

/-- The thread did no more than to find that the session has no access. -/
def Refused (route : Route) (own : Own) : Prop := own = [⟨.authenticate route, none⟩]

/-- A request that is done, and was not refused, did what it was for. -/
structure Reported {P : Platform} (initial : Bundle) (clients : List Client) (pool : Services P) : Prop where
  /-- A disconnect took effect, and since then there is no refresh token, or a callback has stored one. -/
  disconnect : ∀ t : ℕ, clients[t]? = some .disconnect → pool.threads[t]? = some (.done ()) →
    Refused .disconnect (Pool.own t pool.trace) ∨ ∃ later d earlier, pool.trace = later ++ d :: earlier ∧ d.thread = t ∧
      writesFor .disconnect earlier d = true ∧
      ((stored initial pool.trace).refreshToken = none ∨ Reconnected later (d :: earlier))
  /-- A change of the client secret took effect, and since then it is the stored one, or another change took effect. -/
  clientSecret : ∀ (t : ℕ) secret revision, clients[t]? = some (.changeClientSecret secret revision) →
    pool.threads[t]? = some (.done ()) →
    Refused .clientSecret (Pool.own t pool.trace) ∨ ∃ later d earlier, pool.trace = later ++ d :: earlier ∧ d.thread = t ∧
      writesFor .clientSecret earlier d = true ∧
      ((stored initial pool.trace).clientSecret = secret ∨
        ∃ newer d' older, later = newer ++ d' :: older ∧ writesFor .clientSecret (older ++ d :: earlier) d' = true)

section Answers

variable {P : Platform} {pool : Services P} {events : Own} {route : Route} {trace : Trace} {t : ℕ}

theorem ran_orThrow {α β : Type} {r : Except WorkIqError α} {f : α → Service β} {b : β}
    (h : (orThrow r >>= f).Ran events (.ok b)) : ∃ a, r = .ok a ∧ (f a).Ran events (.ok b) := by
  rcases r with e | a
  · cases h
  · exact ⟨a, rfl, h⟩

theorem ran_authenticated {handler : Token → Service Unit} (h : (authenticated route handler).Ran events (.ok ())) :
    Refused route events ∨
      ∃ session rest, events = ⟨.authenticate route, some session⟩ :: rest ∧ (handler session).Ran rest (.ok ()) := by
  obtain ⟨answered, rest, rfl, hrest⟩ := Prog.ran_ask.1 h
  rcases answered with _ | session
  · cases hrest
    exact .inl rfl
  · exact .inr ⟨session, rest, rfl, hrest⟩

theorem ran_getConnection {f : ConnectionFile → Service Unit} (h : (getConnection >>= f).Ran events (.ok ())) :
    ∃ file rest, events = ⟨.getConnection, .ok file⟩ :: rest ∧ (f file).Ran rest (.ok ()) := by
  obtain ⟨answered, rest, rfl, hrest⟩ := Prog.ran_ask.1 h
  obtain ⟨file, rfl, hfile⟩ := ran_orThrow hrest
  exact ⟨file, rest, rfl, hfile⟩

/-- A bundle was read, and what was made of it stored. -/
theorem ran_replaced {f : VaultRow → Bundle}
    (h : (resolveWithRevision >>= fun row => replaceIfRevision row.revision (f row) >>= orConflict).Ran events (.ok ())) :
    ∃ row : VaultRow, events = [⟨.selectBundle, .ok row⟩, ⟨.replaceBundle row.revision (f row), .changes 1⟩] := by
  obtain ⟨answered, rest, rfl, hrest⟩ := Prog.ran_ask.1 h
  obtain ⟨row, rfl, hrow⟩ := ran_orThrow hrest
  refine ⟨row, ?_⟩
  unfold replaceIfRevision at hrow
  split at hrow
  · cases hrow
  obtain ⟨outcome, rest, rfl, hdone⟩ := Prog.ran_ask.1 hrow
  rcases outcome with n | _
  · by_cases hn : n = 1
    · subst hn
      cases hdone
      rfl
    · have hconflict : (orConflict (n == 1)).Ran rest (.ok ()) := hdone
      rw [beq_eq_false_iff_ne.2 hn] at hconflict
      cases hconflict
  · cases hdone

theorem ran_disconnect (h : disconnect.Ran events (.ok ())) : Refused .disconnect events ∨
    ∃ (session : Token) (file : ConnectionFile) (row : VaultRow) (bundle : Bundle),
      events = [⟨.authenticate .disconnect, some session⟩, ⟨.getConnection, .ok file⟩, ⟨.selectBundle, .ok row⟩,
        ⟨.replaceBundle row.revision bundle, .changes 1⟩] := by
  refine (ran_authenticated h).imp_right ?_
  rintro ⟨session, rest, rfl, hrest⟩
  obtain ⟨file, rest', rfl, hfile⟩ := ran_getConnection hrest
  obtain ⟨row, rfl⟩ := ran_replaced (f := fun row => createWorkIqPrivateBundle row.bundle.clientSecret) hfile
  exact ⟨session, file, row, _, rfl⟩

theorem ran_changeClientSecret {secret : Text 8192} {revision : String}
    (h : (changeClientSecret P secret revision).Ran events (.ok ())) : Refused .clientSecret events ∨
    ∃ (session : Token) (file : ConnectionFile) (row : VaultRow) (bundle : Bundle), bundle.clientSecret = secret ∧
      events = [⟨.authenticate .clientSecret, some session⟩, ⟨.getConnection, .ok file⟩, ⟨.selectBundle, .ok row⟩,
        ⟨.replaceBundle row.revision bundle, .changes 1⟩] := by
  refine (ran_authenticated h).imp_right ?_
  rintro ⟨session, rest, rfl, hrest⟩
  obtain ⟨file, rest', rfl, hfile⟩ := ran_getConnection hrest
  split at hfile
  · cases hfile
  obtain ⟨row, rfl⟩ := ran_replaced (f := fun row => row.bundle.withClientSecret secret) hfile
  exact ⟨session, file, row, _, rfl, rfl⟩

theorem writesFor_of_own {session : Token} {file : ConnectionFile} {row : VaultRow} {bundle : Bundle}
    (h : (Pool.own t trace).reverse = [⟨.authenticate route, some session⟩, ⟨.getConnection, .ok file⟩,
      ⟨.selectBundle, .ok row⟩, ⟨.replaceBundle row.revision bundle, .changes 1⟩]) :
    ∃ later earlier, trace = later ++ ⟨t, .replaceBundle row.revision bundle, .changes 1⟩ :: earlier ∧
      writesFor route earlier ⟨t, .replaceBundle row.revision bundle, .changes 1⟩ = true := by
  rw [List.reverse_eq_iff] at h
  obtain ⟨later, earlier, htrace, -, hearlier⟩ := Pool.split_of_own (h.trans (List.nil_append _).symm)
  refine ⟨later, earlier, htrace, ?_⟩
  show serves route (Pool.own t earlier) = true
  rw [hearlier]
  exact serves_of (show Serves route session _ by simp [Serves])

theorem latestSecret_since {initial : Bundle} {revision : ℕ} {bundle : Bundle} {outcome : Outcome} {earlier : Trace}
    (hwrites : writesFor .clientSecret earlier ⟨t, .replaceBundle revision bundle, outcome⟩ = true) (later : Trace) :
    latestSecret initial (later ++ ⟨t, .replaceBundle revision bundle, outcome⟩ :: earlier) = bundle.clientSecret ∨
      ∃ newer d older, later = newer ++ d :: older ∧
        writesFor .clientSecret (older ++ ⟨t, .replaceBundle revision bundle, outcome⟩ :: earlier) d = true := by
  induction later with
  | nil =>
    left
    simp [latestSecret, hwrites]
  | cons e later ih =>
    by_cases he : writesFor .clientSecret (later ++ ⟨t, .replaceBundle revision bundle, outcome⟩ :: earlier) e = true
    · exact .inr ⟨[], e, later, rfl, he⟩
    · rcases ih with hlatest | ⟨newer, d, older, rfl, hd⟩
      · left
        rw [List.cons_append, latestSecret_of_other (by simpa using he), hlatest]
      · exact .inr ⟨e :: newer, d, older, rfl, hd⟩

theorem reported (P : Platform) (w : World) (moves : List (Move P)) (h : Bundled w.bundle.bundle (after P w moves)) :
    Reported w.bundle.bundle (clients moves) (after P w moves) := by
  have hran : ∀ (t : ℕ) (c : Client), (clients moves)[t]? = some c →
      (after P w moves).threads[t]? = some (.done ()) →
      (c.service P).Ran (Pool.own t (after P w moves).trace).reverse (.ok ()) := by
    intro t c hc hdone
    refine Pool.ran_of_done (M := machine P) w (moves.map Move.action) ?_ hdone
    rw [started_moves, List.getElem?_map, hc]
    rfl
  refine ⟨fun t hc hdone => ?_, fun t secret revision hc hdone => ?_⟩
  · rcases ran_disconnect (hran t _ hc hdone) with hrefused | ⟨session, file, row, bundle, hown⟩
    · exact .inl (List.reverse_eq_iff.1 hrefused)
    · obtain ⟨later, earlier, htrace, hwrites⟩ := writesFor_of_own hown
      exact .inr ⟨later, _, earlier, htrace, rfl, hwrites, h.disconnected later _ earlier htrace hwrites⟩
  · rcases ran_changeClientSecret (hran t _ hc hdone) with hrefused | ⟨session, file, row, bundle, rfl, hown⟩
    · exact .inl (List.reverse_eq_iff.1 hrefused)
    · obtain ⟨later, earlier, htrace, hwrites⟩ := writesFor_of_own hown
      refine .inr ⟨later, _, earlier, htrace, rfl, hwrites, ?_⟩
      rw [h.clientSecret, htrace]
      exact latestSecret_since hwrites later

end Answers

/-- **Delegation.** In every run of everybody who uses the connection, with every answer of the token endpoint, of Git
and of the database. -/
theorem delegation (P : Platform) (file : ConnectionFile) (clientSecret : Text 8192) (moves : List (Move P)) :
    Delegation P (createWorkIqPrivateBundle clientSecret) (after P (World.created file clientSecret) moves).trace ∧
      Reported (createWorkIqPrivateBundle clientSecret) (clients moves)
        (after P (World.created file clientSecret) moves) := by
  have hbundled : Bundled (createWorkIqPrivateBundle clientSecret) (after P (World.created file clientSecret) moves) :=
    bundled_run (bundled_init (World.created file clientSecret)) moves
  have hstated : Stated (after P (World.created file clientSecret) moves) :=
    stated_run (stated_init file clientSecret) moves
  have hsame : SameSession (after P (World.created file clientSecret) moves).trace :=
    sameSession_run (stated_init file clientSecret) (by simp [SameSession, Pool.init]) moves
  refine ⟨⟨hstated.once, hsame, ?_, hbundled.disconnected, hbundled.clientSecret, ?_⟩,
    reported P (World.created file clientSecret) moves hbundled⟩
  · intro later t configuration clientSecret code verifier reply earlier htrace
    obtain ⟨hnone, stateHash, now, hconsumed⟩ := hstated.versioned.needed
      (e := ⟨t, .exchangeCode configuration clientSecret code verifier, reply⟩)
      (by rw [htrace]; exact List.suffix_append _ _)
    exact ⟨⟨stateHash, now, event_of_own List.suffix_rfl hconsumed⟩, hnone⟩
  · intro later t snapshot credential earlier htrace
    obtain ⟨row, rest, hown, hauthorized, start, hstart, huses⟩ := hstated.versioned.needed
      (e := ⟨t, .execute snapshot credential, ()⟩) (by rw [htrace]; exact List.suffix_append _ _)
    obtain ⟨mid, before, rfl, hmid, hbefore⟩ := Pool.split_of_own (hown.trans (List.nil_append _).symm)
    refine ⟨mid, row, before, rfl, hmid, ?_, hauthorized, start, by rw [hbefore]; exact hstart, huses⟩
    refine hbundled.seen (later ++ ⟨t, .execute snapshot credential, ()⟩ :: mid) t row before ?_
    rw [htrace]
    simp

end ADT.WorkIq
