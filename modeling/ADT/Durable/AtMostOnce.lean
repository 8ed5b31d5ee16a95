import ADT.Durable.StartDiscipline
import ADT.Lib.Clients
import ADT.Storage.Effects

/-!
# Durable.AtMostOnce — `runtime.start` is called at most once for an attempt

Any number of turns, cancellation requests and failures run at once, statement by statement, and any of them may
stop for good between two statements.  The claim statement takes effect once for an attempt; a turn starts the
attempt it reads back after its claim.  Where that is the attempt it claimed, the provider is started at most
once for it (`start_at_most_once`); where a later attempt of the activation stands by then, it is not.
-/

namespace ADT.Durable

open Workflow Interleave Storage

/-! ### What the calls leave in the trace -/

/-- A claim of the attempt that took effect. -/
def claims (key : AttemptKey) (e : Event signature) : Bool :=
  match e with
  | ⟨_, .updateAttempts (.claim k _ _), a⟩ => k == key && a
  | _ => false

/-- A call of `runtime.start` for the attempt. -/
def starts (key : AttemptKey) (e : Event signature) : Bool :=
  match e with
  | ⟨_, .start call, _⟩ => call.key == key
  | _ => false

/-- A cancellation request or a graph failure that was recorded. -/
def stops (e : Event signature) : Bool :=
  match e with
  | ⟨_, .updateRun (.requestCancellation _), a⟩ => a
  | ⟨_, .updateRun (.graphFailure _ _), a⟩ => a
  | _ => false

/-- The run is being cancelled, or it failed. -/
def Stopped (db : Database) : Prop :=
  db.run.status = .cancelling ∨ db.run.status = .cancelled ∨ db.run.failureCode.isSome

theorem stopped_set {db : Database} {u : RunUpdate} (hu : keepsVerdict u = true) (hg : u.guard db = true)
    (h : Stopped db) : Stopped { db with run := u.set db.run } := by
  cases u <;> simp_all [Stopped, keepsVerdict, settles, RunUpdate.guard, RunUpdate.set, RunStatus.active_iff] <;> grind

variable {q : Request} {key : AttemptKey} {e : Event signature} {trace : List (Event signature)}

theorem Stopped.effect {db db' : Database} (hn : ∀ u, q = .updateRun u → keepsVerdict u = true)
    (h : Stopped db) (he : Effect db q db') : Stopped db' := by
  rcases he with _ | hg | _ | _ | _ | _ | ⟨requestId, now⟩
  case run => exact stopped_set (hn _ rfl) hg h
  case consume =>
    by_cases hg : (RunUpdate.resume requestId).guard db = true
    · rw [Database.consume, updateRun_true hg]
      exact stopped_set (u := .resume requestId) rfl hg h
    · rw [Database.consume, updateRun_false hg]
      exact h
  all_goals exact h

theorem stopped_of_stops {db : Database} {u : RunUpdate} (hg : u.guard db = true)
    (hu : (∃ now, u = .requestCancellation now) ∨ ∃ code message, u = .graphFailure code message) :
    Stopped { db with run := u.set db.run } := by
  rcases hu with ⟨now, rfl⟩ | ⟨code, message, rfl⟩
  · exact .inl rfl
  · refine .inr (.inr ?_)
    simp only [RunUpdate.set]
    cases db.run.failureCode <;> rfl

/-! ### Claims take effect once -/

/-- What the trace says of the database, and of its own order. -/
structure ClaimsOnce (pool : Services) : Prop where
  stopped : ∀ e ∈ pool.trace, stops e = true → Stopped pool.world.db
  taken : ∀ key, ∀ e ∈ pool.trace, claims key e = true → Taken pool.world.db key
  once : ∀ key, pool.trace.countP (claims key) ≤ 1
  clear : ∀ key later e earlier, pool.trace = later ++ e :: earlier → claims key e = true →
    ∀ e' ∈ earlier, stops e' = false

variable {pool : Services}

theorem claims_cases (h : claims key e = true) :
    ∃ t input now, e = ⟨t, .updateAttempts (.claim key input now), true⟩ := by
  unfold claims at h
  split at h
  · rename_i t k input now a
    obtain ⟨hk, rfl⟩ : k = key ∧ a = true := by simpa using h
    exact ⟨t, input, now, by rw [hk]⟩
  · cases h

theorem stops_cases (h : stops e = true) : ∃ t u, e = ⟨t, .updateRun u, true⟩ ∧
      ((∃ now, u = .requestCancellation now) ∨ ∃ code message, u = .graphFailure code message) := by
  unfold stops at h
  split at h
  · rename_i t now a
    obtain rfl : a = true := h
    exact ⟨t, _, rfl, .inl ⟨now, rfl⟩⟩
  · rename_i t code message a
    obtain rfl : a = true := h
    exact ⟨t, _, rfl, .inr ⟨code, message, rfl⟩⟩
  · cases h

/-- **One request.** -/
theorem claimsOnce_answer {t : ℕ} {env : Env} {threads : List (Service Unit)}
    (hn : ∀ u, q = .updateRun u → keepsVerdict u = true) (h : ClaimsOnce pool) :
    ClaimsOnce ⟨(answer env q pool.world).2, threads, ⟨t, q, (answer env q pool.world).1⟩ :: pool.trace⟩ := by
  have he := answer_effect env pool.world q
  -- a claim that takes effect now finds the attempt pending and the run going on
  have hclaim : ∀ key, claims key ⟨t, q, (answer env q pool.world).1⟩ = true →
      ¬Taken pool.world.db key ∧ ¬Stopped pool.world.db ∧ Taken (answer env q pool.world).2.db key := by
    intro key hc
    obtain ⟨t', input, now, heq⟩ := claims_cases hc
    obtain ⟨rfl, rfl, ha⟩ : t = t' ∧ q = .updateAttempts (.claim key input now) ∧
        HEq (answer env q pool.world).1 true := by simpa using heq
    have htrue : (pool.world.db.updateAttempts (.claim key input now)).1 = true := eq_of_heq ha
    obtain ⟨a, hmem, hk, hp, hs, hf⟩ := claim_pending htrue
    refine ⟨fun htaken => htaken.2 a hmem hk hp, fun hstop => ?_, claim_taken htrue⟩
    rcases hs with hs | hs <;> simp [Stopped, hs, hf] at hstop
  refine ⟨fun e hmem hs => ?_, fun key e hmem hc => ?_, fun key => ?_, fun key later e earlier htr hc => ?_⟩
  · rcases List.mem_cons.1 hmem with rfl | hmem
    · obtain ⟨t', u, heq, hu⟩ := stops_cases hs
      obtain ⟨rfl, rfl, ha⟩ : t = t' ∧ q = .updateRun u ∧ HEq (answer env q pool.world).1 true := by
        simpa using heq
      have hg : u.guard pool.world.db = true := updateRun_changed (eq_of_heq ha)
      simp only [answer, World.withDb, updateRun_true hg]
      exact stopped_of_stops hg hu
    · exact (h.stopped e hmem hs).effect hn he
  · rcases List.mem_cons.1 hmem with rfl | hmem
    · exact (hclaim key hc).2.2
    · exact (h.taken key e hmem hc).effect he
  · rw [List.countP_cons]
    by_cases hc : claims key ⟨t, q, (answer env q pool.world).1⟩ = true
    · have hzero : pool.trace.countP (claims key) = 0 := List.countP_eq_zero.2 fun e hmem hc' =>
        (hclaim key hc).1 (h.taken key e hmem hc')
      rw [hzero, if_pos hc]
    · rw [if_neg hc]
      exact h.once key
  · rcases later with _ | ⟨e₀, later⟩
    · obtain ⟨rfl, rfl⟩ := List.cons.inj htr
      intro e' he'
      by_contra hs
      exact (hclaim key hc).2.1 (h.stopped e' he' (by simpa using hs))
    · exact h.clear key later e earlier (List.cons.inj htr).2 hc

/-! ### Tickets -/

/-- The claims of the attempt a phase can still use. -/
def Phase.tickets (key : AttemptKey) : Phase → ℕ
  | .idle => 0
  | .claimed k | .holding k => if k = key then 1 else 0

theorem starts_cases (h : starts key e = true) : ∃ call, e.request = .start call := by
  unfold starts at h
  split at h
  · exact ⟨_, rfl⟩
  · cases h

theorem cases_of_not_plain (h : ¬plain q = true) :
    (∃ call, q = .start call) ∨ (∃ stepId activationId, q = .selectLatest stepId activationId) ∨
      (∃ k input now, q = .updateAttempts (.claim k input now)) ∨ ∃ u, q = .updateRun u := by
  unfold plain at h
  split at h
  · exact .inl ⟨_, rfl⟩
  · exact .inr (.inl ⟨_, _, rfl⟩)
  · exact .inr (.inr (.inl ⟨_, _, _, rfl⟩))
  · exact .inr (.inr (.inr ⟨_, rfl⟩))
  · exact absurd rfl h

theorem tickets_next (key : AttemptKey) {g : Phase} (t : ℕ) (a : Answer q) (hn : startDiscipline.needs g q) :
    (startDiscipline.next g q a).tickets key + (if starts key ⟨t, q, a⟩ then 1 else 0) ≤
      g.tickets key + (if claims key ⟨t, q, a⟩ then 1 else 0) := by
  by_cases hp : plain q = true
  · have hs : ¬starts key ⟨t, q, a⟩ = true := fun hs => by
      obtain ⟨call, hq⟩ := starts_cases hs
      obtain rfl : q = .start call := hq
      cases hp
    rw [(ignores_of_plain q hp).2 g a, if_neg hs]
    omega
  · rcases cases_of_not_plain hp with ⟨call, rfl⟩ | ⟨stepId, activationId, rfl⟩ | ⟨k, input, now, rfl⟩ | ⟨u, rfl⟩
    · obtain rfl : g = .holding call.key := hn
      simp only [startDiscipline, starts, Phase.tickets, beq_iff_eq]
      omega
    · have hs : starts key ⟨t, .selectLatest stepId activationId, a⟩ = false := rfl
      rw [hs]
      rcases g with _ | k | k <;> simp [startDiscipline, Phase.tickets]
    · have hs : starts key ⟨t, .updateAttempts (.claim k input now), a⟩ = false := rfl
      rw [hs]
      rcases a with _ | _ <;> simp [startDiscipline, claims, Phase.tickets]
    · exact Nat.le_refl _

theorem tickets_trace (key : AttemptKey) (t : ℕ) (h : ∀ later e earlier, trace = later ++ e :: earlier →
      startDiscipline.needs (Pool.ghost startDiscipline .idle e.thread earlier) e.request) :
    trace.countP (fun e => starts key e && e.thread == t) + (Pool.ghost startDiscipline .idle t trace).tickets key ≤
      trace.countP (fun e => claims key e && e.thread == t) := by
  induction trace with
  | nil => simp [Pool.ghost, Phase.tickets]
  | cons e trace ih =>
    have ih := ih fun later e' earlier htr => h (e :: later) e' earlier (by rw [htr]; rfl)
    simp only [List.countP_cons, Pool.ghost]
    by_cases ht : e.thread = t
    · have hstep := tickets_next key e.thread e.answer (h [] e trace rfl)
      rw [ht] at hstep
      simp only [ht, beq_self_eq_true, Bool.and_true, if_true] at ih hstep ⊢
      have hte : (⟨t, e.request, e.answer⟩ : Event signature) = e := by rw [← ht]
      rw [hte] at hstep
      omega
    · simp only [ht, if_false, beq_iff_eq, Bool.and_eq_true, and_false]
      omega

theorem claim_of_phase {t : ℕ} (h : (Pool.ghost startDiscipline .idle t trace).tickets key ≠ 0)
    (hn : ∀ later e earlier, trace = later ++ e :: earlier →
      startDiscipline.needs (Pool.ghost startDiscipline .idle e.thread earlier) e.request) :
    ∃ between claim before, trace = between ++ claim :: before ∧ claims key claim = true ∧ claim.thread = t := by
  have hcount := tickets_trace key t hn
  have hpos : 0 < trace.countP (fun e => claims key e && e.thread == t) := by omega
  obtain ⟨claim, hmem, hc⟩ := List.countP_pos_iff.1 hpos
  obtain ⟨between, before, htr⟩ := List.append_of_mem hmem
  obtain ⟨hc, ht⟩ : claims key claim = true ∧ claim.thread = t := by simpa using hc
  exact ⟨between, claim, before, htr, hc, ht⟩

/-! ### Interleavings -/

/-- The calls that run against one run. -/
inductive Call
  | turn (depth : ℕ) (input : TurnInput)
  | requestCancellation
  | recordGraphFailure (code : FailureCategory) (message : String)
  | failRun (code : FailureCategory) (message : String) (generation : Option ℕ)
  | ensureGraphActivation (stepId activationId : String)

def Call.service : Call → Service Unit
  | .turn depth input => (executeDurableGraphNodeTurn depth input).forget
  | .requestCancellation => Storage.requestCancellation.forget
  | .recordGraphFailure code message => Storage.recordGraphFailure code message
  | .failRun code message generation => Storage.failRun code message generation
  | .ensureGraphActivation stepId activationId => (Storage.ensureGraphActivation stepId activationId).forget

/-- A call is made, or a call under way issues its next request. -/
abbrev Move := Interleave.Move machine Call.service

/-- What a call knows of a claim of its own. -/
def phaseOf (pool : Services) (t : ℕ) : Phase :=
  Pool.ghost startDiscipline .idle t pool.trace

/-- The read after a claim that took effect finds the claimed attempt to be the latest one still. -/
def rereadsClaim (pool : Services) : Action machine Thrown → Bool
  | .run t _ =>
    match pool.threads[t]?, phaseOf pool t with
    | some (.ask (.selectLatest stepId activationId) _), .claimed key =>
      (pool.world.db.latestAttempt stepId activationId).all (·.key == key)
    | _, _ => true
  | .spawn _ => true

/-- Every read of the run after a claim does. -/
abbrev RereadsClaims (w : World) (moves : List Move) : Prop :=
  Pool.Along (fun pool a => rereadsClaim pool a = true) (Pool.init w) (moves.map Move.action)

/-- The calls under way and what they did, after the moves. -/
abbrev after (w : World) (moves : List Move) : Services := (Pool.init w).run (moves.map Move.action)

theorem call_keeps (c : Call) : startDiscipline.Keeps c.service .idle fun _ _ => True := by
  rcases c with ⟨depth, input⟩ | _ | _ | _ | _
  · refine Discipline.keeps_bind ((executeDurableGraphNodeTurn_keeps depth input .idle).mono fun r g' _ => ?_)
    rcases r with _ | _ <;> trivial
  all_goals exact plain_keeps (by simp [Call.service, Prog.forget, ensureGraphActivation_issues (P := Plain) fun _ _ _ _ => rfl]) _

theorem admits_move {m : Move} (h : rereadsClaim pool m.action = true) :
    Pool.Admits startDiscipline .idle pool m.action := by
  rcases m with c | ⟨t, env⟩
  · exact call_keeps c
  · intro q next ht
    rcases q with _ | _ | ⟨stepId, activationId⟩ | _
    case selectLatest =>
      intro key hk row hrow
      have hphase : phaseOf pool t = .claimed key := hk
      simp only [Move.action, rereadsClaim, ht, hphase] at h
      rw [show pool.world.db.latestAttempt stepId activationId = some row from hrow] at h
      simpa using h
    all_goals trivial

theorem claimsOnce_step {m : Move} (hk : Pool.Kept startDiscipline .idle pool) (h : ClaimsOnce pool) :
    ClaimsOnce (pool.step m.action) := by
  rcases Pool.step_cases pool m.action with ⟨p, _, hs⟩ | ⟨t, env, q, next, _, ht, hs⟩ | ⟨_, hs⟩
  · rw [hs]
    exact ⟨h.stopped, h.taken, h.once, h.clear⟩
  · rw [hs]
    refine claimsOnce_answer (fun u hu => ?_) h
    have hneeds := (hk.threads t _ ht).1
    rw [hu] at hneeds
    exact hneeds
  · rw [hs]
    exact h

theorem claimsOnce_run {w : World} (moves : List Move) (hr : RereadsClaims w moves) :
    Pool.Kept startDiscipline .idle (after w moves) ∧ ClaimsOnce (after w moves) := by
  induction moves using List.reverseRecOn with
  | nil => exact ⟨Pool.kept_init (M := machine) w, by simp [Pool.init, Pool.run],
      by simp [Pool.init, Pool.run], by simp [Pool.init, Pool.run], by simp [Pool.init, Pool.run]⟩
  | append_singleton moves m ih =>
    rw [RereadsClaims, List.map_append, List.map_singleton, Pool.along_append] at hr
    rw [after, List.map_append, List.map_singleton, Pool.run_concat]
    obtain ⟨hk, hc⟩ := ih hr.1
    exact ⟨Pool.kept_step _ (admits_move hr.2.1) hk, claimsOnce_step hk hc⟩

/-- **Provider starts.** Where every read after a claim finds the claimed attempt still the latest, `runtime.start`
is called at most once for an attempt, and only by the call whose claim of it took effect, before which neither
a cancellation request nor a graph failure was recorded. -/
theorem start_at_most_once (w : World) (moves : List Move) (hr : RereadsClaims w moves) :
    (∀ key, (after w moves).trace.countP (starts key) ≤ 1) ∧
      ∀ key later e earlier, (after w moves).trace = later ++ e :: earlier → starts key e = true →
        ∃ between claim before, earlier = between ++ claim :: before ∧ claims key claim = true ∧
          claim.thread = e.thread ∧ ∀ e' ∈ before, stops e' = false := by
  obtain ⟨hk, hc⟩ := claimsOnce_run moves hr
  refine ⟨fun key => ?_, fun key later e earlier htr hs => ?_⟩
  · refine Nat.le_trans (countP_le_of_threads fun t => ?_) (hc.once key)
    have := tickets_trace key t hk.events
    omega
  · -- the call that starts an attempt holds a claim of it
    have hneeds := hk.events later e earlier htr
    have hearlier : ∀ later' e' earlier', earlier = later' ++ e' :: earlier' →
        startDiscipline.needs (Pool.ghost startDiscipline .idle e'.thread earlier') e'.request :=
      fun later' e' earlier' he => hk.events (later ++ e :: later') e' earlier' (by rw [htr, he]; simp)
    have hphase : (Pool.ghost startDiscipline .idle e.thread earlier).tickets key ≠ 0 := by
      have hnext := tickets_next key e.thread e.answer hneeds
      rw [if_pos hs] at hnext
      have hnc : claims key e = false := by
        obtain ⟨call, hcall⟩ := starts_cases hs
        by_contra hcl
        obtain ⟨t, input, now, rfl⟩ := claims_cases (by simpa using hcl)
        cases hcall
      rw [if_neg (by simpa using hnc)] at hnext
      omega
    obtain ⟨between, claim, before, he, hcl, ht⟩ := claim_of_phase hphase hearlier
    refine ⟨between, claim, before, he, hcl, ht, ?_⟩
    exact hc.clear key (later ++ e :: between) claim before (by rw [htr, he]; simp) hcl

def sampleTurn : Call := .turn 1 ⟨"a", some "x", "go"⟩

/-- Thread `t` issues its next `n` requests at the time `now`. -/
abbrev runs (t n : ℕ) (env : Env) : List Move := Interleave.runs t n env

/-- Two turns find the attempt pending; both go on to claim it. -/
def twoTurns : List Move :=
  .client sampleTurn :: .client sampleTurn :: (runs 0 5 (sampleEnv 5) ++ runs 1 5 (sampleEnv 5) ++ runs 0 20 (sampleEnv 5) ++
    runs 1 20 (sampleEnv 10))

/-- One of them starts it. -/
theorem twoTurns_starts : (after sampleWorld twoTurns).trace.countP (starts ⟨"a", 1, 1⟩) = 1 ∧
      ∀ key, (after sampleWorld twoTurns).trace.countP (starts key) ≤ 1 :=
  ⟨by decide +kernel, (start_at_most_once _ _ (by decide +kernel)).1⟩

def overloadedEnv (now : Time) : Env :=
  { sampleEnv now with start := fun _ => .error (.withCategory "busy" .rateLimited) }

/-- The first attempt fails and may be retried; call 1 is about to retry it and rests.  Call 2 retries it, call 3
claims the second attempt and rests before it reads it back.  Call 4 gives the second attempt up as ambiguous;
call 1 goes on and retries that one.  Call 5 starts the third attempt, and call 3, back at its read, starts it
again. -/
def retryBetween : List Move :=
  .client sampleTurn :: runs 0 20 (overloadedEnv 5) ++
  .client sampleTurn :: runs 1 3 (sampleEnv 10) ++
  .client sampleTurn :: runs 2 20 (sampleEnv 15) ++
  .client sampleTurn :: runs 3 7 (sampleEnv 20) ++
  .client sampleTurn :: runs 4 6 (sampleEnv 200000) ++
  runs 1 20 (sampleEnv 200005) ++
  .client sampleTurn :: runs 5 13 (sampleEnv 200010) ++
  runs 3 6 (sampleEnv 200015)

theorem retryBetween_starts_twice : (after sampleWorld retryBetween).trace.countP (starts ⟨"a", 1, 3⟩) = 2 := by
  decide +kernel

end ADT.Durable
