import ADT.Lib.Interleave

/-!
# Lib.Clients — pools whose programs are those of named clients

A move lets a client set out, whose program is then a thread of the pool, or lets a thread issue its next request.  Runs of
moves are constrained by what holds where a move is made (`Moves`), or by the clients there as well (`Watched`); the rules
`run_keeps` and `run_watched` are the inductions over them.
-/

namespace ADT.Interleave

variable {S : Signature} {ε C : Type}

/-- A client sets out, or one under way issues its next request. -/
inductive Move (M : Machine S) (service : C → Prog S ε Unit)
  | client (c : C)
  | run (thread : ℕ) (env : M.Env)

variable {M : Machine S} {service : C → Prog S ε Unit}

def Move.action : Move M service → Action M ε
  | .client c => .spawn (service c)
  | .run t env => .run t env

/-- Thread `t` issues its next `n` requests. -/
def runs (t n : ℕ) (env : M.Env) : List (Move M service) := List.replicate n (.run t env)

theorem run_moves_concat (pool : Pool M ε) (moves : List (Move M service)) (m : Move M service) :
    pool.run ((moves ++ [m]).map Move.action) = (pool.run (moves.map Move.action)).step m.action := by
  simp only [List.map_append, List.map_singleton, Pool.run_concat]

/-- The request a move issues. -/
def asks (pool : Pool M ε) : Move M service → Option S.Request
  | .run t _ =>
    match pool.threads[t]? with
    | some (.ask q _) => some q
    | _ => none
  | .client _ => none

variable {t : ℕ} {moves : List (Move M service)}

theorem thread_of_asks {pool : Pool M ε} {env : M.Env} {q : S.Request}
    (h : asks pool (.run t env : Move M service) = some q) :
    ∃ next, pool.threads[t]? = some (.ask q next) := by
  rcases ht : pool.threads[t]? with _ | p
  · simp [asks, ht] at h
  cases p with
  | done => simp [asks, ht] at h
  | fail => simp [asks, ht] at h
  | ask q' next =>
    obtain rfl : q' = q := by simpa [asks, ht] using h
    exact ⟨next, rfl⟩

theorem step_cases (pool : Pool M ε) (m : Move M service) :
    ((pool.step m.action).world = pool.world ∧ (pool.step m.action).trace = pool.trace) ∨
    ∃ t env q next, m = .run t env ∧ pool.threads[t]? = some (.ask q next) ∧ asks pool m = some q ∧
      pool.step m.action = ⟨(M.answer env q pool.world).2, pool.threads.set t (next (M.answer env q pool.world).1),
        ⟨t, q, (M.answer env q pool.world).1⟩ :: pool.trace⟩ := by
  rcases Pool.step_cases pool m.action with ⟨p, _, hs⟩ | ⟨t, env, q, next, hm, ht, hs⟩ | ⟨_, hs⟩
  · exact .inl (by rw [hs]; exact ⟨rfl, rfl⟩)
  · rcases m with c | ⟨t', env'⟩
    · cases hm
    · obtain ⟨rfl, rfl⟩ : t' = t ∧ env' = env := by simpa [Move.action] using hm
      exact .inr ⟨t', env', q, next, rfl, ht, by simp only [asks, ht], hs⟩
  · exact .inl (by rw [hs]; exact ⟨rfl, rfl⟩)

theorem move_cases (pool : Pool M ε) (m : Move M service) :
    ((pool.step m.action).world = pool.world ∧ (pool.step m.action).trace = pool.trace) ∨
    ∃ t env q next, m = .run t env ∧ pool.threads[t]? = some (.ask q next) ∧
      (pool.step m.action).world = (M.answer env q pool.world).2 ∧
      (pool.step m.action).trace = ⟨t, q, (M.answer env q pool.world).1⟩ :: pool.trace := by
  rcases step_cases pool m with hsame | ⟨t, env, q, next, hm, ht, -, hs⟩
  · exact .inl hsame
  · exact .inr ⟨t, env, q, next, hm, ht, by rw [hs], by rw [hs]⟩

/-- Every move meets `ok` in the state it is made in. -/
def Moves (ok : Pool M ε → Move M service → Bool) : Pool M ε → List (Move M service) → Prop
  | _, [] => True
  | pool, m :: rest => ok pool m = true ∧ Moves ok (pool.step m.action) rest

instance decidableMoves (ok : Pool M ε → Move M service → Bool) (pool : Pool M ε) :
    (moves : List (Move M service)) → Decidable (Moves ok pool moves)
  | [] => isTrue trivial
  | m :: rest =>
    have := decidableMoves ok (pool.step m.action) rest
    inferInstanceAs (Decidable (ok pool m = true ∧ Moves ok (pool.step m.action) rest))

variable {ok : Pool M ε → Move M service → Bool} {pool : Pool M ε}

theorem moves_append {rest : List (Move M service)} : Moves ok pool (moves ++ rest) ↔
    Moves ok pool moves ∧ Moves ok (pool.run (moves.map Move.action)) rest := by
  induction moves generalizing pool with
  | nil => simp [Moves, Pool.run]
  | cons m moves ih =>
    simp only [List.cons_append, Moves, ih, List.map_cons, Pool.run, List.foldl_cons]
    exact and_assoc.symm

theorem moves_concat {m : Move M service} : Moves ok pool (moves ++ [m]) ↔
    Moves ok pool moves ∧ ok (pool.run (moves.map Move.action)) m = true := by
  simp only [moves_append, Moves, and_true]

/-- **Runs.** What holds at first and is kept by every move that meets `ok` holds after every run of such moves. -/
theorem run_keeps {I : Pool M ε → Prop} (hinit : I pool)
    (hstep : ∀ pool m, ok pool m = true → I pool → I (pool.step m.action)) (hm : Moves ok pool moves) :
    I (pool.run (moves.map Move.action)) := by
  induction moves generalizing pool with
  | nil => exact hinit
  | cons m moves ih => exact ih (hstep _ m hm.1 hinit) hm.2

theorem moves_true (pool : Pool M ε) : ∀ moves : List (Move M service), Moves (fun _ _ => true) pool moves
  | [] => trivial
  | m :: moves => ⟨rfl, moves_true (pool.step m.action) moves⟩

/-- What every move keeps holds after every run. -/
theorem run_always {I : Pool M ε → Prop} (hinit : I pool) (hstep : ∀ pool (m : Move M service), I pool →
    I (pool.step m.action))
    (moves : List (Move M service)) : I (pool.run (moves.map Move.action)) :=
  run_keeps hinit (fun pool m _ => hstep pool m) (moves_true pool moves)

/-! ### Who is who -/

/-- The client that sets out with a move. -/
def Move.started : Move M service → List C
  | .client c => [c]
  | .run _ _ => []

/-- The clients that set out, in the order of their threads. -/
def clients (moves : List (Move M service)) : List C := moves.flatMap Move.started

theorem clients_concat (moves : List (Move M service)) (m : Move M service) :
    clients (moves ++ [m]) = clients moves ++ m.started := by
  simp [clients]

/-- Every move meets `ok` among the clients and in the state it is made in. -/
def Watched (ok : List C → Pool M ε → Move M service → Bool) : List C → Pool M ε → List (Move M service) → Prop
  | _, _, [] => True
  | cs, pool, m :: rest => ok cs pool m = true ∧ Watched ok (cs ++ m.started) (pool.step m.action) rest

instance decidableWatched (ok : List C → Pool M ε → Move M service → Bool) (cs : List C) (pool : Pool M ε) :
    (moves : List (Move M service)) → Decidable (Watched ok cs pool moves)
  | [] => isTrue trivial
  | m :: rest =>
    have := decidableWatched ok (cs ++ m.started) (pool.step m.action) rest
    inferInstanceAs (Decidable (ok cs pool m = true ∧ Watched ok (cs ++ m.started) (pool.step m.action) rest))

variable {watch : List C → Pool M ε → Move M service → Bool} {cs : List C}

theorem watched_append {rest : List (Move M service)} : Watched watch cs pool (moves ++ rest) ↔
    Watched watch cs pool moves ∧ Watched watch (cs ++ clients moves) (pool.run (moves.map Move.action)) rest := by
  induction moves generalizing cs pool with
  | nil => simp [Watched, Pool.run, clients]
  | cons m moves ih =>
    simp only [List.cons_append, Watched, ih, List.map_cons, Pool.run, List.foldl_cons, clients, List.flatMap_cons,
      List.append_assoc]
    exact and_assoc.symm

theorem watched_concat {m : Move M service} : Watched watch [] pool (moves ++ [m]) ↔
    Watched watch [] pool moves ∧ watch (clients moves) (pool.run (moves.map Move.action)) m = true := by
  simp only [watched_append, Watched, List.nil_append, and_true]

/-- **Watched runs.** What holds at first and is kept by every move that meets `watch` holds after every such run. -/
theorem run_watched {I : List C → Pool M ε → Prop} (hinit : I [] pool)
    (hstep : ∀ cs pool m, watch cs pool m = true → I cs pool → I (cs ++ m.started) (pool.step m.action))
    (hm : Watched watch [] pool moves) : I (clients moves) (pool.run (moves.map Move.action)) := by
  induction moves using List.reverseRecOn with
  | nil => exact hinit
  | append_singleton moves m ih =>
    rw [watched_concat] at hm
    rw [run_moves_concat, clients_concat]
    exact hstep _ _ m hm.2 (ih hm.1)

/-- One thread for every client, and events of threads only. -/
structure Enrolled (cs : List C) (pool : Pool M ε) : Prop where
  length : pool.threads.length = cs.length
  below : ∀ e ∈ pool.trace, e.thread < pool.threads.length

theorem enrolled_step (h : Enrolled cs pool) (m : Move M service) : Enrolled (cs ++ m.started) (pool.step m.action) := by
  refine ⟨?_, Pool.below_step m.action h.below⟩
  rcases m with c | ⟨t, env⟩
  · simp [Move.action, Move.started, Pool.step, h.length]
  · rcases Pool.step_cases pool (Move.run t env).action with ⟨p, hm, _⟩ | ⟨t', env', q, next, _, _, hs⟩ | ⟨_, hs⟩
    · cases hm
    · rw [hs]
      simp [Move.started, h.length]
    · rw [hs]
      simp [Move.started, h.length]

theorem follows_move {γ : Type} {D : Discipline S γ} {g₀ : γ} {P : C → Prop}
    (hkeeps : ∀ c, P c → D.Keeps (service c) g₀ fun _ _ => True) (he : Enrolled cs pool)
    (h : ∀ c, cs[t]? = some c → P c → Pool.Follows D g₀ t pool) (m : Move M service)
    (hexpects : ∀ c env q next, cs[t]? = some c → P c → m = .run t env → pool.threads[t]? = some (.ask q next) →
      D.expects (Pool.ghost D g₀ t pool.trace) q (M.answer env q pool.world).1) :
    ∀ c, (cs ++ m.started)[t]? = some c → P c → Pool.Follows D g₀ t (pool.step m.action) := by
  intro c hc hP
  rcases m with c' | ⟨t', env⟩
  · have hlen := he.length
    refine Pool.follows_spawn he.below ?_ fun ht => ?_
    · intro p hp
      have hlt := (List.getElem?_eq_some_iff.1 hp).1
      refine h c ?_ hP p hp
      rwa [List.getElem?_append_left (by omega)] at hc
    · rw [Move.started, List.getElem?_append_right (by omega), ht, hlen, Nat.sub_self] at hc
      obtain rfl : c' = c := by simpa using hc
      exact hkeeps c' hP
  · simp only [Move.started, List.append_nil] at hc
    rcases Pool.step_cases pool (Move.run t' env).action with ⟨p, hm, _⟩ | ⟨t'', env', q, next, hm, ht, hs⟩ | ⟨_, hs⟩
    · cases hm
    · obtain ⟨rfl, rfl⟩ : t' = t'' ∧ env = env' := by simpa [Move.action] using hm
      rw [hs]
      exact Pool.follows_answer (h c hc hP) ht _ _ fun htt => by
        subst htt
        exact hexpects c env q next hc hP rfl ht
    · rw [hs]
      exact h c hc hP

theorem ghost_move {γ : Type} {D : Discipline S γ} {g₀ : γ} {c : C} (he : Enrolled cs pool) (m : Move M service)
    (hc : (cs ++ m.started)[t]? = some c) : Pool.ghost D g₀ t (pool.step m.action).trace = g₀ ∨ cs[t]? = some c ∧
        (Pool.ghost D g₀ t (pool.step m.action).trace = Pool.ghost D g₀ t pool.trace ∧
            (pool.step m.action).threads[t]? = pool.threads[t]? ∨
          ∃ env q next, m = .run t env ∧ pool.threads[t]? = some (.ask q next) ∧
            Pool.ghost D g₀ t (pool.step m.action).trace =
              D.next (Pool.ghost D g₀ t pool.trace) q (M.answer env q pool.world).1) := by
  rcases m with c' | ⟨t', env⟩
  · by_cases hlt : t < cs.length
    · rw [List.getElem?_append_left hlt] at hc
      exact .inr ⟨hc, .inl ⟨rfl, List.getElem?_append_left (he.length ▸ hlt)⟩⟩
    · have hfresh : Pool.ghost D g₀ t pool.trace = g₀ := Pool.ghost_of_not_mem fun e hmem htt => hlt (by
        have := he.below e hmem
        have := he.length
        omega)
      exact .inl hfresh
  · rw [Move.started, List.append_nil] at hc
    refine .inr ⟨hc, ?_⟩
    rcases Pool.step_cases pool (Move.run t' env).action with ⟨p, hm, _⟩ | ⟨t'', env', q, next, hm, ht, hs⟩ | ⟨_, hs⟩
    · cases hm
    · obtain ⟨rfl, rfl⟩ : t' = t'' ∧ env = env' := by simpa [Move.action] using hm
      rw [hs]
      by_cases htt : t' = t
      · subst htt
        exact .inr ⟨env, q, next, rfl, ht, if_pos rfl⟩
      · exact .inl ⟨if_neg htt, List.getElem?_set_ne htt⟩
    · rw [hs]
      exact .inl ⟨rfl, rfl⟩

end ADT.Interleave
