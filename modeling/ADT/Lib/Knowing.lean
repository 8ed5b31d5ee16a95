import ADT.Lib.Interleave

/-!
# Lib.Knowing — what the threads of a pool know of the world

The ghost value of a thread is read as knowledge of the world.  Where every answer teaches its thread something true, and
what the others know stays true, all of them know the truth in every run.
-/

namespace ADT.Interleave

variable {S : Signature} {ε γ κ α β : Type} {M : Machine S}

/-! ### Programs that learn -/

namespace Discipline

/-- The ghost value is a set of facts; what an answer teaches depends on what is known. -/
def learning (learns : Set κ → (q : S.Request) → S.Answer q → Set κ) (needs : Set κ → S.Request → Prop)
    (expects : (q : S.Request) → S.Answer q → Prop) : Discipline S (Set κ) where
  needs := needs
  expects _ := expects
  next known q a := known ∪ learns known q a

variable {learns : Set κ → (q : S.Request) → S.Answer q → Set κ} {needs : Set κ → S.Request → Prop}
  {expects : (q : S.Request) → S.Answer q → Prop} {known : Set κ}

/-- From `known` on the program keeps the discipline, forgets nothing, and ends in `Q`. -/
def Learns (learns : Set κ → (q : S.Request) → S.Answer q → Set κ) (needs : Set κ → S.Request → Prop)
    (expects : (q : S.Request) → S.Answer q → Prop) (p : Prog S ε α) (known : Set κ)
    (Q : Except ε α → Set κ → Prop) : Prop :=
  (learning learns needs expects).Keeps p known fun r known' => known ⊆ known' ∧ Q r known'

variable {Q : Except ε α → Set κ → Prop} {R : Except ε β → Set κ → Prop}

theorem learns_pure {a : α} (h : Q (.ok a) known) : Learns learns needs expects (pure a : Prog S ε α) known Q :=
  ⟨subset_rfl, h⟩

theorem learns_throw {e : ε} (h : Q (.error e) known) : Learns learns needs expects (throw e : Prog S ε α) known Q :=
  ⟨subset_rfl, h⟩

theorem learns_ask {q : S.Request} {next : S.Answer q → Prog S ε α} (hneeds : needs known q)
    (h : ∀ a known', known ⊆ known' → learns known q a ⊆ known' → expects q a →
      Learns learns needs expects (next a) known' Q) : Learns learns needs expects (.ask q next) known Q := by
  refine ⟨hneeds, fun a ha => ?_⟩
  have hnext := h a (known ∪ learns known q a) Set.subset_union_left Set.subset_union_right ha
  exact Keeps.mono hnext fun r known' ⟨hsub, hq⟩ => ⟨Set.subset_union_left.trans hsub, hq⟩

theorem learns_bind {p : Prog S ε α} {f : α → Prog S ε β} (hp : Learns learns needs expects p known Q)
    (hf : ∀ a known', known ⊆ known' → Q (.ok a) known' → Learns learns needs expects (f a) known' R)
    (he : ∀ e known', known ⊆ known' → Q (.error e) known' → R (.error e) known') :
    Learns learns needs expects (p >>= f) known R := by
  refine keeps_bind (Keeps.mono hp ?_)
  rintro (e | a) known' ⟨hsub, hq⟩
  · exact ⟨hsub, he e known' hsub hq⟩
  · exact Keeps.mono (hf a known' hsub hq) fun r known'' ⟨hsub', hr⟩ => ⟨hsub.trans hsub', hr⟩

theorem learns_tryCatch {p : Prog S ε α} {f : ε → Prog S ε α} {P : Except ε α → Set κ → Prop}
    (hp : Learns learns needs expects p known P)
    (hok : ∀ a known', known ⊆ known' → P (.ok a) known' → Q (.ok a) known')
    (hf : ∀ e known', known ⊆ known' → P (.error e) known' → Learns learns needs expects (f e) known' Q) :
    Learns learns needs expects (tryCatch p f) known Q := by
  refine keeps_tryCatch (Keeps.mono hp ?_)
  rintro (e | a) known' ⟨hsub, hq⟩
  · exact Keeps.mono (hf e known' hsub hq) fun r known'' ⟨hsub', hr⟩ => ⟨hsub.trans hsub', hr⟩
  · exact ⟨hsub, hok a known' hsub hq⟩

end Discipline

/-! ### Threads that know -/

/-- What is kept: an invariant of the world, what a thread with a ghost value knows of it, and what is said of an event
that happened. -/
structure Knowledge (M : Machine S) (γ : Type) where
  Inv : M.World → Prop
  Holds : M.World → ℕ → γ → Prop
  Did : M.World → Event S → Prop

/-- An answer that all of it survives. -/
structure Knowledge.Survives (K : Knowledge M γ) (D : Discipline S γ) (w : M.World) (t : ℕ) (g : γ) (q : S.Request)
    (a : S.Answer q) (w' : M.World) : Prop where
  expected : D.expects g q a
  inv : K.Inv w'
  learns : K.Holds w' t (D.next g q a)
  keeps : ∀ t' g', t' ≠ t → K.Holds w t' g' → K.Holds w' t' g'
  did : ∀ e, K.Did w e → K.Did w' e
  does : K.Did w' ⟨t, q, a⟩

namespace Pool

/-- Every thread keeps the discipline, and all that is known is true. -/
structure Knowing (K : Knowledge M γ) (D : Discipline S γ) (g₀ : γ) (pool : Pool M ε) : Prop where
  kept : Kept D g₀ pool
  inv : K.Inv pool.world
  holds : ∀ t, K.Holds pool.world t (ghost D g₀ t pool.trace)
  did : ∀ e ∈ pool.trace, K.Did pool.world e

variable {K : Knowledge M γ} {D : Discipline S γ} {g₀ : γ} {pool : Pool M ε}

theorem Along.and {ok ok' : Pool M ε → Action M ε → Prop} {actions : List (Action M ε)} (h : Along ok pool actions)
    (h' : Along ok' pool actions) : Along (fun p a => ok p a ∧ ok' p a) pool actions := by
  induction actions generalizing pool with
  | nil => trivial
  | cons a rest ih => exact ⟨⟨h.1, h'.1⟩, ih h.2 h'.2⟩

theorem exists_run_of_trace {ok : Pool M ε → Action M ε → Prop} {w : M.World} {actions : List (Action M ε)}
    {later earlier : List (Event S)} (hr : Along ok (init w) actions)
    (h : ((init w : Pool M ε).run actions).trace = later ++ earlier) :
    ∃ shorter, Along ok (init w) shorter ∧ ((init w : Pool M ε).run shorter).trace = earlier := by
  induction actions using List.reverseRecOn generalizing later with
  | nil =>
    obtain ⟨-, rfl⟩ := List.append_eq_nil_iff.1 h.symm
    exact ⟨[], trivial, rfl⟩
  | append_singleton actions a ih =>
    have hbefore : Along ok (init w) actions := (along_append.1 hr).1
    have hsame : (((init w : Pool M ε).run actions).step a).trace = later ++ earlier := run_concat actions a ▸ h
    rcases step_cases ((init w : Pool M ε).run actions) a with ⟨p, -, hs⟩ | ⟨t, env, q, next, -, -, hs⟩ | ⟨-, hs⟩
    · rw [hs] at hsame
      exact ih hbefore hsame
    · rw [hs] at hsame
      cases later with
      | nil => exact ⟨actions ++ [a], hr, h⟩
      | cons e later =>
        obtain ⟨-, hrest⟩ := List.cons.inj hsame
        exact ih hbefore hrest
    · rw [hs] at hsame
      exact ih hbefore hsame

theorem knowing_init {w : M.World} (hinv : K.Inv w) (hholds : ∀ t, K.Holds w t g₀) :
    Knowing K D g₀ (init w : Pool M ε) where
  kept := kept_init w
  inv := hinv
  holds := hholds
  did := by simp [init]

/-- **Step.** A new program keeps the discipline, and an answer is survived by all that is known. -/
theorem knowing_step {a : Action M ε} (h : Knowing K D g₀ pool)
    (hspawn : ∀ p, a = .spawn p → D.Keeps p g₀ fun _ _ => True)
    (hrun : ∀ t env q next, a = .run t env → pool.threads[t]? = some (.ask q next) →
      D.needs (ghost D g₀ t pool.trace) q →
      K.Survives D pool.world t (ghost D g₀ t pool.trace) q (M.answer env q pool.world).1 (M.answer env q pool.world).2) :
    Knowing K D g₀ (pool.step a) := by
  rcases step_cases pool a with ⟨p, rfl, hs⟩ | ⟨t, env, q, next, rfl, ht, hs⟩ | ⟨_, hs⟩
  · rw [hs]
    exact ⟨kept_spawn h.kept (hspawn p rfl), h.inv, h.holds, h.did⟩
  · have hneeds : D.needs (ghost D g₀ t pool.trace) q := (h.kept.threads t _ ht).1
    obtain ⟨hexpected, hinv, hlearns, hkeeps, hdid, hdoes⟩ := hrun t env q next rfl ht hneeds
    rw [hs]
    refine ⟨kept_answer h.kept ht _ _ hexpected, hinv, fun t' => ?_, fun e he => ?_⟩
    · by_cases htt : t = t'
      · subst htt
        show K.Holds _ t (ghost D g₀ t (⟨t, q, _⟩ :: pool.trace))
        rw [ghost, if_pos rfl]
        exact hlearns
      · show K.Holds _ t' (ghost D g₀ t' (⟨t, q, _⟩ :: pool.trace))
        rw [ghost, if_neg htt]
        exact hkeeps t' _ (Ne.symm htt) (h.holds t')
    · rcases List.mem_cons.1 he with rfl | he
      · exact hdoes
      · exact hdid e (h.did e he)
  · rw [hs]
    exact h

end Pool

end ADT.Interleave
