import Mathlib.Tactic

/-!
# Lib.Interleave — programs over atomic requests, and pools of them

A program issues one atomic request after the other to a shared world and ends with a value or an error.
A pool runs any number of programs; an action starts a program or lets one of them issue its next request,
so that a list of actions is an interleaving, and a program that is never scheduled again has crashed.  A
`Discipline` follows one program with a ghost value; a pool of programs that keep it keeps it in every run.
-/

namespace ADT.Interleave

/-- The atomic requests, and what each of them is answered. -/
structure Signature where
  Request : Type
  Answer : Request → Type

/-- A program: done, failed, or about to issue a request. -/
inductive Prog (S : Signature) (ε α : Type) : Type
  | done (a : α)
  | fail (e : ε)
  | ask (q : S.Request) (next : S.Answer q → Prog S ε α)

namespace Prog

variable {S : Signature} {ε α β γ : Type}

protected def bind : Prog S ε α → (α → Prog S ε β) → Prog S ε β
  | done a, f => f a
  | fail e, _ => fail e
  | ask q next, f => ask q fun a => (next a).bind f

protected def tryCatch : Prog S ε α → (ε → Prog S ε α) → Prog S ε α
  | done a, _ => done a
  | fail e, f => f e
  | ask q next, f => ask q fun a => (next a).tryCatch f

instance : Monad (Prog S ε) where
  pure := done
  bind := Prog.bind

instance : MonadExceptOf ε (Prog S ε) where
  throw := fail
  tryCatch := Prog.tryCatch

/-- The result of a program is not looked at. -/
def forget (p : Prog S ε α) : Prog S ε Unit :=
  p >>= fun _ => pure ()

/-! ### What a program issues -/

/-- Every request the program can issue is in `P`. -/
def Issues (P : S.Request → Prop) : Prog S ε α → Prop
  | done _ => True
  | fail _ => True
  | ask q next => P q ∧ ∀ a, (next a).Issues P

/-- The values the program can end with. -/
def Returns : Prog S ε α → α → Prop
  | done a, b => a = b
  | fail _, _ => False
  | ask _ next, b => ∃ a, (next a).Returns b

/-- The errors the program can end with. -/
def Throws : Prog S ε α → ε → Prop
  | done _, _ => False
  | fail e, e' => e = e'
  | ask _ next, e => ∃ a, (next a).Throws e

variable {p : Prog S ε α} {f : α → Prog S ε β}

theorem returns_bind {b : β} : (p >>= f).Returns b ↔ ∃ a, p.Returns a ∧ (f a).Returns b := by
  induction p with
  | done a => exact ⟨fun h => ⟨a, rfl, h⟩, fun ⟨_, ha, h⟩ => ha ▸ h⟩
  | fail e => exact ⟨fun h => h.elim, fun ⟨_, ha, _⟩ => ha.elim⟩
  | ask q next ih =>
    constructor
    · rintro ⟨a, ha⟩
      obtain ⟨c, hc, h⟩ := (ih a).1 ha
      exact ⟨c, ⟨a, hc⟩, h⟩
    · rintro ⟨c, ⟨a, hc⟩, h⟩
      exact ⟨a, (ih a).2 ⟨c, hc, h⟩⟩

variable {P : S.Request → Prop}

@[simp] theorem issues_pure (a : α) : (pure a : Prog S ε α).Issues P := trivial

@[simp] theorem issues_throw (e : ε) : (throw e : Prog S ε α).Issues P := trivial

@[simp] theorem issues_done (a : α) : (done a : Prog S ε α).Issues P := trivial

@[simp] theorem issues_ask {q : S.Request} {next : S.Answer q → Prog S ε α} :
    (ask q next).Issues P ↔ P q ∧ ∀ a, (next a).Issues P := Iff.rfl

@[simp] theorem issues_bind : (p >>= f).Issues P ↔ p.Issues P ∧ ∀ a, p.Returns a → (f a).Issues P := by
  induction p with
  | done a => exact ⟨fun h => ⟨trivial, fun b hb => hb ▸ h⟩, fun h => h.2 a rfl⟩
  | fail e => exact ⟨fun _ => ⟨trivial, fun b hb => hb.elim⟩, fun _ => trivial⟩
  | ask q next ih =>
    refine ⟨fun h => ⟨⟨h.1, fun a => ((ih a).1 (h.2 a)).1⟩, ?_⟩, fun h => ⟨h.1.1, fun a => ?_⟩⟩
    · rintro b ⟨a, ha⟩
      exact ((ih a).1 (h.2 a)).2 b ha
    · exact (ih a).2 ⟨h.1.2 a, fun b hb => h.2 b ⟨a, hb⟩⟩

@[simp] theorem issues_tryCatch {f : ε → Prog S ε α} :
    (tryCatch p f).Issues P ↔ p.Issues P ∧ ∀ e, p.Throws e → (f e).Issues P := by
  induction p with
  | done a => exact ⟨fun _ => ⟨trivial, fun e he => he.elim⟩, fun _ => trivial⟩
  | fail e => exact ⟨fun h => ⟨trivial, fun e' he => he ▸ h⟩, fun h => h.2 e rfl⟩
  | ask q next ih =>
    refine ⟨fun h => ⟨⟨h.1, fun a => ((ih a).1 (h.2 a)).1⟩, ?_⟩, fun h => ⟨h.1.1, fun a => ?_⟩⟩
    · rintro e ⟨a, ha⟩
      exact ((ih a).1 (h.2 a)).2 e ha
    · exact (ih a).2 ⟨h.1.2 a, fun e he => h.2 e ⟨a, he⟩⟩

@[simp] theorem issues_ite {c : Prop} [Decidable c] {p' : Prog S ε α} :
    (if c then p else p').Issues P ↔ (c → p.Issues P) ∧ (¬c → p'.Issues P) := by
  by_cases h : c <;> simp [h]

theorem Issues.mono {P' : S.Request → Prop} (hp : p.Issues P) (h : ∀ q, P q → P' q) : p.Issues P' := by
  induction p with
  | done a => trivial
  | fail e => trivial
  | ask q next ih => exact ⟨h q hp.1, fun a => ih a (hp.2 a)⟩

end Prog

/-! ### Disciplines -/

/-- A ghost value for one program: what a request needs of it, which answers are counted on, and the value
after a request was answered. -/
structure Discipline (S : Signature) (γ : Type) where
  needs : γ → S.Request → Prop
  expects : γ → (q : S.Request) → S.Answer q → Prop
  next : γ → (q : S.Request) → S.Answer q → γ

namespace Discipline

variable {S : Signature} {ε α β γ : Type} (D : Discipline S γ)

/-- From the ghost value `g` on the program keeps the discipline and ends in `Q`. -/
def Keeps : Prog S ε α → γ → (Except ε α → γ → Prop) → Prop
  | .done a, g, Q => Q (.ok a) g
  | .fail e, g, Q => Q (.error e) g
  | .ask q next, g, Q => D.needs g q ∧ ∀ a, D.expects g q a → Keeps (next a) (D.next g q a) Q

/-- The discipline has no say in the request. -/
def Ignores (q : S.Request) : Prop :=
  (∀ g, D.needs g q) ∧ ∀ g a, D.next g q a = g

variable {D} {g : γ} {Q Q' : Except ε α → γ → Prop}
variable {p : Prog S ε α} {f : α → Prog S ε β} {R : Except ε β → γ → Prop}

theorem Keeps.mono (h : D.Keeps p g Q) (hQ : ∀ r g', Q r g' → Q' r g') : D.Keeps p g Q' := by
  induction p generalizing g with
  | done a => exact hQ _ _ h
  | fail e => exact hQ _ _ h
  | ask q next ih => exact ⟨h.1, fun a ha => ih a (h.2 a ha)⟩

theorem keeps_bind (h : D.Keeps p g fun r g' => match r with
      | .ok a => D.Keeps (f a) g' R
      | .error e => R (.error e) g') :
    D.Keeps (p >>= f) g R := by
  induction p generalizing g with
  | done a => exact h
  | fail e => exact h
  | ask q next ih => exact ⟨h.1, fun a ha => ih a (h.2 a ha)⟩

theorem keeps_tryCatch {f : ε → Prog S ε α} (h : D.Keeps p g fun r g' => match r with
      | .ok a => Q (.ok a) g'
      | .error e => D.Keeps (f e) g' Q) :
    D.Keeps (tryCatch p f) g Q := by
  induction p generalizing g with
  | done a => exact h
  | fail e => exact h
  | ask q next ih => exact ⟨h.1, fun a ha => ih a (h.2 a ha)⟩

theorem keeps_of_issues (hp : p.Issues D.Ignores) (hQ : ∀ r, Q r g) : D.Keeps p g Q := by
  induction p with
  | done a => exact hQ _
  | fail e => exact hQ _
  | ask q next ih =>
    refine ⟨hp.1.1 g, fun a _ => ?_⟩
    rw [hp.1.2 g a]
    exact ih a (hp.2 a)

theorem keeps_of_needs (hp : p.Issues fun q => ∀ g, D.needs g q) (hQ : ∀ r g, Q r g) : D.Keeps p g Q := by
  induction p generalizing g with
  | done a => exact hQ _ _
  | fail e => exact hQ _ _
  | ask q next ih => exact ⟨hp.1 g, fun a _ => ih a (hp.2 a)⟩

theorem keeps_bind_of_issues
    (hp : p.Issues D.Ignores) (hf : ∀ a, p.Returns a → D.Keeps (f a) g R) (he : ∀ e, R (.error e) g) :
    D.Keeps (p >>= f) g R := by
  induction p with
  | done a => exact hf a rfl
  | fail e => exact he e
  | ask q next ih =>
    refine ⟨hp.1.1 g, fun a _ => ?_⟩
    rw [hp.1.2 g a]
    exact ih a (hp.2 a) fun b hb => hf b ⟨a, hb⟩

/-! ### Threads that remember -/

section Remembering

variable {κ : Type} {learns : (q : S.Request) → S.Answer q → Set κ} {needs : Set κ → S.Request → Prop}
  {expects : (q : S.Request) → S.Answer q → Prop} {known known' : Set κ}

/-- The ghost value is the set of what the thread was told. -/
def remembering (learns : (q : S.Request) → S.Answer q → Set κ) (needs : Set κ → S.Request → Prop)
    (expects : (q : S.Request) → S.Answer q → Prop) : Discipline S (Set κ) where
  needs := needs
  expects _ := expects
  next known q a := known ∪ learns q a

variable {p : Prog S ε α} {f : α → Prog S ε β}

theorem remembers_of_needs (hp : p.Issues fun q => ∀ known, needs known q) :
    (remembering learns needs expects).Keeps p known fun r known' => known ⊆ known' ∧ ∀ a, r = .ok a → p.Returns a := by
  induction p generalizing known with
  | done a => exact ⟨subset_rfl, fun b hb => Except.ok.inj hb⟩
  | fail e => exact ⟨subset_rfl, fun b hb => by cases hb⟩
  | ask q next ih =>
    refine ⟨hp.1 known, fun a _ => (ih a (hp.2 a)).mono fun r known' h => ⟨?_, fun b hb => ⟨a, h.2 b hb⟩⟩⟩
    exact Set.subset_union_left.trans h.1

theorem remembers_bind (hp : p.Issues fun q => ∀ known, needs known q) (hf : ∀ a known', known ⊆ known' → p.Returns a →
      (remembering learns needs expects).Keeps (f a) known' fun _ _ => True) :
    (remembering learns needs expects).Keeps (p >>= f) known fun _ _ => True := by
  refine keeps_bind ((remembers_of_needs hp).mono fun r known' h => ?_)
  rcases r with e | a
  · trivial
  · exact hf a known' h.1 (h.2 a rfl)

theorem remembers_then (hp : (remembering learns needs expects).Keeps p known fun _ _ => True)
    (hf : ∀ a, (f a).Issues fun q => ∀ known, needs known q) :
    (remembering learns needs expects).Keeps (p >>= f) known fun _ _ => True := by
  refine keeps_bind (hp.mono fun r known' _ => ?_)
  rcases r with e | a
  · trivial
  · exact (remembers_of_needs (hf a)).mono fun _ _ _ => trivial

theorem remembers_tryCatch {f : ε → Prog S ε α} (hp : (remembering learns needs expects).Keeps p known fun _ _ => True)
    (hf : ∀ e, (f e).Issues fun q => ∀ known, needs known q) :
    (remembering learns needs expects).Keeps (tryCatch p f) known fun _ _ => True := by
  refine keeps_tryCatch (hp.mono fun r known' _ => ?_)
  rcases r with e | a
  · exact (remembers_of_needs (hf e)).mono fun _ _ _ => trivial
  · trivial

end Remembering

/-! ### Threads that record -/

/-- The ghost value is what the thread did so far: its requests with their answers, the latest first. -/
def recording (needs : List ((q : S.Request) × S.Answer q) → S.Request → Prop)
    (expects : (q : S.Request) → S.Answer q → Prop) : Discipline S (List ((q : S.Request) × S.Answer q)) where
  needs := needs
  expects _ := expects
  next own q a := ⟨q, a⟩ :: own

section Recording

variable {needs : List ((q : S.Request) × S.Answer q) → S.Request → Prop}
  {expects : (q : S.Request) → S.Answer q → Prop} {own : List ((q : S.Request) × S.Answer q)} {P : S.Request → Prop}

theorem records_of_needs {p : Prog S ε α} (hp : p.Issues P) (hP : ∀ q own, P q → needs own q) :
    (recording needs expects).Keeps p own fun r own' =>
      ∃ new, own' = new ++ own ∧ (∀ x ∈ new, P x.1) ∧ ∀ a, r = .ok a → p.Returns a := by
  induction p generalizing own with
  | done a => exact ⟨[], rfl, by simp, fun b hb => Except.ok.inj hb⟩
  | fail e => exact ⟨[], rfl, by simp, fun b hb => by cases hb⟩
  | ask q next ih =>
    refine ⟨hP q own hp.1, fun a _ => (ih a (hp.2 a)).mono ?_⟩
    rintro r own' ⟨new, rfl, hnew, hreturns⟩
    refine ⟨new ++ [⟨q, a⟩], by simp [recording], fun x hx => ?_, fun b hb => ⟨a, hreturns b hb⟩⟩
    rcases List.mem_append.1 hx with hx | hx
    · exact hnew x hx
    · rw [List.mem_singleton.1 hx]
      exact hp.1

theorem records_bind {p : Prog S ε α} {f : α → Prog S ε β} {R : Except ε β → List ((q : S.Request) × S.Answer q) → Prop}
    (hp : p.Issues P) (hP : ∀ q own, P q → needs own q)
    (hf : ∀ a new, p.Returns a → (∀ x ∈ new, P x.1) → (recording needs expects).Keeps (f a) (new ++ own) R)
    (he : ∀ e new, (∀ x ∈ new, P x.1) → R (.error e) (new ++ own)) :
    (recording needs expects).Keeps (p >>= f) own R := by
  refine keeps_bind ((records_of_needs hp hP).mono ?_)
  rintro r own' ⟨new, rfl, hnew, hreturns⟩
  rcases r with e | a
  · exact he e new hnew
  · exact hf a new (hreturns a rfl) hnew

end Recording

end Discipline

/-! ### Pools -/

/-- The world that answers the requests; what it does not decide is an `Env`. -/
structure Machine (S : Signature) where
  World : Type
  Env : Type
  answer : Env → (q : S.Request) → World → S.Answer q × World

/-- A request a thread issued, with its answer. -/
structure Event (S : Signature) where
  thread : Nat
  request : S.Request
  answer : S.Answer request

/-- Counted event by event, what every thread does at most as often as something else all threads do. -/
theorem countP_le_of_threads {S : Signature} {P Q : Event S → Bool} {trace : List (Event S)}
    (h : ∀ t, trace.countP (fun e => P e && e.thread == t) ≤ trace.countP (fun e => Q e && e.thread == t)) :
    trace.countP P ≤ trace.countP Q := by
  have hsum : ∀ (R : Event S → Bool) (s : Finset ℕ) (l : List (Event S)), (∀ e ∈ l, e.thread ∈ s) →
      l.countP R = ∑ t ∈ s, l.countP (fun e => R e && e.thread == t) := by
    intro R s l hl
    induction l with
    | nil => simp
    | cons e l ih =>
      simp only [List.countP_cons, Finset.sum_add_distrib, ih fun e' he' => hl e' (List.mem_cons_of_mem _ he')]
      have he := hl e (List.mem_cons_self ..)
      rcases R e with _ | _ <;> simp [he]
  have hmem : ∀ e ∈ trace, e.thread ∈ (trace.map (·.thread)).toFinset := fun e he =>
    List.mem_toFinset.2 (List.mem_map_of_mem he)
  rw [hsum P _ trace hmem, hsum Q _ trace hmem]
  exact Finset.sum_le_sum fun t _ => h t

section Pools

variable {S : Signature} {ε γ : Type} (M : Machine S)

/-- The world, the threads, and what happened so far, the latest first. -/
structure Pool (ε : Type) where
  world : M.World
  threads : List (Prog S ε Unit)
  trace : List (Event S)

/-- Start a program, or let a thread issue its next request. -/
inductive Action (ε : Type)
  | spawn (p : Prog S ε Unit)
  | run (thread : Nat) (env : M.Env)

variable {M}

namespace Pool

def init (w : M.World) : Pool M ε := ⟨w, [], []⟩

def step (pool : Pool M ε) : Action M ε → Pool M ε
  | .spawn p => { pool with threads := pool.threads ++ [p] }
  | .run t env =>
    match pool.threads[t]? with
    | some (.ask q next) =>
      let r := M.answer env q pool.world
      ⟨r.2, pool.threads.set t (next r.1), ⟨t, q, r.1⟩ :: pool.trace⟩
    | _ => pool

def run (pool : Pool M ε) (actions : List (Action M ε)) : Pool M ε :=
  actions.foldl step pool

/-- Every action of the run is admitted by `ok` in the pool it is taken in. -/
def Along (ok : Pool M ε → Action M ε → Prop) : Pool M ε → List (Action M ε) → Prop
  | _, [] => True
  | pool, a :: rest => ok pool a ∧ Along ok (pool.step a) rest

instance decidableAlong (ok : Pool M ε → Action M ε → Prop) [∀ p a, Decidable (ok p a)] (pool : Pool M ε) :
    (actions : List (Action M ε)) → Decidable (Along ok pool actions)
  | [] => isTrue trivial
  | a :: rest =>
    have := decidableAlong ok (pool.step a) rest
    inferInstanceAs (Decidable (ok pool a ∧ Along ok (pool.step a) rest))

variable {ok : Pool M ε → Action M ε → Prop} {pool : Pool M ε}

theorem run_concat (actions : List (Action M ε)) (a : Action M ε) :
    pool.run (actions ++ [a]) = (pool.run actions).step a := by
  simp only [run, List.foldl_append, List.foldl_cons, List.foldl_nil]

variable {actions : List (Action M ε)} (a : Action M ε) {t : Nat} {trace : List (Event S)}
  {x : (q : S.Request) × S.Answer q} {p : Prog S ε Unit}

theorem Along.mono {ok' : Pool M ε → Action M ε → Prop} (h : ∀ p a, ok p a → ok' p a) (hr : Along ok pool actions) :
    Along ok' pool actions := by
  induction actions generalizing pool with
  | nil => trivial
  | cons a rest ih => exact ⟨h _ _ hr.1, ih hr.2⟩

theorem along_append {rest : List (Action M ε)} :
    Along ok pool (actions ++ rest) ↔ Along ok pool actions ∧ Along ok (pool.run actions) rest := by
  induction actions generalizing pool with
  | nil => simp [Along, run]
  | cons a actions ih =>
    simp only [List.cons_append, Along, ih, run, List.foldl_cons]
    exact and_assoc.symm

/-- **Runs.** What every admitted action preserves holds after every admitted run. -/
theorem run_invariant {I : Pool M ε → Prop} (hstep : ∀ p a, ok p a → I p → I (p.step a)) (hr : Along ok pool actions)
    (h₀ : I pool) : I (pool.run actions) := by
  induction actions generalizing pool with
  | nil => exact h₀
  | cons a rest ih => exact ih hr.2 (hstep _ _ hr.1 h₀)

theorem step_cases (pool : Pool M ε) (a : Action M ε) :
    (∃ p, a = .spawn p ∧ pool.step a = { pool with threads := pool.threads ++ [p] }) ∨
    (∃ t env q next, a = .run t env ∧ pool.threads[t]? = some (.ask q next) ∧
      pool.step a = ⟨(M.answer env q pool.world).2, pool.threads.set t (next (M.answer env q pool.world).1),
        ⟨t, q, (M.answer env q pool.world).1⟩ :: pool.trace⟩) ∨
    ((∃ t env, a = .run t env) ∧ pool.step a = pool) := by
  rcases a with p | ⟨t, env⟩
  · exact .inl ⟨p, rfl, rfl⟩
  · rcases hp : pool.threads[t]? with _ | p
    · exact .inr (.inr ⟨⟨t, env, rfl⟩, by simp only [step, hp]⟩)
    · rcases p with v | e | ⟨q, next⟩
      · exact .inr (.inr ⟨⟨t, env, rfl⟩, by simp only [step, hp]⟩)
      · exact .inr (.inr ⟨⟨t, env, rfl⟩, by simp only [step, hp]⟩)
      · exact .inr (.inl ⟨t, env, q, next, rfl, hp, by simp only [step, hp]⟩)

/-- Every thread issues requests of `P` only. -/
def Issuing (P : S.Request → Prop) (pool : Pool M ε) : Prop :=
  ∀ p ∈ pool.threads, p.Issues P

theorem issuing_step {P : S.Request → Prop} (ha : ∀ p, a = .spawn p → p.Issues P)
    (h : Issuing P pool) : Issuing P (pool.step a) := by
  rcases step_cases pool a with ⟨p, rfl, hs⟩ | ⟨t, env, q, next, rfl, ht, hs⟩ | ⟨_, hs⟩
  · rw [hs]
    intro p' hp'
    rcases List.mem_append.1 hp' with hp' | hp'
    · exact h p' hp'
    · obtain rfl := List.mem_singleton.1 hp'
      exact ha p' rfl
  · rw [hs]
    intro p' hp'
    rcases List.mem_or_eq_of_mem_set hp' with hp' | rfl
    · exact h p' hp'
    · exact (h _ (List.mem_of_getElem? ht)).2 _
  · rw [hs]
    exact h

/-! ### Disciplined pools -/

variable (D : Discipline S γ) (g₀ : γ)

/-- The ghost value of thread `t` after the events of `trace`. -/
def ghost (t : Nat) : List (Event S) → γ
  | [] => g₀
  | e :: trace => if e.thread = t then D.next (ghost t trace) e.request e.answer else ghost t trace

/-- The action starts a program that keeps the discipline, or its answer is one the discipline counts on. -/
def Admits (pool : Pool M ε) : Action M ε → Prop
  | .spawn p => D.Keeps p g₀ fun _ _ => True
  | .run t env => ∀ q next, pool.threads[t]? = some (.ask q next) →
      D.expects (ghost D g₀ t pool.trace) q (M.answer env q pool.world).1

/-- Every thread keeps the discipline from its ghost value on, and every event had what it needed. -/
structure Kept (pool : Pool M ε) : Prop where
  below : ∀ e ∈ pool.trace, e.thread < pool.threads.length
  threads : ∀ t p, pool.threads[t]? = some p → D.Keeps p (ghost D g₀ t pool.trace) fun _ _ => True
  events : ∀ later e earlier, pool.trace = later ++ e :: earlier →
    D.needs (ghost D g₀ e.thread earlier) e.request

/-- Thread `t` keeps the discipline from its ghost value on. -/
def Follows (t : Nat) (pool : Pool M ε) : Prop :=
  ∀ p, pool.threads[t]? = some p → D.Keeps p (ghost D g₀ t pool.trace) fun _ _ => True

variable {D g₀}

theorem ghost_of_not_mem (h : ∀ e ∈ trace, e.thread ≠ t) : ghost D g₀ t trace = g₀ := by
  induction trace with
  | nil => rfl
  | cons e trace ih =>
    rw [ghost, if_neg (h e (List.mem_cons_self ..))]
    exact ih fun e' he' => h e' (List.mem_cons_of_mem _ he')

/-- What thread `t` did in the events of `trace`. -/
def own (t : Nat) (trace : List (Event S)) : List ((q : S.Request) × S.Answer q) :=
  (trace.filter (·.thread == t)).map fun e => ⟨e.request, e.answer⟩

theorem ghost_recording {needs : List ((q : S.Request) × S.Answer q) → S.Request → Prop}
    {expects : (q : S.Request) → S.Answer q → Prop} (t : Nat) (trace : List (Event S)) :
    ghost (Discipline.recording needs expects) [] t trace = own t trace := by
  induction trace with
  | nil => rfl
  | cons e trace ih =>
    rw [ghost, ih, own, own, List.filter_cons]
    by_cases h : e.thread = t <;> simp [h, Discipline.recording]

theorem split_of_own {later earlier : List ((q : S.Request) × S.Answer q)} (h : own t trace = later ++ x :: earlier) :
    ∃ later' earlier', trace = later' ++ ⟨t, x.1, x.2⟩ :: earlier' ∧ own t later' = later ∧ own t earlier' = earlier := by
  obtain ⟨l, r, hsplit, hl, hr⟩ := List.map_eq_append_iff.1 h
  obtain ⟨e, r', rfl, hx, hr'⟩ := List.map_eq_cons_iff.1 hr
  obtain ⟨l', m, rfl, hl', hm⟩ := List.filter_eq_append_iff.1 hsplit
  obtain ⟨m', r'', rfl, hskip, ht, hr''⟩ := List.filter_eq_cons_iff.1 hm
  obtain rfl : e.thread = t := by simpa using ht
  refine ⟨l' ++ m', r'', ?_, ?_, ?_⟩
  · rw [← hx, List.append_assoc]
  · have hnone : m'.filter (·.thread == e.thread) = [] := List.filter_eq_nil_iff.2 hskip
    rw [own, List.filter_append, hl', hnone, List.append_nil, hl]
  · rw [own, hr'', hr']

theorem mem_of_own (h : x ∈ own t trace) : ⟨t, x.1, x.2⟩ ∈ trace := by
  obtain ⟨later, earlier, hsplit⟩ := List.append_of_mem h
  obtain ⟨later', earlier', rfl, -, -⟩ := split_of_own hsplit
  exact List.mem_append_right _ (List.mem_cons_self ..)

theorem kept_init (w : M.World) : Kept D g₀ (init w : Pool M ε) where
  below := by simp [init]
  threads := by simp [init]
  events := by simp [init]

theorem below_step (h : ∀ e ∈ pool.trace, e.thread < pool.threads.length) :
    ∀ e ∈ (pool.step a).trace, e.thread < (pool.step a).threads.length := by
  rcases step_cases pool a with ⟨p, rfl, hs⟩ | ⟨t, env, q, next, rfl, ht, hs⟩ | ⟨_, hs⟩
  · rw [hs]
    intro e he
    have := h e he
    simp only [List.length_append, List.length_singleton]
    omega
  · rw [hs]
    intro e he
    rw [List.length_set]
    rcases List.mem_cons.1 he with rfl | he'
    · exact (List.getElem?_eq_some_iff.1 ht).1
    · exact h e he'
  · rw [hs]
    exact h

theorem follows_spawn (hb : ∀ e ∈ pool.trace, e.thread < pool.threads.length)
    (h : Follows D g₀ t pool) (hp : t = pool.threads.length → D.Keeps p g₀ fun _ _ => True) :
    Follows D g₀ t { pool with threads := pool.threads ++ [p] } := by
  intro p' ht
  by_cases hlt : t < pool.threads.length
  · exact h p' (by simpa only [List.getElem?_append_left hlt] using ht)
  · -- a new thread has no events yet
    have hg : ghost D g₀ t pool.trace = g₀ := ghost_of_not_mem fun e he => by
      have := hb e he
      omega
    rw [List.getElem?_append_right (by omega)] at ht
    obtain ⟨hnew, hpe⟩ := List.getElem?_eq_some_iff.1 ht
    have hpp : p' = p := by simpa using hpe.symm
    show D.Keeps p' (ghost D g₀ t pool.trace) _
    rw [hg, hpp]
    refine hp ?_
    simp only [List.length_singleton] at hnew
    omega

theorem follows_answer {t' : Nat} {q : S.Request} {next : S.Answer q → Prog S ε Unit} (h : Follows D g₀ t' pool)
    (ht : pool.threads[t]? = some (.ask q next)) (w : M.World) (a : S.Answer q)
    (ha : t = t' → D.expects (ghost D g₀ t' pool.trace) q a) :
    Follows D g₀ t' (⟨w, pool.threads.set t (next a), ⟨t, q, a⟩ :: pool.trace⟩ : Pool M ε) := by
  intro p' ht'
  by_cases htt : t = t'
  · subst htt
    rw [List.getElem?_set_self (List.getElem?_eq_some_iff.1 ht).1, Option.some.injEq] at ht'
    rw [← ht', ghost, if_pos rfl]
    exact (h _ ht).2 a (ha rfl)
  · rw [List.getElem?_set_ne htt] at ht'
    rw [ghost, if_neg htt]
    exact h p' ht'

theorem kept_spawn (h : Kept D g₀ pool) (hp : D.Keeps p g₀ fun _ _ => True) :
    Kept D g₀ { pool with threads := pool.threads ++ [p] } :=
  ⟨below_step (.spawn p) h.below, fun t => follows_spawn h.below (h.threads t) fun _ => hp, h.events⟩

theorem kept_answer {q : S.Request} {next : S.Answer q → Prog S ε Unit} (h : Kept D g₀ pool)
    (ht : pool.threads[t]? = some (.ask q next)) (w : M.World) (a : S.Answer q)
    (ha : D.expects (ghost D g₀ t pool.trace) q a) :
    Kept D g₀ (⟨w, pool.threads.set t (next a), ⟨t, q, a⟩ :: pool.trace⟩ : Pool M ε) := by
  refine ⟨fun e he => ?_, fun t' => follows_answer (h.threads t') ht w a fun htt => htt ▸ ha,
    fun later e earlier htr => ?_⟩
  · rw [List.length_set]
    rcases List.mem_cons.1 he with rfl | he'
    · exact (List.getElem?_eq_some_iff.1 ht).1
    · exact h.below e he'
  · rcases later with _ | ⟨e', later⟩
    · obtain ⟨rfl, rfl⟩ := List.cons.inj htr
      exact (h.threads t _ ht).1
    · exact h.events later e earlier (List.cons.inj htr).2

theorem kept_step (ha : Admits D g₀ pool a) (h : Kept D g₀ pool) : Kept D g₀ (pool.step a) := by
  rcases step_cases pool a with ⟨p, rfl, hs⟩ | ⟨t, env, q, next, rfl, ht, hs⟩ | ⟨_, hs⟩
  · rw [hs]; exact kept_spawn h ha
  · rw [hs]; exact kept_answer h ht _ _ (ha q next ht)
  · rw [hs]; exact h

/-- **Discipline.** A run that starts only programs that keep the discipline, with answers it counts on,
keeps it. -/
theorem kept_run (w : M.World) (hr : Along (Admits D g₀) (init w) actions) :
    Kept D g₀ ((init w : Pool M ε).run actions) :=
  run_invariant (fun _ a ha h => kept_step a ha h) hr (kept_init w)

end Pool

end Pools

end ADT.Interleave
