import ADT.Lib.Clients

/-!
# Lib.Ran — complete runs of a program

`Ran p events r`: the program, given the answers of `events`, issues their requests and then ends with `r`.  A thread
that records its requests has, after a program was sequenced, a complete run of it in its record; and a thread of a
pool that is done has run the program it was started with (`ran_of_done`).
-/

namespace ADT.Interleave

namespace Prog

variable {S : Signature} {ε α β : Type}

inductive Ran : Prog S ε α → List ((q : S.Request) × S.Answer q) → Except ε α → Prop
  | done (a : α) : Ran (.done a) [] (.ok a)
  | fail (e : ε) : Ran (.fail e) [] (.error e)
  | ask {q : S.Request} {next : S.Answer q → Prog S ε α} {a : S.Answer q} {events : List ((q : S.Request) × S.Answer q)}
      {r : Except ε α} (h : Ran (next a) events r) : Ran (.ask q next) (⟨q, a⟩ :: events) r

/-- The program has come to its end. -/
def Ended : Prog S ε α → Prop
  | .ask _ _ => False
  | _ => True

variable {p : Prog S ε α} {events : List ((q : S.Request) × S.Answer q)} {r : Except ε α}

theorem ended_iff : p.Ended ↔ ∃ r, p.Ran [] r := by
  cases p with
  | done a => exact iff_of_true trivial ⟨.ok a, .done a⟩
  | fail e => exact iff_of_true trivial ⟨.error e, .fail e⟩
  | ask q next => exact iff_of_false (fun h => h) fun ⟨r, h⟩ => by cases h

/-- With an answer to every request, every program has a complete run. -/
theorem exists_ran (answer : ∀ q, S.Answer q) (p : Prog S ε α) : ∃ events r, p.Ran events r := by
  induction p with
  | done a => exact ⟨[], .ok a, .done a⟩
  | fail e => exact ⟨[], .error e, .fail e⟩
  | ask q next ih =>
    obtain ⟨events, r, h⟩ := ih (answer q)
    exact ⟨⟨q, answer q⟩ :: events, r, .ask h⟩

theorem ran_ask {q : S.Request} {next : S.Answer q → Prog S ε α} : (Prog.ask q next).Ran events r ↔
    ∃ a rest, events = ⟨q, a⟩ :: rest ∧ (next a).Ran rest r := by
  constructor
  · intro h
    cases h with
    | ask h => exact ⟨_, _, rfl, h⟩
  · rintro ⟨a, rest, rfl, h⟩
    exact .ask h

theorem Ran.issues {P : S.Request → Prop} (h : p.Ran events r) (hp : p.Issues P) : ∀ x ∈ events, P x.1 := by
  induction h with
  | done a => intro x hx; cases hx
  | fail e => intro x hx; cases hx
  | ask h ih =>
    intro x hx
    rcases List.mem_cons.1 hx with rfl | hx
    · exact hp.1
    · exact ih (hp.2 _) x hx

theorem ran_bind {f : α → Prog S ε β} {r : Except ε β} : (p >>= f).Ran events r ↔
    (∃ e, p.Ran events (.error e) ∧ r = .error e) ∨
      ∃ a before after, events = before ++ after ∧ p.Ran before (.ok a) ∧ (f a).Ran after r := by
  induction p generalizing events with
  | done a =>
    refine ⟨fun h => .inr ⟨a, [], events, rfl, .done a, h⟩, ?_⟩
    rintro (⟨e, h, -⟩ | ⟨b, before, after, rfl, h, hf⟩)
    · cases h
    · cases h
      exact hf
  | fail e =>
    constructor
    · intro h
      cases h
      exact .inl ⟨e, .fail e, rfl⟩
    · rintro (⟨e', h, rfl⟩ | ⟨b, before, after, -, h, -⟩)
      · cases h
        exact .fail e
      · cases h
  | ask q next ih =>
    constructor
    · intro h
      obtain ⟨a, rest, rfl, hrest⟩ := ran_ask.1 h
      rcases (ih a).1 hrest with ⟨e, he, rfl⟩ | ⟨b, before, after, rfl, hb, hf⟩
      · exact .inl ⟨e, .ask he, rfl⟩
      · exact .inr ⟨b, ⟨q, a⟩ :: before, after, rfl, .ask hb, hf⟩
    · rintro (⟨e, h, rfl⟩ | ⟨b, before, after, rfl, h, hf⟩)
      · obtain ⟨a, rest, rfl, hrest⟩ := ran_ask.1 h
        exact .ask ((ih a).2 (.inl ⟨e, hrest, rfl⟩))
      · obtain ⟨a, rest, rfl, hrest⟩ := ran_ask.1 h
        exact .ask ((ih a).2 (.inr ⟨b, rest, after, rfl, hrest, hf⟩))

end Prog

namespace Discipline

variable {S : Signature} {ε α β : Type} {needs : List ((q : S.Request) × S.Answer q) → S.Request → Prop}
  {expects : (q : S.Request) → S.Answer q → Prop} {own : List ((q : S.Request) × S.Answer q)} {P : S.Request → Prop}

theorem records_ran {p : Prog S ε α} {I : List ((q : S.Request) × S.Answer q) → Prop} (hp : p.Issues P)
    (hP : ∀ q own, P q → I own → needs own q ∧ ∀ a, I (⟨q, a⟩ :: own)) (hI : I own) :
    (recording needs expects).Keeps p own fun r own' =>
      ∃ events, own' = events.reverse ++ own ∧ p.Ran events r ∧ I own' := by
  induction p generalizing own with
  | done a => exact ⟨[], rfl, .done a, hI⟩
  | fail e => exact ⟨[], rfl, .fail e, hI⟩
  | ask q next ih =>
    obtain ⟨hneeds, hkept⟩ := hP q own hp.1 hI
    refine ⟨hneeds, fun a _ => (ih a (hp.2 a) (hkept a)).mono ?_⟩
    rintro r own' ⟨events, rfl, hran, hI'⟩
    exact ⟨⟨q, a⟩ :: events, by simp, .ask hran, hI'⟩

end Discipline

namespace Pool

variable {S : Signature} {M : Machine S} {ε : Type} {pool : Pool M ε} {programs : List (Prog S ε Unit)}

/-- The programs that the actions start; thread `t` runs the one at `t`. -/
def started : List (Action M ε) → List (Prog S ε Unit)
  | [] => []
  | .spawn p :: actions => p :: started actions
  | .run _ _ :: actions => started actions

/-- Every thread has so far followed the program it was started with: what remains of it completes a run. -/
structure Followed (programs : List (Prog S ε Unit)) (pool : Pool M ε) : Prop where
  below : ∀ e ∈ pool.trace, e.thread < pool.threads.length
  length : pool.threads.length = programs.length
  completes : ∀ (t : ℕ) (p p' : Prog S ε Unit) events r, programs[t]? = some p → pool.threads[t]? = some p' →
    p'.Ran events r → p.Ran ((own t pool.trace).reverse ++ events) r

theorem own_of_above {t : ℕ} {trace : List (Event S)} (h : ∀ e ∈ trace, e.thread < t) : own t trace = [] := by
  rw [own, List.map_eq_nil_iff, List.filter_eq_nil_iff]
  intro e he
  simpa using (h e he).ne

theorem Followed.spawn (h : Followed programs pool) (p : Prog S ε Unit) :
    Followed (programs ++ [p]) (pool.step (.spawn p)) := by
  refine ⟨below_step _ h.below, by simp [step, h.length], fun t p₀ p' events r hp hp' hran => ?_⟩
  by_cases ht : t < programs.length
  · rw [List.getElem?_append_left ht] at hp
    refine h.completes t p₀ p' events r hp ?_ hran
    rw [← hp']
    exact (List.getElem?_append_left (h.length ▸ ht)).symm
  · -- the new thread has no events yet
    have hnew : t = programs.length := by
      have hlt := (List.getElem?_eq_some_iff.1 hp).1
      simp only [List.length_append, List.length_singleton] at hlt
      omega
    subst hnew
    have hp' : (pool.threads ++ [p])[programs.length]? = some p' := hp'
    rw [← h.length, List.getElem?_append_right (le_refl _)] at hp'
    obtain rfl : p = p₀ := by simpa using hp
    obtain rfl : p = p' := by simpa using hp'
    show p.Ran ((own programs.length pool.trace).reverse ++ events) r
    rw [own_of_above (h.length ▸ h.below)]
    exact hran

theorem Followed.run (h : Followed programs pool) (t : ℕ) (env : M.Env) :
    Followed programs (pool.step (.run t env)) := by
  rcases step_cases pool (.run t env) with ⟨p, hp, -⟩ | ⟨t', env', q, next, heq, ht, hs⟩ | ⟨-, hs⟩
  · cases hp
  · have hbelow := below_step (.run t env) h.below
    rw [hs] at hbelow ⊢
    refine ⟨hbelow, by rw [List.length_set, h.length], fun u p p' events r hp hp' hran => ?_⟩
    by_cases hu : t' = u
    · subst hu
      rw [List.getElem?_set_self (List.getElem?_eq_some_iff.1 ht).1, Option.some.injEq] at hp'
      subst hp'
      have hdone := h.completes t' p _ _ r hp ht (.ask hran)
      simpa [own] using hdone
    · rw [List.getElem?_set_ne hu] at hp'
      have hsame := h.completes u p p' events r hp hp' hran
      simpa [own, hu] using hsame
  · rw [hs]
    exact h

theorem followed_run {programs : List (Prog S ε Unit)} (h : Followed programs pool) (actions : List (Action M ε)) :
    Followed (programs ++ started actions) (pool.run actions) := by
  induction actions generalizing pool programs with
  | nil => simpa [started, Pool.run] using h
  | cons a actions ih =>
    rcases a with p | ⟨t, env⟩
    · have hrest := ih (h.spawn p)
      rwa [List.append_assoc] at hrest
    · exact ih (h.run t env)

theorem followed (w : M.World) (actions : List (Action M ε)) :
    Followed (started actions) ((init w : Pool M ε).run actions) := by
  have hinit : Followed [] (init w : Pool M ε) := ⟨by simp [init], rfl, fun t p p' events r hp => by simp at hp⟩
  exact followed_run hinit actions

/-- **Complete runs.** A thread that is done has run the program it was started with. -/
theorem ran_of_done (w : M.World) (actions : List (Action M ε)) {t : ℕ} {p : Prog S ε Unit}
    (hp : (started actions)[t]? = some p) (hdone : ((init w : Pool M ε).run actions).threads[t]? = some (.done ())) :
    p.Ran (own t ((init w : Pool M ε).run actions).trace).reverse (.ok ()) := by
  have hran := (followed w actions).completes t p _ [] (.ok ()) hp hdone (.done ())
  rwa [List.append_nil] at hran

end Pool

variable {S : Signature} {M : Machine S} {ε C : Type} {service : C → Prog S ε Unit}

theorem started_moves (moves : List (Move M service)) :
    Pool.started (moves.map Move.action) = (clients moves).map service := by
  induction moves with
  | nil => rfl
  | cons m moves ih =>
    rcases m with c | ⟨t, env⟩
    · exact congrArg (service c :: ·) ih
    · exact ih

end ADT.Interleave
