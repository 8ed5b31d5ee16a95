import ADT.Lib.Interleave

/-!
# Lib.Alone — a program that nobody interrupts

A program runs alone against the world: the environment may change from request to request, and the program may
stop for good after any of them.
-/

namespace ADT.Interleave

variable {S : Signature} {ε α β : Type} (M : Machine S)

/-- How a program ended: with what, after how many requests, and in which world. -/
structure Finish (ε α : Type) where
  result : Except ε α
  requests : ℕ
  world : M.World

namespace Prog

variable {M} (envs : ℕ → M.Env)

/-- Run the program to its end; `k` requests were answered before. -/
def alone : Prog S ε α → ℕ → M.World → Finish M ε α
  | done a, k, w => ⟨.ok a, k, w⟩
  | fail e, k, w => ⟨.error e, k, w⟩
  | ask q next, k, w => (next (M.answer (envs k) q w).1).alone (k + 1) (M.answer (envs k) q w).2

/-- Run the program until it stops for good after at most `n` requests. -/
def crashed : Prog S ε α → ℕ → ℕ → M.World → M.World
  | ask q next, n + 1, k, w => (next (M.answer (envs k) q w).1).crashed n (k + 1) (M.answer (envs k) q w).2
  | _, _, _, w => w

variable {envs} {k : ℕ} {w : M.World}

@[simp] theorem alone_pure (a : α) : (pure a : Prog S ε α).alone envs k w = ⟨.ok a, k, w⟩ := rfl

@[simp] theorem alone_throw (e : ε) : (throw e : Prog S ε α).alone envs k w = ⟨.error e, k, w⟩ := rfl

theorem alone_bind (p : Prog S ε α) (f : α → Prog S ε β) :
    (p >>= f).alone envs k w =
      match p.alone envs k w with
      | ⟨.ok a, k', w'⟩ => (f a).alone envs k' w'
      | ⟨.error e, k', w'⟩ => ⟨.error e, k', w'⟩ := by
  induction p generalizing k w with
  | done a => rfl
  | fail e => rfl
  | ask q next ih => exact ih _

variable {p : Prog S ε α} {f : α → Prog S ε β}

theorem alone_bind_ok {a : α} {k' : ℕ} {w' : M.World}
    (h : p.alone envs k w = ⟨.ok a, k', w'⟩) : (p >>= f).alone envs k w = (f a).alone envs k' w' := by
  rw [alone_bind, h]

theorem alone_bind_error {e : ε} {k' : ℕ} {w' : M.World}
    (h : p.alone envs k w = ⟨.error e, k', w'⟩) : (p >>= f).alone envs k w = ⟨.error e, k', w'⟩ := by
  rw [alone_bind, h]

theorem alone_tryCatch (p : Prog S ε α) (f : ε → Prog S ε α) :
    (tryCatch p f).alone envs k w =
      match p.alone envs k w with
      | ⟨.ok a, k', w'⟩ => ⟨.ok a, k', w'⟩
      | ⟨.error e, k', w'⟩ => (f e).alone envs k' w' := by
  induction p generalizing k w with
  | done a => rfl
  | fail e => rfl
  | ask q next ih => exact ih _

@[simp] theorem crashed_zero (p : Prog S ε α) : p.crashed envs 0 k w = w := by
  cases p <;> rfl

theorem requests_le (p : Prog S ε α) : k ≤ (p.alone envs k w).requests := by
  induction p generalizing k w with
  | done a => exact Nat.le_refl k
  | fail e => exact Nat.le_refl k
  | ask q next ih => exact Nat.le_of_succ_le (ih _)

theorem crashed_of_requests_le {n : ℕ} (h : (p.alone envs k w).requests ≤ k + n) :
    p.crashed envs n k w = (p.alone envs k w).world := by
  induction p generalizing k w n with
  | done a => cases n <;> rfl
  | fail e => cases n <;> rfl
  | ask q next ih =>
    obtain _ | n := n
    · exact absurd (Nat.lt_of_lt_of_le (Nat.lt_succ_self k) ((next _).requests_le)) (by simpa [alone] using h)
    · refine ih _ (n := n) ?_
      rw [Nat.add_right_comm]
      exact h

/-- The program, run alone, issues only requests that leave the world as it is. -/
def Still (envs : ℕ → M.Env) : Prog S ε α → ℕ → M.World → Prop
  | ask q next, k, w =>
    (M.answer (envs k) q w).2 = w ∧ (next (M.answer (envs k) q w).1).Still envs (k + 1) w
  | _, _, _ => True

theorem Still.crashed (h : p.Still envs k w) (n : ℕ) : p.crashed envs n k w = w := by
  induction p generalizing k n with
  | done a => cases n <;> rfl
  | fail e => cases n <;> rfl
  | ask q next ih =>
    obtain _ | n := n
    · rfl
    · show Prog.crashed envs (next _) n (k + 1) _ = w
      rw [h.1]
      exact ih _ h.2 n

theorem Still.alone (h : p.Still envs k w) : (p.alone envs k w).world = w := by
  induction p generalizing k with
  | done a => rfl
  | fail e => rfl
  | ask q next ih =>
    show (Prog.alone envs (next _) (k + 1) _).world = w
    rw [h.1]
    exact ih _ h.2

end Prog

end ADT.Interleave
