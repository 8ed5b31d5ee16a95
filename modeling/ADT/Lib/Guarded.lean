import Mathlib.Tactic

/-!
# Lib.Guarded — runs of a transition function whose moves meet a condition

`Reaches step Good s t` says that a run leads from `s` to `t` each of whose moves is possible and meets `Good` where it
is made; what such moves keep holds at the end of the run.
-/

namespace ADT.Guarded

variable {σ μ : Type} (step : σ → μ → Option σ) (Good : σ → μ → Prop)

inductive Reaches (s : σ) : σ → Prop
  | refl : Reaches s s
  | tail {t u : σ} {m : μ} (run : Reaches s t) (good : Good t m) (move : step t m = some u) : Reaches s u

/-- The run of a list of moves that pass a test. -/
def run (good : σ → μ → Bool) (s : σ) : List μ → Option σ
  | [] => some s
  | m :: ms => if good s m then (step s m).bind fun t => run good t ms else none

variable {step Good} {s t u : σ}

theorem Reaches.trans (h : Reaches step Good s t) (h' : Reaches step Good t u) : Reaches step Good s u := by
  induction h' with
  | refl => exact h
  | tail _ good move ih => exact ih.tail good move

theorem Reaches.invariant {I : σ → Prop} (h : Reaches step Good s t) (hinit : I s)
    (hstep : ∀ {v w m}, I v → Good v m → step v m = some w → I w) : I t := by
  induction h with
  | refl => exact hinit
  | tail _ good move ih => exact hstep ih good move

theorem Reaches.invariant_of_reached {I : σ → Prop} (h : Reaches step Good s t) (hinit : I s)
    (hstep : ∀ {v w m}, Reaches step Good s v → I v → Good v m → step v m = some w → I w) : I t := by
  induction h with
  | refl => exact hinit
  | tail run good move ih => exact hstep run ih good move

theorem Reaches.mono {Good' : σ → μ → Prop} (h : Reaches step Good s t) (himp : ∀ v m, Good v m → Good' v m) :
    Reaches step Good' s t := by
  induction h with
  | refl => exact .refl
  | tail _ good move ih => exact ih.tail (himp _ _ good) move

theorem Reaches.of_run {good : σ → μ → Bool} {ms : List μ} (h : run step good s ms = some t) :
    Reaches step (fun v m => good v m = true) s t := by
  induction ms generalizing s with
  | nil =>
    cases h
    exact .refl
  | cons m ms ih =>
    by_cases hgood : good s m = true
    · rw [run, if_pos hgood] at h
      obtain ⟨v, hv, hrun⟩ := Option.bind_eq_some_iff.mp h
      have hfirst : Reaches step (fun v m => good v m = true) s v := Reaches.refl.tail hgood hv
      exact hfirst.trans (ih hrun)
    · rw [run, if_neg hgood] at h
      cases h

theorem run_append (good : σ → μ → Bool) (s : σ) (ms ns : List μ) :
    run step good s (ms ++ ns) = (run step good s ms).bind fun t => run step good t ns := by
  induction ms generalizing s with
  | nil => rfl
  | cons m ms ih =>
    rw [List.cons_append, run, run]
    split_ifs
    · rw [Option.bind_assoc]
      exact congrArg _ (funext fun t => ih t)
    · rfl

theorem reaches_of_any (good : σ → μ → Bool) (ms : List μ) (p : σ → Bool) (h : (run step good s ms).any p = true) :
    ∃ t, Reaches step (fun v m => good v m = true) s t ∧ p t = true := by
  cases hrun : run step good s ms with
  | none =>
    rw [hrun] at h
    cases h
  | some t =>
    rw [hrun] at h
    exact ⟨t, .of_run hrun, h⟩

end ADT.Guarded
