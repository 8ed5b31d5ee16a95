import ADT.Lib.Faults

/-!
# Lib.Partial — calls that stop half-way, loops of calls, and clean-up

A call that fails, or whose process is killed, may have taken a part of its effect.  `each` makes the calls of a list
one after the other and stops at the first error; `always` is `finally`.
-/

namespace ADT.Faults

variable {Site World ε α β : Type}

/-- The call did not get through, and the program goes on. -/
def Fate.fails (f : Fate) : Prop := f = .failed ∨ f = .lost

instance (f : Fate) : Decidable f.fails := inferInstanceAs (Decidable (_ ∨ _))

namespace Run

/-- The call `effect` at a site; `part` is what it leaves behind where it does not get through. -/
def operate (site : Site) (broken : ε) (effect : World → Except ε α × World) (part : World → World) :
    Run Site World ε α := fun φ w =>
  match φ site with
  | .done => (.ofExcept (effect w).1, (effect w).2)
  | .failed | .lost => (.thrown broken, part w)
  | .killed => (.killed, part w)

/-- The memory of the process is read. -/
def look : Run Site World ε World := fun _ w => (.returned w, w)

/-- The memory of the process is written. -/
def amend (f : World → World) : Run Site World ε Unit := fun _ w => (.returned (), f w)

def each (f : α → Run Site World ε Unit) : List α → Run Site World ε Unit
  | [] => pure ()
  | a :: rest => f a >>= fun _ => each f rest

/-- How the program ended, as a value. -/
def settle (p : Run Site World ε α) : Run Site World ε (Except ε α) :=
  tryCatch (p >>= fun a => pure (.ok a)) fun e => pure (.error e)

/-- `try { p } finally { c }` -/
def always (p : Run Site World ε α) (c : Run Site World ε Unit) : Run Site World ε α :=
  settle p >>= fun r => c >>= fun _ => match r with
    | .ok a => pure a
    | .error e => throw e

section Wp

variable {φ : Site → Fate} {ret : α → World → Prop} {thr : ε → World → Prop} {gone : World → Prop} {w : World}

@[simp] theorem wp_look {ret : World → World → Prop} :
    Wp (look : Run Site World ε World) φ ret thr gone w ↔ ret w w := Iff.rfl

@[simp] theorem wp_amend {f : World → World} {ret : Unit → World → Prop} :
    Wp (amend f : Run Site World ε Unit) φ ret thr gone w ↔ ret () (f w) := Iff.rfl

variable {site : Site} {broken : ε} {effect : World → Except ε α × World} {part : World → World}

theorem wp_operate (hdone : φ site = .done → ∀ r w', effect w = (r, w') → match r with
      | .ok a => ret a w'
      | .error e => thr e w')
    (hfails : (φ site).fails → thr broken (part w)) (hkilled : φ site = .killed → gone (part w)) :
    Wp (operate site broken effect part) φ ret thr gone w := by
  unfold Wp operate
  cases hsite : φ site with
  | done =>
    have h := hdone hsite _ _ (Prod.mk.eta).symm
    rcases hr : (effect w).1 with e | a <;> rw [hr] at h <;> exact h
  | failed => exact hfails (by rw [hsite]; exact .inl rfl)
  | lost => exact hfails (by rw [hsite]; exact .inr rfl)
  | killed => exact hkilled hsite

theorem wp_operate_ok {a : α} {w' : World} (heffect : effect w = (.ok a, w')) (hdone : φ site = .done → ret a w')
    (hfails : (φ site).fails → thr broken (part w)) (hkilled : φ site = .killed → gone (part w)) :
    Wp (operate site broken effect part) φ ret thr gone w := by
  refine wp_operate (fun hsite r v hr => ?_) hfails hkilled
  rw [heffect] at hr
  cases hr
  exact hdone hsite

theorem wp_each {f : α → Run Site World ε Unit} {I : List α → World → Prop} {ret : Unit → World → Prop}
    {l : List α} (hstart : I l w) (hend : ∀ w', I [] w' → ret () w')
    (hstep : ∀ a rest w', (∃ made, l = made ++ a :: rest) → I (a :: rest) w' →
      Wp (f a) φ (fun _ w'' => I rest w'') thr gone w') :
    Wp (each f l) φ ret thr gone w := by
  induction l generalizing w with
  | nil => exact hend w hstart
  | cons a rest ih =>
    refine wp_bind.mpr ((hstep a rest w ⟨[], rfl⟩ hstart).mono (fun _ w' hI => ?_) (fun _ _ h => h) fun _ h => h)
    refine ih hI fun b rest' w'' hmade => hstep b rest' w'' ?_
    obtain ⟨made, hmade⟩ := hmade
    exact ⟨a :: made, congrArg (a :: ·) hmade⟩

theorem wp_settle {p : Run Site World ε α} {ret : Except ε α → World → Prop} :
    Wp (settle p) φ ret thr gone w ↔
      Wp p φ (fun a w' => ret (.ok a) w') (fun e w' => ret (.error e) w') gone w := by
  rw [settle, wp_tryCatch, wp_bind]
  rfl

theorem wp_always {p : Run Site World ε α} {c : Run Site World ε Unit} :
    Wp (always p c) φ ret thr gone w ↔
      Wp p φ (fun a w' => Wp c φ (fun _ w'' => ret a w'') thr gone w')
        (fun e w' => Wp c φ (fun _ w'' => thr e w'') thr gone w') gone w := by
  rw [always, wp_bind, wp_settle]
  simp only [wp_bind, wp_pure, wp_throw]

theorem wp_ite {c : Prop} [Decidable c] {p q : Run Site World ε α} (hp : c → Wp p φ ret thr gone w)
    (hq : ¬c → Wp q φ ret thr gone w) : Wp (if c then p else q) φ ret thr gone w := by
  by_cases h : c
  · rw [if_pos h]
    exact hp h
  · rw [if_neg h]
    exact hq h

end Wp

end Run

end ADT.Faults
