import Mathlib.Tactic

/-!
# Lib.Faults — programs whose calls may fail

A program calls the outside at named sites.  The fates say how the call at each site comes out: it is done, it fails
without effect, it takes effect and its answer is lost, or the process is gone before it is made.  `Wp` is the weakest
precondition of what holds where the program returns, where it throws and where it is gone; `Keeps` says that an
invariant holds after every call, whatever the fates are.
-/

namespace ADT.Faults

inductive Fate where
  | done
  | failed
  | lost
  | killed
  deriving DecidableEq

def Fate.lands (f : Fate) : Prop := f = .done ∨ f = .lost

instance (f : Fate) : Decidable f.lands := inferInstanceAs (Decidable (_ ∨ _))

inductive Exit (ε α : Type) where
  | returned (a : α)
  | thrown (e : ε)
  | killed
  deriving DecidableEq

def Exit.ofExcept {ε α : Type} : Except ε α → Exit ε α
  | .ok a => .returned a
  | .error e => .thrown e

/-- A program over the sites of `Site` and the worlds of `World`. -/
def Run (Site World ε α : Type) : Type := (Site → Fate) → World → Exit ε α × World

variable {Site World ε α β : Type}

namespace Run

protected def bind (p : Run Site World ε α) (f : α → Run Site World ε β) : Run Site World ε β := fun φ w =>
  match p φ w with
  | (.returned a, w') => f a φ w'
  | (.thrown e, w') => (.thrown e, w')
  | (.killed, w') => (.killed, w')

protected def tryCatch (p : Run Site World ε α) (handler : ε → Run Site World ε α) : Run Site World ε α := fun φ w =>
  match p φ w with
  | (.returned a, w') => (.returned a, w')
  | (.thrown e, w') => handler e φ w'
  | (.killed, w') => (.killed, w')

instance : Monad (Run Site World ε) where
  pure a := fun _ w => (.returned a, w)
  bind := Run.bind

instance : MonadExceptOf ε (Run Site World ε) where
  throw e := fun _ w => (.thrown e, w)
  tryCatch := Run.tryCatch

/-- The call `c` at a site; `unavailable` is what the caller sees of a call that fails or is lost. -/
def call (site : Site) (unavailable : ε) (c : World → Except ε α × World) : Run Site World ε α := fun φ w =>
  match φ site with
  | .done => (.ofExcept (c w).1, (c w).2)
  | .failed => (.thrown unavailable, w)
  | .lost => (.thrown unavailable, (c w).2)
  | .killed => (.killed, w)

/-- `.catch(() => undefined)`. -/
def ignore (p : Run Site World ε α) : Run Site World ε Unit :=
  tryCatch (p >>= fun _ => pure ()) fun _ => pure ()

/-- Whether the program got through: `let ok = false; try { …; ok = true } catch {}`. -/
def attempt (p : Run Site World ε α) : Run Site World ε Bool :=
  tryCatch (p >>= fun _ => pure true) fun _ => pure false

def forget (p : Run Site World ε α) : Run Site World ε Unit := p >>= fun _ => pure ()

/-! ### Weakest preconditions -/

def Wp (p : Run Site World ε α) (φ : Site → Fate) (ret : α → World → Prop) (thr : ε → World → Prop)
    (gone : World → Prop) (w : World) : Prop :=
  match p φ w with
  | (.returned a, w') => ret a w'
  | (.thrown e, w') => thr e w'
  | (.killed, w') => gone w'

section Wp

variable {φ : Site → Fate} {ret : α → World → Prop} {thr : ε → World → Prop} {gone : World → Prop} {w : World}

@[simp] theorem wp_pure (a : α) : Wp (pure a : Run Site World ε α) φ ret thr gone w ↔ ret a w := Iff.rfl

@[simp] theorem wp_throw (e : ε) : Wp (throw e : Run Site World ε α) φ ret thr gone w ↔ thr e w := Iff.rfl

variable {p : Run Site World ε α} {a : α} {w' : World}

theorem wp_bind {f : α → Run Site World ε β} {ret : β → World → Prop} :
    Wp (p >>= f) φ ret thr gone w ↔ Wp p φ (fun a w' => Wp (f a) φ ret thr gone w') thr gone w := by
  have hbind : (p >>= f) φ w = Run.bind p f φ w := rfl
  unfold Wp
  rw [hbind, Run.bind]
  rcases p φ w with ⟨a | e | _, w'⟩ <;> rfl

theorem wp_tryCatch {handler : ε → Run Site World ε α} :
    Wp (tryCatch p handler) φ ret thr gone w ↔ Wp p φ ret (fun e w' => Wp (handler e) φ ret thr gone w') gone w := by
  have htry : (tryCatch p handler) φ w = Run.tryCatch p handler φ w := rfl
  unfold Wp
  rw [htry, Run.tryCatch]
  rcases p φ w with ⟨a | e | _, w'⟩ <;> rfl

theorem wp_ignore {ret : Unit → World → Prop} :
    Wp (ignore p) φ ret thr gone w ↔ Wp p φ (fun _ w' => ret () w') (fun _ w' => ret () w') gone w := by
  rw [ignore, wp_tryCatch, wp_bind]
  rfl

theorem wp_attempt {ret : Bool → World → Prop} :
    Wp (attempt p) φ ret thr gone w ↔ Wp p φ (fun _ w' => ret true w') (fun _ w' => ret false w') gone w := by
  rw [attempt, wp_tryCatch, wp_bind]
  rfl

theorem wp_forget {ret : Unit → World → Prop} :
    Wp (forget p) φ ret thr gone w ↔ Wp p φ (fun _ w' => ret () w') thr gone w := by
  rw [forget, wp_bind]
  rfl

theorem wp_trivial (p : Run Site World ε α) : Wp p φ (fun _ _ => True) (fun _ _ => True) (fun _ => True) w := by
  unfold Wp
  rcases p φ w with ⟨a | e | _, w'⟩ <;> trivial

theorem Wp.of_returned (h : Wp p φ ret thr gone w) (hp : (p φ w).1 = .returned a) : ret a (p φ w).2 := by
  unfold Wp at h
  rcases hrun : p φ w with ⟨b | e | _, w'⟩ <;> rw [hrun] at h hp <;> cases hp
  exact h

theorem Wp.mono {ret' : α → World → Prop} {thr' : ε → World → Prop} {gone' : World → Prop}
    (h : Wp p φ ret thr gone w) (hret : ∀ a w', ret a w' → ret' a w') (hthr : ∀ e w', thr e w' → thr' e w')
    (hgone : ∀ w', gone w' → gone' w') : Wp p φ ret' thr' gone' w := by
  unfold Wp at h ⊢
  rcases hrun : p φ w with ⟨a | e | _, w'⟩ <;> rw [hrun] at h
  · exact hret a w' h
  · exact hthr e w' h
  · exact hgone w' h

variable {site : Site} {unavailable : ε} {c : World → Except ε α × World}

theorem wp_call_ok (hc : c w = (.ok a, w')) : Wp (call site unavailable c) φ ret thr gone w ↔
      (φ site = .done → ret a w') ∧ (φ site = .failed → thr unavailable w) ∧ (φ site = .lost → thr unavailable w') ∧
        (φ site = .killed → gone w) := by
  unfold Wp call
  rw [hc]
  cases φ site <;> simp [Exit.ofExcept]

theorem wp_call_error {e : ε} (hc : c w = (.error e, w')) : Wp (call site unavailable c) φ ret thr gone w ↔
      (φ site = .done → thr e w') ∧ (φ site = .failed → thr unavailable w) ∧ (φ site = .lost → thr unavailable w') ∧
        (φ site = .killed → gone w) := by
  unfold Wp call
  rw [hc]
  cases φ site <;> simp [Exit.ofExcept]

theorem wp_attempt_call_ok {ret : Bool → World → Prop} (hc : c w = (.ok a, w')) :
    Wp (attempt (call site unavailable c)) φ ret thr gone w ↔
      (φ site = .done → ret true w') ∧ (φ site = .failed → ret false w) ∧ (φ site = .lost → ret false w') ∧
        (φ site = .killed → gone w) := by
  rw [wp_attempt]
  exact wp_call_ok hc

theorem wp_ignore_call_ok {ret : Unit → World → Prop} (hc : c w = (.ok a, w')) :
    Wp (ignore (call site unavailable c)) φ ret thr gone w ↔
      ((φ site).lands → ret () w') ∧ (φ site = .failed → ret () w) ∧ (φ site = .killed → gone w) := by
  rw [wp_ignore, wp_call_ok hc]
  exact ⟨fun h => ⟨fun hl => hl.elim h.1 h.2.2.1, h.2.1, h.2.2.2⟩,
    fun h => ⟨fun hd => h.1 (.inl hd), h.2.1, fun hl => h.1 (.inr hl), h.2.2⟩⟩

theorem Wp.returned {p : Run Site World ε α} (h : Wp p φ (fun _ _ => True) (fun _ _ => False) (fun _ => False) w) :
    ∃ a, (p φ w).1 = .returned a := by
  unfold Wp at h
  rcases hrun : p φ w with ⟨a | e | _, w'⟩ <;> rw [hrun] at h
  · exact ⟨a, rfl⟩
  · exact h.elim
  · exact h.elim

end Wp

/-! ### Invariants of all calls -/

/-- Whatever the fates, the invariant holds wherever the program stops, and what it returns is in `R`. -/
def Keeps (I : World → Prop) (p : Run Site World ε α) (R : α → Prop) : Prop :=
  ∀ φ w, I w → Wp p φ (fun a w' => I w' ∧ R a) (fun _ w' => I w') I w

section Keeps

variable {I : World → Prop} {R : α → Prop} {R' : β → Prop}

theorem keeps_pure {a : α} (h : R a) : Keeps I (pure a : Run Site World ε α) R :=
  fun _ _ hw => ⟨hw, h⟩

theorem keeps_throw {e : ε} : Keeps I (throw e : Run Site World ε α) R :=
  fun _ _ hw => hw

variable {p : Run Site World ε α} {φ : Site → Fate} {site : Site} {unavailable : ε} {c : World → Except ε α × World}
  {w : World} {ret : α → World → Prop}

theorem keeps_bind {f : α → Run Site World ε β} (hp : Keeps I p R)
    (hf : ∀ a, R a → Keeps I (f a) R') : Keeps I (p >>= f) R' := by
  intro φ w hw
  rw [wp_bind]
  exact (hp φ w hw).mono (fun a w' h => hf a h.2 φ w' h.1) (fun _ _ h => h) fun _ h => h

theorem keeps_tryCatch {handler : ε → Run Site World ε α} (hp : Keeps I p R)
    (hh : ∀ e, Keeps I (handler e) R) : Keeps I (tryCatch p handler) R := by
  intro φ w hw
  rw [wp_tryCatch]
  exact (hp φ w hw).mono (fun _ _ h => h) (fun e w' h => hh e φ w' h) fun _ h => h

theorem Keeps.ignore (hp : Keeps I p R) : Keeps I (Run.ignore p) fun _ => True :=
  keeps_tryCatch (keeps_bind hp fun _ _ => keeps_pure trivial) fun _ => keeps_pure trivial

theorem Keeps.attempt (hp : Keeps I p R) : Keeps I (Run.attempt p) fun _ => True :=
  keeps_tryCatch (keeps_bind hp fun _ _ => keeps_pure trivial) fun _ => keeps_pure trivial

theorem wp_call_keeps {R : α → World → Prop} (hw : I w) (hI : I (c w).2) (hR : ∀ a, (c w).1 = .ok a → R a (c w).2) :
    Wp (call site unavailable c) φ (fun a w' => I w' ∧ R a w') (fun _ w' => I w') I w := by
  rcases hc : c w with ⟨e | a, w'⟩
  · rw [hc] at hI
    exact (wp_call_error hc).mpr ⟨fun _ => hI, fun _ => hw, fun _ => hI, fun _ => hw⟩
  · rw [hc] at hI hR
    exact (wp_call_ok hc).mpr ⟨fun _ => ⟨hI, hR _ rfl⟩, fun _ => hw, fun _ => hI, fun _ => hw⟩

theorem keeps_call (h : ∀ w, I w → I (c w).2 ∧ ∀ a, (c w).1 = .ok a → R a) : Keeps I (call site unavailable c) R :=
  fun _ w hw => wp_call_keeps hw (h w hw).1 (h w hw).2

theorem wp_call_returns (h : ∀ a, (c w).1 = .ok a → ret a (c w).2) :
    Wp (call site unavailable c) φ ret (fun _ _ => True) (fun _ => True) w :=
  (wp_call_keeps (I := fun _ => True) trivial trivial h).mono (fun _ _ hr => hr.2) (fun _ _ _ => trivial) fun _ _ =>
    trivial

theorem Keeps.returns (hp : Keeps I p R) (hw : I w) (h : ∀ a w', I w' → R a → ret a w') :
    Wp p φ ret (fun _ _ => True) (fun _ => True) w :=
  (hp φ w hw).mono (fun a w' hr => h a w' hr.1 hr.2) (fun _ _ _ => trivial) fun _ _ => trivial

theorem Keeps.after {J : World → Prop} (hp : Keeps J p R)
    (hJ : J w) (h : ∀ w', J w' → I w') : Wp p φ (fun a w' => I w' ∧ R a) (fun _ w' => I w') I w :=
  (hp φ w hJ).mono (fun _ w' hr => ⟨h w' hr.1, hr.2⟩) (fun _ w' hw => h w' hw) fun w' hw => h w' hw

theorem Wp.world (h : Wp p φ (fun _ w' => I w') (fun _ w' => I w') I w) : I (p φ w).2 := by
  unfold Wp at h
  rcases hrun : p φ w with ⟨a | e | _, w'⟩ <;> rw [hrun] at h <;> exact h

theorem Keeps.world (hp : Keeps I p R) (hw : I w) : I (p φ w).2 :=
  Wp.world ((hp φ w hw).mono (fun _ _ h => h.1) (fun _ _ h => h) fun _ h => h)

end Keeps

end Run

end ADT.Faults
