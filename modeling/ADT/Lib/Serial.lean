import Mathlib.Logic.Relation
import ADT.Lib.Guarded
import ADT.Lib.Interleave

/-!
# Lib.Serial — a process that runs one program at a time

The process runs the programs it is asked for one after the other.  Their requests are atomic; between two of them
others may move the world, and the process may be gone before the next one, its program with it.  `Wp` is the weakest
precondition of a program in these surroundings: an invariant of the world and of what happened so far holds after
every request, and the postcondition when the program ends.  `keeps_run` carries it over every run.
-/

namespace ADT.Serial

open Interleave

/-- A world, what others do to it, and the programs that the process runs under a setup. -/
structure Service (S : Signature) (ε : Type) extends Machine S where
  Move : Type
  move : Move → World → World
  /-- The moves that may come while a program runs. -/
  meanwhile : Move → Bool
  Setup : Type
  Op : Type
  Reply : Type
  program : Setup → Op → Prog S ε Reply

variable {S : Signature} {ε α β : Type}

/-- What happened: a request with its answer, in the world before it and the world after it, or a reply. -/
inductive Entry (V : Service S ε)
  | call (before after : V.World) (q : S.Request) (a : S.Answer q)
  | reply (setup : V.Setup) (world : V.World) (op : V.Op) (r : Except ε V.Reply)

/-- The world, and what happened so far, the latest first. -/
structure View (V : Service S ε) where
  world : V.World
  log : List (Entry V)

structure State (V : Service S ε) extends View V where
  setup : V.Setup
  current : Option (V.Op × Prog S ε V.Reply)

/-- The process takes a request up, its program goes on, somebody else moves, or the process starts anew. -/
inductive Action (V : Service S ε)
  | start (op : V.Op)
  | next (env : V.Env)
  | other (m : V.Move)
  | restart (setup : V.Setup)

variable {V : Service S ε}

def View.answered (v : View V) (env : V.Env) (q : S.Request) : S.Answer q × View V :=
  let r := V.answer env q v.world
  (r.1, ⟨r.2, .call v.world r.2 q r.1 :: v.log⟩)

def View.moved (v : View V) (m : V.Move) : View V := { v with world := V.move m v.world }

def init (w : V.World) (setup : V.Setup) : State V := ⟨⟨w, []⟩, setup, none⟩

def step (s : State V) : Action V → Option (State V)
  | .start op =>
    match s.current with
    | none => some { s with current := some (op, V.program s.setup op) }
    | some _ => none
  | .next env =>
    match s.current with
    | none => none
    | some (op, .ask q next) =>
      let r := s.toView.answered env q
      some ⟨r.2, s.setup, some (op, next r.1)⟩
    | some (op, .done a) => some ⟨⟨s.world, .reply s.setup s.world op (.ok a) :: s.log⟩, s.setup, none⟩
    | some (op, .fail e) => some ⟨⟨s.world, .reply s.setup s.world op (.error e) :: s.log⟩, s.setup, none⟩
  | .other m => if s.current.isNone || V.meanwhile m then some { s with toView := s.toView.moved m } else none
  | .restart setup => some { s with setup := setup, current := none }

abbrev Reaches : State V → State V → Prop := Guarded.Reaches step fun _ _ => True

/-- The run of a list of actions. -/
abbrev run : State V → List (Action V) → Option (State V) := Guarded.run step fun _ _ => true

theorem reaches_of_any {s : State V} (actions : List (Action V)) (p : State V → Bool)
    (h : (run s actions).any p = true) : ∃ t, Reaches s t ∧ p t = true := by
  obtain ⟨t, ht, hp⟩ := Guarded.reaches_of_any _ actions p h
  exact ⟨t, ht.mono fun _ _ _ => trivial, hp⟩

/-- What others may do while a program runs. -/
def Between : View V → View V → Prop :=
  Relation.ReflTransGen fun v v' => ∃ m, V.meanwhile m = true ∧ v' = v.moved m

def Stable (P : View V → Prop) : Prop := ∀ v m, V.meanwhile m = true → P v → P (v.moved m)

theorem Stable.between {P : View V → Prop} (hP : Stable P) {v v' : View V} (h : Between v v') (hv : P v) : P v' := by
  induction h with
  | refl => exact hv
  | tail _ hmove ih =>
    obtain ⟨m, hm, rfl⟩ := hmove
    exact hP _ m hm ih

theorem Stable.and {P P' : View V → Prop} (hP : Stable P) (hP' : Stable P') : Stable fun v => P v ∧ P' v :=
  fun v m hm h => ⟨hP v m hm h.1, hP' v m hm h.2⟩

theorem stable_const (A : Prop) : Stable fun _ : View V => A := fun _ _ _ h => h

/-! ### Weakest preconditions -/

/-- Wherever the program stands, the others move and its next request is answered; `I` holds after each request and `Q`
where the program ends. -/
def Wp (I : View V → Prop) : Prog S ε α → (Except ε α → View V → Prop) → View V → Prop
  | .done a, Q, v => Q (.ok a) v
  | .fail e, Q, v => Q (.error e) v
  | .ask q next, Q, v => ∀ v', Between v v' → ∀ env, I (v'.answered env q).2 ∧
      Wp I (next (v'.answered env q).1) Q (v'.answered env q).2

section Rules

variable {I : View V → Prop} {Q Q' : Except ε α → View V → Prop} {v : View V}
variable {p : Prog S ε α}

theorem Wp.mono (h : Wp I p Q v) (hQ : ∀ r v', Q r v' → Q' r v') : Wp I p Q' v := by
  induction p generalizing v with
  | done a => exact hQ _ _ h
  | fail e => exact hQ _ _ h
  | ask q next ih => exact fun v' hv' env => ⟨(h v' hv' env).1, ih _ (h v' hv' env).2⟩

theorem wp_pure {a : α} (h : Q (.ok a) v) : Wp I (pure a : Prog S ε α) Q v := h

theorem wp_throw {e : ε} (h : Q (.error e) v) : Wp I (throw e : Prog S ε α) Q v := h

theorem wp_bind {f : α → Prog S ε β} {R : Except ε β → View V → Prop} (h : Wp I p (fun r v' => match r with
      | .ok a => Wp I (f a) R v'
      | .error e => R (.error e) v') v) : Wp I (p >>= f) R v := by
  induction p generalizing v with
  | done a => exact h
  | fail e => exact h
  | ask q next ih => exact fun v' hv' env => ⟨(h v' hv' env).1, ih _ (h v' hv' env).2⟩

theorem wp_tryCatch {handler : ε → Prog S ε α} (h : Wp I p (fun r v' => match r with
      | .ok a => Q (.ok a) v'
      | .error e => Wp I (handler e) Q v') v) : Wp I (tryCatch p handler) Q v := by
  induction p generalizing v with
  | done a => exact h
  | fail e => exact h
  | ask q next ih => exact fun v' hv' env => ⟨(h v' hv' env).1, ih _ (h v' hv' env).2⟩

theorem wp_ite {c : Prop} [Decidable c] {p' : Prog S ε α} (hp : c → Wp I p Q v) (hp' : ¬c → Wp I p' Q v) :
    Wp I (if c then p else p') Q v := by
  by_cases h : c
  · rw [if_pos h]
    exact hp h
  · rw [if_neg h]
    exact hp' h

theorem wp_ask {q : S.Request} {next : S.Answer q → Prog S ε α} {P : View V → Prop} (hP : Stable P) (hv : P v)
    (h : ∀ v' env, P v' → I (v'.answered env q).2 ∧
      Wp I (next (v'.answered env q).1) Q (v'.answered env q).2) :
    Wp I (.ask q next) Q v :=
  fun v' hv' env => h v' env (hP.between hv' hv)

theorem Wp.between (hQ : ∀ r, Stable (Q r)) {v' : View V} (h : Wp I p Q v) (hv : Between v v') : Wp I p Q v' := by
  cases p with
  | done a => exact (hQ _).between hv h
  | fail e => exact (hQ _).between hv h
  | ask q next => exact fun v'' hv'' env => h v'' (hv.trans hv'') env

/-- The programs of a list, one after the other; `P` says what holds with the elements that are still to come. -/
theorem wp_forM {f : β → Prog S ε Unit} {l : List β} {P : List β → View V → Prop} {Q : Except ε Unit → View V → Prop}
    (hv : P l v) (hend : ∀ v', P [] v' → Q (.ok ()) v')
    (hstep : ∀ b rest v', (∃ past, l = past ++ b :: rest) → P (b :: rest) v' →
      Wp I (f b) (fun r v'' => match r with
        | .ok () => P rest v''
        | .error e => Q (.error e) v'') v') :
    Wp I (l.forM f) Q v := by
  induction l generalizing v with
  | nil => exact hend v hv
  | cons b rest ih =>
    refine wp_bind ((hstep b rest v ⟨[], rfl⟩ hv).mono fun r v' h => ?_)
    rcases r with e | ⟨⟩
    · exact h
    · refine ih h fun b' rest' v'' hpast => hstep b' rest' v'' ?_
      obtain ⟨past, hpast⟩ := hpast
      exact ⟨b :: past, congrArg (b :: ·) hpast⟩

end Rules

/-! ### Runs -/

/-- What a reply leaves: `I` holds with it in the log, whatever the others do before it goes out. -/
def Replied (I : View V → Prop) (setup : V.Setup) (op : V.Op) (r : Except ε V.Reply) (v : View V) : Prop :=
  ∀ v', Between v v' → I v' ∧ I ⟨v'.world, .reply setup v'.world op r :: v'.log⟩

theorem stable_replied {I : View V → Prop} (setup : V.Setup) (op : V.Op) (r : Except ε V.Reply) :
    Stable (Replied I setup op r) :=
  fun _ m hm h v' hv' => h v' (.head ⟨m, hm, rfl⟩ hv')

/-- The invariant holds, and so does the precondition of what is left of the current program. -/
structure Keeps (I : View V → Prop) (s : State V) : Prop where
  inv : I s.toView
  current : ∀ op p, s.current = some (op, p) → Wp I p (Replied I s.setup op) s.toView

variable {I : View V → Prop}

section

variable {s : State V} (hmove : ∀ v m, I v → I (v.moved m))
  (hprogram : ∀ setup op v, I v → Wp I (V.program setup op) (Replied I setup op) v) (h : Keeps I s)

include hmove hprogram h

/-- **One action.** -/
theorem keeps_step {t : State V} {a : Action V} (hs : step s a = some t) : Keeps I t := by
  cases a with
  | start op =>
    rcases hc : s.current with _ | c
    · rw [step, hc, Option.some.injEq] at hs
      subst hs
      refine ⟨h.inv, fun op' p hp => ?_⟩
      cases hp
      exact hprogram _ _ _ h.inv
    · rw [step, hc] at hs
      cases hs
  | next env =>
    rcases hc : s.current with _ | ⟨op, a | e | ⟨q, next⟩⟩
    · rw [step, hc] at hs
      cases hs
    · rw [step, hc, Option.some.injEq] at hs
      subst hs
      exact ⟨(h.current op _ hc _ .refl).2, fun op' p hp => by cases hp⟩
    · rw [step, hc, Option.some.injEq] at hs
      subst hs
      exact ⟨(h.current op _ hc _ .refl).2, fun op' p hp => by cases hp⟩
    · rw [step, hc, Option.some.injEq] at hs
      subst hs
      have hask := h.current op _ hc _ .refl env
      refine ⟨hask.1, fun op' p hp => ?_⟩
      cases hp
      exact hask.2
  | other m =>
    rw [step] at hs
    by_cases hm : (s.current.isNone || V.meanwhile m) = true
    · rw [if_pos hm, Option.some.injEq] at hs
      subst hs
      refine ⟨hmove _ m h.inv, fun op p hp => ?_⟩
      have hsome : s.current = some (op, p) := hp
      have hmeanwhile : V.meanwhile m = true := by
        rw [hsome] at hm
        simpa using hm
      exact (h.current op p hsome).between (stable_replied _ _) (.single ⟨m, hmeanwhile, rfl⟩)
    · rw [if_neg hm] at hs
      cases hs
  | restart setup =>
    rw [step, Option.some.injEq] at hs
    subst hs
    exact ⟨h.inv, fun op p hp => by cases hp⟩

/-- **Runs.** An invariant that the others' moves and every program keep holds in every state a run leads to, and what
is left of the current program keeps it. -/
theorem keeps_run {t : State V} (hr : Reaches s t) : Keeps I t :=
  hr.invariant h fun hv _ hs => keeps_step hmove hprogram hv hs

end

theorem log_step {s t : State V} {a : Action V} (h : step s a = some t) : ∃ new, t.log = new ++ s.log := by
  cases a with
  | start op =>
    rcases hc : s.current with _ | c <;> rw [step, hc] at h
    · cases h
      exact ⟨[], rfl⟩
    · cases h
  | next env =>
    rcases hc : s.current with _ | ⟨op, a | e | ⟨q, next⟩⟩ <;> rw [step, hc] at h <;> cases h
    · exact ⟨[_], rfl⟩
    · exact ⟨[_], rfl⟩
    · exact ⟨[_], rfl⟩
  | other m =>
    rw [step] at h
    split_ifs at h
    cases h
    exact ⟨[], rfl⟩
  | restart setup =>
    cases h
    exact ⟨[], rfl⟩

end ADT.Serial
