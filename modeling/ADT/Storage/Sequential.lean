import ADT.Lib.Alone
import ADT.Storage.Effects
import ADT.Storage.Operations

/-!
# Storage.Sequential — a service that nobody interrupts

What the reads of a service find, and what its statements leave, when it runs alone.
-/

namespace ADT.Storage

open Interleave

variable {α β : Type} {w : World} {envs : ℕ → Env} {k : ℕ}

abbrev Ran (α : Type) := Finish machine Thrown α

/-- The service alone, its first request answered by `envs k`. -/
def alone (p : Service α) (envs : ℕ → Env) (k : ℕ) (w : World) : Ran α :=
  p.alone (M := machine) envs k w

/-- The service alone, until it stops for good after at most `n` requests. -/
def crashed (p : Service α) (envs : ℕ → Env) (n k : ℕ) (w : World) : World :=
  p.crashed (M := machine) envs n k w

/-- The service alone issues only requests that leave the world as it is. -/
def Still (p : Service α) (envs : ℕ → Env) (k : ℕ) (w : World) : Prop :=
  p.Still (M := machine) envs k w

@[simp] theorem still_pure (a : α) : Still (pure a : Service α) envs k w := trivial

@[simp] theorem still_error (message : String) : Still (error message : Service α) envs k w := trivial

variable (q : Request) (f : Answer q → Service α) {p : Service α} {k' : ℕ} {w' : World}

theorem still_request : Still (request q >>= f) envs k w ↔
    (answer (envs k) q w).2 = w ∧ Still (f (answer (envs k) q w).1) envs (k + 1) w := Iff.rfl

@[simp] theorem alone_pure (a : α) : alone (pure a) envs k w = ⟨.ok a, k, w⟩ := rfl

@[simp] theorem alone_throw (e : Thrown) : alone (throw e : Service α) envs k w = ⟨.error e, k, w⟩ := rfl

@[simp] theorem alone_error (message : String) :
    alone (error message : Service α) envs k w = ⟨.error (.error message), k, w⟩ := rfl

@[simp] theorem alone_request :
    alone (request q >>= f) envs k w = alone (f (answer (envs k) q w).1) envs (k + 1) (answer (envs k) q w).2 := rfl

@[simp] theorem alone_now (f : Time → Service α) :
    alone (request .now >>= f) envs k w = alone (f (envs k).now) envs (k + 1) w := rfl

@[simp] theorem alone_resolveRuntime (adapter : String) (f : Bool → Service α) :
    alone (request (.resolveRuntime adapter) >>= f) envs k w = alone (f ((envs k).runtime adapter)) envs (k + 1) w := rfl

@[simp] theorem alone_cancel (task : String) (call : AdapterInvocation)
    (f : Except Thrown CancellationResult → Service α) :
    alone (request (.cancel task call) >>= f) envs k w = alone (f ((envs k).cancel task call)) envs (k + 1) w := rfl

@[simp] theorem alone_getApproval (requestId : String) (f : Option WorkflowApproval → Service α) :
    alone (request (.getApproval requestId) >>= f) envs k w = alone (f (w.db.approval requestId)) envs (k + 1) w := rfl

theorem alone_answer {q : Request} {f : Answer q → Service α} {a : Answer q} {v : World}
    (h : answer (envs k) q w = (a, v)) : alone (request q >>= f) envs k w = alone (f a) envs (k + 1) v := by
  rw [alone_request, h]

@[simp] theorem crashed_zero (p : Service α) : crashed p envs 0 k w = w := Prog.crashed_zero p

theorem crashed_request (n : ℕ) : crashed (request q >>= f) envs (n + 1) k w =
      crashed (f (answer (envs k) q w).1) envs n (k + 1) (answer (envs k) q w).2 := by
  unfold crashed
  rfl

theorem alone_bind_ok {f : α → Service β} {a : α}
    (h : alone p envs k w = ⟨.ok a, k', w'⟩) : alone (p >>= f) envs k w = alone (f a) envs k' w' :=
  Prog.alone_bind_ok h

theorem alone_bind_error {f : α → Service β} {e : Thrown}
    (h : alone p envs k w = ⟨.error e, k', w'⟩) : alone (p >>= f) envs k w = ⟨.error e, k', w'⟩ :=
  Prog.alone_bind_error h

theorem alone_catch_ok {f : Thrown → Service α} {a : α}
    (h : alone p envs k w = ⟨.ok a, k', w'⟩) : alone (tryCatch p f) envs k w = ⟨.ok a, k', w'⟩ := by
  unfold alone at h ⊢
  rw [Prog.alone_tryCatch, h]

theorem alone_catch_error {f : Thrown → Service α} {e : Thrown} {n : ℕ} {v : World}
    (h : alone p envs k w = ⟨.error e, n, v⟩) : alone (tryCatch p f) envs k w = alone (f e) envs n v := by
  unfold alone at h ⊢
  rw [Prog.alone_tryCatch, h]

/-- What `getRun` finds. -/
def World.detail (w : World) : RunDetail := ⟨w.db.run, w.db.orderedAttempts⟩

@[simp] theorem alone_getRun (f : RunDetail → Service α) :
    alone (getRun >>= f) envs k w = alone (f w.detail) envs (k + 2) w := rfl

theorem alone_updateRun_true {u : RunUpdate} (h : u.guard w.db = true) (f : Bool → Service α) :
    alone (request (.updateRun u) >>= f) envs k w =
      alone (f true) envs (k + 1) { w with db := { w.db with run := u.set w.db.run } } := by
  rw [alone_request]
  simp only [answer, World.withDb, updateRun_true h]

theorem alone_updateRun_false {u : RunUpdate} (h : ¬u.guard w.db = true) (f : Bool → Service α) :
    alone (request (.updateRun u) >>= f) envs k w = alone (f false) envs (k + 1) w := by
  rw [alone_request]
  simp only [answer, World.withDb, updateRun_false h]

end ADT.Storage
