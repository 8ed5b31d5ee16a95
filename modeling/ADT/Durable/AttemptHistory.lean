import ADT.Durable.System
import ADT.Storage.History

/-!
# Durable.AttemptHistory — the attempts of a run, over every interleaving of its clients

`Storage.History` is kept by every statement that retries none but the first nine attempts of an iteration, and no
client issues another one; so it holds in every state a run of the clients reaches.
-/

namespace ADT.Durable.System

open Interleave Storage

theorem bounded_of_issued {q : Request} (h : Launching q ∨ Turning q) (i : AttemptInsert) (hq : q = .insertAttempts i) :
    i.bounded = true := by
  subst hq
  rcases i with _ | ⟨prior, _⟩ | prior
  · rfl
  · have hlt : prior.attempt < 3 := by simpa [Launching, launching, Turning, turning] using h
    exact decide_eq_true (by omega)
  · have hlt : prior.attempt < 10 := by simpa [Launching, launching, Turning, turning] using h
    exact decide_eq_true hlt

/-- The invariant: the clients under way are clients, and the attempts are numbered. -/
structure Numbered (pool : Services) : Prop where
  clients : Pool.Issuing (fun q => Launching q ∨ Turning q) pool
  history : History pool.world.db.attempts

variable {pool : Services} {w : World}

theorem numbered_init (h : w.db.attempts = []) : Numbered (Pool.init w) := by
  refine ⟨fun p hp => absurd hp List.not_mem_nil, ?_⟩
  show History w.db.attempts
  rw [h]
  exact history_nil

theorem numbered_step (h : Numbered pool) (m : Move) : Numbered (pool.step m.action) := by
  refine ⟨Pool.issuing_step m.action (fun p hp => ?_) h.clients, ?_⟩
  · rcases m with c | ⟨t, env⟩
    · obtain rfl : c.service = p := by simpa [Move.action] using hp
      exact client_issues c
    · cases hp
  · rcases Pool.step_cases pool m.action with ⟨p, _, hs⟩ | ⟨t, env, q, next, _, ht, hs⟩ | ⟨_, hs⟩
    · rw [hs]
      exact h.history
    · rw [hs]
      exact h.history.effect (answer_effect _ _ q) (bounded_of_issued (h.clients _ (List.mem_of_getElem? ht)).1)
    · rw [hs]
      exact h.history

theorem numbered_run (h : w.db.attempts = []) (moves : List Move) : Numbered (after w moves) := by
  induction moves using List.reverseRecOn with
  | nil => exact numbered_init h
  | append_singleton moves m ih =>
    rw [after_concat]
    exact numbered_step ih m

theorem advances_step (pool : Services) (m : Move) {a : StepAttempt} (ha : a ∈ pool.world.db.attempts) :
    ∃ b ∈ (pool.step m.action).world.db.attempts, Advances a b := by
  rcases Pool.step_cases pool m.action with ⟨p, _, hs⟩ | ⟨t, env, q, next, _, ht, hs⟩ | ⟨_, hs⟩
  · rw [hs]
    exact ⟨a, ha, .refl a⟩
  · rw [hs]
    exact effect_advances (answer_effect _ _ q) ha
  · rw [hs]
    exact ⟨a, ha, .refl a⟩

theorem endures_run (w : World) (moves more : List Move) {a : StepAttempt} (ha : a ∈ (after w moves).world.db.attempts) :
    ∃ b ∈ (after w (moves ++ more)).world.db.attempts, Endures a b := by
  induction more using List.reverseRecOn with
  | nil => exact ⟨a, by simpa using ha, .refl a⟩
  | append_singleton more m ih =>
    obtain ⟨b, hb, hab⟩ := ih
    rw [← List.append_assoc, after_concat]
    obtain ⟨c, hc, hbc⟩ := advances_step (after w (moves ++ more)) m hb
    exact ⟨c, hc, hab.trans hbc.toEndures⟩

/-- **Attempt histories.** In every state the clients of a new run reach, the activations of a step are its iterations,
numbered from 1 in the order of their creation; the attempts of an iteration are numbered from 1 to at most 10, all but
the last one failed.  Every move moves an attempt forward, and its provider task and its final output never change. -/
theorem attempt_history (w : World) (hw : w.db.attempts = []) (moves : List Move) :
    History (after w moves).world.db.attempts ∧
      (∀ m, ∀ a ∈ (after w moves).world.db.attempts,
        ∃ b ∈ (after w (moves ++ [m])).world.db.attempts, Advances a b) ∧
      ∀ more, ∀ a ∈ (after w moves).world.db.attempts,
        ∃ b ∈ (after w (moves ++ more)).world.db.attempts, Endures a b := by
  refine ⟨(numbered_run hw moves).history, fun m a ha => ?_, fun more a ha => endures_run w moves more ha⟩
  rw [after_concat]
  exact advances_step _ m ha

/-- The attempt of the agent node is refused; the run is retried, and the next attempt is started. -/
def retriedAttempt : List Move :=
  admittedRun ++ .client (sampleCall 1 1) :: runs 2 25 (refusingEnv 5) ++
  .client .retry :: runs 3 14 (admittingEnv 10) ++ .client (sampleCall 2 2) :: runs 4 20 (admittingEnv 15)

theorem retriedAttempt_history : ((after (createdRun sampleSnapshot) retriedAttempt).world.db.attempts.map
        fun a => (a.key, a.status, a.providerTaskId)) =
      [(⟨"a", 1, 1⟩, .failed, none), (⟨"a", 1, 2⟩, .waitingProvider, some "task")] ∧
      History (after (createdRun sampleSnapshot) retriedAttempt).world.db.attempts :=
  ⟨by decide +kernel, (attempt_history _ rfl _).1⟩

end ADT.Durable.System
