import ADT.Lib.Basics
import ADT.Runner.Jobs

/-!
# Runner.Tasks — the task of a job and its writes

What the moves of a job can do (`Effect`), and that the task of a job waits for exactly the writes it has asked for
(`Job.Sane`).
-/

namespace ADT.Runner

namespace Job

/-- What a move of a job comes to. -/
inductive Effect (bounded : Bool) (now : Instant) (j : Job) : JobMove → Outcome → Prop
  | write {ok : Bool} {w : Write} {rest : List Write} (hwrites : j.writes = w :: rest) :
    Effect bounded now j (.write ok)
      { wake now { j with writes := rest, broken := j.broken || !(ok && !j.broken && w.record.fits) } w.awaits
          (ok && !j.broken && w.record.fits) with
        stored := if ok && !j.broken && w.record.fits then some w.record else none }
  | prepareCancelled {ok : Bool} (htask : j.task = .preparing) (hcancel : j.record.state = .cancelling) :
    Effect bounded now j (.prepared ok) { job := terminate now (j.setState .cancelled) .ending }
  | prepareReady (htask : j.task = .preparing) (hcancel : j.record.state ≠ .cancelling) :
    Effect bounded now j (.prepared true) { job := { j with task := .validating } }
  | prepareFailed (htask : j.task = .preparing) (hcancel : j.record.state ≠ .cancelling) :
    Effect bounded now j (.prepared false) { job := terminate now (j.fail .repositoryPreparationFailed) .ending }
  | invalid {authentication : Bool} (htask : j.task = .validating) :
    Effect bounded now j (.validated (some authentication))
      { job := terminate now (j.fail (validationReason authentication)) .closing }
  | validCancelled (htask : j.task = .validating) (hcancel : j.record.state = .cancelling) :
    Effect bounded now j (.validated none) { job := terminate now (j.setState .cancelled) .closing }
  | valid (htask : j.task = .validating) (hcancel : j.record.state ≠ .cancelling) :
    Effect bounded now j (.validated none)
      { job := persist now { j.setState .running with task := .savingRunning } .running }
  | started {threadId turnId : String} (hturn : j.turn = .inProgress false) :
    Effect bounded now j (.onStarted threadId turnId)
      { job := persist now { j with
          record := { j.record with threadId := some threadId, turnId := some turnId }, turn := .inProgress true }
          .started }
  | late {result : Option TurnResult} {started : Bool} (hturn : j.turn = .inProgress started) (htask : j.task ≠ .turning) :
    Effect bounded now j (.turnOver result) { job := { j with turn := .idle } }
  | returned {result : TurnResult} {started : Bool} (hturn : j.turn = .inProgress started) (htask : j.task = .turning) :
    Effect bounded now j (.turnOver (some result)) { job := { j with turn := .idle, task := .settling result } }
  | rejectedStarted (hturn : j.turn = .inProgress true) (htask : j.task = .turning) :
    Effect bounded now j (.turnOver none) { job := { ({ j with turn := .idle }).fail .internalError with task := .failing } }
  | rejected (hturn : j.turn = .inProgress false) (htask : j.task = .turning) :
    Effect bounded now j (.turnOver none)
      { job := terminate now (({ j with turn := .idle }).fail .internalError) .closing }
  | proceedFailed {result : TurnResult} (htask : j.task = .settling result)
      (hstarted : ∀ w ∈ j.writes, w.awaits ≠ .started) (herror : j.persistenceError = true) :
    Effect bounded now j .proceed (j.fail .internalError).close
  | proceedForced {result : TurnResult} (htask : j.task = .settling result)
      (hstarted : ∀ w ∈ j.writes, w.awaits ≠ .started) (herror : j.persistenceError = false)
      (hforced : j.forcedTerminal = true) :
    Effect bounded now j .proceed j.close
  | proceedCancelled {result : TurnResult} (htask : j.task = .settling result)
      (hstarted : ∀ w ∈ j.writes, w.awaits ≠ .started) (herror : j.persistenceError = false)
      (hforced : j.forcedTerminal = false) (hcancel : j.record.state = .cancelling) :
    Effect bounded now j .proceed { job := terminate now (j.setState .cancelled) .closing }
  | concluded {result : TurnResult} (htask : j.task = .settling result)
      (hstarted : ∀ w ∈ j.writes, w.awaits ≠ .started) (herror : j.persistenceError = false)
      (hforced : j.forcedTerminal = false) (hcancel : j.record.state ≠ .cancelling) :
    Effect bounded now j .proceed { job := terminate now (j.conclude result) .closing }
  | timedOut (htask : j.task = .turning) :
    Effect bounded now j .timedOut { job := terminate now (j.fail .timeout) .timingOut }
  | interrupted (htask : j.task = .failing) : Effect bounded now j .interrupted { job := terminate now j .closing }
  | forced (htask : j.task = .cleaning) (hturn : j.turn ≠ .idle) (hbounded : bounded = true) :
    Effect bounded now j .cleanupTimedOut { job := { j with forcedTerminal := true, task := .draining } }
  | stuck (htask : j.task = .cleaning) (hturn : j.turn ≠ .idle) (hbounded : bounded = false) :
    Effect bounded now j .cleanupTimedOut { job := { j with task := .draining }, damages := true }
  | quiesced (htask : j.task = .cleaning ∨ j.task = .draining) (hturn : j.turn = .idle) :
    Effect bounded now j .quiesced j.close
  | unobserved (htask : j.task = .resuming) :
    Effect bounded now j (.observed none) { job := terminate now (j.fail .internalError) .ending }
  | observedCancelled {result : TurnResult} (htask : j.task = .resuming) (hcancel : j.record.state = .cancelling) :
    Effect bounded now j (.observed (some result)) { job := terminate now (j.setState .cancelled) .ending }
  | observed {result : TurnResult} (htask : j.task = .resuming) (hcancel : j.record.state ≠ .cancelling) :
    Effect bounded now j (.observed (some result)) { job := terminate now (j.conclude result) .ending }
  | cancelAgain (hkept : j.kept = true) (hstate : j.record.state.terminal = true ∨ j.record.state = .cancelling) :
    Effect bounded now j .cancel { job := j }
  | cancelled (hkept : j.kept = true) (hterminal : j.record.state.terminal = false)
      (hcancel : j.record.state ≠ .cancelling) :
    Effect bounded now j .cancel { job := persistTerminal now (j.setState .cancelling) .cancel }

variable {bounded : Bool} {now : Instant} {j : Job} {m : JobMove} {o : Outcome}

theorem cancellationRequested_iff : j.cancellationRequested = true ↔ j.record.state = .cancelling := by
  simp [cancellationRequested]

theorem effect_proceed (h : j.proceed now = some o) : Effect bounded now j .proceed o := by
  unfold proceed at h
  split at h
  · next result htask =>
    split at h
    · cases h
    · next hpending =>
      have hstarted : ∀ w ∈ j.writes, w.awaits ≠ .started := by simpa using hpending
      split_ifs at h with herror hforced hcancel <;> cases h
      · exact .proceedFailed htask hstarted herror
      · exact .proceedForced htask hstarted (by simpa using herror) hforced
      · exact .proceedCancelled htask hstarted (by simpa using herror) (by simpa using hforced)
          (cancellationRequested_iff.mp hcancel)
      · exact .concluded htask hstarted (by simpa using herror) (by simpa using hforced)
          (mt cancellationRequested_iff.mpr hcancel)
  · cases h

theorem effect_turnOver {result : Option TurnResult} (h : j.turnOver now result = some o) :
    Effect bounded now j (.turnOver result) o := by
  unfold turnOver at h
  split at h
  · cases h
  · next started hturn =>
    by_cases htask : j.task = .turning
    · cases result with
      | some result =>
        simp only [htask, ne_eq, not_true_eq_false, if_false, Option.some.injEq] at h
        subst h
        exact .returned hturn htask
      | none =>
        simp only [htask, ne_eq, not_true_eq_false, if_false, Option.some.injEq] at h
        subst h
        cases started with
        | true => exact .rejectedStarted hturn htask
        | false => exact .rejected hturn htask
    · simp only [htask, ne_eq, not_false_eq_true, if_true, Option.some.injEq] at h
      subst h
      exact .late hturn htask

theorem effect_prepared {ok : Bool} (h : j.prepared now ok = some o) : Effect bounded now j (.prepared ok) o := by
  unfold prepared at h
  split_ifs at h with htask hcancel hok <;> cases h
  · exact .prepareCancelled (not_not.mp htask) (cancellationRequested_iff.mp hcancel)
  · subst hok
    exact .prepareReady (not_not.mp htask) (mt cancellationRequested_iff.mpr hcancel)
  · obtain rfl : ok = false := by simpa using hok
    exact .prepareFailed (not_not.mp htask) (mt cancellationRequested_iff.mpr hcancel)

theorem effect_validated {failure : Option Bool} (h : j.validated now failure = some o) :
    Effect bounded now j (.validated failure) o := by
  unfold validated at h
  cases failure with
  | some authentication =>
    dsimp only at h
    split_ifs at h with htask
    cases h
    exact .invalid (not_not.mp htask)
  | none =>
    dsimp only at h
    split_ifs at h with htask hcancel <;> cases h
    · exact .validCancelled (not_not.mp htask) (cancellationRequested_iff.mp hcancel)
    · exact .valid (not_not.mp htask) (mt cancellationRequested_iff.mpr hcancel)

theorem effect_observed {result : Option TurnResult} (h : j.observed now result = some o) :
    Effect bounded now j (.observed result) o := by
  unfold observed at h
  cases result with
  | none =>
    dsimp only at h
    split_ifs at h with htask
    cases h
    exact .unobserved (not_not.mp htask)
  | some result =>
    dsimp only at h
    split_ifs at h with htask hcancel <;> cases h
    · exact .observedCancelled (not_not.mp htask) (cancellationRequested_iff.mp hcancel)
    · exact .observed (not_not.mp htask) (mt cancellationRequested_iff.mpr hcancel)

theorem effect_cancel (h : j.cancel now = some o) : Effect bounded now j .cancel o := by
  unfold cancel at h
  split_ifs at h with hkept hstate <;> cases h
  · refine .cancelAgain (by simpa using hkept) ?_
    rcases Bool.or_eq_true_iff.mp hstate with hterminal | hcancel
    · exact .inl hterminal
    · exact .inr (cancellationRequested_iff.mp hcancel)
  · obtain ⟨hterminal, hcancel⟩ : j.record.state.terminal = false ∧ j.cancellationRequested = false := by
      simpa using hstate
    exact .cancelled (by simpa using hkept) hterminal fun hs => by
      rw [cancellationRequested_iff.mpr hs] at hcancel
      cases hcancel

/-- **Inversion.** -/
theorem effect_of_act (h : j.act bounded now m = some o) : Effect bounded now j m o := by
  cases m with
  | write ok =>
    simp only [act, Job.write] at h
    split at h
    · cases h
    · next w rest hwrites =>
      cases h
      exact .write hwrites
  | prepared ok => exact effect_prepared h
  | validated failure => exact effect_validated h
  | onStarted threadId turnId =>
    simp only [act, Job.onStarted] at h
    split_ifs at h with hturn
    cases h
    exact .started (not_not.mp hturn)
  | turnOver result => exact effect_turnOver h
  | proceed => exact effect_proceed h
  | timedOut =>
    simp only [act, Job.timedOut] at h
    split_ifs at h with htask
    cases h
    exact .timedOut (not_not.mp htask)
  | interrupted =>
    simp only [act, Job.interrupted] at h
    split_ifs at h with htask
    cases h
    exact .interrupted (not_not.mp htask)
  | cleanupTimedOut =>
    simp only [act, Job.cleanupTimedOut] at h
    split_ifs at h with htask hbounded <;> cases h
    · exact .forced (not_not.mp (not_or.mp htask).1) (not_or.mp htask).2 hbounded
    · exact .stuck (not_not.mp (not_or.mp htask).1) (not_or.mp htask).2 (by simpa using hbounded)
  | quiesced =>
    simp only [act, Job.quiesced] at h
    split_ifs at h with htask
    cases h
    obtain ⟨hclean, hturn⟩ := not_or.mp htask
    exact .quiesced (by tauto) (not_not.mp hturn)
  | observed result => exact effect_observed h
  | cancel => exact effect_cancel h

end Job

/-! ### The task and its writes -/

/-- The writes that the task of a job waits for itself. -/
def Awaits.own : Awaits → Bool
  | .admission | .running | .terminal => true
  | .started | .cancel | .reconcile => false

/-- The write a task is waiting for. -/
def Task.awaits : Task → List Awaits
  | .admitting => [.admission]
  | .savingRunning => [.running]
  | .timingOut | .closing | .ending => [.terminal]
  | _ => []

/-- Where a turn may be in progress. -/
def Task.turns : Task → Bool
  | .turning | .timingOut | .cleaning | .draining => true
  | _ => false

namespace Job

/-- The writes under way that the task waits for. -/
def ownWrites (j : Job) : List Awaits := (j.writes.map (·.awaits)).filter Awaits.own

structure Sane (j : Job) : Prop where
  own : j.ownWrites = j.task.awaits
  turn : j.turn ≠ .idle → j.task.turns = true
  forgotten : j.kept = false → j.task = .done

variable {bounded : Bool} {now : Instant} {j : Job} {m : JobMove} {o : Outcome}

theorem ownWrites_persist (j : Job) (a : Awaits) :
    (persist now j a).ownWrites = if a.own then j.ownWrites ++ [a] else j.ownWrites := by
  simp only [ownWrites, persist, List.map_append, List.filter_append, List.map_cons, List.map_nil, List.filter_cons,
    List.filter_nil]
  split_ifs
  · rfl
  · exact List.append_nil _

variable {w : Write} {rest : List Write} {task : Task} {landed : Bool}

theorem ownWrites_cons (h : j.writes = w :: rest) :
    j.ownWrites = if w.awaits.own then w.awaits :: (rest.map (·.awaits)).filter Awaits.own
      else (rest.map (·.awaits)).filter Awaits.own := by
  simp only [ownWrites, h, List.map_cons, List.filter_cons]

theorem sane_terminate (hown : j.ownWrites = []) (htask : task.awaits = [.terminal])
    (hturn : j.turn ≠ .idle → task.turns = true) (hkept : j.kept = true) : (terminate now j task).Sane where
  own := by
    rw [terminate, persistTerminal, ownWrites_persist, if_pos (show Awaits.own .terminal = true from rfl)]
    exact (congrArg (· ++ [Awaits.terminal]) hown).trans htask.symm
  turn := hturn
  forgotten h := absurd (hkept.symm.trans h) (by simp)

theorem Sane.kept_of (hj : j.Sane) (h : j.task ≠ .done) : j.kept = true := by
  cases hkept : j.kept with
  | true => rfl
  | false => exact absurd (hj.forgotten hkept) h

theorem Sane.idle_of (hj : j.Sane) (h : j.task.turns = false) : j.turn = .idle := by
  by_contra hturn
  rw [hj.turn hturn] at h
  cases h

theorem Sane.own_of (hj : j.Sane) (h : j.task = task) (hnone : task.awaits = []) : j.ownWrites = [] := by
  rw [hj.own, h, hnone]

theorem conclude_fields (result : TurnResult) :
    (j.conclude result).writes = j.writes ∧ (j.conclude result).turn = j.turn ∧
      (j.conclude result).kept = j.kept := by
  cases result with
  | ok output threadId => exact ⟨rfl, rfl, rfl⟩
  | failed reason => exact ⟨rfl, rfl, rfl⟩

theorem Sane.terminate_of (hj : j.Sane) {next : Task} {job : Job} (htask : j.task = task) (hnone : task.awaits = [])
    (hturns : task.turns = false) (hopen : task ≠ .done) (hnext : next.awaits = [.terminal])
    (hsame : job.writes = j.writes ∧ job.turn = j.turn ∧ job.kept = j.kept) : (terminate now job next).Sane := by
  have hidle : j.turn = .idle := hj.idle_of (by rw [htask, hturns])
  refine sane_terminate ?_ hnext (fun h => absurd (hsame.2.1.trans hidle) h) ?_
  · rw [ownWrites, hsame.1]
    exact hj.own_of htask hnone
  · rw [hsame.2.2]
    exact hj.kept_of (by rw [htask]; exact hopen)

theorem Sane.awaiting (hj : j.Sane) (h : j.writes = w :: rest) (hown : w.awaits.own = true) :
    j.task.awaits = [w.awaits] ∧ (rest.map (·.awaits)).filter Awaits.own = [] := by
  have hwrites := hj.own
  rw [ownWrites_cons h, if_pos hown] at hwrites
  have hlength : j.task.awaits.length ≤ 1 := by cases j.task <;> simp [Task.awaits]
  rw [← hwrites, List.length_cons] at hlength
  have hrest := List.eq_nil_of_length_eq_zero (Nat.le_zero.mp (Nat.le_of_succ_le_succ hlength))
  rw [hrest] at hwrites
  exact ⟨hwrites.symm, hrest⟩

theorem Sane.passing (hj : j.Sane) (h : j.writes = w :: rest)
    (hown : w.awaits.own = false) : (rest.map (·.awaits)).filter Awaits.own = j.task.awaits := by
  rw [← hj.own, ownWrites_cons h, hown]
  rfl

theorem admitting_of_awaits (h : task.awaits = [.admission]) : task = .admitting := by
  cases task <;> simp_all [Task.awaits]

theorem saving_of_awaits (h : task.awaits = [.running]) : task = .savingRunning := by
  cases task <;> simp_all [Task.awaits]

theorem ending_of_awaits (h : task.awaits = [.terminal]) : task = .timingOut ∨ task = .closing ∨ task = .ending := by
  cases task <;> simp_all [Task.awaits]

theorem settled_fields (landed : Bool) :
    (j.settled landed).writes = j.writes ∧ (j.settled landed).task = j.task ∧ (j.settled landed).turn = j.turn ∧
      (j.settled landed).kept = j.kept := by
  cases landed <;> exact ⟨rfl, rfl, rfl, rfl⟩

theorem Sane.congr (hj : j.Sane) {job : Job} (hwrites : job.writes = j.writes) (htask : job.task = j.task)
    (hturn : job.turn = j.turn) (hkept : job.kept = j.kept) : job.Sane where
  own := by rw [ownWrites, hwrites, htask]; exact hj.own
  turn h := by rw [htask]; exact hj.turn (hturn ▸ h)
  forgotten h := htask.trans (hj.forgotten (hkept ▸ h))

theorem Sane.settled (hj : j.Sane) (landed : Bool) : (j.settled landed).Sane := by
  obtain ⟨hwrites, htask, hturn, hkept⟩ := settled_fields (j := j) landed
  exact hj.congr hwrites htask hturn hkept

theorem sane_of_none (hnone : j.ownWrites = []) (htask : j.task.awaits = []) (hturn : j.turn ≠ .idle → j.task.turns = true)
    (hkept : j.kept = true ∨ j.task = .done) : j.Sane :=
  ⟨hnone.trans htask.symm, hturn, fun h => hkept.resolve_left (by rw [h]; simp)⟩

theorem sane_afterRunning (hkept : j.kept = true) (hidle : j.turn = .idle) (hnone : j.ownWrites = []) :
    (afterRunning now j landed).job.Sane := by
  unfold afterRunning
  split_ifs
  · exact sane_of_none hnone rfl (fun h => absurd hidle h) (.inr rfl)
  · exact sane_terminate hnone rfl (fun h => absurd hidle h) hkept
  · exact sane_of_none hnone rfl (fun _ => rfl) (.inl hkept)

theorem sane_afterTerminal (hkept : j.kept = true) (hnone : j.ownWrites = [])
    (hturn : j.turn ≠ .idle → j.task = .timingOut) : (j.afterTerminal landed).job.Sane := by
  obtain ⟨hwrites, -, hturns, hkeep⟩ := settled_fields (j := j) landed
  have hsettled : (j.settled landed).ownWrites = [] := by
    rw [ownWrites, hwrites]
    exact hnone
  unfold afterTerminal
  dsimp only
  split
  · exact sane_of_none hsettled rfl (fun _ => rfl) (.inl (hkeep.trans hkept))
  · next htask =>
    refine sane_of_none hsettled rfl (fun h => ?_) (.inr rfl)
    have h := hturn fun hidle => h (hturns.trans hidle)
    simp [htask] at h
  · next htiming _ =>
    refine sane_of_none hsettled rfl (fun h => ?_) (.inr rfl)
    exact absurd (hturn fun hidle => h (hturns.trans hidle)) htiming

theorem sane_wake {broken : Bool} (hj : j.Sane) (h : j.writes = w :: rest) :
    (wake now { j with writes := rest, broken := broken } w.awaits landed).job.Sane := by
  cases ha : w.awaits with
  | admission =>
    obtain ⟨htask, hrest⟩ := hj.awaiting h (by rw [ha]; rfl)
    rw [ha] at htask
    have htask := admitting_of_awaits htask
    have hidle : j.turn = .idle := hj.idle_of (by rw [htask]; rfl)
    have hkept : j.kept = true := hj.kept_of (by rw [htask]; simp)
    cases landed with
    | true => exact sane_of_none hrest rfl (fun hturn => absurd hidle hturn) (.inl hkept)
    | false => exact sane_of_none hrest rfl (fun hturn => absurd hidle hturn) (.inr rfl)
  | running =>
    obtain ⟨htask, hrest⟩ := hj.awaiting h (by rw [ha]; rfl)
    rw [ha] at htask
    have htask := saving_of_awaits htask
    exact sane_afterRunning (hj.kept_of (by rw [htask]; simp)) (hj.idle_of (by rw [htask]; rfl)) hrest
  | terminal =>
    obtain ⟨htask, hrest⟩ := hj.awaiting h (by rw [ha]; rfl)
    rw [ha] at htask
    have htask := ending_of_awaits htask
    refine sane_afterTerminal (hj.kept_of ?_) hrest fun hturn => ?_
    · rcases htask with h | h | h <;> simp [h]
    · have hturns := hj.turn hturn
      rcases htask with h | h | h
      · exact h
      · rw [h] at hturns
        cases hturns
      · rw [h] at hturns
        cases hturns
  | started => exact ⟨hj.passing h (by rw [ha]; rfl), hj.turn, hj.forgotten⟩
  | cancel =>
    have hpass : Sane { j with writes := rest, broken := broken } :=
      ⟨hj.passing h (by rw [ha]; rfl), hj.turn, hj.forgotten⟩
    exact hpass.settled landed
  | reconcile =>
    have hpass : Sane { j with writes := rest, broken := broken } :=
      ⟨hj.passing h (by rw [ha]; rfl), hj.turn, hj.forgotten⟩
    exact hpass.settled landed

/-- A sane job stays sane. -/
theorem sane_of_effect (hj : j.Sane) (h : Effect bounded now j m o) : o.job.Sane := by
  cases h with
  | write hwrites => exact sane_wake hj hwrites
  | prepareCancelled htask _ =>
    exact hj.terminate_of htask rfl rfl (by simp) rfl ⟨rfl, rfl, rfl⟩
  | prepareReady htask _ =>
    refine sane_of_none (hj.own_of htask rfl) rfl (fun h => absurd (hj.idle_of ?_) h) (.inl (hj.kept_of ?_))
    · rw [htask]; rfl
    · rw [htask]; simp
  | prepareFailed htask _ => exact hj.terminate_of htask rfl rfl (by simp) rfl ⟨rfl, rfl, rfl⟩
  | invalid htask => exact hj.terminate_of htask rfl rfl (by simp) rfl ⟨rfl, rfl, rfl⟩
  | validCancelled htask _ => exact hj.terminate_of htask rfl rfl (by simp) rfl ⟨rfl, rfl, rfl⟩
  | valid htask _ =>
    have hidle : j.turn = .idle := hj.idle_of (by rw [htask]; rfl)
    refine ⟨?_, fun h => absurd hidle h, fun h => ?_⟩
    · rw [ownWrites_persist, if_pos (show Awaits.own .running = true from rfl)]
      exact congrArg (· ++ [Awaits.running]) (hj.own_of htask rfl)
    · have hkept : j.kept = true := hj.kept_of (by rw [htask]; simp)
      exact absurd (hkept.symm.trans h) (by simp)
  | started hturn =>
    refine ⟨?_, fun _ => hj.turn (by rw [hturn]; simp), hj.forgotten⟩
    rw [ownWrites_persist]
    exact hj.own
  | late _ _ => exact ⟨hj.own, fun h => absurd rfl h, hj.forgotten⟩
  | returned _ htask =>
    exact sane_of_none (hj.own_of htask rfl) rfl (fun h => absurd rfl h) (.inl (hj.kept_of (by rw [htask]; simp)))
  | rejectedStarted _ htask =>
    exact sane_of_none (hj.own_of htask rfl) rfl (fun h => absurd rfl h) (.inl (hj.kept_of (by rw [htask]; simp)))
  | rejected _ htask =>
    exact sane_terminate (hj.own_of htask rfl) rfl (fun h => absurd rfl h) (hj.kept_of (by rw [htask]; simp))
  | proceedFailed htask _ _ =>
    exact sane_of_none (hj.own_of htask rfl) rfl (fun h => absurd (hj.idle_of (by rw [htask]; rfl)) h) (.inr rfl)
  | proceedForced htask _ _ _ =>
    exact sane_of_none (hj.own_of htask rfl) rfl (fun h => absurd (hj.idle_of (by rw [htask]; rfl)) h) (.inr rfl)
  | proceedCancelled htask _ _ _ _ => exact hj.terminate_of htask rfl rfl (by simp) rfl ⟨rfl, rfl, rfl⟩
  | concluded htask _ _ _ _ => exact hj.terminate_of htask rfl rfl (by simp) rfl (conclude_fields _)
  | timedOut htask =>
    exact sane_terminate (hj.own_of htask rfl) rfl (fun _ => rfl) (hj.kept_of (by rw [htask]; simp))
  | interrupted htask => exact hj.terminate_of htask rfl rfl (by simp) rfl ⟨rfl, rfl, rfl⟩
  | forced htask _ _ =>
    exact sane_of_none (hj.own_of htask rfl) rfl (fun _ => rfl) (.inl (hj.kept_of (by rw [htask]; simp)))
  | stuck htask _ _ =>
    exact sane_of_none (hj.own_of htask rfl) rfl (fun _ => rfl) (.inl (hj.kept_of (by rw [htask]; simp)))
  | quiesced htask hturn =>
    have hnone : j.ownWrites = [] := by
      rcases htask with h | h
      · exact hj.own_of h rfl
      · exact hj.own_of h rfl
    exact sane_of_none hnone rfl (fun h => absurd hturn h) (.inr rfl)
  | unobserved htask => exact hj.terminate_of htask rfl rfl (by simp) rfl ⟨rfl, rfl, rfl⟩
  | observedCancelled htask _ => exact hj.terminate_of htask rfl rfl (by simp) rfl ⟨rfl, rfl, rfl⟩
  | observed htask _ => exact hj.terminate_of htask rfl rfl (by simp) rfl (conclude_fields _)
  | cancelAgain _ _ => exact hj
  | cancelled _ _ _ =>
    refine ⟨?_, hj.turn, hj.forgotten⟩
    rw [persistTerminal, ownWrites_persist]
    exact hj.own

theorem sane_reconcile (hj : j.Sane) (reason : JobFailureReason) : (j.reconcile now reason).job.Sane := by
  refine ⟨?_, hj.turn, hj.forgotten⟩
  rw [reconcile, persistTerminal, ownWrites_persist]
  exact hj.own

theorem sane_loaded (r : JobRecord) (h : task = .done ∨ task = .resuming) : (loaded r task).Sane := by
  rcases h with rfl | rfl <;> exact sane_of_none rfl rfl (fun h => absurd rfl h) (.inl rfl)

theorem sane_admitted (r : JobRecord) : ((admitted r).persist now .admission).Sane :=
  ⟨rfl, fun h => absurd rfl h, fun h => by cases h⟩

end Job

/-! ### What a move of the Runner comes to -/

namespace JobRunner

variable (digest : String → Digest) (cfg : Config)

inductive Change (w : JobRunner) (m : Move) : JobRunner → Prop
  | refused {input environment admissionAllowed id code} (hact : m.act = .start input environment admissionAllowed id)
      (hrefused : w.admits digest cfg input environment admissionAllowed = .error code) : Change w m w
  | replayed {input environment admissionAllowed id old} (hact : m.act = .start input environment admissionAllowed id)
      (hup : w.phase = .up) (halone : w.exclusive = none)
      (hadmits : w.admits digest cfg input environment admissionAllowed = .ok (.replay old)) :
    Change w m { w with starts := w.starts ++ [(input, old)] }
  | entered {input environment admissionAllowed id key} (hact : m.act = .start input environment admissionAllowed id)
      (hup : w.phase = .up) (halone : w.exclusive = none)
      (hadmits : w.admits digest cfg input environment admissionAllowed = .ok (.fresh key)) (hnew : id ∉ w.used) :
    Change w m (w.enter digest m.now input key id)
  | moved {id move job o} (hact : m.act = .job id move) (hup : w.phase = .up) (hjob : w.jobs id = some job)
      (heffect : Job.Effect cfg.boundedExecutionPlane m.now job move o) : Change w m (w.apply id job o)
  | reconciled {reason id job} (hact : m.act = .reconcileActive reason) (hup : w.phase = .up)
      (halone : w.exclusive = none) (hactive : w.activeJob = some id) (hjob : w.jobs id = some job) :
    Change w m { w.apply id job (job.reconcile m.now reason) with exclusive := some .reconcileActive }
  | reported {id job} (hact : m.act = .report id) (hup : w.phase = .up) (hjob : w.jobs id = some job)
      (hkept : job.kept = true) : Change w m { w with reports := w.reports ++ [(id, job.public)] }
  | crashed {landed} (hact : m.act = .crash landed) (hphase : w.phase ≠ .down) : Change w m (w.crashed landed)
  | booted (hact : m.act = .boot) (hdown : w.phase = .down) : Change w m { w with phase := .loading }
  | loaded {id ok file} (hact : m.act = .loadFile id ok) (hloading : w.phase = .loading) (hnew : w.jobs id = none)
      (hfile : w.disk id = some file) : Change w m (w.loadFile cfg m.now id file ok)
  | opened (hact : m.act = .loaded) (hloading : w.phase = .loading)
      (hall : ∀ id ∈ w.used, w.disk id = none ∨ (w.jobs id).isSome = true) : Change w m { w with phase := .up }

variable {digest cfg} {w w' : JobRunner} {m : Move}

section Admit

variable {input : StartInput} {environment : Option Environment} {admissionAllowed : Bool} {key : EnvironmentKey}

theorem free_of_admissible (h : w.admissible cfg input environment admissionAllowed = .ok key) :
    w.activeJob = none ∧ key.val = input.environmentKey ∧ admissionAllowed = true := by
  obtain ⟨-, h⟩ := of_ite_error h
  cases environment with
  | none => cases h
  | some env =>
    obtain ⟨hkey, h⟩ := of_ite_error h
    obtain ⟨-, h⟩ := of_ite_error h
    obtain ⟨-, h⟩ := of_ite_error h
    obtain ⟨-, h⟩ := of_ite_error h
    obtain ⟨hactive, h⟩ := of_ite_error h
    obtain ⟨hallowed, h⟩ := of_ite_error h
    cases h
    exact ⟨by simpa using hactive, not_not.mp hkey, by simpa using hallowed⟩

theorem admits_ok {a : Admission} (h : w.admits digest cfg input environment admissionAllowed = .ok a) :
    w.storageHealthy = true ∧
      ((∃ old r, w.byDigest (digest input.idempotencyKey) = some old ∧ w.record old = some r ∧
          r.fingerprint = fingerprint digest input ∧ a = .replay old) ∨
        ∃ key, w.byDigest (digest input.idempotencyKey) = none ∧
          w.admissible cfg input environment admissionAllowed = .ok key ∧ a = .fresh key) := by
  obtain ⟨hhealthy, h⟩ := of_ite_error h
  obtain ⟨-, h⟩ := of_ite_error h
  refine ⟨by simpa using hhealthy, ?_⟩
  split at h
  · next id hid =>
    split at h
    · cases h
    · next r hr =>
      obtain ⟨hsame, h⟩ := of_ite_error h
      cases h
      exact .inl ⟨id, r, hid, hr, not_not.mp hsame, rfl⟩
  · next hnone =>
    obtain ⟨key, hkey, heq⟩ := except_map_ok.mp h
    exact .inr ⟨key, hnone, hkey, heq.symm⟩

theorem admits_wellFormed {a : Admission} (h : w.admits digest cfg input environment admissionAllowed = .ok a) :
    input.wellFormed = true := by
  obtain ⟨-, h⟩ := of_ite_error h
  obtain ⟨hform, -⟩ := of_ite_error h
  simpa using hform

theorem admits_fresh (h : w.admits digest cfg input environment admissionAllowed = .ok (.fresh key)) :
    w.storageHealthy = true ∧ w.byDigest (digest input.idempotencyKey) = none ∧ w.activeJob = none ∧
      key.val = input.environmentKey := by
  obtain ⟨hhealthy, ⟨old, r, -, -, -, heq⟩ | ⟨key', hnone, hkey, heq⟩⟩ := admits_ok h
  · cases heq
  · cases heq
    obtain ⟨hfree, hsame, -⟩ := free_of_admissible hkey
    exact ⟨hhealthy, hnone, hfree, hsame⟩

theorem admits_replay {old : JobId} (h : w.admits digest cfg input environment admissionAllowed = .ok (.replay old)) :
    w.byDigest (digest input.idempotencyKey) = some old ∧
      ∃ r, w.record old = some r ∧ r.fingerprint = fingerprint digest input := by
  obtain ⟨-, ⟨id, r, hid, hr, hsame, heq⟩ | ⟨key', -, -, heq⟩⟩ := admits_ok h
  · cases heq
    exact ⟨hid, r, hr, hsame⟩
  · cases heq

end Admit

/-- **Inversion.** Every move that is possible is one of the changes. -/
theorem change_of_step (h : w.step digest cfg m = some w') : Change digest cfg w m w' := by
  unfold step at h
  split at h
  · next input environment admissionAllowed id hact =>
    by_cases hbusy : w.phase ≠ .up ∨ w.exclusive.isSome = true
    · rw [if_pos hbusy] at h
      cases h
    rw [if_neg hbusy] at h
    obtain ⟨hup, halone⟩ := not_or.mp hbusy
    split at h
    · next hadmits =>
      cases h
      exact .refused hact hadmits
    · next hadmits =>
      cases h
      exact .replayed hact (not_not.mp hup) (by simpa using halone) hadmits
    · next hadmits =>
      split_ifs at h with hused
      cases h
      exact .entered hact (not_not.mp hup) (by simpa using halone) hadmits hused
  · next id move hact =>
    split_ifs at h with hup
    obtain ⟨job, hjob, h⟩ := Option.bind_eq_some_iff.mp h
    obtain ⟨o, ho, rfl⟩ := Option.map_eq_some_iff.mp h
    exact .moved hact (not_not.mp hup) hjob (Job.effect_of_act ho)
  · next reason hact =>
    split_ifs at h with hbusy
    obtain ⟨hup, halone⟩ := not_or.mp hbusy
    obtain ⟨id, hactive, h⟩ := Option.bind_eq_some_iff.mp h
    obtain ⟨job, hjob, rfl⟩ := Option.map_eq_some_iff.mp h
    exact .reconciled hact (not_not.mp hup) (by simpa using halone) hactive hjob
  · next id hact =>
    split_ifs at h with hup
    obtain ⟨job, hjob, rfl⟩ := Option.map_eq_some_iff.mp h
    obtain ⟨hjob, hkept⟩ := Option.filter_eq_some_iff.mp hjob
    exact .reported hact (not_not.mp hup) hjob hkept
  · next landed hact =>
    split_ifs at h with hphase
    cases h
    exact .crashed hact hphase
  · next hact =>
    split_ifs at h with hdown
    cases h
    exact .booted hact hdown
  · next id ok hact =>
    split_ifs at h with hbusy
    obtain ⟨hloading, hnew⟩ := not_or.mp hbusy
    obtain ⟨file, hfile, rfl⟩ := Option.map_eq_some_iff.mp h
    exact .loaded hact (not_not.mp hloading) (by simpa using hnew) hfile
  · next hact =>
    split_ifs at h with hall
    cases h
    refine .opened hact hall.1 fun id hid => ?_
    have := List.all_eq_true.mp hall.2 id hid
    simpa using this

end JobRunner

namespace Sample

def jobA : JobId := ⟨"aaaaaaaaaaaaaaaaaaaaaaaaaaaaaaaaaaaaaaaaaaaaaaaa", by decide⟩
def jobB : JobId := ⟨"bbbbbbbbbbbbbbbbbbbbbbbbbbbbbbbbbbbbbbbbbbbbbbbb", by decide⟩
def digestA : Digest := ⟨"aaaaaaaaaaaaaaaaaaaaaaaaaaaaaaaaaaaaaaaaaaaaaaaaaaaaaaaaaaaaaaaa", by decide⟩
def digestB : Digest := ⟨"bbbbbbbbbbbbbbbbbbbbbbbbbbbbbbbbbbbbbbbbbbbbbbbbbbbbbbbbbbbbbbbb", by decide⟩

def digest (s : String) : Digest := if s = "first" then digestA else digestB

def environment : Environment := ⟨⟨"main", by decide⟩, true, true⟩

def integrated : Config := ⟨false, false, false, true⟩
def split : Config := ⟨true, true, true, true⟩

def input (key : String) : StartInput := ⟨key, "main", "prompt", none, none, none, none, none⟩

def moves (acts : List Act) : List Move := acts.map (⟨.newYear, ·⟩)

/-- The process starts and opens. -/
def opening : List Act := [.boot, .loaded]

/-- A job is admitted and written. -/
def starting (key : String) (id : JobId) : List Act :=
  [.start (input key) (some environment) true id, .job id (.write true)]

/-- An admitted job comes to its turn. -/
def turning (id : JobId) : List Act := [.job id (.prepared true), .job id (.validated none), .job id (.write true)]

end Sample

end ADT.Runner
