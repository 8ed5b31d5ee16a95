import ADT.Runner.Idempotency

/-!
# Runner.Reload — the files of the Runner and `parsePersisted`

A record of a job is written in every state its task, `cancel` and `reconcileActive` bring it to.  It can be read again
as long as no task takes a failed record to a state that has no reason.
-/

namespace ADT.Runner

open Guarded

/-- An id that `parsePersisted` takes. -/
def idOk (s : String) : Bool := 1 ≤ utf16Length s && utf16Length s ≤ 256

theorem idBounded_some {s : String} (h : idOk s = true) : JobRecord.idBounded (some s) = true := h

/-- The ids of a record are within their bounds. -/
def JobRecord.identified (r : JobRecord) : Bool :=
  idBounded r.conversationThreadId && idBounded r.threadId && idBounded r.turnId

def JobRecord.consistent (r : JobRecord) : Bool := coherent r.state r.outputText r.reason

theorem JobRecord.sound_iff {r : JobRecord} :
    r.sound = true ↔ r.revision ≤ maxSafeInteger ∧ r.identified = true ∧ r.consistent = true := by
  simp [sound, identified, consistent, and_assoc]

/-- The record is of this job and is taken by `parsePersisted`, whatever its size. -/
structure JobRecord.Readable (id : JobId) (r : JobRecord) : Prop where
  named : r.jobId = id
  sound : r.sound = true

theorem coherent_iff {state : RecordState} {output : Option String} {reason : Option JobFailureReason} :
    coherent state output reason = true ↔
      (state = .completed ∧ (∃ s, output = some s ∧ byteLength s ≤ maxOutput) ∧ reason = none) ∨
      (state = .failed ∧ output = none ∧ reason ≠ none) ∨
      (state ≠ .completed ∧ state ≠ .failed ∧ output = none ∧ reason = none) := by
  cases output <;> cases reason <;> cases state <;> simp [coherent]

/-- A state that only the last record of a task has. -/
def RecordState.concluded : RecordState → Bool
  | .completed | .cancelled => true
  | _ => false

/-- The task has written, or is writing, its last record. -/
def Task.ended : Task → Bool
  | .closing | .ending | .done => true
  | _ => false

/-- The task is in or about its turn. -/
def Task.exposed : Task → Bool
  | .savingRunning | .turning | .settling _ => true
  | _ => false

namespace Job

variable {bounded : Bool} {now : Instant} {j : Job} {m : JobMove} {o : Outcome} {id : JobId}

/-- What the writes of a job need: the record can be read again, and only `reconcileActive` fails a record in its
turn.  A job with a failed write does not write any more. -/
structure Reloadable (id : JobId) (j : Job) : Prop where
  named : j.record.jobId = id
  identified : j.record.identified = true
  result : ∀ output threadId, j.task = .settling (.ok output threadId) → idOk threadId = true
  placed : j.record.state.concluded = true → j.task.ended = true
  written : j.broken = true ∨ (∀ w ∈ j.writes, w.record.Readable id) ∧ j.record.consistent = true ∧
    (j.record.state = .failed → j.task.exposed = true → j.forcedTerminal = true)

/-- The moves that lead to a record that cannot be read: a task goes on with a failed record, or an id is out of
bounds. -/
def misstates (j : Job) : JobMove → Bool
  | .validated none => !j.broken && j.record.state = .failed
  | .observed (some (.ok _ threadId)) => !idOk threadId || !j.broken && j.record.state = .failed
  | .onStarted threadId turnId => !(idOk threadId && idOk turnId)
  | .turnOver (some (.ok _ threadId)) => !idOk threadId
  | _ => false

variable {job : Job} {task : Task} {reason : JobFailureReason} {result : TurnResult} {rest : List Write}
  {landed : Bool}

theorem Reloadable.change (hj : j.Reloadable id) (hbroken : job.broken = j.broken)
    (hwrites : job.writes = j.writes) (hnamed : job.record.jobId = j.record.jobId)
    (hidentified : job.record.identified = true)
    (hresult : ∀ output threadId, job.task = .settling (.ok output threadId) → idOk threadId = true)
    (hplaced : job.record.state.concluded = true → job.task.ended = true)
    (hwritten : j.broken = false → j.record.consistent = true → job.record.consistent = true ∧
      (job.record.state = .failed → job.task.exposed = true → job.forcedTerminal = true)) : job.Reloadable id where
  named := hnamed.trans hj.named
  identified := hidentified
  result := hresult
  placed := hplaced
  written := by
    rw [hbroken, hwrites]
    rcases hj.written with h | ⟨hwrites, hconsistent, -⟩
    · exact .inl h
    · by_cases hb : j.broken = true
      · exact .inl hb
      · exact .inr ⟨hwrites, hwritten (by simpa using hb) hconsistent⟩

theorem Reloadable.persist (hj : j.Reloadable id) (a : Awaits) (hrevision : j.record.revision < maxSafeInteger) :
    (persist now j a).Reloadable id where
  named := hj.named
  identified := hj.identified
  result := hj.result
  placed := hj.placed
  written := by
    rcases hj.written with h | ⟨hwrites, hconsistent, hforced⟩
    · exact .inl h
    · refine .inr ⟨fun w hw => ?_, hconsistent, hforced⟩
      rcases List.mem_append.mp hw with hw | hw
      · exact hwrites w hw
      · cases List.mem_singleton.mp hw
        exact ⟨hj.named, JobRecord.sound_iff.mpr ⟨hrevision, hj.identified, hconsistent⟩⟩

theorem Reloadable.terminate (hj : j.Reloadable id) (hended : task.exposed = false)
    (hrevision : job.record.revision < maxSafeInteger) (hbroken : job.broken = j.broken)
    (hwrites : job.writes = j.writes) (hnamed : job.record.jobId = j.record.jobId)
    (hidentified : job.record.identified = true) (hplaced : job.record.state.concluded = true → task.ended = true)
    (hwritten : j.broken = false → j.record.consistent = true → job.record.consistent = true) :
    (terminate now job task).Reloadable id := by
  have hchanged : Reloadable id { job with task := task, terminalPending := true } := by
    refine hj.change hbroken hwrites hnamed hidentified ?_ hplaced ?_
    · rintro output threadId rfl
      cases hended
    · exact fun hb hc => ⟨hwritten hb hc, fun _ h => absurd (hended.symm.trans h) (by simp)⟩
  exact hchanged.persist .terminal hrevision

/-! ### Records that stay consistent -/

theorem consistent_setState {state : RecordState} (h : j.record.consistent = true) (hcompleted : j.record.state ≠ .completed)
    (hfailed : j.record.state ≠ .failed) (hstate : state ≠ .completed ∧ state ≠ .failed) :
    (j.setState state).record.consistent = true := by
  obtain ⟨hc, -⟩ | ⟨hf, -⟩ | ⟨-, -, hplain⟩ := coherent_iff.mp h
  · exact absurd hc hcompleted
  · exact absurd hf hfailed
  · exact coherent_iff.mpr (.inr (.inr ⟨hstate.1, hstate.2, hplain⟩))

theorem consistent_fail (h : j.record.consistent = true)
    (hcompleted : j.record.state ≠ .completed) : (j.fail reason).record.consistent = true := by
  obtain ⟨hc, -⟩ | ⟨-, hnone, -⟩ | ⟨-, -, hnone, -⟩ := coherent_iff.mp h
  · exact absurd hc hcompleted
  · exact coherent_iff.mpr (.inr (.inl ⟨rfl, hnone, by simp [fail]⟩))
  · exact coherent_iff.mpr (.inr (.inl ⟨rfl, hnone, by simp [fail]⟩))

theorem consistent_complete {output : Output} {threadId : String} (h : j.record.consistent = true)
    (hfailed : j.record.state ≠ .failed) : (j.complete output threadId).record.consistent = true := by
  have hreason : j.record.reason = none := by
    obtain ⟨-, -, h⟩ | ⟨hf, -⟩ | ⟨-, -, -, h⟩ := coherent_iff.mp h
    · exact h
    · exact absurd hf hfailed
    · exact h
  exact coherent_iff.mpr (.inl ⟨rfl, ⟨output.val, rfl, output.property⟩, hreason⟩)

theorem Reloadable.not_completed (hj : j.Reloadable id) (h : j.task.ended = false) : j.record.state ≠ .completed := by
  intro hc
  rw [hj.placed (by rw [hc]; rfl)] at h
  cases h

theorem identified_conclude (hj : j.record.identified = true)
    (hresult : ∀ output threadId, result = .ok output threadId → idOk threadId = true) :
    (j.conclude result).record.identified = true := by
  cases result with
  | ok output threadId =>
    simp only [JobRecord.identified, Bool.and_eq_true] at hj
    simp only [conclude, complete, JobRecord.identified, Bool.and_eq_true]
    exact ⟨⟨idBounded_some (hresult output threadId rfl), hj.1.2⟩, hj.2⟩
  | failed reason => exact hj

theorem consistent_conclude (h : j.record.consistent = true) (hcompleted : j.record.state ≠ .completed)
    (hfailed : ∀ output threadId, result = .ok output threadId → j.record.state ≠ .failed) :
    (j.conclude result).record.consistent = true := by
  cases result with
  | ok output threadId => exact consistent_complete h (hfailed output threadId rfl)
  | failed reason => exact consistent_fail h hcompleted

theorem conclude_unchanged (j : Job) (result : TurnResult) :
    (j.conclude result).broken = j.broken ∧ (j.conclude result).writes = j.writes ∧
      (j.conclude result).record.jobId = j.record.jobId ∧ (j.conclude result).record.revision = j.record.revision := by
  cases result <;> exact ⟨rfl, rfl, rfl, rfl⟩

theorem Reloadable.terminate_fail (hj : j.Reloadable id)
    (hopen : j.task.ended = false) (hended : task.exposed = false) (hrevision : j.record.revision < maxSafeInteger) :
    (Job.terminate now (j.fail reason) task).Reloadable id :=
  hj.terminate hended hrevision rfl rfl rfl hj.identified (fun h => nomatch h)
    fun _ h => consistent_fail h (hj.not_completed hopen)

theorem Reloadable.terminate_cancelled (hj : j.Reloadable id) (hcancel : j.record.state = .cancelling)
    (hended : task.exposed = false ∧ task.ended = true) (hrevision : j.record.revision < maxSafeInteger) :
    (Job.terminate now (j.setState .cancelled) task).Reloadable id :=
  hj.terminate hended.1 hrevision rfl rfl rfl hj.identified (fun _ => hended.2)
    fun _ h => consistent_setState h (by simp [hcancel]) (by simp [hcancel]) (by simp)

theorem Reloadable.terminate_conclude (hj : j.Reloadable id)
    (hopen : j.task.ended = false) (hended : task.exposed = false ∧ task.ended = true)
    (hrevision : j.record.revision < maxSafeInteger)
    (hresult : ∀ output threadId, result = .ok output threadId → idOk threadId = true)
    (hfailed : ∀ output threadId, result = .ok output threadId → j.broken = false → j.record.state ≠ .failed) :
    (Job.terminate now (j.conclude result) task).Reloadable id := by
  obtain ⟨hbroken, hwrites, hnamed, hsame⟩ := conclude_unchanged j result
  exact hj.terminate hended.1 (hsame ▸ hrevision) hbroken hwrites hnamed (identified_conclude hj.identified hresult)
    (fun _ => hended.2) fun hb h =>
      consistent_conclude h (hj.not_completed hopen) fun output threadId heq => hfailed output threadId heq hb

/-! ### Moves -/

section

variable (hj : j.Reloadable id)

include hj

theorem Reloadable.move (hbroken : job.broken = j.broken)
    (hwrites : job.writes = j.writes) (hrecord : job.record = j.record)
    (hforced : j.forcedTerminal = true → job.forcedTerminal = true)
    (hresult : ∀ output threadId, job.task = .settling (.ok output threadId) → idOk threadId = true)
    (hplaced : job.task.ended = true ∨ j.task.ended = false)
    (hexposed : job.task.exposed = true → j.task.exposed = true) : job.Reloadable id where
  named := hrecord ▸ hj.named
  identified := hrecord ▸ hj.identified
  result := hresult
  placed h := hplaced.resolve_right fun hopen => by
    have hended := hj.placed (hrecord ▸ h)
    rw [hopen] at hended
    cases hended
  written := by
    rw [hbroken, hwrites, hrecord]
    rcases hj.written with h | ⟨hreadable, hconsistent, hexposure⟩
    · exact .inl h
    · exact .inr ⟨hreadable, hconsistent, fun hfailed hexp => hforced (hexposure hfailed (hexposed hexp))⟩

theorem Reloadable.pop {w : Write} (h : j.writes = w :: rest) :
    Reloadable id { j with writes := rest, broken := j.broken || !landed } where
  named := hj.named
  identified := hj.identified
  result := hj.result
  placed := hj.placed
  written := by
    rcases hj.written with hb | ⟨hreadable, hmore⟩
    · exact .inl (by simp [hb])
    · cases landed with
      | false => exact .inl (by simp)
      | true =>
        refine .inr ⟨fun w' hw' => hreadable w' ?_, hmore⟩
        rw [h]
        exact List.mem_cons_of_mem _ hw'

theorem Reloadable.settled (hb : landed = false → j.broken = true) :
    (j.settled landed).Reloadable id := by
  cases landed with
  | true => exact hj.move rfl rfl rfl (fun h => h) hj.result (Bool.eq_false_or_eq_true _) fun h => h
  | false => exact ⟨hj.named, hj.identified, hj.result, (fun h => nomatch h), .inl (hb rfl)⟩

theorem reloadable_afterRunning (htask : j.task = .savingRunning)
    (hb : landed = false → j.broken = true) (hrevision : j.record.revision < maxSafeInteger) :
    (afterRunning now j landed).job.Reloadable id := by
  have hopen : j.task.ended = false := by rw [htask]; rfl
  unfold afterRunning
  split_ifs with hlanded hcancel
  · refine ⟨hj.named, hj.identified, ?_, fun _ => rfl, .inl (hb (by simpa using hlanded))⟩
    intro output threadId h
    cases h
  · exact hj.terminate_cancelled (cancellationRequested_iff.mp hcancel) ⟨rfl, rfl⟩ hrevision
  · refine hj.move rfl rfl rfl (fun h => h) ?_ (.inr hopen) fun _ => by rw [htask]; rfl
    intro output threadId h
    cases h

theorem reloadable_afterTerminal (hb : landed = false → j.broken = true) :
    (j.afterTerminal landed).job.Reloadable id := by
  have hsettled := hj.settled hb
  have hsame := (settled_fields (j := j) landed).2.1
  unfold afterTerminal
  dsimp only
  split
  · next h =>
    refine hsettled.move rfl rfl rfl (fun h => h) (fun _ _ h => nomatch h) (.inr ?_) fun h => nomatch h
    rw [hsame, h]
    rfl
  · exact hsettled.move rfl rfl rfl (fun h => h) (fun _ _ h => nomatch h) (.inl rfl) fun h => nomatch h
  · exact hsettled.move rfl rfl rfl (fun h => h) (fun _ _ h => nomatch h) (.inl rfl) fun h => nomatch h

theorem reloadable_wake {w : Write} (hsane : j.Sane)
    (h : j.writes = w :: rest) (hrevision : j.record.revision < maxSafeInteger) :
    (wake now { j with writes := rest, broken := j.broken || !landed } w.awaits landed).job.Reloadable id := by
  have hpop : Reloadable id { j with writes := rest, broken := j.broken || !landed } := hj.pop h
  have hb : landed = false → (j.broken || !landed) = true := fun h => by simp [h]
  cases ha : w.awaits with
  | admission =>
    have htask := (hsane.awaiting h (by rw [ha]; rfl)).1
    rw [ha] at htask
    have hopen : j.task.ended = false := by rw [admitting_of_awaits htask]; rfl
    cases hlanded : landed with
    | true =>
      rw [hlanded] at hpop
      exact hpop.move rfl rfl rfl (fun h => h) (fun _ _ h => nomatch h) (.inr hopen) fun h => nomatch h
    | false =>
      rw [hlanded] at hpop
      exact hpop.move rfl rfl rfl (fun h => h) (fun _ _ h => nomatch h) (.inl rfl) fun h => nomatch h
  | running =>
    have htask := (hsane.awaiting h (by rw [ha]; rfl)).1
    rw [ha] at htask
    exact reloadable_afterRunning hpop (saving_of_awaits htask) hb hrevision
  | terminal => exact reloadable_afterTerminal hpop hb
  | started => exact hpop.move rfl rfl rfl (fun h => h) hpop.result (Bool.eq_false_or_eq_true _) fun h => h
  | cancel => exact hpop.settled hb
  | reconcile => exact hpop.settled hb

theorem Reloadable.correlate {threadId turnId : String} {turn : Turn}
    (hthread : idOk threadId = true) (hturn : idOk turnId = true) :
    Reloadable id { j with record := { j.record with threadId := some threadId, turnId := some turnId }, turn := turn } where
  named := hj.named
  identified := by
    have hids := hj.identified
    simp only [JobRecord.identified, Bool.and_eq_true] at hids ⊢
    exact ⟨⟨hids.1.1, idBounded_some hthread⟩, idBounded_some hturn⟩
  result := hj.result
  placed := hj.placed
  written := hj.written

theorem Reloadable.run (hopen : j.task.ended = false)
    (hfailed : j.broken = false → j.record.state ≠ .failed) :
    Reloadable id { j.setState .running with task := .savingRunning } := by
  refine hj.change rfl rfl rfl hj.identified (fun _ _ h => nomatch h) (fun h => nomatch h) fun hb h => ?_
  exact ⟨consistent_setState h (hj.not_completed hopen) (hfailed hb) (by simp), fun h => nomatch h⟩

/-- No move of a job leaves a record that cannot be read back. -/
theorem reloadable_of_effect (hsane : j.Sane) (h : Effect bounded now j m o)
    (hstates : j.misstates m = false) (hrevision : j.record.revision < maxSafeInteger) : o.job.Reloadable id := by
  cases h with
  | write hwrites => exact reloadable_wake hj hsane hwrites hrevision
  | prepareCancelled htask hcancel => exact hj.terminate_cancelled hcancel ⟨rfl, rfl⟩ hrevision
  | prepareReady htask _ =>
    exact hj.move rfl rfl rfl (fun h => h) (fun _ _ h => nomatch h) (.inr (by rw [htask]; rfl)) fun h => nomatch h
  | prepareFailed htask _ => exact hj.terminate_fail (by rw [htask]; rfl) rfl hrevision
  | invalid htask => exact hj.terminate_fail (by rw [htask]; rfl) rfl hrevision
  | validCancelled htask hcancel => exact hj.terminate_cancelled hcancel ⟨rfl, rfl⟩ hrevision
  | valid htask _ =>
    have hrun := hj.run (by rw [htask]; rfl) fun hb => by simpa [misstates, hb] using hstates
    exact hrun.persist .running hrevision
  | started hturn =>
    obtain ⟨hthread, hid⟩ : idOk _ = true ∧ idOk _ = true := by simpa [misstates] using hstates
    exact (hj.correlate hthread hid).persist .started hrevision
  | late _ _ => exact hj.move rfl rfl rfl (fun h => h) hj.result (Bool.eq_false_or_eq_true _) fun h => h
  | @returned result _ _ htask =>
    refine hj.move rfl rfl rfl (fun h => h) (fun output threadId h => ?_) (.inr (by rw [htask]; rfl))
      fun _ => by rw [htask]; rfl
    cases h
    simpa [misstates] using hstates
  | rejectedStarted _ htask =>
    refine hj.change rfl rfl rfl hj.identified (fun _ _ h => nomatch h) (fun h => nomatch h) fun _ h => ?_
    exact ⟨consistent_fail (j := { j with turn := .idle }) h (hj.not_completed (by rw [htask]; rfl)), fun _ h => nomatch h⟩
  | rejected _ htask =>
    exact hj.terminate rfl hrevision rfl rfl rfl hj.identified (fun h => nomatch h)
      fun _ h => consistent_fail (j := { j with turn := .idle }) h (hj.not_completed (by rw [htask]; rfl))
  | proceedFailed htask _ _ =>
    refine hj.change rfl rfl rfl hj.identified (fun _ _ h => nomatch h) (fun h => nomatch h) fun _ h => ?_
    exact ⟨consistent_fail h (hj.not_completed (by rw [htask]; rfl)), fun _ h => nomatch h⟩
  | proceedForced htask _ _ _ =>
    exact hj.move rfl rfl rfl (fun h => h) (fun _ _ h => nomatch h) (.inl rfl) fun h => nomatch h
  | proceedCancelled htask _ _ _ hcancel => exact hj.terminate_cancelled hcancel ⟨rfl, rfl⟩ hrevision
  | @concluded result htask _ _ hforced _ =>
    refine hj.terminate_conclude (by rw [htask]; rfl) ⟨rfl, rfl⟩ hrevision ?_ ?_
    · rintro output threadId rfl
      exact hj.result output threadId htask
    · -- a record that is failed in its turn was failed by `reconcileActive`
      intro output threadId _ hb hfailed
      rcases hj.written with h | ⟨-, -, h⟩
      · exact absurd (h.symm.trans hb) (by simp)
      · exact absurd ((h hfailed (by rw [htask]; rfl)).symm.trans hforced) (by simp)
  | timedOut htask => exact hj.terminate_fail (by rw [htask]; rfl) rfl hrevision
  | interrupted htask =>
    exact hj.terminate rfl hrevision rfl rfl rfl hj.identified (fun _ => rfl) fun _ h => h
  | forced htask _ _ =>
    exact hj.move rfl rfl rfl (fun _ => rfl) (fun _ _ h => nomatch h) (.inr (by rw [htask]; rfl)) fun h => nomatch h
  | stuck htask _ _ =>
    exact hj.move rfl rfl rfl (fun h => h) (fun _ _ h => nomatch h) (.inr (by rw [htask]; rfl)) fun h => nomatch h
  | quiesced _ _ => exact hj.move rfl rfl rfl (fun h => h) (fun _ _ h => nomatch h) (.inl rfl) fun h => nomatch h
  | unobserved htask => exact hj.terminate_fail (by rw [htask]; rfl) rfl hrevision
  | observedCancelled htask hcancel => exact hj.terminate_cancelled hcancel ⟨rfl, rfl⟩ hrevision
  | @observed result htask _ =>
    refine hj.terminate_conclude (by rw [htask]; rfl) ⟨rfl, rfl⟩ hrevision ?_ ?_
    · rintro output threadId rfl
      have := (Bool.or_eq_false_iff.mp hstates).1
      simpa using this
    · rintro output threadId rfl hb
      have := (Bool.or_eq_false_iff.mp hstates).2
      simpa [hb] using this
  | cancelAgain _ _ => exact hj
  | cancelled _ hterminal hcancel =>
    have hstate : j.record.state ≠ .completed ∧ j.record.state ≠ .failed := by
      constructor <;> intro h <;> rw [h] at hterminal <;> cases hterminal
    have hchanged : Reloadable id { j.setState .cancelling with terminalPending := true } := by
      refine hj.change rfl rfl rfl hj.identified hj.result (fun h => nomatch h) fun _ h => ?_
      exact ⟨consistent_setState h hstate.1 hstate.2 (by simp), fun h => nomatch h⟩
    exact hchanged.persist .cancel hrevision

theorem reloadable_reconcile (reason : JobFailureReason)
    (hrevision : j.record.revision < maxSafeInteger) : (j.reconcile now reason).job.Reloadable id := by
  have hchanged : Reloadable id { j.fail reason with
      forcedTerminal := true, terminalPending := true,
      record := { (j.fail reason).record with outputText := none } } := by
    refine hj.change rfl rfl rfl hj.identified hj.result (fun h => nomatch h) fun _ _ => ⟨?_, fun _ _ => rfl⟩
    exact coherent_iff.mpr (.inr (.inl ⟨rfl, rfl, by simp [fail]⟩))
  exact hchanged.persist .reconcile hrevision

end

end Job

end ADT.Runner
