import ADT.Runner.Ledger

/-!
# Runner.Completion — what becomes of an output

The Runner writes an output into the record of its job, with the escapes of its JSON encoding; a record past the limit of
a state file counts as a failure of the storage.
-/

namespace ADT.Runner

open Guarded

/-- The record with which a turn ends that returns this output. -/
def JobRecord.completed (r : JobRecord) (now : Instant) (outputText threadId : String) : JobRecord :=
  { r with
    state := .completed, outputText := some outputText, conversationThreadId := some threadId
    revision := r.revision + 1, updatedAt := now }

/-- The bytes of a completed record beside its output. -/
def JobRecord.frame (r : JobRecord) (now : Instant) (threadId : String) : ℕ :=
  byteLength (r.completed now "" threadId).snapshot

namespace JobRecord

variable (r : JobRecord)

theorem fields_output (s : String) (h : r.outputText = some s) :
    ∃ f before after, r.fields = (f :: before) ++ ("outputText", .str s) :: after ∧
      ∀ s', ({ r with outputText := some s' } : JobRecord).fields = (f :: before) ++ ("outputText", .str s') :: after := by
  refine ⟨("schemaVersion", .num 1), [("revision", .num r.revision), ("jobId", .str r.jobId.val),
    ("idempotencyDigest", .str r.idempotencyDigest.val), ("fingerprint", .str r.fingerprint.val),
    ("environmentKey", .str r.environmentKey.val), ("state", .str r.state.text),
    ("createdAt", .str r.createdAt.toISOString), ("updatedAt", .str r.updatedAt.toISOString)],
    field "reason" (r.reason.map JobFailureReason.text) ++ field "threadId" r.threadId ++ field "turnId" r.turnId ++
      field "conversationThreadId" r.conversationThreadId, ?_, fun s' => ?_⟩
  · simp [fields, field, h]
  · simp [fields, field]

theorem byteLength_completed (now : Instant) (outputText threadId : String) :
    byteLength (r.completed now outputText threadId).snapshot = r.frame now threadId + escapedLength outputText := by
  obtain ⟨f, before, after, hempty, hfields⟩ := fields_output (r.completed now "" threadId) "" rfl
  have hsize : ∀ s, (Json.obj ((f :: before) ++ ("outputText", .str s) :: after)).size =
      1 + ((f :: before).map fun g => escapedLength g.1 + g.2.size + 4).sum +
        (escapedLength "outputText" + escapedLength s + 6) +
        (after.map fun g => escapedLength g.1 + g.2.size + 4).sum := by
    intro s
    have hstr := Json.size_str s
    rw [List.cons_append, Json.size_obj, ← List.cons_append, List.map_append, List.sum_append]
    rw [List.map_cons (l := after), List.sum_cons, hstr]
    dsimp only
    omega
  have houtput := hsize outputText
  have hframe := hsize ""
  rw [← hempty] at hframe
  rw [← hfields outputText] at houtput
  have hzero : escapedLength "" = 0 := rfl
  show (Json.obj (r.completed now outputText threadId).fields).size =
    (Json.obj (r.completed now "" threadId).fields).size + escapedLength outputText
  rw [show (r.completed now outputText threadId) =
    ({ r.completed now "" threadId with outputText := some outputText } : JobRecord) from rfl, houtput, hframe]
  omega

theorem fits_completed (now : Instant) (outputText threadId : String) :
    (r.completed now outputText threadId).fits = true ↔ r.frame now threadId + escapedLength outputText ≤ maxStateFile := by
  rw [fits, byteLength_completed, decide_eq_true_eq]

end JobRecord

namespace JobRunner

variable {digest : String → Digest} {cfg : Config} {w v : JobRunner} {id : JobId} {j : Job}

/-- The process has its slot taken by this job, and healthy storage. -/
structure Holds (w : JobRunner) (id : JobId) (j : Job) : Prop where
  up : w.phase = .up
  job : w.jobs id = some j
  slot : w.activeJob = some id
  healthy : w.storageHealthy = true

/-- A job in its turn: nothing has been asked of it, and only the write of its start may be under way. -/
structure InTurn (j : Job) : Prop where
  kept : j.kept = true
  task : j.task = .turning
  turn : ∃ started, j.turn = .inProgress started
  state : j.record.state = .running
  pending : ∀ write ∈ j.writes, write.awaits = .started ∧ write.record.fits = true
  steady : j.broken = false ∧ j.persistenceError = false ∧ j.forcedTerminal = false ∧ j.terminalPending = false

/-- The turn returns an output; the writes under way end, and then the last one; `finishing` says when. -/
def finishing (id : JobId) (writes : ℕ) (output : Output) (threadId : String) (returned concluded written : Instant) :
    List Move :=
  [⟨returned, .job id (.turnOver (some (.ok output threadId)))⟩] ++
    List.replicate writes ⟨returned, .job id (.write true)⟩ ++
    [⟨concluded, .job id .proceed⟩, ⟨written, .job id (.write true)⟩]

variable (digest cfg) in
/-- New jobs are admitted: every request in order, under a key that is not known, in an environment that is ready. -/
def Admitting (w : JobRunner) : Prop :=
  ∀ (input : StartInput) (env : Environment), cfg.environmentsConfigured = true → input.wellFormed = true →
    w.byDigest (digest input.idempotencyKey) = none → input.conversationRef = none →
    env.key.val = input.environmentKey → env.enabled = true → env.ready = true →
    w.admits digest cfg input (some env) true = .ok (.fresh env.key)

variable (digest cfg) in
/-- The job ends completed with this output, also in its file, and new jobs are admitted. -/
structure Completes (w : JobRunner) (id : JobId) (output : Output) : Prop where
  reported : ∃ j, w.jobs id = some j ∧ j.public = .completed output.val
  stored : ∃ r, w.disk id = some r ∧ r.status = .completed output.val
  admitting : Admitting digest cfg w

theorem Holds.move (h : Holds w id j) {move : JobMove} {o : Outcome} (now : Instant)
    (hact : j.act cfg.boundedExecutionPlane now move = some o) (hdamages : o.damages = false) (hslot : o.releases = .no) :
    w.step digest cfg ⟨now, .job id move⟩ = some (w.apply id j o) ∧ Holds (w.apply id j o) id o.job := by
  refine ⟨by simp [step, h.up, h.job, hact], h.up, Function.update_self .., ?_, ?_⟩
  · simp [apply, hslot, h.slot]
  · simp [apply, hdamages, h.healthy]

theorem Holds.land (now : Instant) {result : TurnResult} (h : Holds w id j) (htask : j.task = .settling result)
    (hpending : ∀ write ∈ j.writes, write.awaits = .started ∧ write.record.fits = true)
    (hsteady : j.broken = false ∧ j.persistenceError = false) :
    ∃ v, run (step digest cfg) (fun _ _ => true) w (List.replicate j.writes.length ⟨now, .job id (.write true)⟩) = some v ∧
      Holds v id { j with writes := [] } := by
  obtain ⟨record, kept, writes, broken, task, turn, terminalPending, forcedTerminal, persistenceError⟩ := j
  obtain ⟨rfl, rfl⟩ := hsteady
  induction writes generalizing w with
  | nil => exact ⟨w, rfl, h⟩
  | cons write rest ih =>
    obtain ⟨hawaits, hfits⟩ := hpending write List.mem_cons_self
    let next : Job := ⟨record, kept, rest, false, task, turn, terminalPending, forcedTerminal, false⟩
    have hact : Job.act cfg.boundedExecutionPlane now
        ⟨record, kept, write :: rest, false, task, turn, terminalPending, forcedTerminal, false⟩ (.write true) =
        some { job := next, stored := some write.record } := by
      simp [Job.act, Job.write, Job.wake, hawaits, hfits, next]
    obtain ⟨hstep, hnext⟩ : w.step digest cfg ⟨now, .job id (.write true)⟩ = some _ ∧ Holds _ id next :=
      h.move now hact rfl rfl
    obtain ⟨v, hrun, hv⟩ := ih hnext htask fun write' hwrite' => hpending write' (List.mem_cons_of_mem _ hwrite')
    refine ⟨v, ?_, hv⟩
    simp only [List.length_cons, List.replicate_succ, run, if_true, hstep, Option.bind_some]
    exact hrun

variable (digest cfg) in
/-- A run without a condition on its moves. -/
def runs (w : JobRunner) (ms : List Move) : Option JobRunner := run (step digest cfg) (fun _ _ => true) w ms

theorem runs_append (ms ns : List Move) : runs digest cfg w (ms ++ ns) = (runs digest cfg w ms).bind (runs digest cfg · ns) :=
  run_append _ _ _ _

theorem runs_cons (m : Move) (ms : List Move) : runs digest cfg w (m :: ms) =
    (w.step digest cfg m).bind (runs digest cfg · ms) :=
  rfl

/-- The job as its last write finds it. -/
def closing (j : Job) (output : Output) (threadId : String) (concluded : Instant) : Job :=
  Job.terminate concluded ({ j with writes := [], turn := .idle }.complete output threadId) .closing

theorem Holds.conclude (h : Holds w id j) (hj : InTurn j) (output : Output) (threadId : String)
    (returned concluded written : Instant) :
    ∃ v, runs digest cfg w (finishing id j.writes.length output threadId returned concluded written) =
        v.step digest cfg ⟨written, .job id (.write true)⟩ ∧ Holds v id (closing j output threadId concluded) := by
  obtain ⟨started, hturn⟩ := hj.turn
  obtain ⟨hbroken, herror, hforced, hpending⟩ := hj.steady
  -- the turn returns
  let settling : Job := { j with turn := .idle, task := .settling (.ok output threadId) }
  have hreturned : j.act cfg.boundedExecutionPlane returned (.turnOver (some (.ok output threadId))) =
      some { job := settling } := by
    simp [Job.act, Job.turnOver, hturn, hj.task, settling]
  obtain ⟨hstep, hsettling⟩ : w.step digest cfg ⟨returned, .job id (.turnOver (some (.ok output threadId)))⟩ = some _ ∧
      Holds _ id settling := h.move returned hreturned rfl rfl
  -- the write of its start ends
  obtain ⟨v, hlanded, hv⟩ : ∃ v, runs digest cfg _ (List.replicate j.writes.length ⟨returned, .job id (.write true)⟩) =
      some v ∧ Holds v id { settling with writes := [] } := hsettling.land returned rfl hj.pending ⟨hbroken, herror⟩
  -- the task goes on
  have hproceed : Job.act cfg.boundedExecutionPlane concluded { settling with writes := [] } .proceed =
      some { job := closing j output threadId concluded } := by
    simp [Job.act, Job.proceed, settling, closing, herror, hforced, Job.cancellationRequested, hj.state, Job.conclude,
      Job.complete, Job.terminate]
  obtain ⟨hlast, hclosing⟩ : v.step digest cfg ⟨concluded, .job id .proceed⟩ = some _ ∧
      Holds _ id (closing j output threadId concluded) := hv.move concluded hproceed rfl rfl
  refine ⟨_, ?_, hclosing⟩
  rw [finishing, runs_append, runs_append, runs_cons, hstep]
  show (Option.bind (runs digest cfg _ _) _) = _
  rw [hlanded, Option.bind_some, runs_cons, hlast, Option.bind_some, runs_cons]
  exact Option.bind_fun_some _

theorem admitting_of_free (hhealthy : w.storageHealthy = true) (hfree : w.activeJob = none) : Admitting digest cfg w := by
  intro input env hconfigured hform hnew href hkey henabled hready
  simp [admits, admissible, hhealthy, hform, hnew, hconfigured, hkey, henabled, hready, continuable, href, hfree,
    Except.map]

variable {r : JobRecord}

theorem write_last (now : Instant) (hwrites : j.writes = [⟨r, .terminal⟩]) (hb : j.broken = false) :
    j.write now true = some { Job.afterTerminal { j with writes := [], broken := !r.fits } r.fits with
      stored := if r.fits then some r else none } := by
  simp only [Job.write, hwrites, hb, Job.wake, Bool.not_false, Bool.and_true, Bool.true_and, Bool.false_or]

section

variable (h : Holds w id j) (htask : j.task = .closing) (hwrites : j.writes = [⟨r, .terminal⟩])
  (hb : j.broken = false)

include h htask hwrites hb

theorem step_closing (written : Instant) :
    w.step digest cfg ⟨written, .job id (.write true)⟩ = some (w.apply id j
      { job := { Job.settled { j with writes := [], broken := !r.fits } r.fits with task := .done }
        damages := !r.fits, releases := .always, stored := if r.fits then some r else none }) := by
  have hact : j.act cfg.boundedExecutionPlane written (.write true) = some
      { job := { Job.settled { j with writes := [], broken := !r.fits } r.fits with task := .done }
        damages := !r.fits, releases := .always, stored := if r.fits then some r else none } := by
    rw [Job.act, write_last written hwrites hb]
    simp only [Job.afterTerminal, htask]
  simp only [step, h.up, h.job, hact, ne_eq, not_true_eq_false, if_false, Option.bind_some, Option.map_some]

theorem Holds.completes_of_fits {output : Output} (hrecord : j.record = r)
    (hstatus : r.status = .completed output.val) (hfits : r.fits = true) (written : Instant) :
    ∃ v, w.step digest cfg ⟨written, .job id (.write true)⟩ = some v ∧ Completes digest cfg v id output := by
  have hstep : w.step digest cfg ⟨written, .job id (.write true)⟩ = _ := step_closing h htask hwrites hb written
  rw [hfits] at hstep
  refine ⟨_, hstep, ⟨_, Function.update_self .., ?_⟩, ⟨r, ?_, hstatus⟩, admitting_of_free ?_ ?_⟩
  · rw [← hstatus, ← hrecord]
    rfl
  · rw [apply_disk_self]
    rfl
  · simp [apply, h.healthy]
  · simp [apply, h.slot]

theorem Holds.not_completes {output : Output} (hfits : r.fits = false) (written : Instant) :
    ∃ v, w.step digest cfg ⟨written, .job id (.write true)⟩ = some v ∧ v.storageHealthy = false ∧
      ¬Completes digest cfg v id output := by
  have hstep : w.step digest cfg ⟨written, .job id (.write true)⟩ = _ := step_closing h htask hwrites hb written
  rw [hfits] at hstep
  refine ⟨_, hstep, by simp [apply], fun hcompletes => ?_⟩
  obtain ⟨j', hj', hpublic⟩ := hcompletes.reported
  rw [show (w.apply id j _).jobs id = some _ from Function.update_self ..] at hj'
  cases hj'
  cases hpublic

end

/-- **A turn that returns an output completes its job** exactly when the record with the output fits its file. -/
theorem completes_iff (h : Holds w id j) (hj : InTurn j) (output : Output) (threadId : String)
    (returned concluded written : Instant) :
    (∃ v, runs digest cfg w (finishing id j.writes.length output threadId returned concluded written) = some v ∧
      Completes digest cfg v id output) ↔
    j.record.frame concluded threadId + escapedLength output.val ≤ maxStateFile := by
  obtain ⟨v, hruns, hv⟩ : ∃ v, runs digest cfg w _ = _ ∧ Holds v id _ :=
    h.conclude hj output threadId returned concluded written
  have hwrites : (closing j output threadId concluded).writes =
    [⟨j.record.completed concluded output.val threadId, .terminal⟩] := rfl
  rw [hruns, ← JobRecord.fits_completed]
  constructor
  · rintro ⟨v', hstep, hcompletes⟩
    by_contra hfits
    obtain ⟨v'', hstep', -, hnot⟩ : ∃ v'', v.step digest cfg _ = some v'' ∧ _ ∧ ¬Completes digest cfg v'' id output :=
      hv.not_completes rfl hwrites hj.steady.1 (Bool.eq_false_iff.mpr hfits) written
    cases hstep.symm.trans hstep'
    exact hnot hcompletes
  · exact fun hfits => hv.completes_of_fits rfl hwrites hj.steady.1 rfl rfl hfits written

/-- A job in its turn, before it has reported its start; its record takes 1,000 bytes at most. -/
def Sample.inTurn (w : JobRunner) : Bool :=
  decide (w.phase = .up) && decide (w.activeJob = some Sample.jobA) && w.storageHealthy &&
    (w.jobs Sample.jobA).any fun j => j.kept && decide (j.task = .turning) && decide (j.turn = .inProgress false) &&
      decide (j.record.state = .running) && decide (j.writes = []) && !j.broken && !j.persistenceError &&
      !j.forcedTerminal && !j.terminalPending &&
      decide (j.record.frame .newYear "thread" ≤ 1000)

theorem Sample.holds (h : Sample.inTurn w = true) : ∃ j, Holds w Sample.jobA j ∧ InTurn j ∧ j.writes = [] ∧
    j.record.frame .newYear "thread" ≤ 1000 := by
  simp only [Sample.inTurn, Bool.and_eq_true, decide_eq_true_eq, Option.any_eq_true, Bool.not_eq_true'] at h
  obtain ⟨⟨⟨hup, hslot⟩, hhealthy⟩, j, hj, hfields⟩ := h
  obtain ⟨⟨⟨⟨⟨⟨⟨⟨⟨hkept, htask⟩, hturn⟩, hstate⟩, hwrites⟩, hbroken⟩, herror⟩, hforced⟩, hpending⟩, hframe⟩ := hfields
  refine ⟨j, ⟨hup, hj, hslot, hhealthy⟩, ⟨hkept, htask, ⟨_, hturn⟩, hstate, ?_, hbroken, herror, hforced, hpending⟩, hwrites,
    hframe⟩
  rw [hwrites]
  exact fun _ h => nomatch h

theorem Sample.reaches_turn : ∃ w, Reaches (step Sample.digest Sample.integrated) (fun _ _ => True) initial w ∧
    ∃ j, Holds w Sample.jobA j ∧ InTurn j ∧ j.writes = [] ∧ j.record.frame .newYear "thread" ≤ 1000 := by
  obtain ⟨w, hreach, hturn⟩ : ∃ w, Reaches (step Sample.digest Sample.integrated) _ initial w ∧ Sample.inTurn w = true :=
    reaches_of_any (fun _ _ => true)
      (Sample.moves (Sample.opening ++ Sample.starting "first" Sample.jobA ++ Sample.turning Sample.jobA)) _
      (by decide +kernel)
  exact ⟨w, hreach.mono fun _ _ _ => trivial, Sample.holds hturn⟩

/-- An output of quotation marks: a byte each, and two in the file. -/
def Sample.quotes : Output :=
  ⟨String.ofList (List.replicate maxOutput '"'), by
    rw [byteLength_ofList, List.map_replicate, List.sum_replicate]
    decide⟩

theorem Sample.escapedLength_quotes : escapedLength Sample.quotes.val = 524288 := by
  have hquote : escapedSize '"' = 2 := by decide
  rw [escapedLength, Sample.quotes, String.toList_ofList, List.map_replicate, List.sum_replicate, hquote]
  rfl

/-- A turn that returns a short output. -/
theorem completes_short : ∃ (w : JobRunner) (j : Job), Holds w Sample.jobA j ∧
    ∃ v, runs Sample.digest Sample.integrated w
      (finishing Sample.jobA j.writes.length ⟨"done", by decide⟩ "thread" .newYear .newYear .newYear) = some v ∧
      Completes Sample.digest Sample.integrated v Sample.jobA ⟨"done", by decide⟩ := by
  obtain ⟨w, -, j, hholds, hj, -, hframe⟩ := Sample.reaches_turn
  have hshort : j.record.frame .newYear "thread" + escapedLength "done" ≤ maxStateFile :=
    Nat.add_le_of_le_sub (by decide) (hframe.trans (by decide))
  exact ⟨w, j, hholds, (completes_iff hholds hj ⟨"done", by decide⟩ "thread" _ _ _).mpr hshort⟩

/-- A turn that returns nothing but quotation marks leaves a record that is too large for its file. -/
theorem quotes_fail : ¬∀ (w : JobRunner) id j (output : Output) threadId returned concluded written,
      Reaches (step Sample.digest Sample.integrated) (fun _ _ => True) initial w → Holds w id j → InTurn j →
      ∃ v, runs Sample.digest Sample.integrated w
        (finishing id j.writes.length output threadId returned concluded written) = some v ∧
        Completes Sample.digest Sample.integrated v id output := by
  intro hall
  obtain ⟨w, hreach, j, hholds, hj, -⟩ := Sample.reaches_turn
  let now : Instant := .newYear
  obtain ⟨v, hrun, hcompletes⟩ := hall w Sample.jobA j Sample.quotes "thread" now now now hreach hholds hj
  obtain ⟨u, hruns, hu⟩ : ∃ u, runs Sample.digest Sample.integrated w _ = _ ∧ Holds u Sample.jobA _ :=
    hholds.conclude hj Sample.quotes "thread" now now now
  have hwrites : (closing j Sample.quotes "thread" now).writes =
    [⟨j.record.completed now Sample.quotes.val "thread", .terminal⟩] := rfl
  have hlarge : (j.record.completed now Sample.quotes.val "thread").fits = false := by
    rw [JobRecord.fits, JobRecord.byteLength_completed, Sample.escapedLength_quotes, decide_eq_false_iff_not]
    simp only [maxStateFile]
    omega
  obtain ⟨v', hstep, -, hnot⟩ : ∃ v', u.step Sample.digest Sample.integrated _ = some v' ∧ _ ∧
      ¬Completes Sample.digest Sample.integrated v' Sample.jobA Sample.quotes :=
    hu.not_completes rfl hwrites hj.steady.1 hlarge now
  cases (hruns.symm.trans hrun).symm.trans hstep
  exact hnot hcompletes

end JobRunner

end ADT.Runner
