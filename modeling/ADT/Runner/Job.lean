import ADT.Runner.Record

/-!
# Runner.Job — one job of the Runner

One job of `PersistentCodexJobRunner`: its record, its control, its chain of writes and the task that prepares and
executes it.  `act` is what happens to the job between two awaits.  An interrupt is a request to the App Server and
changes nothing here; a wait for one may end at any time.
-/

namespace ADT.Runner

/-- The failures of `WorkflowTurnResult`. -/
inductive TurnFailure
  | runnerRestarted | threadStartFailed | turnStartFailed | turnStartAmbiguous | turnFailed | interactionRequired
  | outputTooLarge | conversationUnavailable
  deriving DecidableEq

def TurnFailure.reason : TurnFailure → JobFailureReason
  | runnerRestarted => .runnerRestarted
  | threadStartFailed => .threadStartFailed
  | turnStartFailed => .turnStartFailed
  | turnStartAmbiguous => .turnStartAmbiguous
  | turnFailed => .turnFailed
  | interactionRequired => .interactionRequired
  | outputTooLarge => .outputTooLarge
  | conversationUnavailable => .conversationUnavailable

/-- An output that `runWorkflowTurn` may return. -/
abbrev Output := {s : String // byteLength s ≤ maxOutput}

/-- `WorkflowTurnResult`, as far as the Runner reads it. -/
inductive TurnResult
  | ok (outputText : Output) (threadId : String)
  | failed (reason : TurnFailure)
  deriving DecidableEq

/-- Who waits for a write: `admit`, `execute` with a running record, `startedWrite`, or `persistTerminal` of the
job's own task, of `cancel` or of `reconcileActive`. -/
inductive Awaits
  | admission | running | started | terminal | cancel | reconcile
  deriving DecidableEq

structure Write where
  record : JobRecord
  awaits : Awaits

/-- Where the task of a job stands: the await it is at. -/
inductive Task
  | admitting                        -- `admit` waits for the first write
  | preparing                        -- `prepareEnvironment`
  | validating                       -- `app.status` and `app.listModels`
  | savingRunning                    -- the write of the running record
  | turning                          -- `Promise.race([execution,timeout])`
  | settling (result : TurnResult)   -- `await control.startedWrite`
  | failing                          -- the interrupt after a turn that was rejected
  | timingOut                        -- the write after a timeout
  | cleaning                         -- the interrupt, and the wait until the turn is over
  | draining                         -- the wait without a limit after that
  | closing                          -- the last write of `execute`
  | ending                           -- the last write of `prepareAndExecute` or of `resumePersisted`
  | resuming                         -- `observeWorkflowTurn` or `reconcileUnknownExecution`
  | done
  deriving DecidableEq

/-- The call of `runWorkflowTurn`, and whether it has reported its start. -/
inductive Turn
  | idle
  | inProgress (started : Bool)
  deriving DecidableEq

structure Job where
  record : JobRecord
  /-- Whether the maps of the Runner hold the job: a failed admission takes it out of them. -/
  kept : Bool
  /-- The writes of the job that are under way, the earliest first. -/
  writes : List Write
  /-- Whether a write has failed: every later one of the chain fails with it. -/
  broken : Bool
  task : Task
  turn : Turn
  terminalPending : Bool
  forcedTerminal : Bool
  persistenceError : Bool

/-- When the slot of the active job is given back, where it is this job's. -/
inductive Release
  | no | always | ifHealthy
  deriving DecidableEq

/-- What happens between two awaits: the job, what a write leaves in its file, whether the storage is found unhealthy,
whether the slot is given back, whether `runWorkflowTurn` is called, and whether an operation that the Runner runs alone
is over. -/
structure Outcome where
  job : Job
  stored : Option JobRecord := none
  damages : Bool := false
  releases : Release := .no
  runs : Bool := false
  ends : Bool := false

namespace Job

variable (now : Instant) (j : Job)

def admitted (record : JobRecord) : Job := ⟨record, true, [], false, .admitting, .idle, false, false, false⟩

/-- A record as `load` takes it into the maps. -/
def loaded (record : JobRecord) (task : Task) : Job := ⟨record, true, [], false, task, .idle, false, false, false⟩

def persist (awaits : Awaits) : Job :=
  let record := { j.record with revision := j.record.revision + 1, updatedAt := now }
  { j with record := record, writes := j.writes ++ [⟨record, awaits⟩] }

/-- `persistTerminal`, up to its await. -/
def persistTerminal (awaits : Awaits) : Job := persist now { j with terminalPending := true } awaits

def cancellationRequested : Bool := j.record.state = .cancelling

def setState (state : RecordState) : Job := { j with record := { j.record with state := state } }

/-- `record.state="failed";record.reason=reason` -/
def fail (reason : JobFailureReason) : Job :=
  { j with record := { j.record with state := .failed, reason := some reason } }

/-- `record.state="completed"`, with what the turn returned. -/
def complete (output : Output) (threadId : String) : Job :=
  { j with record := { j.record with
    state := .completed, outputText := some output.val, conversationThreadId := some threadId } }

def conclude : TurnResult → Job
  | .ok output threadId => j.complete output threadId
  | .failed reason => j.fail reason.reason

/-- The own task writes a terminal record and goes on with `task`. -/
def terminate (task : Task) : Job := persistTerminal now { j with task := task } .terminal

/-- The job as `persistTerminal` leaves it: its write is through, or has failed. -/
def settled (landed : Bool) : Job :=
  let job := if landed then j else j.fail .internalError
  { job with terminalPending := false }

/-- A task that ends without a write. -/
def close : Outcome := { job := { j with task := .done }, releases := .always }

/-- The task once its terminal write is through. -/
def afterTerminal (landed : Bool) : Outcome :=
  let job := j.settled landed
  match j.task with
  | .timingOut => { job := { job with task := .cleaning }, damages := !landed }
  | .closing => { job := { job with task := .done }, damages := !landed, releases := .always }
  | _ => { job := { job with task := .done }, damages := !landed, releases := .ifHealthy }

/-- The task once the running record is written. -/
def afterRunning (landed : Bool) : Outcome :=
  if !landed then { (j.fail .internalError).close with damages := true }
  else if j.cancellationRequested then { job := terminate now (j.setState .cancelled) .closing }
  else { job := { j with task := .turning, turn := .inProgress false }, runs := true }

/-- What follows the end of a write. -/
def wake (awaits : Awaits) (landed : Bool) : Outcome :=
  match awaits with
  | .admission =>
    if landed then { job := { j with task := .preparing }, ends := true }
    else { job := { j with kept := false, task := .done }, releases := .always, ends := true }
  | .running => afterRunning now j landed
  | .started => { job := { j with persistenceError := j.persistenceError || !landed }, damages := !landed }
  | .terminal => j.afterTerminal landed
  | .cancel => { job := j.settled landed, damages := !landed }
  | .reconcile => { job := j.settled landed, damages := !landed, releases := .ifHealthy, ends := true }

/-- The first write of the chain ends; `ok` where hook, file and rename succeed. -/
def write (ok : Bool) : Option Outcome :=
  match j.writes with
  | [] => none
  | w :: rest =>
    let landed := ok && !j.broken && w.record.fits
    let outcome := wake now { j with writes := rest, broken := j.broken || !landed } w.awaits landed
    some { outcome with stored := if landed then some w.record else none }

/-- What the first write of the chain leaves in the file, where it succeeds. -/
def landing : Option JobRecord :=
  match j.writes with
  | [] => none
  | w :: _ => if !j.broken && w.record.fits then some w.record else none

/-- `prepareAndExecute`, once the environment is prepared and found to be the right one. -/
def prepared (ok : Bool) : Option Outcome :=
  if j.task ≠ .preparing then none
  else if j.cancellationRequested then some { job := terminate now (j.setState .cancelled) .ending }
  else if ok then some { job := { j with task := .validating } }
  else some { job := terminate now (j.fail .repositoryPreparationFailed) .ending }

def validationReason (authentication : Bool) : JobFailureReason :=
  if authentication then .authenticationFailed else .internalError

/-- `execute`, once account and model are validated; `failure` says whether the account was missing. -/
def validated (failure : Option Bool) : Option Outcome :=
  if j.task ≠ .validating then none
  else match failure with
    | some authentication => some { job := terminate now (j.fail (validationReason authentication)) .closing }
    | none =>
      if j.cancellationRequested then some { job := terminate now (j.setState .cancelled) .closing }
      else some { job := persist now { j.setState .running with task := .savingRunning } .running }

def onStarted (threadId turnId : String) : Option Outcome :=
  if j.turn ≠ .inProgress false then none
  else
    let record := { j.record with threadId := some threadId, turnId := some turnId }
    some { job := persist now { j with record := record, turn := .inProgress true } .started }

/-- The turn returns, or is rejected. -/
def turnOver (result : Option TurnResult) : Option Outcome :=
  match j.turn with
  | .idle => none
  | .inProgress started =>
    let job := { j with turn := .idle }
    if j.task ≠ .turning then some { job := job }
    else match result with
      | some result => some { job := { job with task := .settling result } }
      | none =>
        let job := job.fail .internalError
        -- an interrupt is asked for where the turn is known, and answered later
        some { job := if started then { job with task := .failing } else terminate now job .closing }

/-- `execute`, once the write of the started turn is through. -/
def proceed : Option Outcome :=
  match j.task with
  | .settling result =>
    if j.writes.any (·.awaits = .started) then none
    else if j.persistenceError then some (j.fail .internalError).close
    else if j.forcedTerminal then some j.close
    else if j.cancellationRequested then some { job := terminate now (j.setState .cancelled) .closing }
    else some { job := terminate now (j.conclude result) .closing }
  | _ => none

/-- The turn takes longer than `durationMs`. -/
def timedOut : Option Outcome :=
  if j.task ≠ .turning then none else some { job := terminate now (j.fail .timeout) .timingOut }

/-- The interrupt after a rejected turn is answered. -/
def interrupted : Option Outcome :=
  if j.task ≠ .failing then none else some { job := terminate now j .closing }

/-- The turn is not over `cleanupMs` after the interrupt. -/
def cleanupTimedOut (bounded : Bool) : Option Outcome :=
  if j.task ≠ .cleaning ∨ j.turn = .idle then none
  else if bounded then some { job := { j with forcedTerminal := true, task := .draining } }
  else some { job := { j with task := .draining }, damages := true }

/-- The turn is over after a timeout. -/
def quiesced : Option Outcome :=
  if (j.task ≠ .cleaning ∧ j.task ≠ .draining) ∨ j.turn ≠ .idle then none else some j.close

/-- `resumePersisted`, once the execution is observed or found to be over, or the observation fails. -/
def observed (result : Option TurnResult) : Option Outcome :=
  if j.task ≠ .resuming then none
  else match result with
    | none => some { job := terminate now (j.fail .internalError) .ending }
    | some result =>
      if j.cancellationRequested then some { job := terminate now (j.setState .cancelled) .ending }
      else some { job := terminate now (j.conclude result) .ending }

def cancel : Option Outcome :=
  if !j.kept then none
  else if j.record.state.terminal || j.cancellationRequested then some { job := j }
  else some { job := persistTerminal now (j.setState .cancelling) .cancel }

/-- `reconcileActive`, of the job that holds the slot. -/
def reconcile (reason : JobFailureReason) : Outcome :=
  let job := { j.fail reason with forcedTerminal := true }
  { job := persistTerminal now { job with record := { job.record with outputText := none } } .reconcile }

end Job

/-- What can happen to a job. -/
inductive JobMove
  | write (ok : Bool)
  | prepared (ok : Bool)
  | validated (failure : Option Bool)
  | onStarted (threadId turnId : String)
  | turnOver (result : Option TurnResult)
  | proceed
  | timedOut
  | interrupted
  | cleanupTimedOut
  | quiesced
  | observed (result : Option TurnResult)
  | cancel

/-- One move of a job; `bounded` in the Runner of a bounded execution plane. -/
def Job.act (bounded : Bool) (now : Instant) (j : Job) : JobMove → Option Outcome
  | .write ok => j.write now ok
  | .prepared ok => j.prepared now ok
  | .validated failure => j.validated now failure
  | .onStarted threadId turnId => j.onStarted now threadId turnId
  | .turnOver result => j.turnOver now result
  | .proceed => j.proceed now
  | .timedOut => j.timedOut now
  | .interrupted => j.interrupted now
  | .cleanupTimedOut => j.cleanupTimedOut bounded
  | .quiesced => j.quiesced
  | .observed result => j.observed now result
  | .cancel => j.cancel now

/-- `CodexJobStatus`, without the id. -/
inductive Status
  | queued | running
  | completed (outputText : String)
  | failed (reason : JobFailureReason)
  | cancelled

/-- What a record says of its job. -/
def JobRecord.status (r : JobRecord) : Status :=
  match r.state with
  | .completed => .completed (r.outputText.getD "")
  | .failed => .failed (r.reason.getD .internalError)
  | .cancelled => .cancelled
  | .queued => .queued
  | .running | .cancelling => .running

def Job.public (j : Job) : Status := if j.terminalPending then .running else j.record.status

def Status.terminal : Status → Bool
  | .queued | .running => false
  | _ => true

end ADT.Runner
