import ADT.Emergency.State
import ADT.Runner.Jobs

/-!
# Emergency.Latch — the emergency stop and the jobs it guards

`EmergencyStopController` of `codex-runner/src/emergency-stop.ts` beside the job runner that asks it before it admits a
job.  A move is what happens between two awaits: a call enters the queue of the operations, the first one takes its turn,
the webhook answers, the file is in place, the new state replaces the old one.  The process may end between any two moves;
only the files outlive it.
-/

namespace ADT.Emergency

open Runner (JobId JobRunner)

/-- The calls of a controller. -/
inductive Call
  | latch (generation : Option String)
  | recordStoppedGeneration (generation : String)
  | triggerHardRestart
  | resume (currentGeneration : Option String) (idle : Bool)
  deriving DecidableEq

/-- A generation that is not the empty text. -/
def given (generation : Option String) : Option String := generation.filter (· ≠ "")

/-- How an operation begins: it is over, it asks the webhook, or it writes the next state. -/
inductive Turn
  | returns (ok : Bool)
  | requests
  | writes (next : EmergencyState)

/-- The operations, up to their first await. -/
def Call.turn (call : Call) (now : Instant) (s : EmergencyState) : Turn :=
  match call with
  | latch generation => .writes ⟨true, given (generation.or s.stoppedGeneration), now, .pending⟩
  | recordStoppedGeneration generation =>
    if !s.emergencyStopped || (given s.stoppedGeneration).isSome then .returns true
    else .writes { s with stoppedGeneration := some generation, updatedAt := now }
  | triggerHardRestart => if !s.emergencyStopped then .returns true else .requests
  | resume currentGeneration idle =>
    if !s.emergencyStopped then .returns true
    else if !s.restartPhaseComplete || (given currentGeneration).isNone || !idle ||
        ((given s.stoppedGeneration).isSome && currentGeneration == s.stoppedGeneration) then .returns false
    else .writes ⟨false, none, now, s.hardRestart⟩

/-- `requestExecutorRestart`; `response` says whether the webhook answered and whether with success. -/
def requestExecutorRestart (webhook : Bool) (response : Option Bool) : HardRestart :=
  if !webhook then ⟨false, false, some .notConfigured, rfl⟩
  else match response with
    | some true => ⟨true, true, none, rfl⟩
    | _ => ⟨true, false, some .requestFailed, rfl⟩

/-- Where the operation that has its turn waits. -/
inductive Await
  | webhook
  | writing (next : EmergencyState)
  | written (next : EmergencyState)

/-- What happens to a server: what an operation puts in force, what a call returns, what is admitted. -/
inductive Event
  | latched (generation : Option String)
  | recorded (generation : String)
  | restarted
  | resumed (currentGeneration : Option String)
  | returned (ticket : ℕ) (call : Call) (ok : Bool)
  | admitted (id : JobId)
  | crashed
  deriving DecidableEq

def Call.event : Call → Event
  | latch generation => .latched generation
  | recordStoppedGeneration generation => .recorded generation
  | triggerHardRestart => .restarted
  | resume currentGeneration _ => .resumed currentGeneration

structure Server where
  /-- The text of `control.json`. -/
  file : Option String
  up : Bool
  state : EmergencyState
  /-- The operation that has its turn, and those behind it, with the tickets of their callers. -/
  running : Option (ℕ × Call × Await)
  waiting : List (ℕ × Call)
  jobs : JobRunner
  /-- What has happened, the latest first. -/
  log : List Event

inductive Act
  | call (ticket : ℕ) (call : Call)
  | turn
  | answered (response : Option Bool)
  | write (ok : Bool)
  | finish
  | jobs (act : Runner.Act)
  | crash (landed : JobId → Bool)
  | boot

structure Move where
  now : Instant
  act : Act

namespace Server

/-- Empty directories and no process. -/
def initial : Server := ⟨none, false, .initial, none, [], .initial, []⟩

variable (digest : String → Runner.Digest) (cfg : Runner.Config) (webhook : Bool) (w : Server)

/-- `resume` looks at the state before it waits for its turn. -/
def refuses : Call → Bool
  | .resume _ _ => w.state.emergencyStopped && !w.state.restartPhaseComplete
  | _ => false

/-- A generation that is not written, since one is recorded, is reported to a stopped controller all the same. -/
def ignored (call : Call) : List Event :=
  match call with
  | .recordStoppedGeneration _ => if w.state.emergencyStopped then [call.event] else []
  | _ => []

def begin (now : Instant) (ticket : ℕ) (call : Call) (rest : List (ℕ × Call)) : Server :=
  match call.turn now w.state with
  | .returns ok => { w with waiting := rest, log := .returned ticket call ok :: (w.ignored call ++ w.log) }
  | .requests => { w with waiting := rest, running := some (ticket, call, .webhook) }
  | .writes next => { w with waiting := rest, running := some (ticket, call, .writing next) }

/-- The job that a move of the job runner admits. -/
def admission (act : Runner.Act) (jobs : JobRunner) : List Event :=
  match act with
  | .start _ _ _ id => if id ∉ w.jobs.used ∧ id ∈ jobs.used then [.admitted id] else []
  | _ => []

/-- Whether a move of the job runner is one of this process, and asks the latch as `admit` does. -/
def guards : Runner.Act → Bool
  | .start _ _ admissionAllowed _ => admissionAllowed == !w.state.emergencyStopped
  | .crash _ => false
  | _ => true

/-- One move; `none` where it is not possible. -/
def step (m : Move) : Option Server :=
  match m.act with
  | .call ticket call =>
    if !w.up then none
    else if w.refuses call then some { w with log := .returned ticket call false :: w.log }
    else some { w with waiting := w.waiting ++ [(ticket, call)] }
  | .turn =>
    match w.running, w.waiting with
    | none, (ticket, call) :: rest => if w.up then some (w.begin m.now ticket call rest) else none
    | _, _ => none
  | .answered response =>
    match w.running with
    | some (ticket, call, .webhook) => some { w with
        running := some (ticket, call, .writing
          { w.state with hardRestart := requestExecutorRestart webhook response, updatedAt := m.now }) }
    | _ => none
  | .write ok =>
    match w.running with
    | some (ticket, call, .writing next) =>
      if ok then some { w with
          file := some next.text, running := some (ticket, call, .written next), log := call.event :: w.log }
      else some { w with running := none, log := .returned ticket call false :: w.log }
    | _ => none
  | .finish =>
    match w.running with
    | some (ticket, call, .written next) =>
      some { w with state := next, running := none, log := .returned ticket call true :: w.log }
    | _ => none
  | .jobs act =>
    if w.up && w.guards act then (w.jobs.step digest cfg ⟨m.now, act⟩).map fun jobs =>
      { w with jobs := jobs, log := w.admission act jobs ++ w.log }
    else none
  | .crash landed =>
    if w.up then some { w with
        up := false, running := none, waiting := []
        jobs := (w.jobs.step digest cfg ⟨m.now, .crash landed⟩).getD w.jobs, log := .crashed :: w.log }
    else none
  | .boot => if w.up then none else (EmergencyState.create w.file).map fun s => { w with up := true, state := s }

end Server

end ADT.Emergency
