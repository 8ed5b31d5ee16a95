import ADT.Lib.Json

/-!
# AppServer.Client — the client of the App Server

`StdioAppServerClient` of `codex-runner/src/app-server-client.ts`: the process it speaks to, the requests that are
pending, the lifecycle of a workflow turn, and where `runWorkflowTurn` stands.  A move is one message, one failure, one
timer or one step that the client takes when what it waits for is there.  Requests of the other methods, which share the
process and the table of pending requests, are moves of their own.
-/

namespace ADT.AppServer

def string? (value : Json) (key : String) : Option String := (value.get? key).bind Json.asStr?

/-- `identifier(value, key)` -/
def identifier (value : Option Json) (key : String) : Option String := (value.bind (·.get? key)).bind (string? · "id")

/-- How the promise of a request is settled. -/
inductive Answer
  | result (value : Option Json)
  | rejected
  | unavailable
  | timeout

/-- The id of the turn that a notification names. -/
def observedId (params : Json) : Option String :=
  ((string? params "turnId").filter (· ≠ "")).or ((identifier (some params) "turn").filter (· ≠ ""))

/-- The text of an agent message that is completed. -/
def agentMessage (method : String) (params : Json) : Option String :=
  if method = "item/completed" then
    (params.get? "item").bind fun item => if string? item "type" = some "agentMessage" then string? item "text" else none
  else none

/-! ### The client -/

inductive Completion
  | completed | failed | interaction

/-- `workflowLifecycle`, with what its promises `startObserved` and `completion` are resolved with.  `request` is the
`turn/start` it was registered for, `served` the process that it was sent to, and `log` has the messages since. -/
structure Lifecycle where
  threadId : String
  turnId : Option String
  agentText : Option String
  startObserved : Option String
  completion : Option Completion
  request : ℕ
  served : Option ℕ
  log : List Json

inductive FailureReason
  | threadStartFailed | conversationUnavailable | turnStartFailed | turnStartAmbiguous | turnFailed | interactionRequired
  | outputTooLarge

inductive WorkflowTurnResult
  | ok (outputText threadId turnId : String)
  | failed (reason : FailureReason) (threadId turnId : Option String)

/-- `initialize` of a process: its request, the notification after it, and how its promise is settled. -/
inductive Readiness
  | requesting (request : ℕ) (answer : Option Answer)
  | announcing
  | ready
  | failed

/-- Where `runWorkflowTurn` stands: what it waits for, and what has come of it. -/
inductive Call
  | idle
  | preparing (resume : Option String) (process : ℕ)
  | openingThread (resume : Option String) (request : ℕ) (answer : Option Answer)
  | starting (threadId : String) (request : ℕ) (answer : Option Answer)
  | reconciling (threadId : String) (request : ℕ) (answer : Option Answer) (timedOut : Bool)
  | running (threadId turnId : String)
  | interrupting (threadId turnId : String)
  | returned (result : WorkflowTurnResult) (lifecycle : Option Lifecycle)

structure Pending where
  id : ℕ
  timed : Bool

/-- Processes are counted from one; `initialization` is set and unset with `process`, and `readiness` tells of each process
how its initialization stands. -/
structure Client where
  process : Option ℕ
  processes : ℕ
  readiness : ℕ → Readiness
  id : ℕ
  pending : List Pending
  workflow : Option Lifecycle
  call : Call

def initial : Client := ⟨none, 0, fun _ => .failed, 0, [], none, .idle⟩

def settleOnce (id request : ℕ) (answer : Answer) (settled : Option Answer) : Option Answer :=
  if request = id then settled.or (some answer) else settled

def Call.settle (id : ℕ) (answer : Answer) : Call → Call
  | openingThread resume request settled => openingThread resume request (settleOnce id request answer settled)
  | starting threadId request settled => starting threadId request (settleOnce id request answer settled)
  | reconciling threadId request settled timedOut =>
    reconciling threadId request (settleOnce id request answer settled) timedOut
  | call => call

def Readiness.settle (id : ℕ) (answer : Answer) : Readiness → Readiness
  | requesting request settled => requesting request (settleOnce id request answer settled)
  | readiness => readiness

namespace Client

def settle (c : Client) (id : ℕ) (answer : Answer) : Client :=
  { c with readiness := fun n => (c.readiness n).settle id answer, call := c.call.settle id answer }

def abandon (c : Client) (id : ℕ) : Client := { c with pending := c.pending.filter (·.id ≠ id) }

/-- A request that is written to the process; it has the next id. -/
def request (c : Client) (timed : Bool) : Client :=
  { c with id := c.id + 1, pending := c.pending ++ [⟨c.id + 1, timed⟩] }

def failProcess (c : Client) : Client :=
  { c.pending.foldl (fun c pending => c.settle pending.id .unavailable) c with process := none, pending := [] }

/-- `start` and `initialize` up to its request. -/
def start (c : Client) : Client :=
  { c.request true with
    process := some (c.processes + 1)
    processes := c.processes + 1
    readiness := Function.update c.readiness (c.processes + 1) (.requesting (c.id + 1) none) }

/-- `ready()`, with the process whose initialization is awaited; `none` where the process cannot be spawned. -/
def ready (c : Client) (spawns : Bool) : Option (Client × ℕ) :=
  match c.process with
  | some n => some (c, n)
  | none => if spawns then some (c.start, c.processes + 1) else none

/-! ### Receiving -/

/-- A message for the thread of the lifecycle, of its turn as far as that is known and named. -/
def accepts (lifecycle : Lifecycle) (params : Json) : Bool :=
  string? params "threadId" == some lifecycle.threadId &&
    (lifecycle.turnId.isNone || (params.get? "turnId").isNone || string? params "turnId" == lifecycle.turnId)

end Client

namespace Lifecycle

def complete (l : Lifecycle) (completion : Completion) : Lifecycle :=
  { l with completion := l.completion.or (some completion) }

/-- `turnId` is learned, and `observeStart` is called. -/
def observe (l : Lifecycle) (params : Json) : Lifecycle :=
  { l with turnId := l.turnId.or (observedId params), startObserved := l.startObserved.or (observedId params) }

def take (l : Lifecycle) (method : String) (params : Json) : Lifecycle :=
  { l with agentText := (agentMessage method params).or l.agentText }

def finish (l : Lifecycle) (method : String) (params : Json) : Lifecycle :=
  if method = "turn/completed" then
    l.complete (if ((params.get? "turn").bind (string? · "status")) = some "completed" then .completed else .failed)
  else l

end Lifecycle

namespace Client

def receiveServerRequest (c : Client) (params : Json) : Client :=
  { c with workflow := c.workflow.map fun l => if accepts l params then l.complete .interaction else l }

def receiveTurnNotification (c : Client) (method : String) (params : Json) : Client :=
  { c with workflow := c.workflow.map fun l =>
      if accepts l params then ((l.observe params).take method params).finish method params else l }

/-- A response to a pending request. -/
def receiveResponse (c : Client) (message : Json) : Client :=
  match message.get? "id" with
  | some (.num n) =>
    match c.pending.find? fun pending => (pending.id : ℤ) == n with
    | some pending =>
      (c.abandon pending.id).settle pending.id
        (if (message.get? "error").isNone then .result (message.get? "result") else .rejected)
    | none => c
  | _ => c

def receive (c : Client) (message : Json) : Client :=
  let c := { c with workflow := c.workflow.map fun l => { l with log := l.log ++ [message] } }
  match message.get? "method" with
  | some (.str method) =>
    match message.get? "params" with
    | some params =>
      if (message.get? "id").isSome then c.receiveServerRequest params else c.receiveTurnNotification method params
    | none => c
  | _ => c.receiveResponse message

/-! ### `runWorkflowTurn` -/

/-- The call returns, and `workflowLifecycle` is unset. -/
def returning (c : Client) (result : WorkflowTurnResult) : Client :=
  { c with workflow := none, call := .returned result c.workflow }

def unopened (c : Client) (resume : Option String) : Client :=
  c.returning (.failed (if resume.isSome then .conversationUnavailable else .threadStartFailed) none none)

/-- The lifecycle is registered, and `turn/start` is dispatched. -/
def startTurn (c : Client) (threadId : String) : Client :=
  { c.request false with
    workflow := some ⟨threadId, none, none, none, none, c.id + 1, c.process, []⟩
    call := .starting threadId (c.id + 1) none }

def runTurn (c : Client) (threadId turnId : String) (request : ℕ) : Client :=
  { c.abandon request with
    workflow := c.workflow.map fun l => { l with turnId := some turnId }
    call := .running threadId turnId }

def turnOf (value : Option Json) : Option String := (identifier value "turn").filter (· ≠ "")

/-- What wins a race. -/
inductive First
  | acknowledgement | deadline | observed

/-- The first race, for the acknowledgement of the turn. -/
def race (c : Client) (threadId : String) (request : ℕ) (answer : Option Answer) : First → Option Client
  | .acknowledgement =>
    match answer with
    | none => none
    | some .rejected => some (c.returning (.failed .turnStartFailed threadId none))
    | some (.result value) =>
      match turnOf value with
      | some turnId => some (c.runTurn threadId turnId request)
      | none => some { c with call := .reconciling threadId request answer false }
    | some .unavailable => some { c with call := .reconciling threadId request answer false }
    | some .timeout => some { c with call := .reconciling threadId request answer false }
  | .deadline => some { c with call := .reconciling threadId request answer true }
  | .observed => (c.workflow.bind (·.startObserved)).map fun turnId => c.runTurn threadId turnId request

def ambiguous (c : Client) (threadId : String) (request : ℕ) : Client :=
  (c.abandon request).returning (.failed .turnStartAmbiguous threadId none)

/-- The second race, after an acknowledgement that says nothing or did not come in time. -/
def reconcile (c : Client) (threadId : String) (request : ℕ) (answer : Option Answer) (timedOut : Bool) :
    First → Option Client
  | .acknowledgement =>
    match timedOut, answer with
    | true, some (.result value) =>
      match turnOf value with
      | some turnId => some (c.runTurn threadId turnId request)
      | none => some (c.ambiguous threadId request)
    | true, some _ => some (c.ambiguous threadId request)
    | _, _ => none
  | .deadline => some (c.ambiguous threadId request)
  | .observed => (c.workflow.bind (·.startObserved)).map fun turnId => c.runTurn threadId turnId request

def maxOutputBytes : ℕ := 262144

/-- What becomes of a turn that is over. -/
def conclude (c : Client) (threadId turnId : String) (l : Lifecycle) : Completion → Client
  | .interaction => { c with call := .interrupting threadId turnId }
  | .failed => c.returning (.failed .turnFailed threadId turnId)
  | .completed =>
    match l.agentText with
    | none => c.returning (.failed .turnFailed threadId turnId)
    | some text =>
      if maxOutputBytes < text.utf8ByteSize then c.returning (.failed .outputTooLarge threadId turnId)
      else c.returning (.ok text threadId turnId)

end Client

/-! ### Moves -/

/-- What a process fails by: `error`, `exit`, or an error of its standard input. -/
inductive Trigger
  | error | exit | stdin

inductive Move
  | call (resumeThreadId : Option String) (spawns : Bool)
  | other (spawns : Bool)
  | otherRequest
  | line (message : Json)
  | writeFailed (id : ℕ)
  | timedOut (id : ℕ)
  | childFailed (process : ℕ) (trigger : Trigger)
  | close
  | initialized (process : ℕ)
  | announced (process : ℕ)
  | announceFailed (process : ℕ)
  | prepared
  | threadOpened
  | raced (first : Client.First)
  | reconciled (first : Client.First)
  | concluded
  | interrupted

namespace Client

/-- `await this.ready()` and then the request for the thread. -/
def openThread (c : Client) (resume : Option String) : Readiness → Option Client
  | .ready => some { c.request true with call := .openingThread resume (c.id + 1) none }
  | .failed => some (c.unopened resume)
  | _ => none

/-- The thread is open, or not the one that was to be resumed. -/
def enterThread (c : Client) (resume : Option String) : Answer → Client
  | .result value =>
    match (identifier value "thread").filter (· ≠ "") with
    | some threadId => if resume.any (· ≠ threadId) then c.unopened resume else c.startTurn threadId
    | none => c.unopened resume
  | _ => c.unopened resume

/-- `initialize` after the answer to its request. -/
def initialized (c : Client) (process : ℕ) : Answer → Client
  | .result _ => { c with readiness := Function.update c.readiness process .announcing }
  | _ => { c.failProcess with readiness := Function.update c.failProcess.readiness process .failed }

def canCall (c : Client) : Bool :=
  match c.call with
  | .idle => c.workflow.isNone
  | .returned _ _ => c.workflow.isNone
  | _ => false

def step (c : Client) : Move → Option Client
  | .call resumeThreadId spawns =>
    let resume := resumeThreadId.filter (· ≠ "")
    if c.canCall then
      match c.ready spawns with
      | some (c', process) => some { c' with call := .preparing resume process }
      | none => some (c.unopened resume)
    else none
  | .other spawns => (c.ready spawns).map (·.1)
  | .otherRequest => some (c.request true)
  | .line message => if c.process.isSome then some (c.receive message) else none
  | .writeFailed id =>
    if c.pending.any (·.id == id) then some ((c.abandon id).settle id .unavailable).failProcess else none
  | .timedOut id =>
    if c.pending.any (fun pending => pending.id == id && pending.timed) then some ((c.abandon id).settle id .timeout)
    else none
  | .childFailed process _ => if 0 < process ∧ process ≤ c.processes then some c.failProcess else none
  | .close => some (if c.process.isSome then c.failProcess else c)
  | .initialized process =>
    match c.readiness process with
    | .requesting _ (some answer) => some (c.initialized process answer)
    | _ => none
  | .announced process =>
    match c.readiness process with
    | .announcing => some { c with readiness := Function.update c.readiness process .ready }
    | _ => none
  | .announceFailed process =>
    match c.readiness process with
    | .announcing => some { c.failProcess with readiness := Function.update c.failProcess.readiness process .failed }
    | _ => none
  | .prepared =>
    match c.call with
    | .preparing resume process => c.openThread resume (c.readiness process)
    | _ => none
  | .threadOpened =>
    match c.call with
    | .openingThread resume _ (some answer) => some (c.enterThread resume answer)
    | _ => none
  | .raced first =>
    match c.call with
    | .starting threadId request answer => c.race threadId request answer first
    | _ => none
  | .reconciled first =>
    match c.call with
    | .reconciling threadId request answer timedOut => c.reconcile threadId request answer timedOut first
    | _ => none
  | .concluded =>
    match c.call, c.workflow.bind fun l => l.completion.map (l, ·) with
    | .running threadId turnId, some (l, completion) => some (c.conclude threadId turnId l completion)
    | _, _ => none
  | .interrupted =>
    match c.call with
    | .interrupting threadId turnId => some (c.returning (.failed .interactionRequired threadId turnId))
    | _ => none

/-! ### What the operations leave alone -/

variable {c : Client}

theorem settle_all_workflow (pending : List Pending) (c : Client) :
    (pending.foldl (fun c pending => c.settle pending.id .unavailable) c).workflow = c.workflow := by
  induction pending generalizing c with
  | nil => rfl
  | cons p pending ih => exact ih (c.settle p.id .unavailable)

@[simp] theorem failProcess_workflow : c.failProcess.workflow = c.workflow := settle_all_workflow c.pending c

@[simp] theorem failProcess_process : c.failProcess.process = none := rfl

theorem ready_cases {spawns : Bool} {c' : Client} {process : ℕ} (h : c.ready spawns = some (c', process)) :
    (c' = c ∧ c.process = some process) ∨ (c' = c.start ∧ c.process = none) := by
  unfold ready at h
  rcases hprocess : c.process with _ | n
  · rw [hprocess] at h
    dsimp only at h
    split at h
    · cases h
      exact .inr ⟨rfl, rfl⟩
    · cases h
  · rw [hprocess] at h
    cases h
    exact .inl ⟨rfl, rfl⟩

@[simp] theorem receiveResponse_process (message : Json) : (c.receiveResponse message).process = c.process := by
  unfold receiveResponse
  split
  · split
    · rfl
    · rfl
  · rfl

@[simp] theorem receiveResponse_workflow (message : Json) : (c.receiveResponse message).workflow = c.workflow := by
  unfold receiveResponse
  split
  · split
    · rfl
    · rfl
  · rfl

theorem receive_process (message : Json) : (c.receive message).process = c.process := by
  unfold receive
  dsimp only
  split
  · split
    · split
      · rfl
      · rfl
    · rfl
  · rw [receiveResponse_process]

end Client

namespace Client

variable {c : Client}

/-! ### What a move does -/

/-- What comes of a move that is possible. -/
inductive Outcome (c : Client) : Move → Client → Prop
  | called {started : Client} {process : ℕ} (resumeThreadId : Option String) (spawns : Bool)
      (ready : c.ready spawns = some (started, process)) : Outcome c (.call resumeThreadId spawns)
        { started with call := .preparing (resumeThreadId.filter (· ≠ "")) process }
  | uncalled (resumeThreadId : Option String) (spawns : Bool) : Outcome c (.call resumeThreadId spawns)
      (c.unopened (resumeThreadId.filter (· ≠ "")))
  | readied {started : Client} {process : ℕ} (spawns : Bool) (ready : c.ready spawns = some (started, process)) :
      Outcome c (.other spawns) started
  | requested : Outcome c .otherRequest (c.request true)
  | received (message : Json) : Outcome c (.line message) (c.receive message)
  | writeFailed (id : ℕ) : Outcome c (.writeFailed id) ((c.abandon id).settle id .unavailable).failProcess
  | timedOut (id : ℕ) : Outcome c (.timedOut id) ((c.abandon id).settle id .timeout)
  | childFailed (process : ℕ) (trigger : Trigger) : Outcome c (.childFailed process trigger) c.failProcess
  | closed : Outcome c .close (if c.process.isSome then c.failProcess else c)
  | initialized {request : ℕ} {answer : Answer} (process : ℕ) (ready : c.readiness process = .requesting request (some answer)) :
      Outcome c (.initialized process) (c.initialized process answer)
  | announced (process : ℕ) : Outcome c (.announced process)
      { c with readiness := Function.update c.readiness process .ready }
  | announceFailed (process : ℕ) : Outcome c (.announceFailed process)
      { c.failProcess with readiness := Function.update c.failProcess.readiness process .failed }
  | prepared (resume : Option String) : Outcome c .prepared
      { c.request true with call := .openingThread resume (c.id + 1) none }
  | unprepared (resume : Option String) : Outcome c .prepared (c.unopened resume)
  | threadOpened (resume : Option String) (answer : Answer) : Outcome c .threadOpened (c.enterThread resume answer)
  | raced {threadId : String} {request : ℕ} {answer : Option Answer} {first : First} {c' : Client}
      (call : c.call = .starting threadId request answer) (race : c.race threadId request answer first = some c') :
      Outcome c (.raced first) c'
  | reconciled {threadId : String} {request : ℕ} {answer : Option Answer} {timedOut : Bool} {first : First} {c' : Client}
      (call : c.call = .reconciling threadId request answer timedOut)
      (reconcile : c.reconcile threadId request answer timedOut first = some c') : Outcome c (.reconciled first) c'
  | concluded {threadId turnId : String} {l : Lifecycle} {completion : Completion} (call : c.call = .running threadId turnId)
      (workflow : c.workflow = some l) (completed : l.completion = some completion) :
      Outcome c .concluded (c.conclude threadId turnId l completion)
  | interrupted (threadId turnId : String) :
      Outcome c .interrupted (c.returning (.failed .interactionRequired threadId turnId))

theorem openThread_cases {resume : Option String} {readiness : Readiness} {c' : Client}
    (h : c.openThread resume readiness = some c') :
    c' = { c.request true with call := .openingThread resume (c.id + 1) none } ∨ c' = c.unopened resume := by
  unfold openThread at h
  split at h
  · exact .inl (Option.some.inj h).symm
  · exact .inr (Option.some.inj h).symm
  · cases h

/-- **Inversion.** Every move that is possible has one of the outcomes. -/
theorem step_outcome {m : Move} {c' : Client} (h : c.step m = some c') : c.Outcome m c' := by
  cases m <;> simp only [step, Option.ite_none_right_eq_some, Option.some.injEq, Option.map_eq_some_iff] at h
  case call resumeThreadId spawns =>
    obtain ⟨-, h⟩ := h
    split at h
    · rename_i started process hready
      cases h
      exact .called resumeThreadId spawns hready
    · cases h
      exact .uncalled resumeThreadId spawns
  case other spawns =>
    obtain ⟨⟨started, process⟩, hready, rfl⟩ := h
    exact .readied spawns hready
  case otherRequest =>
    subst h
    exact .requested
  case line message =>
    obtain ⟨-, rfl⟩ := h
    exact .received message
  case writeFailed id =>
    obtain ⟨-, rfl⟩ := h
    exact .writeFailed id
  case timedOut id =>
    obtain ⟨-, rfl⟩ := h
    exact .timedOut id
  case childFailed process trigger =>
    obtain ⟨-, rfl⟩ := h
    exact .childFailed process trigger
  case close =>
    subst h
    exact .closed
  case initialized process =>
    split at h
    · rename_i request answer hready
      cases h
      exact .initialized process hready
    · cases h
  case announced process =>
    split at h
    · cases h
      exact .announced process
    · cases h
  case announceFailed process =>
    split at h
    · cases h
      exact .announceFailed process
    · cases h
  case prepared =>
    split at h
    · rcases openThread_cases h with rfl | rfl
      · exact .prepared _
      · exact .unprepared _
    · cases h
  case threadOpened =>
    split at h
    · cases h
      exact .threadOpened _ _
    · cases h
  case raced first =>
    split at h
    · rename_i hcall
      exact .raced hcall h
    · cases h
  case reconciled first =>
    split at h
    · rename_i hcall
      exact .reconciled hcall h
    · cases h
  case concluded =>
    split at h
    · rename_i threadId turnId l completion hcall hover
      cases h
      obtain ⟨registered, hworkflow, hover⟩ := Option.bind_eq_some_iff.mp hover
      obtain ⟨k, hcompletion, hsame⟩ := Option.map_eq_some_iff.mp hover
      obtain ⟨rfl, rfl⟩ := Prod.mk.inj hsame
      exact .concluded hcall hworkflow hcompletion
    · cases h
  case interrupted =>
    split at h
    · cases h
      exact .interrupted _ _
    · cases h

end Client

/-- What a message makes of a lifecycle. -/
def Lifecycle.receive (l : Lifecycle) (message : Json) : Lifecycle :=
  let l := { l with log := l.log ++ [message] }
  match message.get? "method", message.get? "params" with
  | some (.str method), some params =>
    if Client.accepts l params then
      if (message.get? "id").isSome then l.complete .interaction else
        ((l.observe params).take method params).finish method params
    else l
  | _, _ => l

theorem Client.receive_workflow (c : Client) (message : Json) :
    (c.receive message).workflow = c.workflow.map (·.receive message) := by
  unfold Client.receive Lifecycle.receive
  dsimp only
  rcases hmethod : message.get? "method" with _ | method
  · rw [receiveResponse_workflow]
  · cases method with
    | str method =>
      dsimp only
      rcases hparams : message.get? "params" with _ | params
      · rfl
      · dsimp only
        by_cases hid : (message.get? "id").isSome = true
        · rw [if_pos hid]
          unfold Client.receiveServerRequest
          rw [Option.map_map]
          refine congrArg (Option.map · c.workflow) (funext fun l => ?_)
          rw [if_pos hid]
          rfl
        · rw [if_neg hid]
          unfold Client.receiveTurnNotification
          rw [Option.map_map]
          refine congrArg (Option.map · c.workflow) (funext fun l => ?_)
          rw [if_neg hid]
          rfl
    | null => rw [receiveResponse_workflow]
    | bool b => rw [receiveResponse_workflow]
    | num n => rw [receiveResponse_workflow]
    | arr items => rw [receiveResponse_workflow]
    | obj fields => rw [receiveResponse_workflow]

end ADT.AppServer
