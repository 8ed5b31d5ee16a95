import ADT.Durable.NodeTurn

/-!
# Durable.CodexRunner — the adapter of the Codex Runner

`CodexRunnerWorkflowGateway` of `lib/codex-runner-workflow-gateway.ts` and `CodexRunnerAdapter` of
`lib/codex-runner-adapter.ts`: what an exchange with the Runner comes to, how its answers are decoded, and what the
adapter makes of the job.
-/

namespace ADT.Durable

open Storage

/-! ### The gateway -/

inductive RunnerJobFailureReason
  | authenticationFailed | repositoryPreparationFailed | runnerRestarted | threadStartFailed | turnStartFailed
  | turnStartAmbiguous | turnFailed | interactionRequired | outputTooLarge | timeout | conversationUnavailable
  | internalError

inductive RunnerJob
  | queued (jobId : String)
  | running (jobId : String)
  | completed (jobId outputText : String)
  | failed (jobId : String) (reason : RunnerJobFailureReason)
  | cancelled (jobId : String)

structure RunnerGatewayError where
  code : String
  ambiguous : Bool
  transportDiagnostics : Option ProviderTransportDiagnostics

/-- An error of the gateway, or any other. -/
inductive RunnerError
  | gateway (e : RunnerGatewayError)
  | other (e : Thrown)

/-- `new RunnerGatewayError(code)` -/
def RunnerError.code (code : String) : RunnerError := .gateway ⟨code, false, none⟩

/-- What a request to the Runner comes to; `body` is `none` where the text cannot be read, is longer than 300 000
bytes, or is no JSON. -/
inductive Exchange
  | threw (elapsedMs : Time) (timedOut : Bool) (reason : TransportReason)
  | response (status : ℕ) (elapsedMs : Time) (body : Option Json)

def isLocalRuntimeTransportRejection : TransportReason → Bool
  | .crossRequestIo | .invalidRequestContext => true
  | _ => false

/-- The `error` of a refusal, or `runner_unavailable`. -/
def refusalCode (status : ℕ) (value : Json) : String :=
  if status = 401 then "authentication_failed"
  else ((value.get? "error").bind Json.asStr?).getD "runner_unavailable"

/-- `request` -/
def runnerRequest (ambiguous : Bool) : Exchange → Except RunnerError Json
  | .threw elapsedMs timedOut reason =>
    .error (.gateway ⟨"runner_unavailable", ambiguous && !isLocalRuntimeTransportRejection reason,
      some ⟨elapsedMs, if timedOut then .timeout else .networkError, some reason⟩⟩)
  | .response status elapsedMs body =>
    let diagnostics := some ⟨elapsedMs, .responseReceived, none⟩
    match body with
    | none => .error (.gateway ⟨"invalid_response", ambiguous && 500 ≤ status, diagnostics⟩)
    | some value =>
      if 200 ≤ status ∧ status ≤ 299 then .ok value
      else .error (.gateway ⟨refusalCode status value, ambiguous && 500 ≤ status, diagnostics⟩)

/-- `JOB_ID` -/
def isJobId (id : String) : Bool :=
  id.toList.length = 48 && id.toList.all fun c => c.isDigit || 'a' ≤ c && c ≤ 'f'

def maxOutput : ℕ := 262144

/-- `FAILURES` -/
def failureReason : String → Option RunnerJobFailureReason
  | "authentication_failed" => some .authenticationFailed
  | "repository_preparation_failed" => some .repositoryPreparationFailed
  | "runner_restarted" => some .runnerRestarted
  | "thread_start_failed" => some .threadStartFailed
  | "turn_start_failed" => some .turnStartFailed
  | "turn_start_ambiguous" => some .turnStartAmbiguous
  | "turn_failed" => some .turnFailed
  | "interaction_required" => some .interactionRequired
  | "output_too_large" => some .outputTooLarge
  | "timeout" => some .timeout
  | "conversation_unavailable" => some .conversationUnavailable
  | "internal_error" => some .internalError
  | _ => none

/-- A job that is done, by its state. -/
def doneJob (jobId state : String) (fields : List (String × Json)) : Option RunnerJob :=
  let text k := ((Json.obj fields).get? k).bind Json.asStr?
  if fields.length ≠ 3 then none
  else if state = "completed" then
    ((text "outputText").filter fun output => byteLength output ≤ maxOutput).map (.completed jobId)
  else if state = "failed" then ((text "reason").bind failureReason).map (.failed jobId)
  else none

def jobOf (fields : List (String × Json)) : Option RunnerJob :=
  let text k := ((Json.obj fields).get? k).bind Json.asStr?
  (text "jobId").bind fun jobId => (text "state").bind fun state =>
    if !isJobId jobId then none
    else if state = "queued" ∨ state = "running" ∨ state = "cancelled" then
      if fields.length ≠ 2 then none
      else some (if state = "queued" then .queued jobId else if state = "running" then .running jobId else .cancelled jobId)
    else doneJob jobId state fields

/-- `job` -/
def runnerJob : Json → Except RunnerError RunnerJob
  | .obj fields => (jobOf fields).elim (.error (.code "invalid_response")) .ok
  | _ => .error (.code "invalid_response")

/-- What the exchanges of one call of the adapter come to; `options` and `prepared` are what precedes them: that the
options parse, and the managed repository with its credential and the connection. -/
structure RunnerAnswers where
  options : Except Thrown Unit
  prepared : Except RunnerError Unit
  capabilities : Exchange
  submit : Exchange
  byIdempotency : Exchange
  status : Exchange

/-- `lookup` -/
def gatewayLookup (x : RunnerAnswers) : Except RunnerError (Option RunnerJob) :=
  match runnerRequest false x.byIdempotency >>= runnerJob with
  | .ok job => .ok (some job)
  | .error (.gateway e) => if e.code = "not_found" then .ok none else .error (.gateway e)
  | .error e => .error e

/-- A conversation is continued only by a Runner that says it can. -/
def requireContinuation (value : Json) : Except RunnerError Unit :=
  match value with
  | .null => .error (.other (.error "TypeError"))
  | value =>
    if (value.get? "conversationContinuation").bind Json.asBool? = some true then .ok ()
    else .error (.code "conversation_unavailable")

/-- The request of `start`, before a lookup. -/
def gatewaySubmit (conversationRef : Option String) (x : RunnerAnswers) : Except RunnerError RunnerJob := do
  if conversationRef.any (· ≠ "") then
    requireContinuation (← runnerRequest false x.capabilities)
  runnerRequest true x.submit >>= runnerJob

/-- `start` -/
def gatewayStart (conversationRef : Option String) (x : RunnerAnswers) : Except RunnerError RunnerJob :=
  match gatewaySubmit conversationRef x with
  | .ok job => .ok job
  | .error (.gateway e) =>
    if !e.ambiguous then .error (.gateway e)
    else match gatewayLookup x with
      | .ok (some job) => .ok job
      | _ => .error (.gateway ⟨"provider_start_ambiguous", false, e.transportDiagnostics⟩)
  | .error e => .error e

/-- `get`; an id that is missing reads `undefined`. -/
def gatewayGet (task : Option String) (x : RunnerAnswers) : Except RunnerError RunnerJob :=
  if !isJobId (task.getD "undefined") then .error (.code "invalid_response")
  else runnerRequest false x.status >>= runnerJob

/-! ### The adapter -/

/-- `failure` -/
def providerFailure (category : FailureCategory) (safeMessage : Option String)
    (transportDiagnostics : Option ProviderTransportDiagnostics) (retryable : Option Bool) : Thrown :=
  ⟨(categoryWords category).map fun c => if c = ' ' then '_' else c, some category, safeMessage, retryable,
    transportDiagnostics⟩

/-- `terminal` -/
def terminalFailure : RunnerJobFailureReason → FailureCategory × String
  | .authenticationFailed => (.authenticationFailed, "Codex authentication is unavailable.")
  | .repositoryPreparationFailed =>
    (.providerRejected, "The managed repository workspace could not be prepared safely.")
  | .runnerRestarted =>
    (.providerRejected, "The Runner restarted while the Codex job was active. Inspect the persistent workspace before "
      ++ "retrying manually.")
  | .threadStartFailed => (.providerRejected, "Codex could not start a thread in the configured environment.")
  | .turnStartAmbiguous =>
    (.providerStartAmbiguous, "Codex may have started external work, but the Runner could not confirm its outcome. "
      ++ "Inspect the workspace and GitHub before retrying manually.")
  | .turnStartFailed => (.providerRejected, "Codex created the thread but could not start the turn.")
  | .turnFailed => (.providerRejected, "The Codex turn failed before producing a usable final response.")
  | .interactionRequired =>
    (.providerRejected, "Codex requested an interaction or approval that the unattended Runner does not permit.")
  | .outputTooLarge => (.outputTooLarge, "The provider output exceeded the allowed size.")
  | .conversationUnavailable =>
    (.conversationUnavailable, "The selected Codex conversation is no longer available to continue.")
  | .timeout =>
    (.providerTimeout, "The Codex job timed out. Inspect the persistent workspace before retrying manually.")
  | .internalError => (.providerRejected, "The Codex job failed because of an internal Runner error.")

/-- `result` -/
def jobResult : RunnerJob → CheckResult
  | .queued _ | .running _ => .pending (some 3000) none none
  | .completed _ output => .completed output none
  | .cancelled _ => .failed ⟨.cancelled, "The Codex job was cancelled.", false⟩
  | .failed _ reason => .failed ⟨(terminalFailure reason).1, (terminalFailure reason).2, false⟩

/-- The diagnostics name a request that never left the Worker. -/
def leftNoWorker (diagnostics : Option ProviderTransportDiagnostics) : Bool :=
  (diagnostics.bind (·.reason)).any isLocalRuntimeTransportRejection

/-- `map` -/
def mapError : RunnerError → Thrown
  | .other e => if e.category.isSome then e else providerFailure .internalError none none none
  | .gateway e =>
    if e.code = "conversation_unavailable" then
      providerFailure .conversationUnavailable
        (some "The selected Codex conversation is no longer available to continue.") none (some false)
    else if e.code = "authentication_failed" then providerFailure .authenticationFailed none none none
    else if e.code = "provider_start_ambiguous" then
      providerFailure .providerStartAmbiguous none e.transportDiagnostics none
    else if e.code = "runner_busy" ∨ e.code = "runner_unavailable" then
      providerFailure .providerUnavailable none e.transportDiagnostics
        (if leftNoWorker e.transportDiagnostics then some false else none)
    else if e.code ∈ ["unknown_environment", "environment_disabled", "environment_not_ready", "unknown_model",
        "unsupported_reasoning_effort"] then providerFailure .configurationInvalid none none none
    else providerFailure .internalError none none none

/-- What the adapter makes of the job it started. -/
def startResult : RunnerJob → Except Thrown AdapterResult
  | .queued id | .running id => .ok ⟨.pending id (some 3000) none none none, none⟩
  | .completed _ output => .ok ⟨.completed output none, none⟩
  | .cancelled _ => .error (providerFailure .cancelled (some "The Codex job was cancelled.") none (some false))
  | .failed _ reason =>
    .error (providerFailure (terminalFailure reason).1 (some (terminalFailure reason).2) none (some false))

/-- `start` -/
def runnerStart (x : RunnerAnswers) (call : AdapterInvocation) : Except Thrown AdapterResult :=
  match x.options with
  | .error e => .error e
  | .ok () =>
    match x.prepared >>= fun _ => gatewayStart call.conversationRef x with
    | .ok job => startResult job
    | .error e => .error (mapError e)

/-- `check` -/
def runnerCheck (x : RunnerAnswers) (task : Option String) : Except Thrown CheckResult :=
  match x.prepared >>= fun _ => gatewayGet task x with
  | .ok job => .ok (jobResult job)
  | .error (.gateway e) =>
    if e.code = "runner_unavailable" ∨ e.code = "invalid_response" then
      .ok (.pending (some 5000) (some "runner_status_temporarily_unavailable") none)
    else .error (mapError (.gateway e))
  | .error e => .error (mapError e)

/-! ### What the answers imply -/

def RunnerJob.finished : RunnerJob → Bool
  | .completed .. => true
  | _ => false

/-- The job was completed already when it was reported to the call that started it, or to the lookup that resolves a
lost answer. -/
def finishedAtStart (x : RunnerAnswers) (call : AdapterInvocation) : Bool :=
  match gatewaySubmit call.conversationRef x with
  | .ok job => job.finished
  | .error (.gateway e) => e.ambiguous && (match gatewayLookup x with
    | .ok (some job) => job.finished
    | _ => false)
  | .error _ => false

variable {x : RunnerAnswers} {url : Option String}

theorem runnerStart_completed {call : AdapterInvocation} {output : String}
    {diagnostics : Option ProviderTransportDiagnostics}
    (h : runnerStart x call = .ok ⟨.completed output url, diagnostics⟩) : finishedAtStart x call = true := by
  have hjob : ∃ job, gatewayStart call.conversationRef x = .ok job ∧ job.finished = true := by
    unfold runnerStart at h
    split at h
    · cases h
    · split at h
      · rename_i job hjob
        have hstart : gatewayStart call.conversationRef x = .ok job := by
          cases hp : x.prepared with
          | error e =>
            rw [hp] at hjob
            cases hjob
          | ok u =>
            rw [hp] at hjob
            exact hjob
        refine ⟨job, hstart, ?_⟩
        cases job <;> first | rfl | cases h
      · cases h
  obtain ⟨job, hstart, hfinished⟩ := hjob
  unfold gatewayStart at hstart
  unfold finishedAtStart
  split at hstart
  · cases hstart
    exact hfinished
  · split at hstart
    · cases hstart
    · rename_i e _ hambiguous
      split at hstart
      · cases hstart
        have hambiguous : e.ambiguous = true := by simpa using hambiguous
        rw [hambiguous]
        exact hfinished
      · cases hstart
  · cases hstart

theorem runnerCheck_completed {task : Option String} {output : String}
    (h : runnerCheck x task = .ok (.completed output url)) : ∃ id, task = some id ∧ isJobId id = true := by
  have hid : isJobId (task.getD "undefined") = true := by
    by_contra hid
    have hget : gatewayGet task x = .error (.code "invalid_response") := if_pos (by simpa using hid)
    unfold runnerCheck at h
    cases hp : x.prepared with
    | error e =>
      rw [hp] at h
      cases e with
      | gateway e =>
        have h' : (if _ then _ else _) = _ := h
        split at h' <;> cases h'
      | other e => cases h
    | ok u =>
      rw [hp] at h
      simp [bind, Except.bind, hget, RunnerError.code] at h
  cases task with
  | none => exact absurd hid (by decide)
  | some id => exact ⟨id, rfl, hid⟩

end ADT.Durable
