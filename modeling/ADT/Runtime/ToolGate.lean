import ADT.Lib.Ran
import ADT.Runtime.Redaction

/-!
# Runtime.ToolGate — the tool calls of an execution

`registerAgentTools` and `executeToolWithSecurityGate` (`adt-runtime/src/tools.ts`) with the gate of `adrian.ts`.  A tool
call is a thread; the model starts any number of them, in any order.
-/

namespace ADT.ToolGate

open Interleave

/-! ### Calls -/

structure RuntimeTool where
  name : String

structure ToolSecurityContext where
  name : String
  arguments : Json
  callId : Option String

inductive Outcome
  | deny
  | timeout
  | unavailable

/-- `outcome` of a `SecurityDecision`; `none` is `allow`. -/
abbrev Decision := Option Outcome

/-- The classes of the Agents SDK `classify` knows, and `RuntimeFailure`. -/
inductive ErrorKind
  | runtimeFailure
  | maxTurnsExceeded
  | modelTimeout
  | modelRefusal
  | modelBehavior
  | user
  | other
  deriving DecidableEq

/-- What is read of a thrown value. -/
structure Thrown where
  kind : ErrorKind
  category : Option String
  safeMessage : Option String
  status : Option ℤ

def adrianExecutionLeaseUnavailableError : Thrown :=
  ⟨.other, some "security_unavailable", some "Security enforcement is temporarily unavailable.", none⟩

def securityDecisionError : Outcome → Thrown
  | .deny => ⟨.other, some "security_denied", some "The tool call was denied by the security policy.", none⟩
  | .timeout => ⟨.other, some "security_timeout", some "The security decision timed out.", none⟩
  | .unavailable => ⟨.other, some "security_unavailable", some "Security enforcement is unavailable.", none⟩

def toolLimit : Thrown :=
  ⟨.other, some "provider_rejected", some "The Agent exceeded the permitted tool-call limit.", none⟩

/-! ### The shared state and the services -/

/-- A step of a tool call that others may see: of the counter, of the security service, of the tool. -/
inductive Request
  | countCall
  | handleToolStart (name input : String) (callId : Option String)
  | policyActive
  | waitForToolCallVerdict (callId : String)
  | diagnostic (decision : Decision)
  | handleToolError
  | handleToolEnd (result : String)
  | setTerminalFailure (outcome : Outcome)
  | execute (tool : RuntimeTool) (arguments : Json) (callId : Option String)

/-- The services answer or fail; a verdict halts or does not, and may stay out. -/
abbrev Request.Answer : Request → Type
  | countCall => ℕ
  | handleToolStart .. => Except Thrown Unit
  | policyActive => Bool
  | waitForToolCallVerdict _ => Except Thrown (Option Bool)
  | diagnostic _ => Unit
  | handleToolError => Except Thrown Unit
  | handleToolEnd _ => Except Thrown Unit
  | setTerminalFailure _ => Unit
  | execute .. => Except Thrown String

abbrev Sig : Signature := ⟨Request, Request.Answer⟩

abbrev Task (α : Type) := Prog Sig Thrown α

def ask (q : Request) : Task q.Answer := .ask q .done

/-- What an authorization asks for. -/
def Request.Guards : Request → Prop
  | countCall => False
  | execute .. => False
  | _ => True

/-- What is told to the security service afterwards. -/
def Request.Reports : Request → Prop
  | handleToolError => True
  | handleToolEnd _ => True
  | _ => False

structure ToolSecurityGate where
  authorize : ToolSecurityContext → Task Unit
  completed : Option (ToolSecurityContext → String → Task Unit)
  failed : Option (ToolSecurityContext → Thrown → Task Unit)
  authorize_guards : ∀ input, (authorize input).Issues Request.Guards
  completed_reports : ∀ f ∈ completed, ∀ input result, (f input result).Issues Request.Reports
  failed_reports : ∀ f ∈ failed, ∀ input error, (f input error).Issues Request.Reports

/-- Observers cannot change an established outcome. -/
def report (callback : Option (Task Unit)) : Task Unit :=
  match callback with
  | none => pure ()
  | some callback => tryCatch callback fun _ => pure ()

def throwing {α : Type} : Except Thrown α → Task α
  | .ok a => pure a
  | .error e => throw e

def namedCall (callId : Option String) : Option String := callId.filter (· ≠ "")

section

variable (gate : ToolSecurityGate) (maxCalls : ℕ)

def concluded (context : ToolSecurityContext) : Except Thrown String → Task String
  | .error error => do
    report (gate.failed.map (· context error))
    throw error
  | .ok result => do
    report (gate.completed.map (· context result))
    return result

def executeToolWithSecurityGate (definition : RuntimeTool) (arguments : Json) (callId : Option String) : Task String := do
  let context : ToolSecurityContext := ⟨definition.name, arguments, namedCall callId⟩
  gate.authorize context
  let answer ← ask (.execute definition arguments callId)
  concluded gate context answer

/-- What `registerAgentTools` lets the model call. -/
def agentTool (definition : RuntimeTool) (arguments : Json) (callId : Option String) : Task String := do
  let calls ← ask .countCall
  if maxCalls < calls then throw toolLimit
  else executeToolWithSecurityGate gate definition arguments callId

end

/-! ### The gates -/

def allowAllToolSecurityGate : ToolSecurityGate where
  authorize _ := pure ()
  completed := none
  failed := none
  authorize_guards _ := trivial
  completed_reports _ h := by cases h
  failed_reports _ h := by cases h

def evaluateAdrianToolCall (callId : Option String) : Task Decision :=
  match namedCall callId with
  | none => pure (some .unavailable)
  | some callId => do
    let active ← ask .policyActive
    if !active then return some .unavailable
    else
      let verdict ← ask (.waitForToolCallVerdict callId)
      match verdict with
      | .ok (some halts) => return if halts then some .deny else none
      | .ok none => return some .unavailable
      | .error _ => return some .unavailable

def adrianAuthorize (input : ToolSecurityContext) : Task Unit := do
  let started ← ask (.handleToolStart input.name (Redaction.safeText input.arguments) input.callId)
  match started with
  | .error _ => throw adrianExecutionLeaseUnavailableError
  | .ok _ => do
    let decision ← evaluateAdrianToolCall input.callId
    let _ ← ask (.diagnostic decision)
    match decision with
    | none => pure ()
    | some outcome => do
      let _ ← ask .handleToolError
      let _ ← ask (.setTerminalFailure outcome)
      throw (securityDecisionError outcome)

def adrianCompleted (_input : ToolSecurityContext) (result : String) : Task Unit := do
  let ended ← ask (.handleToolEnd (Redaction.safeText (.str result)))
  throwing ended

def adrianFailed (_input : ToolSecurityContext) (_error : Thrown) : Task Unit := do
  let ended ← ask .handleToolError
  throwing ended

section

open Prog

theorem issues_throwing {α : Type} {P : Request → Prop} (answer : Except Thrown α) : (throwing answer).Issues P := by
  cases answer with
  | ok a => trivial
  | error e => trivial

theorem evaluate_guards (callId : Option String) : (evaluateAdrianToolCall callId).Issues Request.Guards := by
  unfold evaluateAdrianToolCall
  cases namedCall callId with
  | none => trivial
  | some id =>
    refine ⟨trivial, fun active => ?_⟩
    cases active with
    | false => trivial
    | true =>
      refine ⟨trivial, fun verdict => ?_⟩
      cases verdict with
      | error e => trivial
      | ok verdict =>
        cases verdict with
        | none => trivial
        | some halts => trivial

variable (input : ToolSecurityContext)

theorem adrianAuthorize_guards : (adrianAuthorize input).Issues Request.Guards := by
  refine ⟨trivial, fun started => ?_⟩
  cases started with
  | error e => trivial
  | ok u =>
    refine (issues_bind (p := evaluateAdrianToolCall input.callId)).mpr
      ⟨evaluate_guards _, fun decision _ => ⟨trivial, fun _ => ?_⟩⟩
    cases decision with
    | none => trivial
    | some outcome => exact ⟨trivial, fun _ => ⟨trivial, fun _ => trivial⟩⟩

theorem adrianCompleted_reports (result : String) :
    (adrianCompleted input result).Issues Request.Reports := ⟨trivial, fun ended => issues_throwing ended⟩

theorem adrianFailed_reports (error : Thrown) :
    (adrianFailed input error).Issues Request.Reports := ⟨trivial, fun ended => issues_throwing ended⟩

end

def productionAdrianSecurityGate : ToolSecurityGate where
  authorize := adrianAuthorize
  completed := some adrianCompleted
  failed := some adrianFailed
  authorize_guards := adrianAuthorize_guards
  completed_reports f h input result := by
    rw [← Option.some.inj h]
    exact adrianCompleted_reports input result
  failed_reports f h input error := by
    rw [← Option.some.inj h]
    exact adrianFailed_reports input error

/-- `calls` of `registerAgentTools` and `terminalFailure` of the gate. -/
structure Session where
  calls : ℕ
  terminalFailure : Option Outcome

/-- The answers of the services and tools to the next request. -/
abbrev Services := (q : Request) → q.Answer

def respond (services : Services) : (q : Request) → Session → q.Answer × Session
  | .countCall, w => (w.calls + 1, { w with calls := w.calls + 1 })
  | .setTerminalFailure outcome, w => ((), { w with terminalFailure := some outcome })
  | q, w => (services q, w)

def machine : Machine Sig := ⟨Session, Services, respond⟩

abbrev Execution := Pool machine Thrown

def Execution.start : Execution := Pool.init ⟨0, none⟩

/-- The model calls a tool, or a call goes on. -/
def Calling (gate : ToolSecurityGate) (maxCalls : ℕ) (tools : List RuntimeTool) (_ : Execution) :
    Action machine Thrown → Prop
  | .spawn p => ∃ d ∈ tools, ∃ arguments callId, p = (agentTool gate maxCalls d arguments callId).forget
  | .run _ _ => True

/-! ### What a call needs for each of its steps -/

/-- What a call did, the latest first. -/
abbrev Own := List ((q : Request) × q.Answer)

def isExecute : Request → Bool
  | .execute .. => true
  | _ => false

def Unexecuted (own : Own) : Prop := ∀ x ∈ own, isExecute x.1 = false

/-- The call counted itself among the first `maxCalls`, and then its authorization ran to its end. -/
def Authorized (gate : ToolSecurityGate) (maxCalls : ℕ) (context : ToolSecurityContext) (own : Own) : Prop :=
  ∃ n ≤ maxCalls, ∃ events, own = events.reverse ++ [⟨.countCall, (n : ℕ)⟩] ∧
    (gate.authorize context).Ran events (.ok ())

/-- A call is counted first, and executed once it is authorized; after that nothing is decided any more. -/
def Needs (gate : ToolSecurityGate) (maxCalls : ℕ) (tools : List RuntimeTool) (own : Own) : Request → Prop
  | .countCall => own = []
  | .execute d arguments callId => d ∈ tools ∧ Authorized gate maxCalls ⟨d.name, arguments, namedCall callId⟩ own
  | .handleToolError => True
  | .handleToolEnd _ => True
  | _ => Unexecuted own

abbrev discipline (gate : ToolSecurityGate) (maxCalls : ℕ) (tools : List RuntimeTool) : Discipline Sig Own :=
  .recording (Needs gate maxCalls tools) fun _ _ => True

section

variable {gate : ToolSecurityGate} {maxCalls : ℕ} {tools : List RuntimeTool} {own : Own}
variable {q : Request}

theorem guards_unexecuted (hq : q.Guards) : isExecute q = false := by
  cases q with
  | execute d arguments callId => exact hq.elim
  | _ => rfl

theorem guards_needs (hq : q.Guards) (h : Unexecuted own) : Needs gate maxCalls tools own q ∧
    ∀ a, Unexecuted (⟨q, a⟩ :: own) := by
  refine ⟨?_, fun a => List.forall_mem_cons.mpr ⟨guards_unexecuted hq, h⟩⟩
  cases q with
  | countCall => exact hq.elim
  | execute d arguments callId => exact hq.elim
  | handleToolError => trivial
  | handleToolEnd result => trivial
  | _ => exact h

theorem reports_needs (hq : q.Reports) (own : Own) : Needs gate maxCalls tools own q := by
  cases q with
  | handleToolError => trivial
  | handleToolEnd result => trivial
  | _ => exact hq.elim

theorem report_reports {callback : Option (Task Unit)} (h : ∀ p ∈ callback, p.Issues Request.Reports) :
    (report callback).Issues Request.Reports := by
  cases callback with
  | none => trivial
  | some p => exact Prog.issues_tryCatch.mpr ⟨h p rfl, fun _ _ => trivial⟩

theorem concluded_reports (context : ToolSecurityContext) (answer : Except Thrown String) :
    (concluded gate context answer).Issues Request.Reports := by
  cases answer with
  | error error =>
    refine Prog.issues_bind.mpr ⟨report_reports fun p hp => ?_, fun _ _ => trivial⟩
    obtain ⟨f, hf, rfl⟩ := Option.map_eq_some_iff.mp hp
    exact gate.failed_reports f hf context error
  | ok result =>
    refine Prog.issues_bind.mpr ⟨report_reports fun p hp => ?_, fun _ _ => trivial⟩
    obtain ⟨f, hf, rfl⟩ := Option.map_eq_some_iff.mp hp
    exact gate.completed_reports f hf context result

theorem agentTool_keeps {d : RuntimeTool} (hd : d ∈ tools) (arguments : Json) (callId : Option String) :
    (discipline gate maxCalls tools).Keeps (agentTool gate maxCalls d arguments callId).forget []
      fun _ _ => True := by
  refine Discipline.keeps_bind ?_
  refine ⟨rfl, fun calls _ => ?_⟩
  show (discipline gate maxCalls tools).Keeps (if maxCalls < (calls : ℕ) then _ else _) _ _
  by_cases hlimit : maxCalls < (calls : ℕ)
  · rw [if_pos hlimit]
    trivial
  · rw [if_neg hlimit]
    have hunexecuted : Unexecuted [(⟨.countCall, calls⟩ : (q : Request) × q.Answer)] :=
      List.forall_mem_singleton.mpr rfl
    refine Discipline.keeps_bind (p := gate.authorize ⟨d.name, arguments, namedCall callId⟩)
      ((Discipline.records_ran (gate.authorize_guards _) (fun q own hq h => guards_needs hq h) hunexecuted).mono ?_)
    rintro r own' ⟨events, rfl, hran, -⟩
    cases r with
    | error e => trivial
    | ok u =>
      refine ⟨⟨hd, calls, not_lt.mp hlimit, events, rfl, hran⟩, fun answer _ => ?_⟩
      refine Discipline.keeps_of_needs ((concluded_reports _ answer).mono fun q hq own => reports_needs hq own) ?_
      intro r g
      cases r with
      | error e => trivial
      | ok result => trivial

/-! ### Every run -/

variable {actions : List (Action machine Thrown)} {later earlier : List (Event Sig)} {e : Event Sig}

theorem kept_of_calling (h : Pool.Along (Calling gate maxCalls tools) Execution.start actions) :
    Pool.Kept (discipline gate maxCalls tools) [] (Execution.start.run actions) := by
  refine Pool.kept_run _ (h.mono fun p a ha => ?_)
  cases a with
  | spawn p =>
    obtain ⟨d, hd, arguments, callId, rfl⟩ := ha
    exact agentTool_keeps hd arguments callId
  | run t services => exact fun q next _ => trivial

theorem needs_of_calling (h : Pool.Along (Calling gate maxCalls tools) Execution.start actions)
    (ht : (Execution.start.run actions).trace = later ++ e :: earlier) :
    Needs gate maxCalls tools (Pool.own e.thread earlier) e.request := by
  have hneeds := (kept_of_calling h).events later e earlier ht
  rwa [Pool.ghost_recording] at hneeds

/-- The number a call counted itself with. -/
def counted (e : Event Sig) : Option ℕ :=
  match e with
  | ⟨_, .countCall, n⟩ => some n
  | _ => none

theorem counted_run (actions : List (Action machine Thrown)) :
    (Execution.start.run actions).trace.filterMap counted =
      ((List.range (Execution.start.run actions).world.calls).map (· + 1)).reverse := by
  induction actions using List.reverseRecOn with
  | nil => rfl
  | append_singleton actions a ih =>
    rw [Pool.run_concat]
    generalize Execution.start.run actions = pool at ih ⊢
    rcases Pool.step_cases pool a with ⟨p, rfl, hs⟩ | ⟨t, services, q, next, rfl, ht, hs⟩ | ⟨_, hs⟩
    · rw [hs]
      exact ih
    · rw [hs]
      cases q with
      | countCall =>
        show (pool.world.calls + 1) :: pool.trace.filterMap counted = _
        rw [ih]
        show _ = ((List.range (pool.world.calls + 1)).map (· + 1)).reverse
        rw [List.range_succ, List.map_append, List.reverse_append]
        rfl
      | _ => exact ih
    · rw [hs]
      exact ih

theorem countP_numbers (n m : ℕ) : ((List.range n).map (· + 1)).countP (fun k => decide (k ≤ m)) ≤ m := by
  have hmin : ((List.range n).map (· + 1)).countP (fun k => decide (k ≤ m)) = min n m := by
    induction n with
    | zero => simp
    | succ n ih =>
      rw [List.range_succ, List.map_append, List.countP_append, ih, List.map_singleton, List.countP_singleton]
      by_cases h : n + 1 ≤ m
      · simp only [h, decide_true, if_true]
        omega
      · simp only [h, decide_false, Bool.false_eq_true, if_false]
        omega
  rw [hmin]
  exact min_le_right n m

def numbered (maxCalls : ℕ) (e : Event Sig) : Bool := (counted e).any fun n => decide (n ≤ maxCalls)

theorem numbered_le (maxCalls : ℕ) (actions : List (Action machine Thrown)) :
    (Execution.start.run actions).trace.countP (numbered maxCalls) ≤ maxCalls := by
  have hcount : ∀ trace : List (Event Sig), trace.countP (numbered maxCalls) =
      (trace.filterMap counted).countP fun n => decide (n ≤ maxCalls) := by
    intro trace
    induction trace with
    | nil => rfl
    | cons e trace ih =>
      rw [List.countP_cons, ih, List.filterMap_cons, numbered]
      cases counted e with
      | none => rfl
      | some n => rw [List.countP_cons, Option.any_some]
  rw [hcount, counted_run, List.countP_reverse]
  exact countP_numbers _ _

/-- Every execution has a number of its own. -/
theorem executed_le_numbered {t : ℕ} {trace : List (Event Sig)}
    (h : ∀ later e earlier, trace = later ++ e :: earlier →
      Needs gate maxCalls tools (Pool.own e.thread earlier) e.request) :
    trace.countP (fun e => isExecute e.request && e.thread == t) ≤
      trace.countP (fun e => numbered maxCalls e && e.thread == t) := by
  induction trace with
  | nil => simp
  | cons e trace ih =>
    have hrest := ih fun later e' earlier htrace => h (e :: later) e' earlier (by rw [htrace]; rfl)
    rw [List.countP_cons, List.countP_cons]
    by_cases hexec : (isExecute e.request && e.thread == t) = true
    · rw [Bool.and_eq_true, beq_iff_eq] at hexec
      obtain ⟨hexec, hthread⟩ := hexec
      have hneeds := h [] e trace rfl
      cases hq : e.request with
      | execute d arguments callId =>
        rw [hq, hthread] at hneeds
        obtain ⟨-, n, hn, events, hown, hran⟩ := hneeds
        have hnone : trace.countP (fun e => isExecute e.request && e.thread == t) = 0 := by
          rw [List.countP_eq_zero]
          intro e' he' hboth
          rw [Bool.and_eq_true, beq_iff_eq] at hboth
          have hmem : (⟨e'.request, e'.answer⟩ : (q : Request) × q.Answer) ∈ Pool.own t trace :=
            List.mem_map.mpr ⟨e', List.mem_filter.mpr ⟨he', by simpa using hboth.2⟩, rfl⟩
          rw [hown] at hmem
          rcases List.mem_append.mp hmem with hmem | hmem
          · have hguards : e'.request.Guards := hran.issues (gate.authorize_guards _) _ (List.mem_reverse.mp hmem)
            rw [guards_unexecuted hguards] at hboth
            exact Bool.false_ne_true hboth.1
          · rw [List.mem_singleton] at hmem
            have hcount : e'.request = .countCall := congrArg Sigma.fst hmem
            rw [hcount] at hboth
            exact Bool.false_ne_true hboth.1
        have hsome : 0 < trace.countP (fun e => numbered maxCalls e && e.thread == t) := by
          have hmem : (⟨.countCall, n⟩ : (q : Request) × q.Answer) ∈ Pool.own t trace := by
            rw [hown]
            exact List.mem_append_right _ (List.mem_singleton_self _)
          refine List.countP_pos_iff.mpr ⟨_, Pool.mem_of_own hmem, ?_⟩
          simp [numbered, counted, hn]
        have hself : (isExecute (.execute d arguments callId) && e.thread == t) = true := by
          rw [hthread, beq_self_eq_true]
          rfl
        rw [hnone, if_pos hself]
        omega
      | _ =>
        rw [hq] at hexec
        exact absurd hexec Bool.false_ne_true
    · rw [if_neg hexec]
      omega

end

/-! ### The decisions of the security service -/

/-- What a call did when the service allowed it, the latest first. -/
def allowedCall (d : RuntimeTool) (arguments : Json) (callId : String) (n : ℕ) : Own :=
  [⟨.diagnostic none, ()⟩, ⟨.waitForToolCallVerdict callId, .ok (some false)⟩, ⟨.policyActive, true⟩,
    ⟨.handleToolStart d.name (Redaction.safeText arguments) (some callId), .ok ()⟩, ⟨.countCall, n⟩]

/-- The call was not allowed, or its start could not be told to the service. -/
def Refuses : Event Sig → Prop
  | ⟨_, .handleToolStart _ _ _, .error _⟩ => True
  | ⟨_, .diagnostic (some _), _⟩ => True
  | _ => False

section

open Prog

variable {events : Own}

theorem ran_done {α : Type} {a : α} {r : Except Thrown α} (h : (Prog.done a : Task α).Ran events r) :
    events = [] ∧ r = .ok a := by
  cases h
  exact ⟨rfl, rfl⟩

theorem evaluate_allow {callId : Option String}
    (h : (evaluateAdrianToolCall callId).Ran events (.ok none)) : ∃ id, namedCall callId = some id ∧
      events = [⟨.policyActive, true⟩, ⟨.waitForToolCallVerdict id, .ok (some false)⟩] := by
  unfold evaluateAdrianToolCall at h
  cases hid : namedCall callId with
  | none =>
    rw [hid] at h
    cases (ran_done h).2
  | some id =>
    rw [hid] at h
    obtain ⟨active, rest, rfl, hactive⟩ := ran_ask.mp h
    cases active with
    | false => cases (ran_done hactive).2
    | true =>
      obtain ⟨verdict, rest', rfl, hverdict⟩ := ran_ask.mp hactive
      cases verdict with
      | error e => cases (ran_done hverdict).2
      | ok verdict =>
        cases verdict with
        | none => cases (ran_done hverdict).2
        | some halts =>
          cases halts with
          | true => cases (ran_done hverdict).2
          | false =>
            obtain ⟨rfl, -⟩ := ran_done hverdict
            exact ⟨id, rfl, rfl⟩

theorem adrianAuthorize_ok {input : ToolSecurityContext}
    (h : (adrianAuthorize input).Ran events (.ok ())) : ∃ id, namedCall input.callId = some id ∧
      events = [⟨.handleToolStart input.name (Redaction.safeText input.arguments) input.callId, .ok ()⟩,
        ⟨.policyActive, true⟩, ⟨.waitForToolCallVerdict id, .ok (some false)⟩, ⟨.diagnostic none, ()⟩] := by
  obtain ⟨started, rest, rfl, hstarted⟩ := ran_ask.mp h
  cases started with
  | error e => cases hstarted
  | ok u =>
    rcases (ran_bind (p := evaluateAdrianToolCall input.callId)).mp hstarted with
      ⟨e, -, heq⟩ | ⟨decision, before, after, rfl, hdecision, hafter⟩
    · cases heq
    · obtain ⟨v, rest', rfl, hshown⟩ := ran_ask.mp hafter
      cases decision with
      | some outcome =>
        obtain ⟨_, _, rfl, htold⟩ := ran_ask.mp hshown
        obtain ⟨_, _, rfl, hset⟩ := ran_ask.mp htold
        cases hset
      | none =>
        obtain ⟨rfl, -⟩ := ran_done hshown
        obtain ⟨id, hid, rfl⟩ := evaluate_allow hdecision
        exact ⟨id, hid, rfl⟩

end

theorem namedCall_some {callId : Option String} {id : String} (h : namedCall (namedCall callId) = some id) :
    callId = some id ∧ namedCall callId = some id ∧ id ≠ "" := by
  cases callId with
  | none => cases h
  | some id' =>
    unfold namedCall at h ⊢
    by_cases hempty : id' = ""
    · simp [hempty] at h
    · simp only [Option.filter_some, hempty, ne_eq, not_false_eq_true, decide_true, if_true, Option.some.injEq] at h ⊢
      exact ⟨h, h, h ▸ hempty⟩

section

variable {gate : ToolSecurityGate} {maxCalls : ℕ} {tools : List RuntimeTool} {own : Own}
  {actions : List (Action machine Thrown)} {later earlier : List (Event Sig)} {e : Event Sig}

theorem authorized_production {d : RuntimeTool} {arguments : Json} {callId : Option String}
    (h : Authorized productionAdrianSecurityGate maxCalls ⟨d.name, arguments, namedCall callId⟩ own) :
    ∃ n ≤ maxCalls, ∃ id, callId = some id ∧ id ≠ "" ∧ own = allowedCall d arguments id n := by
  obtain ⟨n, hn, events, rfl, hran⟩ := h
  obtain ⟨id, hid, rfl⟩ := adrianAuthorize_ok hran
  obtain ⟨rfl, hnamed, hne⟩ := namedCall_some hid
  refine ⟨n, hn, id, rfl, hne, ?_⟩
  rw [hnamed]
  rfl

theorem not_refuses_allowed {d : RuntimeTool} {arguments : Json} {id : String} {n t : ℕ} :
    ∀ x ∈ allowedCall d arguments id n, ¬Refuses ⟨t, x.1, x.2⟩ := by
  intro x hx
  simp only [allowedCall, List.mem_cons, List.not_mem_nil, or_false] at hx
  rcases hx with rfl | rfl | rfl | rfl | rfl
  all_goals exact fun h => h

theorem refuses_needs (h : Refuses e) (hneeds : Needs gate maxCalls tools own e.request) : Unexecuted own := by
  obtain ⟨t, q, a⟩ := e
  cases q with
  | handleToolStart name input callId => exact hneeds
  | diagnostic decision => exact hneeds
  | _ => exact h.elim

end

/-- **Tool gate.** Whatever tools the model calls, and in whatever order their steps come: an execution comes after the
authorization of the same tool, arguments and call id by the same call has run to its end, and there are no more than
`maxCalls` of them.  Under the gate of the security service that end is a verdict on the call that does not halt it, and
a call that was refused is not executed. -/
theorem tools_gated {gate : ToolSecurityGate} {maxCalls : ℕ} {tools : List RuntimeTool}
    {actions : List (Action machine Thrown)} (h : Pool.Along (Calling gate maxCalls tools) Execution.start actions) :
    (∀ later e earlier, (Execution.start.run actions).trace = later ++ e :: earlier →
      ∀ d arguments callId, e.request = Request.execute d arguments callId →
        d ∈ tools ∧ Authorized gate maxCalls ⟨d.name, arguments, namedCall callId⟩ (Pool.own e.thread earlier) ∧
          (gate = productionAdrianSecurityGate → ∃ n ≤ maxCalls, ∃ id, callId = some id ∧ id ≠ "" ∧
            Pool.own e.thread earlier = allowedCall d arguments id n)) ∧
      (Execution.start.run actions).trace.countP (fun e => isExecute e.request) ≤ maxCalls ∧
      (gate = productionAdrianSecurityGate → ∀ e ∈ (Execution.start.run actions).trace, isExecute e.request = true →
        ∀ x ∈ (Execution.start.run actions).trace, x.thread = e.thread → ¬Refuses x) := by
  have hneeds : ∀ later e earlier, (Execution.start.run actions).trace = later ++ e :: earlier →
      Needs gate maxCalls tools (Pool.own e.thread earlier) e.request :=
    fun later e earlier ht => needs_of_calling h ht
  have hexecuted : ∀ later e earlier, (Execution.start.run actions).trace = later ++ e :: earlier →
      ∀ d arguments callId, e.request = Request.execute d arguments callId →
        d ∈ tools ∧ Authorized gate maxCalls ⟨d.name, arguments, namedCall callId⟩ (Pool.own e.thread earlier) := by
    intro later e earlier ht d arguments callId hq
    have hneed := hneeds later e earlier ht
    rw [hq] at hneed
    exact hneed
  refine ⟨fun later e earlier ht d arguments callId hq => ?_, ?_, fun hgate e he hexec x hx hthread hrefuses => ?_⟩
  · obtain ⟨hd, hauthorized⟩ := hexecuted later e earlier ht d arguments callId hq
    refine ⟨hd, hauthorized, fun hgate => ?_⟩
    rw [hgate] at hauthorized
    exact authorized_production hauthorized
  · exact (countP_le_of_threads fun t => executed_le_numbered hneeds).trans (numbered_le maxCalls actions)
  · obtain ⟨later, earlier, ht⟩ := List.append_of_mem he
    cases hq : e.request with
    | execute d arguments callId =>
      obtain ⟨-, hauthorized⟩ := hexecuted later e earlier ht d arguments callId hq
      rw [hgate] at hauthorized
      obtain ⟨n, -, id, -, -, hown⟩ := authorized_production hauthorized
      rw [ht] at hx
      rcases List.mem_append.mp hx with hx | hx
      · -- after its execution nothing is decided any more
        obtain ⟨later', middle, rfl⟩ := List.append_of_mem hx
        have hneed := hneeds later' x (middle ++ e :: earlier) (by rw [ht, List.append_assoc]; rfl)
        have hmem : (⟨e.request, e.answer⟩ : (q : Request) × q.Answer) ∈ Pool.own x.thread (middle ++ e :: earlier) :=
          List.mem_map.mpr ⟨e, List.mem_filter.mpr ⟨List.mem_append_right _ (List.mem_cons_self ..), by
            simp [hthread]⟩, rfl⟩
        have hunexecuted := refuses_needs hrefuses hneed _ hmem
        exact Bool.false_ne_true (hunexecuted.symm.trans hexec)
      · rcases List.mem_cons.mp hx with rfl | hx
        · obtain ⟨t, q, a⟩ := x
          obtain rfl : q = _ := hq
          exact hrefuses
        · have hmem : (⟨x.request, x.answer⟩ : (q : Request) × q.Answer) ∈ Pool.own e.thread earlier :=
            List.mem_map.mpr ⟨x, List.mem_filter.mpr ⟨hx, by simp [hthread]⟩, rfl⟩
          rw [hown] at hmem
          exact not_refuses_allowed (t := x.thread) _ hmem hrefuses
    | _ =>
      rw [hq] at hexec
      exact absurd hexec Bool.false_ne_true

/-- The artifact search, and services that allow and answer everything. -/
def artifactSearch : RuntimeTool := ⟨"artifact_search"⟩

def allowing : Services
  | .countCall => (0 : ℕ)
  | .handleToolStart .. => .ok ()
  | .policyActive => true
  | .waitForToolCallVerdict _ => .ok (some false)
  | .diagnostic _ => ()
  | .handleToolError => .ok ()
  | .handleToolEnd _ => .ok ()
  | .setTerminalFailure _ => ()
  | .execute .. => .ok "[]"

/-- Two searches that take turns, the first one always a request ahead. -/
def twoSearches : List (Action machine Thrown) :=
  ["call-1", "call-2"].map (fun id =>
    .spawn (agentTool productionAdrianSecurityGate 4 artifactSearch (.obj [("query", .str "q")]) (some id)).forget) ++
    (List.replicate 6 [.run 0 allowing, .run 1 allowing]).flatten

theorem twoSearches_calling :
    Pool.Along (Calling productionAdrianSecurityGate 4 [artifactSearch]) Execution.start twoSearches :=
  ⟨⟨artifactSearch, List.mem_singleton_self _, _, _, rfl⟩, ⟨artifactSearch, List.mem_singleton_self _, _, _, rfl⟩, trivial,
    trivial, trivial, trivial, trivial, trivial, trivial, trivial, trivial, trivial, trivial, trivial, trivial⟩

theorem tools_gated_twoSearches :
    ((Execution.start.run twoSearches).trace.filter (fun e => isExecute e.request)).map (·.thread) = [1, 0] ∧
      (∀ later e earlier, (Execution.start.run twoSearches).trace = later ++ e :: earlier →
        ∀ d arguments callId, e.request = Request.execute d arguments callId →
          Authorized productionAdrianSecurityGate 4 ⟨d.name, arguments, namedCall callId⟩ (Pool.own e.thread earlier)) ∧
      ∀ e ∈ (Execution.start.run twoSearches).trace, isExecute e.request = true →
        ∀ x ∈ (Execution.start.run twoSearches).trace, x.thread = e.thread → ¬Refuses x := by
  obtain ⟨hexecuted, -, hrefused⟩ := tools_gated twoSearches_calling
  exact ⟨rfl, fun later e earlier ht d arguments callId hq => (hexecuted later e earlier ht d arguments callId hq).2.1,
    hrefused rfl⟩

end ADT.ToolGate
