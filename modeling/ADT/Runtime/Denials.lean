import ADT.Runtime.ToolGate

/-!
# Runtime.Denials — how an execution ends after a denial

The end of `executeOpenAIAgents` (`adt-runtime/src/openai-agents.ts`).  The Agents SDK may show the error of a tool call
to the model and go on; what ends the execution then is `terminalFailure`, which a call sets that was refused a verdict,
and only such a call (`latched_iff`).
-/

namespace ADT.ToolGate

open Interleave

/-! ### The end of an execution -/

structure Failure where
  category : String
  safeMessage : String
  deriving DecidableEq

def securityCategories : List String := ["security_denied", "security_timeout", "security_unavailable"]

/-- `classify`, after its first line. -/
def classifyOther (error : Thrown) : Failure :=
  match error.kind with
  | .maxTurnsExceeded => ⟨"provider_rejected", "The model exceeded the permitted execution turns."⟩
  | .modelTimeout => ⟨"provider_timeout", "The model request timed out."⟩
  | .modelRefusal => ⟨"provider_rejected", "The model refused the request."⟩
  | .modelBehavior => ⟨"malformed_response", "The model returned an invalid response."⟩
  | .user => ⟨"configuration_invalid", "The Agents runtime configuration is invalid."⟩
  | .runtimeFailure | .other =>
    let status := error.status.getD 0
    if status = 401 then ⟨"authentication_failed", "Authentication failed."⟩
    else if status = 403 then ⟨"permission_denied", "Permission denied."⟩
    else if status = 429 then ⟨"rate_limited", "Provider rate limited."⟩
    else if 500 ≤ status then ⟨"provider_unavailable", "Provider temporarily unavailable."⟩
    else if 400 ≤ status then ⟨"provider_rejected", "Configured model was rejected."⟩
    else ⟨"internal_error", "The Agents runtime failed unexpectedly."⟩

def classify (error : Thrown) : Failure :=
  match error.category, error.safeMessage with
  | some category, some safeMessage =>
    if category ∈ securityCategories then ⟨category, safeMessage⟩ else classifyOther error
  | _, _ => classifyOther error

/-- The `catch` of `executeOpenAIAgents`: a `RuntimeFailure` is thrown on. -/
def caught (error : Thrown) : Failure :=
  if error.kind = .runtimeFailure then ⟨error.category.getD "", error.safeMessage.getD ""⟩ else classify error

/-- How `runner.run` ends: with a final output, which may be no text, or by throwing. -/
inductive RunResult
  | finished (finalOutput : Option String)
  | threw (error : Thrown)

def maxOutputBytes : ℕ := 262144

/-- What `executeOpenAIAgents` makes of it. -/
def executeOpenAIAgents (terminalFailure : Option Outcome) : RunResult → Except Failure String
  | .threw error => .error (caught error)
  | .finished finalOutput =>
    match terminalFailure with
    | some outcome => .error (caught (securityDecisionError outcome))
    | none =>
      match finalOutput with
      | none => .error ⟨"malformed_response", "The Agents runtime returned no textual output."⟩
      | some output =>
        if maxOutputBytes < byteLength output then
          .error ⟨"output_too_large", "The Agents runtime output exceeded the permitted size."⟩
        else .ok output

/-! ### Denials -/

def SecurityFailure (result : Except Failure String) : Prop :=
  ∃ failure, result = .error failure ∧ failure.category ∈ securityCategories

/-- An error that is shown as a security failure. -/
def SecurityError (error : Thrown) : Prop :=
  ∃ category ∈ error.category, category ∈ securityCategories ∧
    (error.kind = .runtimeFailure ∨ error.safeMessage ≠ none)

def setsTerminalFailure : Request → Bool
  | .setTerminalFailure _ => true
  | _ => false

/-- The service refuses a verdict: its policy is off, it halts the call, gives no verdict or fails, or the call that it was
told of has no id. -/
def RefusesVerdict : (q : Request) × q.Answer → Prop
  | ⟨.handleToolStart _ _ callId, .ok _⟩ => namedCall callId = none
  | ⟨.policyActive, active⟩ => active = false
  | ⟨.waitForToolCallVerdict _, verdict⟩ => verdict ≠ .ok (some false)
  | _ => False

/-- What has to hold of a run with a refusal: it ends with a security error, or normally after a call was refused a
verdict and has come to its end. -/
def RunResult.Kept (execution : Execution) : RunResult → Prop
  | .threw error => SecurityError error
  | .finished _ => ∃ (t : ℕ) (p : Task Unit), execution.threads[t]? = some p ∧ p.Ended ∧
      ∃ x ∈ Pool.own t execution.trace, RefusesVerdict x

theorem classifyOther_category (error : Thrown) : (classifyOther error).category ∉ securityCategories := by
  unfold classifyOther
  cases error.kind
  case runtimeFailure | other =>
    dsimp only
    split_ifs
    all_goals decide
  all_goals
    dsimp only
    decide

theorem caught_category_iff (error : Thrown) : (caught error).category ∈ securityCategories ↔ SecurityError error := by
  unfold caught SecurityError
  by_cases hkind : error.kind = .runtimeFailure
  · rw [if_pos hkind]
    cases hcategory : error.category with
    | none =>
      refine ⟨fun h => absurd (show "" ∈ securityCategories from h) (by decide), fun h => ?_⟩
      obtain ⟨_, hc, -⟩ := h
      cases hc
    | some category =>
      refine ⟨fun h => ⟨category, rfl, h, .inl hkind⟩, fun h => ?_⟩
      obtain ⟨_, hc, h, -⟩ := h
      rwa [← Option.some.inj hc] at h
  · rw [if_neg hkind]
    unfold classify
    cases hcategory : error.category with
    | none =>
      refine ⟨fun h => absurd h (classifyOther_category error), fun h => ?_⟩
      obtain ⟨_, hc, -⟩ := h
      cases hc
    | some category =>
      cases hmessage : error.safeMessage with
      | none =>
        refine ⟨fun h => absurd h (classifyOther_category error), fun h => ?_⟩
        obtain ⟨_, -, -, hor⟩ := h
        exact absurd rfl (hor.resolve_left hkind)
      | some safeMessage =>
        dsimp only
        by_cases hmem : category ∈ securityCategories
        · rw [if_pos hmem]
          exact ⟨fun _ => ⟨category, rfl, hmem, .inr (by simp)⟩, fun _ => hmem⟩
        · rw [if_neg hmem]
          refine ⟨fun h => absurd h (classifyOther_category error), fun h => ?_⟩
          obtain ⟨_, hc, h, -⟩ := h
          exact absurd ((Option.some.inj hc) ▸ h) hmem

theorem terminalFailure_iff (actions : List (Action machine Thrown)) :
    (Execution.start.run actions).world.terminalFailure ≠ none ↔
      ∃ e ∈ (Execution.start.run actions).trace, setsTerminalFailure e.request = true := by
  induction actions using List.reverseRecOn with
  | nil =>
    refine ⟨fun h => absurd rfl h, fun h => ?_⟩
    obtain ⟨e, he, -⟩ := h
    cases he
  | append_singleton actions a ih =>
    rw [Pool.run_concat]
    generalize Execution.start.run actions = pool at ih ⊢
    rcases Pool.step_cases pool a with ⟨p, rfl, hs⟩ | ⟨t, services, q, next, rfl, ht, hs⟩ | ⟨_, hs⟩
    · rw [hs]
      exact ih
    · rw [hs]
      simp only [List.exists_mem_cons_iff]
      cases q with
      | setTerminalFailure outcome => exact iff_of_true (Option.some_ne_none _) (.inl rfl)
      | _ => exact ih.trans (or_iff_right Bool.false_ne_true).symm
    · rw [hs]
      exact ih

def maxToolCalls : ℕ := 4

/-- An execution under the gate of the security service, up to the end of `runner.run`. -/
structure SecuredExecution where
  tools : List RuntimeTool
  actions : List (Action machine Thrown)
  calling : Pool.Along (Calling productionAdrianSecurityGate maxToolCalls tools) Execution.start actions

def SecuredExecution.final (x : SecuredExecution) : Execution := Execution.start.run x.actions

/-! ### What a call does that is refused -/

/-- Neither a refused verdict nor a failure that is kept. -/
def Quiet (events : Own) : Prop := ∀ x ∈ events, setsTerminalFailure x.1 = false ∧ ¬RefusesVerdict x

/-- The last step keeps the failure of a verdict that was refused. -/
def Latches (events : Own) : Prop :=
  ∃ before outcome, events = before ++ [⟨.setTerminalFailure outcome, ()⟩] ∧
    (∃ x ∈ before, RefusesVerdict x) ∧ ∀ x ∈ before, setsTerminalFailure x.1 = false

section

open Prog

variable {events : Own}

theorem Quiet.append {before after : Own} (hbefore : Quiet before) (hafter : Quiet after) : Quiet (before ++ after) := by
  intro x hx
  exact (List.mem_append.mp hx).elim (hbefore x) (hafter x)

variable {r : Except Thrown String} {callId : Option String}

theorem quiet_of_reports {p : Task String} (hp : p.Issues Request.Reports) (h : p.Ran events r) : Quiet events := by
  intro x hx
  have hreports := h.issues hp x hx
  obtain ⟨q, a⟩ := x
  cases q with
  | handleToolError => exact ⟨rfl, fun h => h⟩
  | handleToolEnd result => exact ⟨rfl, fun h => h⟩
  | _ => exact hreports.elim

/-- An evaluation decides against the call if it was refused a verdict, or has no id. -/
theorem evaluate_ran {r : Except Thrown Decision} (h : (evaluateAdrianToolCall callId).Ran events r) :
    (∀ x ∈ events, setsTerminalFailure x.1 = false) ∧ ∃ decision, r = .ok decision ∧
      (decision = none → namedCall callId ≠ none ∧ ∀ x ∈ events, ¬RefusesVerdict x) ∧
      (decision ≠ none → namedCall callId = none ∨ ∃ x ∈ events, RefusesVerdict x) := by
  unfold evaluateAdrianToolCall at h
  cases hid : namedCall callId with
  | none =>
    rw [hid] at h
    obtain ⟨rfl, rfl⟩ := ran_done h
    exact ⟨by simp, _, rfl, by simp, fun _ => .inl rfl⟩
  | some id =>
    rw [hid] at h
    obtain ⟨active, rest, rfl, hactive⟩ := ran_ask.mp h
    cases active with
    | false =>
      obtain ⟨rfl, rfl⟩ := ran_done hactive
      exact ⟨by simp [setsTerminalFailure], _, rfl, by simp, fun _ => .inr ⟨_, List.mem_singleton_self _, rfl⟩⟩
    | true =>
      obtain ⟨verdict, rest', rfl, hverdict⟩ := ran_ask.mp hactive
      rcases verdict with e | _ | _ | _
      case ok.some.false =>
        obtain ⟨rfl, rfl⟩ := ran_done hverdict
        exact ⟨by simp [setsTerminalFailure], _, rfl, by simp [RefusesVerdict], by simp⟩
      all_goals
        obtain ⟨rfl, rfl⟩ := ran_done hverdict
        exact ⟨by simp [setsTerminalFailure], _, rfl, by simp,
          fun _ => .inr ⟨_, List.mem_cons_of_mem _ (List.mem_singleton_self _), fun h => by cases h⟩⟩

/-- **An authorization** keeps a failure exactly if it was refused a verdict, and then it ends. -/
theorem adrianAuthorize_ran {input : ToolSecurityContext} {r : Except Thrown Unit} (h : (adrianAuthorize input).Ran events r) :
    Quiet events ∨ (Latches events ∧ ∃ e, r = .error e) := by
  obtain ⟨started, rest, rfl, hstarted⟩ := ran_ask.mp h
  cases started with
  | error e =>
    cases hstarted
    exact .inl fun x hx => by rw [List.mem_singleton.mp hx]; exact ⟨rfl, fun h => h⟩
  | ok u =>
    rcases (ran_bind (p := evaluateAdrianToolCall input.callId)).mp hstarted with
      ⟨e, he, -⟩ | ⟨decision, before, after, rfl, hdecision, hafter⟩
    · obtain ⟨-, _, heq, -⟩ := evaluate_ran he
      cases heq
    obtain ⟨hunset, _, heq, hallowed, hrefused⟩ := evaluate_ran hdecision
    cases heq
    obtain ⟨v, rest', rfl, hshown⟩ := ran_ask.mp hafter
    cases decision with
    | none =>
      obtain ⟨rfl, -⟩ := ran_done hshown
      obtain ⟨hnamed, hquiet⟩ := hallowed rfl
      refine .inl fun x hx => ?_
      rcases List.mem_cons.mp hx with rfl | hx
      · exact ⟨rfl, hnamed⟩
      rcases List.mem_append.mp hx with hx | hx
      · exact ⟨hunset x hx, hquiet x hx⟩
      · rw [List.mem_singleton.mp hx]
        exact ⟨rfl, fun h => h⟩
    | some outcome =>
      obtain ⟨told, rest, rfl, htold⟩ := ran_ask.mp hshown
      obtain ⟨_, rest, rfl, hset⟩ := ran_ask.mp htold
      cases hset
      refine .inr ⟨⟨⟨.handleToolStart input.name (Redaction.safeText input.arguments) input.callId,
        (Except.ok u : Except Thrown Unit)⟩ :: (before ++ [⟨.diagnostic (some outcome), v⟩, ⟨.handleToolError, told⟩]),
        outcome, by simp, ?_, ?_⟩, _, rfl⟩
      · rcases hrefused (by simp) with hnone | ⟨x, hx, hverdict⟩
        · exact ⟨_, List.mem_cons_self .., hnone⟩
        · exact ⟨x, List.mem_cons_of_mem _ (List.mem_append_left _ hx), hverdict⟩
      · intro x hx
        rcases List.mem_cons.mp hx with rfl | hx
        · rfl
        rcases List.mem_append.mp hx with hx | hx
        · exact hunset x hx
        · simp only [List.mem_cons, List.not_mem_nil, or_false] at hx
          rcases hx with rfl | rfl <;> rfl

theorem Latches.cons {x : (q : Request) × q.Answer} (hx : setsTerminalFailure x.1 = false) (h : Latches events) :
    Latches (x :: events) := by
  obtain ⟨before, outcome, rfl, ⟨y, hy, hverdict⟩, hunset⟩ := h
  exact ⟨x :: before, outcome, rfl, ⟨y, List.mem_cons_of_mem _ hy, hverdict⟩, List.forall_mem_cons.mpr ⟨hx, hunset⟩⟩

/-- A complete run of a tool call keeps a failure, as its last step, exactly if it was refused a verdict. -/
theorem agentTool_ran {d : RuntimeTool} {arguments : Json}
    (h : (agentTool productionAdrianSecurityGate maxToolCalls d arguments callId).Ran events r) :
    Quiet events ∨ Latches events := by
  obtain ⟨calls, rest, rfl, hcounted⟩ := ran_ask.mp h
  have hcount : Quiet [(⟨.countCall, calls⟩ : (q : Request) × q.Answer)] := fun x hx => by
    rw [List.mem_singleton.mp hx]
    exact ⟨rfl, fun h => h⟩
  change (if maxToolCalls < (calls : ℕ) then throw toolLimit else _ : Task String).Ran rest r at hcounted
  by_cases hlimit : maxToolCalls < (calls : ℕ)
  · rw [if_pos hlimit] at hcounted
    cases hcounted
    exact .inl hcount
  rw [if_neg hlimit] at hcounted
  rcases (ran_bind (p := adrianAuthorize ⟨d.name, arguments, namedCall callId⟩)).mp hcounted with
    ⟨e, he, -⟩ | ⟨u, before, after, rfl, hauthorized, hafter⟩
  · exact (adrianAuthorize_ran he).imp hcount.append fun h => h.1.cons rfl
  · rcases adrianAuthorize_ran hauthorized with hquiet | ⟨-, e, heq⟩
    · obtain ⟨answer, rest, rfl, hconcluded⟩ := ran_ask.mp hafter
      have hreports := quiet_of_reports (p := concluded productionAdrianSecurityGate _ answer) (concluded_reports _ answer)
        hconcluded
      refine .inl (hcount.append (hquiet.append fun x hx => ?_))
      rcases List.mem_cons.mp hx with rfl | hx
      · exact ⟨rfl, fun h => h⟩
      · exact hreports x hx
    · cases heq

end

theorem started_of_calling {gate : ToolSecurityGate} {maxCalls : ℕ} {tools : List RuntimeTool} {pool : Execution}
    {actions : List (Action machine Thrown)} (h : Pool.Along (Calling gate maxCalls tools) pool actions) :
    ∀ p ∈ Pool.started actions, ∃ d arguments callId, p = (agentTool gate maxCalls d arguments callId).forget := by
  induction actions generalizing pool with
  | nil =>
    intro p hp
    cases hp
  | cons a actions ih =>
    intro p hp
    cases a with
    | spawn p' =>
      rcases List.mem_cons.mp hp with rfl | hp
      · obtain ⟨d, -, arguments, callId, rfl⟩ := h.1
        exact ⟨d, arguments, callId, rfl⟩
      · exact ih h.2 p hp
    | run t services => exact ih h.2 p hp

variable (x : SecuredExecution)

/-- Whatever a call still does, it has been quiet or keeps a failure as its last step. -/
theorem SecuredExecution.call_ran {t : ℕ} {p : Task Unit} (ht : x.final.threads[t]? = some p)
    {events : Own} {r : Except Thrown Unit} (h : p.Ran events r) :
    Quiet ((Pool.own t x.final.trace).reverse ++ events) ∨ Latches ((Pool.own t x.final.trace).reverse ++ events) := by
  have hfollowed := Pool.followed (M := machine) (⟨0, none⟩ : Session) x.actions
  have hlt : t < (Pool.started x.actions).length := hfollowed.length ▸ (List.getElem?_eq_some_iff.mp ht).1
  have hget : (Pool.started x.actions)[t]? = some (Pool.started x.actions)[t] := List.getElem?_eq_getElem hlt
  obtain ⟨d, arguments, callId, hp⟩ := started_of_calling x.calling _ (List.getElem_mem hlt)
  have hran := hfollowed.completes t _ p events r hget ht h
  rw [hp] at hran
  rcases Prog.ran_bind.mp hran with ⟨e, he, -⟩ | ⟨a, before, after, heq, hbefore, hafter⟩
  · exact agentTool_ran he
  · obtain ⟨rfl, -⟩ := ran_done hafter
    rw [List.append_nil] at heq
    rw [← heq] at hbefore
    exact agentTool_ran hbefore

/-- **The latch** is set exactly if a call was refused a verdict and has come to its end. -/
theorem SecuredExecution.latched_iff : x.final.world.terminalFailure ≠ none ↔
    ∃ (t : ℕ) (p : Task Unit), x.final.threads[t]? = some p ∧ p.Ended ∧ ∃ e ∈ Pool.own t x.final.trace, RefusesVerdict e := by
  rw [SecuredExecution.final, terminalFailure_iff, ← SecuredExecution.final]
  have hfollowed := Pool.followed (M := machine) (⟨0, none⟩ : Session) x.actions
  constructor
  · rintro ⟨e, he, hsets⟩
    obtain ⟨p, ht⟩ : ∃ p, x.final.threads[e.thread]? = some p := ⟨_, List.getElem?_eq_getElem (hfollowed.below e he)⟩
    obtain ⟨events, r, hrest⟩ := Prog.exists_ran allowing p
    have hown : (⟨e.request, e.answer⟩ : (q : Request) × q.Answer) ∈ (Pool.own e.thread x.final.trace).reverse :=
      List.mem_reverse.mpr (List.mem_map.mpr ⟨e, List.mem_filter.mpr ⟨he, by simp⟩, rfl⟩)
    rcases x.call_ran ht hrest with hquiet | ⟨before, outcome, heq, ⟨y, hy, hverdict⟩, hunset⟩
    · rw [(hquiet _ (List.mem_append_left _ hown)).1] at hsets
      cases hsets
    · -- the step that keeps a failure is the last one of the call
      rcases List.eq_nil_or_concat events with rfl | ⟨events, last, rfl⟩
      · refine ⟨e.thread, _, ht, Prog.ended_iff.mpr ⟨r, hrest⟩, y, ?_, hverdict⟩
        rw [List.append_nil] at heq
        rw [← List.mem_reverse, heq]
        exact List.mem_append_left _ hy
      · rw [List.concat_eq_append, ← List.append_assoc] at heq
        have hbefore := List.append_inj_left' heq rfl
        have hunset := hunset _ (hbefore ▸ List.mem_append_left _ hown)
        exact absurd (hunset.symm.trans hsets) Bool.false_ne_true
  · rintro ⟨t, p, ht, hended, e, he, hverdict⟩
    obtain ⟨r, hran⟩ := Prog.ended_iff.mp hended
    rcases x.call_ran ht hran with hquiet | ⟨before, outcome, heq, -, -⟩
    · exact absurd hverdict (hquiet e (by simpa using he)).2
    · have hmem : (⟨.setTerminalFailure outcome, ()⟩ : (q : Request) × q.Answer) ∈ Pool.own t x.final.trace := by
        rw [List.append_nil] at heq
        rw [← List.mem_reverse, heq]
        exact List.mem_append_right _ (List.mem_singleton_self _)
      exact ⟨_, Pool.mem_of_own hmem, rfl⟩

/-- **A denial is terminal** exactly if the run ends with a security error, or normally after the service refused a call
its verdict and the call came to its end; the refusal of a start is not. -/
theorem denial_terminal_iff (x : SecuredExecution) (result : RunResult) :
    ((∃ e ∈ x.final.trace, Refuses e) →
        SecurityFailure (executeOpenAIAgents x.final.world.terminalFailure result)) ↔
      ((∃ e ∈ x.final.trace, Refuses e) → result.Kept x.final) := by
  refine imp_congr_right fun _ => ?_
  cases result with
  | threw error =>
    refine Iff.trans ⟨fun h => ?_, fun h => ⟨_, rfl, h⟩⟩ (caught_category_iff error)
    obtain ⟨failure, heq, hcategory⟩ := h
    rwa [← Except.error.inj heq] at hcategory
  | finished finalOutput =>
    refine Iff.trans ?_ x.latched_iff
    unfold executeOpenAIAgents
    cases x.final.world.terminalFailure with
    | some outcome =>
      refine iff_of_true ⟨_, rfl, (caught_category_iff _).mpr ?_⟩ (Option.some_ne_none _)
      cases outcome with
      | deny => exact ⟨"security_denied", rfl, by decide, .inr (Option.some_ne_none _)⟩
      | timeout => exact ⟨"security_timeout", rfl, by decide, .inr (Option.some_ne_none _)⟩
      | unavailable => exact ⟨"security_unavailable", rfl, by decide, .inr (Option.some_ne_none _)⟩
    | none =>
      refine iff_of_false (fun h => ?_) (fun h => h rfl)
      obtain ⟨failure, heq, hcategory⟩ := h
      cases finalOutput with
      | none =>
        rw [← Except.error.inj heq] at hcategory
        exact absurd hcategory (by decide)
      | some output =>
        dsimp only at heq
        split_ifs at heq
        · rw [← Except.error.inj heq] at hcategory
          exact absurd hcategory (by decide)

/-- Services that cannot be told of a tool's start. -/
def unreachable : Services
  | .handleToolStart .. => .error ⟨.other, none, none, none⟩
  | q => allowing q

/-- One search whose start is refused. -/
def refusedSearch : SecuredExecution where
  tools := [artifactSearch]
  actions :=
    [.spawn (agentTool productionAdrianSecurityGate maxToolCalls artifactSearch (.obj [("query", .str "q")])
      (some "call-1")).forget, .run 0 unreachable, .run 0 unreachable]
  calling := ⟨⟨artifactSearch, List.mem_singleton_self _, _, _, rfl⟩, trivial, trivial, trivial⟩

/-- The start of the call is refused; the run goes on, and its output is returned. -/
theorem refused_start_forgotten : (∃ e ∈ refusedSearch.final.trace, Refuses e) ∧
    executeOpenAIAgents refusedSearch.final.world.terminalFailure (.finished (some "done")) = .ok "done" :=
  ⟨⟨_, List.mem_cons_self .., trivial⟩, by decide +kernel⟩

end ADT.ToolGate
