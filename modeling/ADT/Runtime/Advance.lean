import ADT.Runtime.RuntimePlan

/-!
# Runtime.Advance — inspection and admission calls

`advanceGenericGraph` of `adt-runtime/src/langgraph.ts` as the driver calls it: an inspection looks at the
checkpoint and decides, an admission runs the frontier an inspection returned.  Inside a call the graph library
runs the tasks of a superstep in any order, keeps the writes of those that finish, and commits the superstep
when all have; it stops before a superstep with agents, at an interrupt, at a failure, or anywhere.  Node calls
may finish, stay pending or fail in any order: a task that does not finish is one that takes no step.

`execution_budget`: as long as supersteps with several nodes consist of agent and publish nodes, the execution counter
never exceeds the limit and nothing is admitted beyond it.
-/

namespace ADT.Runtime

open Workflow Superstep

/-! ### The checkpoint -/

/-- `agentNames`. -/
def isAgent (p : ExecutionPlan) (id : String) : Bool :=
  (findNode p id).any fun n => n.blockType == "agent" || n.blockType == "publish-github-pr"

def isApproval (p : ExecutionPlan) (id : String) : Bool := (findNode p id).any (·.blockType == "approval")

/-- A checkpoint: the committed configuration, the number of its superstep, the pending writes of the tasks
that finished, and the Approval tasks that are interrupted. -/
structure Thread where
  config : Config
  superstep : ℕ := 0
  done : List (String × Option (List OutputRecord)) := []
  interrupted : List String := []

namespace Thread

variable (p : ExecutionPlan) (t : Thread)

def active : Finset String := t.config.control.active

def executions : ℕ := t.config.graph.executions

/-- The agents of the superstep that have not finished. -/
def frontier : Finset String := t.active.filter fun id => isAgent p id && !(t.done.map (·.1)).contains id

/-- All tasks have finished: their writes are applied and the next superstep begins. -/
def commit (lower : String → String) : Thread where
  config := ⟨p.stateGraph.step (outcomeOf lower p t.config.graph) t.config.control,
    applyWrites t.config.graph (t.done.map (·.2))⟩
  superstep := t.superstep + 1

end Thread

/-- What an inspection does with a checkpoint. -/
inductive Decision where
  | multipleInterrupts
  | approval
  | frontierTooWide
  | executionLimit
  | admissionRequired (frontier : Finset String)
  | completed
  | run

def decision (p : ExecutionPlan) (t : Thread) : Decision :=
  if 1 < t.interrupted.length then .multipleInterrupts
  else if t.interrupted ≠ [] then .approval
  else if maxGraphFrontier < (t.frontier p).card then .frontierTooWide
  else if p.maxStepExecutions < t.executions + (t.frontier p).card then .executionLimit
  else if (t.frontier p).Nonempty then .admissionRequired (t.frontier p)
  else if t.active = ∅ then .completed
  else if p.maxStepExecutions < t.executions + t.active.card then .executionLimit
  else .run

/-! ### Calls -/

/-- Where a call is.  `invoking`: inside `graph.invoke`, with the authorities given, whether an interrupt is
resumed, whether the invocation began in this superstep (it may then run its agents), and whether the call is an
inspection. -/
inductive Phase where
  | idle
  | inspecting
  | invoking (authorities : Finset String) (resumed started inspection : Bool)

/-- Authorities given: the nodes, the superstep whose tasks they name, and the number of executions there will
be when it commits. -/
structure Admission where
  nodes : Finset String
  superstep : ℕ
  total : ℕ

structure Driver where
  thread : Thread
  created : Bool := false
  phase : Phase := .idle
  admitted : List Admission := []

inductive Action where
  /-- A call without authorities. -/
  | inspect
  /-- The inspection looks at the checkpoint; `resume` if it carries the resume of the pending interrupt. -/
  | decide (resume : Bool)
  /-- A call with the authorities of an earlier admission. -/
  | advance (admission : ℕ)
  | finish (id activationId answer : String)
  | interrupt (id : String)
  | commit
  /-- The invocation ends, normally or not. -/
  | stop (returned : Bool)

def start (p : ExecutionPlan) (initialInput : String) : Driver :=
  { thread := { config := ⟨p.stateGraph.start, { initialInput := initialInput }⟩ } }

/-- The task may run in this invocation. -/
def runnable (p : ExecutionPlan) (d : Driver) (started : Bool) (id : String) : Bool :=
  decide (id ∈ d.thread.active) && !(d.thread.done.map (·.1)).contains id &&
    (started || decide (∀ a ∈ d.thread.active, isAgent p a = false))

def applyDecision (d : Driver) (resume : Bool) : Decision → Driver
  | .approval => if resume then { d with phase := .invoking ∅ true true true } else { d with phase := .idle }
  | .run => { d with phase := .invoking ∅ false true true }
  | .admissionRequired frontier => { d with
      phase := .idle
      admitted := d.admitted ++ [⟨frontier, d.thread.superstep, d.thread.executions + d.thread.active.card⟩] }
  | _ => { d with phase := .idle }

/-- One step of the driver's calls; `none` where the action is not possible. -/
def step (p : ExecutionPlan) (lower : String → String) (d : Driver) : Action → Option Driver
  | .inspect =>
    match d.phase with
    | .idle => some (if d.created then { d with phase := .inspecting }
        else { d with created := true, phase := .invoking ∅ false false true })
    | _ => none
  | .decide resume =>
    match d.phase with
    | .inspecting => some (applyDecision d resume (decision p d.thread))
    | _ => none
  | .advance k =>
    match d.phase, d.admitted[k]? with
    | .idle, some a =>
      if a.nodes = d.thread.frontier p ∧ a.superstep = d.thread.superstep then
        some { d with phase := .invoking a.nodes false true false }
      else none
    | _, _ => none
  | .finish id activationId answer =>
    match d.phase with
    | .invoking authorities resumed started _ =>
      if runnable p d started id && (!isAgent p id || decide (id ∈ authorities)) && (!isApproval p id || resumed) then
        match activate p d.thread.config.graph activationId answer id with
        | .ok write => some { d with thread := { d.thread with done := d.thread.done ++ [(id, write)] } }
        | .error _ => none
      else none
    | _ => none
  | .interrupt id =>
    match d.phase with
    | .invoking _ false started _ =>
      if runnable p d started id && isApproval p id && decide (d.thread.executions < p.maxStepExecutions) then
        some { d with thread := { d.thread with interrupted := d.thread.interrupted ++ [id] } }
      else none
    | _ => none
  | .commit =>
    match d.phase with
    | .invoking _ _ _ inspection =>
      if d.thread.active.Nonempty ∧ ∀ id ∈ d.thread.active, id ∈ d.thread.done.map (·.1) then
        some { d with thread := d.thread.commit p lower, phase := .invoking ∅ false false inspection }
      else none
    | _ => none
  | .stop returned =>
    match d.phase with
    | .invoking _ _ _ inspection =>
      some { d with phase := if inspection && returned then .inspecting else .idle }
    | _ => none

/-- A superstep with several nodes has only agent and publish nodes. -/
def Homogeneous (p : ExecutionPlan) (d : Driver) : Prop :=
  1 < d.thread.active.card → ∀ id ∈ d.thread.active, isAgent p id = true

/-! ### The budget -/

/-- The executions there will be when the superstep commits. -/
def Driver.total (d : Driver) : ℕ := d.thread.executions + d.thread.active.card

/-- The invariant: once a task of a superstep has finished, or authorities for it were given, there is room for
all of its tasks. -/
structure Budget (p : ExecutionPlan) (d : Driver) : Prop where
  committed : d.thread.executions ≤ p.maxStepExecutions
  room : d.thread.done ≠ [] → d.total ≤ p.maxStepExecutions
  admitted : ∀ a ∈ d.admitted, a.total ≤ p.maxStepExecutions ∧ a.superstep ≤ d.thread.superstep ∧
    (a.superstep = d.thread.superstep → a.total = d.total)
  authorised : ∀ authorities resumed started inspection,
    d.phase = .invoking authorities resumed started inspection → authorities.Nonempty → d.total ≤ p.maxStepExecutions
  nodup : (d.thread.done.map (·.1)).Nodup
  done_active : ∀ id ∈ d.thread.done.map (·.1), id ∈ d.thread.active

section Step

variable {p : ExecutionPlan} {lower : String → String} {d d' : Driver}

theorem budget_start (p : ExecutionPlan) (input : String) : Budget p (start p input) where
  committed := Nat.zero_le _
  room h := absurd rfl h
  admitted _ ha := by simp [start] at ha
  authorised _ _ _ _ h := by cases h
  nodup := List.nodup_nil
  done_active _ h := by simp [start] at h

section

variable (h : Budget p d)

include h

theorem Budget.phase (created : Bool) {phase : Phase}
    (hp : ∀ authorities resumed started inspection,
      phase = .invoking authorities resumed started inspection → authorities = ∅) :
    Budget p { d with created := created, phase := phase } := by
  refine { h with authorised := fun _ _ _ _ he hne => ?_ }
  rw [hp _ _ _ _ he] at hne
  simp at hne

theorem frontier_total (hom : Homogeneous p d) (hne : (d.thread.frontier p).Nonempty)
    (hle : d.thread.executions + (d.thread.frontier p).card ≤ p.maxStepExecutions) :
    d.total ≤ p.maxStepExecutions := by
  by_cases hdone : d.thread.done = []
  · have hsub : d.thread.frontier p ⊆ d.thread.active := Finset.filter_subset _ _
    by_cases hcard : 1 < d.thread.active.card
    · -- several nodes: all are agents, and none has finished
      have hall : d.thread.frontier p = d.thread.active := by
        refine Finset.filter_true_of_mem fun id hid => ?_
        simp [hom hcard id hid, hdone]
      rw [hall] at hle
      exact hle
    · have hpos := Finset.card_pos.mpr hne
      have hmono := Finset.card_le_card hsub
      unfold Driver.total
      omega
  · exact h.room hdone

theorem budget_decide (hom : Homogeneous p d) (resume : Bool) :
    Budget p (applyDecision d resume (decision p d.thread)) := by
  unfold decision
  split_ifs with h1 h2 h3 h4 h5 h6 h7
  · exact h.phase d.created (fun _ _ _ _ he => by cases he)
  · unfold applyDecision
    cases resume with
    | true => exact h.phase d.created (fun _ _ _ _ he => by cases he; rfl)
    | false => exact h.phase d.created (fun _ _ _ _ he => by cases he)
  · exact h.phase d.created (fun _ _ _ _ he => by cases he)
  · exact h.phase d.created (fun _ _ _ _ he => by cases he)
  · have htotal := frontier_total h hom h5 (by omega)
    refine { h with admitted := fun a ha => ?_, authorised := fun _ _ _ _ he => by cases he }
    rcases List.mem_append.mp ha with ha | ha
    · exact h.admitted a ha
    · obtain rfl := List.mem_singleton.mp ha
      exact ⟨htotal, le_refl _, fun _ => rfl⟩
  · exact h.phase d.created (fun _ _ _ _ he => by cases he)
  · exact h.phase d.created (fun _ _ _ _ he => by cases he)
  · exact h.phase d.created (fun _ _ _ _ he => by cases he; rfl)

theorem budget_advance {a : Admission} (ha : a ∈ d.admitted)
    (hs : a.superstep = d.thread.superstep) (phase : Phase) : Budget p { d with phase := phase } := by
  obtain ⟨h1, -, h3⟩ := h.admitted a ha
  exact { h with authorised := fun _ _ _ _ _ _ => by rw [h3 hs] at h1; exact h1 }

theorem budget_finish (hom : Homogeneous p d) {authorities : Finset String}
    {resumed started inspection : Bool} (hphase : d.phase = .invoking authorities resumed started inspection)
    {id activationId answer : String} {write : Option (List OutputRecord)}
    (hrun : runnable p d started id = true) (hauth : isAgent p id = true → id ∈ authorities)
    (hact : activate p d.thread.config.graph activationId answer id = .ok write) :
    Budget p { d with thread := { d.thread with done := d.thread.done ++ [(id, write)] } } := by
  simp only [runnable, Bool.and_eq_true, decide_eq_true_eq, Bool.not_eq_true'] at hrun
  obtain ⟨⟨hactive, hnew⟩, -⟩ := hrun
  have htotal : d.total ≤ p.maxStepExecutions := by
    by_cases hcard : 1 < d.thread.active.card
    · exact h.authorised _ _ _ _ hphase ⟨id, hauth (hom hcard id hactive)⟩
    · have hlimit : d.thread.executions < p.maxStepExecutions := by
        unfold activate at hact
        split_ifs at hact with hl
        exact not_le.mp hl
      unfold Driver.total
      omega
  refine { h with room := fun _ => htotal, nodup := ?_, done_active := fun x hx => ?_ }
  · rw [List.map_append, List.map_singleton]
    refine List.Nodup.append h.nodup (by simp) fun x hx hx' => ?_
    rw [List.mem_singleton.mp hx'] at hx
    rw [List.contains_eq_mem] at hnew
    exact of_decide_eq_false hnew hx
  · rw [List.map_append, List.mem_append] at hx
    rcases hx with hx | hx
    · exact h.done_active x hx
    · simp only [List.map_singleton, List.mem_singleton] at hx
      exact hx ▸ hactive

theorem budget_commit (hne : d.thread.active.Nonempty)
    (hall : ∀ id ∈ d.thread.active, id ∈ d.thread.done.map (·.1)) (inspection : Bool) :
    Budget p { d with thread := d.thread.commit p lower, phase := .invoking ∅ false false inspection } := by
  have hcount : d.thread.done.length = d.thread.active.card := by
    have hfin : (d.thread.done.map (·.1)).toFinset = d.thread.active := Finset.ext fun x => by
      rw [List.mem_toFinset]
      exact ⟨h.done_active x, hall x⟩
    rw [← hfin, List.toFinset_card_of_nodup h.nodup, List.length_map]
  have hdone : d.thread.done ≠ [] := by
    intro hnil
    have := Finset.card_pos.mpr hne
    simp [hnil] at hcount
    omega
  have hexec : (d.thread.commit p lower).executions = d.total := by
    show d.thread.executions + (d.thread.done.map (·.2)).length = d.total
    rw [List.length_map, hcount]
    rfl
  refine ⟨hexec ▸ h.room hdone, fun hd => absurd rfl hd, fun a ha => ?_, fun _ _ _ _ he hne' => ?_,
    List.nodup_nil, fun x hx => by simp [Thread.commit] at hx⟩
  · obtain ⟨h1, h2, -⟩ := h.admitted a ha
    refine ⟨h1, Nat.le_succ_of_le h2, fun heq => ?_⟩
    have : a.superstep = d.thread.superstep + 1 := heq
    omega
  · cases he
    simp at hne'

/-- **Every step keeps the budget** of a state whose superstep is homogeneous. -/
theorem budget_step (hom : Homogeneous p d) {action : Action}
    (hs : step p lower d action = some d') : Budget p d' := by
  cases action with
  | inspect =>
    simp only [step] at hs
    split at hs
    · cases hs
      split_ifs
      · exact h.phase d.created (fun _ _ _ _ he => by cases he)
      · exact h.phase true (fun _ _ _ _ he => by cases he; rfl)
    · cases hs
  | decide resume =>
    simp only [step] at hs
    split at hs
    · cases hs
      exact budget_decide h hom resume
    · cases hs
  | advance k =>
    simp only [step] at hs
    split at hs
    · rename_i a _ hk
      split_ifs at hs with hcond
      cases hs
      exact budget_advance h (List.mem_of_getElem? hk) hcond.2 _
    · cases hs
  | finish id activationId answer =>
    simp only [step] at hs
    split at hs
    · rename_i authorities resumed started inspection hphase
      split_ifs at hs with hcond
      simp only [Bool.and_eq_true, Bool.or_eq_true, Bool.not_eq_true', decide_eq_true_eq] at hcond
      split at hs
      · rename_i write hact
        cases hs
        refine budget_finish h hom hphase hcond.1.1 (fun hag => ?_) hact
        rcases hcond.1.2 with hno | hin
        · rw [hag] at hno; cases hno
        · exact hin
      · cases hs
    · cases hs
  | interrupt id =>
    simp only [step] at hs
    split at hs
    · split_ifs at hs
      cases hs
      exact { h with }
    · cases hs
  | commit =>
    simp only [step] at hs
    split at hs
    · split_ifs at hs with hcond
      cases hs
      exact budget_commit h hcond.1 hcond.2 _
    · cases hs
  | stop returned =>
    simp only [step] at hs
    split at hs
    · cases hs
      refine h.phase d.created fun _ _ _ _ he => ?_
      split_ifs at he
    · cases hs

end

/-- **Execution budget.**  In every run of inspection and admission calls whose supersteps are homogeneous the
committed executions never exceed the limit, and neither does any admitted superstep. -/
theorem execution_budget (p : ExecutionPlan) (lower : String → String) (input : String) {d : Driver}
    (hrun : Relation.ReflTransGen (fun d d' => Homogeneous p d ∧ ∃ action, step p lower d action = some d')
      (start p input) d) :
    d.thread.executions ≤ p.maxStepExecutions ∧ ∀ a ∈ d.admitted, a.total ≤ p.maxStepExecutions := by
  have hinv : Budget p d := by
    induction hrun with
    | refl => exact budget_start p input
    | tail _ hstep ih =>
      obtain ⟨hom, action, hs⟩ := hstep
      exact budget_step ih hom hs
  exact ⟨hinv.committed, fun a ha => (hinv.admitted a ha).1⟩

end Step

/-! ### Closed fan-outs are homogeneous -/

section Closed

open WorkflowDefinitionV2

variable {w : WorkflowDefinitionV2} {p : ExecutionPlan} {lower : String → String} {d d' : Driver}

/-- **One action** leaves the control of the graph or makes one superstep. -/
theorem step_control {action : Action} (hs : step p lower d action = some d') :
    d'.thread.config.control = d.thread.config.control ∨
      d'.thread.config.control = p.stateGraph.step (outcomeOf lower p d.thread.config.graph) d.thread.config.control := by
  cases action with
  | inspect =>
    simp only [step] at hs
    split at hs
    · cases hs
      split_ifs <;> exact .inl rfl
    · cases hs
  | decide resume =>
    simp only [step] at hs
    split at hs
    · cases hs
      cases decision p d.thread <;> first | exact .inl rfl | (cases resume <;> exact .inl rfl)
    · cases hs
  | advance k =>
    simp only [step] at hs
    split at hs
    · split_ifs at hs
      cases hs
      exact .inl rfl
    · cases hs
  | finish id activationId answer =>
    simp only [step] at hs
    split at hs
    · split_ifs at hs
      split at hs
      · cases hs
        exact .inl rfl
      · cases hs
    · cases hs
  | interrupt id =>
    simp only [step] at hs
    split at hs
    · split_ifs at hs
      cases hs
      exact .inl rfl
    · cases hs
  | commit =>
    simp only [step] at hs
    split at hs
    · split_ifs at hs
      cases hs
      exact .inr rfl
    · cases hs
  | stop returned =>
    simp only [step] at hs
    split at hs
    · cases hs
      exact .inl rfl
    · cases hs

theorem isAgent_of_type (hw : w.Facts) (hp : RuntimePlanOf w p) {id : String} (hid : id ∈ w.nodeIds)
    (h1 : w.isType "condition" id = false) (h2 : w.isType "join" id = false) (h3 : w.isType "approval" id = false) :
    isAgent p id = true := by
  obtain ⟨n, hn⟩ := exists_findNode hp.toPlanOf hid
  obtain ⟨hmem, rfl⟩ := findNode_id hn
  have h4 := hp.primitive n hmem
  rw [isType_planNode hw hp.toPlanOf hmem, beq_eq_false_iff_ne] at h1 h2 h3
  rw [isAgent, hn, Option.any_some]
  obtain ⟨id, config⟩ := n
  cases config with
  | agentV1 _ | agentV2 _ _ | agentV3 _ _ _ | publishGitHubPr _ => rfl
  | condition _ => exact absurd rfl h1
  | join => exact absurd rfl h2
  | approval _ => exact absurd rfl h3
  | subworkflow _ => exact absurd rfl h4

/-- **In every run of a plan whose fan-outs are closed** the supersteps are homogeneous. -/
theorem homogeneous_of_closed (hw : w.Facts) (hp : RuntimePlanOf w p)
    (hclosed : ∀ o, w.fansOut o = true → w.closedByJoin o = true) {input : String}
    (hrun : Relation.ReflTransGen (fun d d' => ∃ action, step p lower d action = some d') (start p input) d) :
    Homogeneous p d := by
  have hg := graphOf_stateGraph hw hp.toPlanOf
  have hinv : StateGraph.AllOrNone p.stateGraph d.thread.config.control ∧
      StateGraph.Disciplined p.stateGraph d.thread.config.control := by
    induction hrun with
    | refl => exact ⟨StateGraph.allOrNone_start (hg.structured hw), .inl (by simp [start, StateGraph.start])⟩
    | tail _ hstep ih =>
      obtain ⟨action, hs⟩ := hstep
      rcases step_control hs with h | h
      · rw [h]; exact ih
      · rw [h]
        refine ⟨StateGraph.allOrNone_step (hg.structured hw) ih.1 _,
          StateGraph.disciplined_step (hg.structured hw) ih.1 ih.2 (fun o _ hf => ?_) _⟩
        have hf' := (hg.fanOut_iff hw).mp hf
        exact (hg.closed_iff hw hf').mpr (hclosed o hf')
  intro hcard id hid
  rcases (GraphOf.disciplined_iff_shape hw hg).mp hinv.2 with h | ⟨o, j, hf, hj, hall⟩
  · have hlt : 1 < d.thread.config.control.active.card := hcard
    omega
  · obtain ⟨hto, htj⟩ := hall id hid
    obtain ⟨q, hq⟩ := hw.joinCloses hj
    have hin := hq.only_in id (mem_sources_iff_mem_targets.mpr htj)
    refine isAgent_of_type hw hp (target_mem_nodeIds hto) (GraphOf.not_condition_of_feeds_join hw hj htj) ?_
      (GraphOf.branch_not_approval hw hf hj hto htj)
    by_contra hjoin
    have htwo := (hw.join_rules (by simpa using hjoin)).1
    rw [hin] at htwo
    simp at htwo

end Closed

theorem closedFanOut_budget : ∃ p q, compileWorkflowV2ExecutionPlan closedFanOut ["a"] = .ok p ∧
    projectExecutionPlanForRuntime p = .ok q ∧ ∀ lower input d,
      Relation.ReflTransGen (fun d d' => ∃ action, step q lower d action = some d') (start q input) d →
        d.thread.executions ≤ q.maxStepExecutions ∧ ∀ a ∈ d.admitted, a.total ≤ q.maxStepExecutions := by
  obtain ⟨p, q, hp, hq⟩ := exists_runtimePlan closedFanOut ["a"] (by decide +kernel)
  have hw : closedFanOut.Accepted := by decide +kernel
  have hplan := runtimePlanOf_project hw hp hq
  have hall : ∀ id ∈ closedFanOut.nodeIds, closedFanOut.fansOut id = true →
      closedFanOut.closedByJoin id = true := by decide
  refine ⟨p, q, hp, hq, fun lower input d hrun => execution_budget q lower input ?_⟩
  -- every state on the way is homogeneous
  induction hrun with
  | refl => exact .refl
  | tail h hstep ih =>
    refine ih.tail ⟨homogeneous_of_closed hw.facts hplan (fun o ho => ?_) h, hstep⟩
    exact hall o (WorkflowDefinitionV2.mem_nodeIds_of_fansOut ho) ho

/-- `f` fans out to the agent `a` and the Condition `c`; the limit is three executions. -/
def mixedFanOut : WorkflowDefinitionV2 :=
  sample 3 [agentNode "s", agentNode "f", agentNode "a", conditionNode "c", agentNode "x", agentNode "y",
      agentNode "m", agentNode "o", agentNode "p", agentNode "q", joinNode "j", agentNode "t"]
    [edge "s" "f", edge "f" "a", edge "f" "c", edge "a" "m", portEdge "c" "true" "x", portEdge "c" "false" "y",
      edge "x" "m", edge "y" "m", edge "m" "o", edge "o" "p", edge "o" "q", edge "p" "j", edge "q" "j",
      edge "j" "t"]

theorem reach_of_foldlM {p : ExecutionPlan} {lower : String → String} : ∀ {actions : List Action} {d d' : Driver},
    actions.foldlM (step p lower) d = some d' →
      Relation.ReflTransGen (fun d d' => ∃ action, step p lower d action = some d') d d'
  | [], d, d', h => by cases h; exact .refl
  | a :: actions, d, d', h => by
    rw [List.foldlM_cons] at h
    obtain ⟨e, he, h⟩ := Option.bind_eq_some_iff.mp h
    exact .head ⟨a, he⟩ (reach_of_foldlM h)

/-- Run `s` and `f`, then the superstep of `a` and `c`. -/
def mixedCalls : List Action :=
  [.inspect, .stop true, .decide false, .advance 0, .finish "s" "t1" "", .commit, .stop true,
    .inspect, .decide false, .advance 1, .finish "f" "t2" "", .commit, .stop true,
    .inspect, .decide false, .advance 2, .finish "a" "t3" "", .finish "c" "t4" "", .commit]

/-- With two of three executions used, `a` is admitted, and the superstep commits two more. -/
theorem mixedFanOut_overrun : mixedFanOut.Accepted ∧ ∃ p q,
    compileWorkflowV2ExecutionPlan mixedFanOut ["a"] = .ok p ∧ projectExecutionPlanForRuntime p = .ok q ∧
    q.maxStepExecutions = 3 ∧ ∃ d,
      Relation.ReflTransGen (fun d d' => ∃ action, step q (fun s => s) d action = some d') (start q "") d ∧
      d.thread.executions = 4 ∧ d.admitted.map (·.total) = [1, 2, 4] := by
  refine ⟨by decide +kernel, samplePlan mixedFanOut "s" "t", runtimePlan (samplePlan mixedFanOut "s" "t"),
    by decide +kernel, by decide +kernel, by decide +kernel, ?_⟩
  have hrun : (mixedCalls.foldlM (step (runtimePlan (samplePlan mixedFanOut "s" "t")) fun s => s)
      (start (runtimePlan (samplePlan mixedFanOut "s" "t")) "")).map
        (fun d => (d.thread.executions, d.admitted.map (·.total))) = some (4, [1, 2, 4]) := by decide +kernel
  obtain ⟨d, hd, he⟩ := Option.map_eq_some_iff.mp hrun
  exact ⟨d, reach_of_foldlM hd, congrArg Prod.fst he, congrArg Prod.snd he⟩

end ADT.Runtime
