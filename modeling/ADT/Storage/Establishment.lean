import ADT.Storage.Approvals
import ADT.Storage.Sequential

/-!
# Storage.Establishment — asking for an approval again after a crash

`require` inserts the request and then puts the run to wait, in two statements.  A call that finds the request of its
activation returns it and leaves the run alone, so that a crash between the two statements is not repaired.
-/

namespace ADT.Storage

open Workflow Interleave

/-- `require` accepts the interrupt. -/
def fits (i : Interrupt) : Bool :=
  !(262144 < byteLength i.text || 2000 < utf16Length i.message || 256 < utf16Length i.activationId ||
    256 < utf16Length i.interruptId)

/-- The run waits for the request that was returned, and an `approve` for it succeeds. -/
def Established (i : Interrupt) (generation : ℕ) (envs : ℕ → Env) (r : Ran WorkflowApproval) : Prop :=
  ∃ a, r.result = .ok a ∧ a ∈ r.world.db.approvals ∧ a.workflowGeneration = generation ∧
    a.activationId = i.activationId ∧ a.status = .pending ∧ r.world.db.run.status = .waitingApproval ∧
    ∃ decision, (alone (approve a.requestId) envs 0 r.world).result = .ok decision ∧
      decision.approval.requestId = a.requestId ∧ decision.approval.status = .approved ∧ decision.idempotent = false

variable {w : World} {i : Interrupt} {generation : ℕ} {envs : ℕ → Env}

/-! ### The statements of a call -/

/-- The world with the request in it. -/
def inserted (w : World) (a : WorkflowApproval) : World :=
  { w with db := { w.db with approvals := w.db.approvals ++ [a] } }

/-- The world with the run waiting at the node. -/
def awaiting (w : World) (nodeId : String) : World :=
  { w with db := { w.db with run := { w.db.run with status := .waitingApproval, currentStepId := some nodeId } } }

/-- No request stands in the way, and the run can wait. -/
structure Open (w : World) (i : Interrupt) (generation : ℕ) : Prop where
  within : fits i = true
  current : w.db.run.workflowGeneration = generation
  active : w.db.run.status.active = true
  uncancelled : w.db.run.cancelRequestedAt = none
  absent : w.db.approvalOf generation i.activationId = none

/-- The request a call makes, by the answers of its environment. -/
def requestOf (i : Interrupt) (generation : ℕ) (envs : ℕ → Env) : WorkflowApproval :=
  pendingRequest i generation (envs 1).uuid (envs 2).now

theorem require_eq (h : fits i = true) : require i generation =
    request (.findApproval generation i.activationId) >>= fun found =>
      match found with
      | some existing => matching i existing
      | none => createRequest i generation := by
  unfold require
  exact if_neg (by simpa [fits] using h)

variable {a : WorkflowApproval} {envs' : ℕ → Env}

theorem insertApproval_open (h : Open w i generation) (ha : a.workflowGeneration = generation)
    (hact : a.activationId = i.activationId) (hid : w.db.approval a.requestId = none) :
    w.db.insertApproval a = (some true, (inserted w a).db) := by
  have hrun : (w.db.run.workflowGeneration == a.workflowGeneration && w.db.run.status.active &&
      w.db.run.cancelRequestedAt.isNone) = true := by
    simp [ha, h.current, h.active, h.uncancelled]
  have hkey : ((w.db.approval a.requestId).isSome || (w.db.approvalOf a.workflowGeneration a.activationId).isSome) =
      false := by
    simp [ha, hact, hid, h.absent]
  rw [Database.insertApproval, if_pos hrun, if_neg (by simp [hkey])]
  rfl

theorem approval_append (db : Database) (h : db.approval a.requestId = none) :
    Database.approval { db with approvals := db.approvals ++ [a] } a.requestId = some a := by
  simp only [Database.approval] at h ⊢
  rw [List.find?_append, h]
  simp

theorem approvalOf_append (db : Database) (h : db.approvalOf a.workflowGeneration a.activationId = none) :
    Database.approvalOf { db with approvals := db.approvals ++ [a] } a.workflowGeneration a.activationId = some a := by
  simp only [Database.approvalOf] at h ⊢
  rw [List.find?_append, h]
  simp

theorem await_guard (h : Open w i generation) (a : WorkflowApproval) :
    (RunUpdate.awaitApproval i.nodeId generation).guard (inserted w a).db = true := by
  simp [RunUpdate.guard, inserted, h.current, h.active, h.uncancelled]

theorem getApproval_inserted (hfresh : w.db.approval (envs 1).uuid = none) :
    answer (envs 4) (.getApproval (envs 1).uuid) (inserted w (requestOf i generation envs)) =
      (some (requestOf i generation envs), inserted w (requestOf i generation envs)) :=
  congrArg (·, inserted w (requestOf i generation envs))
    (approval_append w.db (a := requestOf i generation envs) hfresh)

theorem require_open (h : Open w i generation) (hfresh : w.db.approval (envs 1).uuid = none) :
    alone (require i generation) envs 0 w = ⟨.ok (requestOf i generation envs), 6,
      awaiting (inserted w (requestOf i generation envs)) i.nodeId⟩ := by
  have hins := insertApproval_open (a := requestOf i generation envs) h rfl rfl hfresh
  rw [require_eq h.within, alone_request]
  simp only [answer, h.absent]
  unfold createRequest
  rw [alone_request, alone_request, alone_request]
  simp only [answer, World.withDb]
  rw [show pendingRequest i generation (envs (0 + 1)).uuid (envs (0 + 1 + 1)).now = requestOf i generation envs from rfl,
    hins]
  change alone (request (.getApproval (envs 1).uuid) >>= _) envs 4 (inserted w (requestOf i generation envs)) = _
  rw [alone_request, getApproval_inserted hfresh]
  change alone (awaitCreated i generation _) envs 5 (inserted w (requestOf i generation envs)) = _
  unfold awaitCreated
  rw [alone_updateRun_true (await_guard h _)]
  rfl

/-- What each crash point of an approval leaves. -/
theorem crashed_open (h : Open w i generation) (hfresh : w.db.approval (envs 1).uuid = none) (n : ℕ) :
    crashed (require i generation) envs n 0 w =
      if n < 4 then w
      else if n < 6 then inserted w (requestOf i generation envs)
      else awaiting (inserted w (requestOf i generation envs)) i.nodeId := by
  have hopen := require_open h hfresh
  have hins := insertApproval_open (a := requestOf i generation envs) h rfl rfl hfresh
  have hstep : ∀ m, crashed (require i generation) envs (m + 1) 0 w =
      crashed (createRequest i generation) envs m 1 w := by
    intro m
    rw [require_eq h.within, crashed_request]
    simp only [answer, h.absent]
  by_cases hn : 6 ≤ n
  · rw [if_neg (by omega), if_neg (by omega)]
    refine (Prog.crashed_of_requests_le (M := machine) (k := 0) (w := w) ?_).trans (congrArg Finish.world hopen)
    rw [show Prog.alone (M := machine) envs (require i generation) 0 w = _ from hopen]
    simpa using hn
  · obtain rfl | rfl | rfl | rfl | rfl | rfl : n = 0 ∨ n = 1 ∨ n = 2 ∨ n = 3 ∨ n = 4 ∨ n = 5 := by omega
    · exact crashed_zero _
    · exact (hstep 0).trans (crashed_zero _)
    · refine (hstep 1).trans ?_
      unfold createRequest
      rw [crashed_request]
      exact crashed_zero _
    · refine (hstep 2).trans ?_
      unfold createRequest
      rw [crashed_request, crashed_request]
      exact crashed_zero _
    · refine (hstep 3).trans ?_
      unfold createRequest
      rw [crashed_request, crashed_request, crashed_request]
      simp only [answer, World.withDb]
      rw [show pendingRequest i generation (envs 1).uuid (envs (1 + 1)).now = requestOf i generation envs from rfl, hins]
      exact crashed_zero _
    · refine (hstep 4).trans ?_
      unfold createRequest
      rw [crashed_request, crashed_request, crashed_request]
      simp only [answer, World.withDb]
      rw [show pendingRequest i generation (envs 1).uuid (envs (1 + 1)).now = requestOf i generation envs from rfl, hins]
      change crashed (request (.getApproval (envs 1).uuid) >>= _) envs 1 4 (inserted w (requestOf i generation envs)) = _
      rw [crashed_request, getApproval_inserted hfresh]
      exact crashed_zero _

theorem require_found (hfits : fits i = true)
    (ha : w.db.approvalOf generation i.activationId = some a) (hexact : exact a i = true) :
    alone (require i generation) envs 0 w = ⟨.ok a, 1, w⟩ := by
  rw [require_eq hfits, alone_request]
  simp only [answer, ha, matching, hexact, if_true]
  rfl

theorem require_requestOf (hfits : fits i = true) {w' : World}
    (h : w'.db.approvals = w.db.approvals ++ [requestOf i generation envs])
    (hnone : w.db.approvalOf generation i.activationId = none) :
    alone (require i generation) envs' 0 w' = ⟨.ok (requestOf i generation envs), 1, w'⟩ := by
  refine require_found hfits ?_ (by simp [exact, requestOf, pendingRequest])
  have happ := approvalOf_append w.db (a := requestOf i generation envs) hnone
  simp only [Database.approvalOf, h] at happ ⊢
  exact happ

theorem require_still (h : ¬Open w i generation) (hrun : w.db.run.status = .running)
    (hgen : w.db.run.workflowGeneration = generation) (hfresh : w.db.approval (envs 1).uuid = none) :
    Still (require i generation) envs 0 w := by
  by_cases hfits : fits i = true
  · rw [require_eq hfits, still_request]
    refine ⟨rfl, ?_⟩
    cases hfound : w.db.approvalOf generation i.activationId with
    | some existing =>
      simp only [answer, hfound, matching]
      split <;> simp
    | none =>
      have hcancel : w.db.run.cancelRequestedAt.isNone = false := by
        by_contra hc
        exact h ⟨hfits, hgen, by rw [hrun]; rfl, by simpa using hc, hfound⟩
      have hins : w.db.insertApproval (requestOf i generation envs) = (some false, w.db) := by
        rw [Database.insertApproval, if_neg (by simp [hcancel])]
      simp only [answer, hfound]
      unfold createRequest
      rw [still_request, still_request, still_request]
      simp only [answer, World.withDb]
      rw [show pendingRequest i generation (envs (0 + 1)).uuid (envs (0 + 1 + 1)).now = requestOf i generation envs
        from rfl, hins]
      refine ⟨trivial, trivial, rfl, ?_⟩
      change Still (request (.getApproval (envs 1).uuid) >>= _) envs 4 w
      rw [still_request]
      simp only [answer, hfresh, findAgain]
      refine ⟨trivial, ?_⟩
      rw [still_request]
      simp only [answer, hfound, still_error, and_self]
  · unfold require
    rw [if_pos (by simpa only [fits, Bool.not_eq_true', Bool.not_eq_false] using hfits)]
    trivial

theorem approve_waiting (hmem : w.db.approval a.requestId = some a)
    (hpending : a.status = .pending) (hconsumed : a.consumedAt = none)
    (hgen : a.workflowGeneration = w.db.run.workflowGeneration) (hwaits : w.db.run.status = .waitingApproval)
    (hcancel : w.db.run.cancelRequestedAt = none) :
    ∃ decision, (alone (approve a.requestId) envs 0 w).result = .ok decision ∧
      decision.approval.requestId = a.requestId ∧ decision.approval.status = .approved ∧ decision.idempotent = false := by
  have hguard : approveGuard w.db a.requestId a = true := by
    simp [approveGuard, hpending, hconsumed, hgen, hwaits, hcancel]
  have hany : (w.db.approve a.requestId (envs 0).now).1 = true :=
    List.any_eq_true.mpr ⟨a, List.mem_of_find?_eq_some hmem, hguard⟩
  -- the rows before it have other ids, which the statement does not change
  have hget : (w.db.approve a.requestId (envs 0).now).2.approval a.requestId =
      some { a with status := .approved, approvedAt := a.approvedAt.or (some (envs 0).now) } := by
    simp only [Database.approve, Database.approval, List.find?_map]
    have hid : (fun x : WorkflowApproval => x.requestId == a.requestId) ∘ (fun x =>
        if approveGuard w.db a.requestId x = true then
          { x with status := .approved, approvedAt := x.approvedAt.or (some (envs 0).now) } else x) =
        fun x => x.requestId == a.requestId := by
      funext x
      simp only [Function.comp]
      split <;> rfl
    rw [hid]
    simp only [Database.approval] at hmem
    rw [hmem]
    simp [hguard]
  have happrove : answer (envs 1) (.approve a.requestId (envs 0).now) w =
      (true, { w with db := (w.db.approve a.requestId (envs 0).now).2 }) := Prod.ext hany rfl
  unfold approve
  rw [alone_now, alone_answer happrove, alone_getApproval, hget]
  exact ⟨_, rfl, rfl, rfl, rfl⟩

theorem established_open (h : Open w i generation) (hfresh : w.db.approval (envs 1).uuid = none)
    (k : ℕ) : Established i generation envs'
      ⟨.ok (requestOf i generation envs), k, awaiting (inserted w (requestOf i generation envs)) i.nodeId⟩ := by
  refine ⟨_, rfl, ?_, rfl, rfl, rfl, rfl, approve_waiting ?_ rfl rfl h.current.symm rfl h.uncancelled⟩
  · simp [awaiting, inserted]
  · exact approval_append w.db (a := requestOf i generation envs) hfresh

/-- **A crash between the two statements of `require` is not repaired.**  Asking again for the approval of a running
run leaves it waiting for a request that can be approved exactly when the interrupt is accepted, no cancellation was
requested, no request of the activation stood before, and the call before did not stop between its insert and its
update. -/
theorem require_again_iff (w : World) (i : Interrupt) (n : ℕ) (envs envs' envs'' : ℕ → Env)
    (hrun : w.db.run.status = .running) (hfresh : w.db.approval (envs 1).uuid = none)
    (hfresh' : w.db.approval (envs' 1).uuid = none) :
    Established i w.db.run.workflowGeneration envs''
        (alone (require i w.db.run.workflowGeneration) envs' 0
          (crashed (require i w.db.run.workflowGeneration) envs n 0 w)) ↔
      fits i = true ∧ w.db.run.cancelRequestedAt = none ∧
        w.db.approvalOf w.db.run.workflowGeneration i.activationId = none ∧ n ≠ 4 ∧ n ≠ 5 := by
  by_cases h : Open w i w.db.run.workflowGeneration
  · have hcrash := crashed_open h hfresh n
    constructor
    · rintro ⟨a, -, -, -, -, -, hwaits, -⟩
      refine ⟨h.within, h.uncancelled, h.absent, ?_⟩
      by_contra hn
      rw [if_neg (by omega), if_pos (by omega)] at hcrash
      rw [hcrash, require_requestOf h.within rfl h.absent] at hwaits
      exact absurd (hrun.symm.trans hwaits) (by decide)
    · rintro ⟨-, -, -, hn⟩
      by_cases hlt : n < 4
      · rw [hcrash, if_pos hlt, require_open h hfresh']
        exact established_open h hfresh' 6
      · rw [hcrash, if_neg hlt, if_neg (by omega), require_requestOf h.within rfl h.absent]
        exact established_open h hfresh 1
  · have hstill := require_still h hrun rfl hfresh
    have hstill' := require_still h hrun rfl hfresh'
    constructor
    · rintro ⟨a, -, -, -, -, -, hwaits, -⟩
      rw [show crashed (require i w.db.run.workflowGeneration) envs n 0 w = w from hstill.crashed n,
        show (alone (require i w.db.run.workflowGeneration) envs' 0 w).world = w from hstill'.alone, hrun] at hwaits
      cases hwaits
    · rintro ⟨hfits, hcancel, hnone, -⟩
      exact absurd ⟨hfits, rfl, by rw [hrun]; rfl, hcancel, hnone⟩ h

def approvalRun : WorkflowRun :=
  { sampleRun with
    status := .running
    snapshot := { sampleSnapshot with
      executionPlan := ⟨[⟨"a", .agentV1 "agent"⟩, ⟨"p", .approval "Go on?"⟩, ⟨"t", .agentV1 "agent"⟩],
        [⟨"a", "out", "p", "in"⟩, ⟨"p", "out", "t", "in"⟩], "a", "t", 8⟩ } }

def runningWorld : World where
  db := ⟨approvalRun, [{ StepAttempt.fresh ⟨"a", 1, 1⟩ (some "x") "agent" "key" with
    status := .succeeded
    outputText := some "done" }], []⟩
  durable := []
  graph := ⟨none, [], []⟩

def sampleInterrupt : Interrupt := ⟨"interrupt", "p", "visit", "Go on?", "done"⟩

/-- A call that stops before its insert is repaired. -/
theorem require_again_before : Established sampleInterrupt 1 (fun _ => sampleEnv 9)
    (alone (require sampleInterrupt 1) (fun _ => sampleEnv 7) 0
      (crashed (require sampleInterrupt 1) (fun _ => sampleEnv 5) 3 0 runningWorld)) :=
  (require_again_iff runningWorld sampleInterrupt 3 _ _ _ rfl rfl rfl).mpr (by decide)

/-- A call that stops between its statements is not: the run goes on, and no decision is taken. -/
theorem require_again_between : ¬Established sampleInterrupt 1 (fun _ => sampleEnv 9)
      (alone (require sampleInterrupt 1) (fun _ => sampleEnv 7) 0
        (crashed (require sampleInterrupt 1) (fun _ => sampleEnv 5) 4 0 runningWorld)) ∧
      (alone (approve "request") (fun _ => sampleEnv 9) 0
        (alone (require sampleInterrupt 1) (fun _ => sampleEnv 7) 0
          (crashed (require sampleInterrupt 1) (fun _ => sampleEnv 5) 4 0 runningWorld)).world).result.isOk = false := by
  refine ⟨?_, by decide +kernel⟩
  rintro ⟨a, -, -, -, -, -, hwaits, -⟩
  exact absurd hwaits (by decide +kernel)

end ADT.Storage
