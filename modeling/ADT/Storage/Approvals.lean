import ADT.Storage.Operations

/-!
# Storage.Approvals — `D1WorkflowApprovalStore`

The methods `require`, `approve` and `consume` of `lib/workflow-approvals.ts`.
-/

namespace ADT.Storage

open Interleave

/-- `exact`: the request was made for this very interrupt. -/
def exact (approval : WorkflowApproval) (i : Interrupt) : Bool :=
  approval.nodeId == i.nodeId && approval.interruptId == i.interruptId && approval.message == i.message &&
    approval.reviewText == i.text

/-- A request that stands must be for this interrupt. -/
def matching (i : Interrupt) (approval : WorkflowApproval) : Service WorkflowApproval :=
  if exact approval i then pure approval else error "approval_conflict"

/-- Look the request up again after an insert that left none of its own. -/
def findAgain (i : Interrupt) (generation : ℕ) : Service WorkflowApproval := do
  match ← request (.findApproval generation i.activationId) with
  | some existing => matching i existing
  | none => error "approval_not_pending"

/-- The row `require` inserts. -/
def pendingRequest (i : Interrupt) (generation : ℕ) (requestId : String) (now : Time) : WorkflowApproval where
  requestId
  workflowGeneration := generation
  nodeId := i.nodeId
  activationId := i.activationId
  interruptId := i.interruptId
  message := i.message
  reviewText := i.text
  status := .pending
  requestedAt := now
  approvedAt := none
  consumedAt := none

/-- Put the run to wait for the request that was just made. -/
def awaitCreated (i : Interrupt) (generation : ℕ) (created : WorkflowApproval) : Service WorkflowApproval := do
  if ← request (.updateRun (.awaitApproval i.nodeId generation)) then
    return created
  let run ← request .selectRun
  if run.status != .cancelling && run.status != .cancelled && run.cancelRequestedAt.isNone then
    error "approval_not_pending"
  else
    return created

/-- Make the request of an interrupt, unless it stands already. -/
def createRequest (i : Interrupt) (generation : ℕ) : Service WorkflowApproval := do
  let requestId ← request .randomUUID
  let now ← request .now
  match ← request (.insertApproval (pendingRequest i generation requestId now)) with
  | none => findAgain i generation
  | some _ =>
    match ← request (.getApproval requestId) with
    | none => findAgain i generation
    | some created => awaitCreated i generation created

def require (i : Interrupt) (generation : ℕ) : Service WorkflowApproval := do
  if 262144 < byteLength i.text || 2000 < utf16Length i.message || 256 < utf16Length i.activationId ||
      256 < utf16Length i.interruptId then
    error "approval_invalid"
  else match ← request (.findApproval generation i.activationId) with
  | some existing => matching i existing
  | none => createRequest i generation

structure ApprovalDecision where
  approval : WorkflowApproval
  idempotent : Bool
  wakeRequired : Bool

def approve (requestId : String) : Service ApprovalDecision := do
  let now ← request .now
  let decided ← request (.approve requestId now)
  match ← request (.getApproval requestId) with
  | none => error "approval_not_pending"
  | some approval =>
    if decided then
      return ⟨approval, false, true⟩
    else if approval.status = .approved then
      let run ← request .selectRun
      if run.cancelRequestedAt.isNone && run.status != .cancelling && run.status != .cancelled &&
          run.status != .failed then
        return ⟨approval, true, approval.consumedAt.isNone⟩
      else
        error "approval_not_pending"
    else
      error "approval_not_pending"

/-- The batch answers for both of its statements; they must agree. -/
def consume (requestId : String) : Service Bool := do
  let now ← request .now
  match ← request (.consume requestId now) with
  | (true, true) => return true
  | (false, false) => return false
  | _ => error "approval_consume_conflict"

end ADT.Storage
