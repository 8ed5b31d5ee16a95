import ADT.Lib.Search
import ADT.Workflow.Registry

/-!
# Workflow.Definition — workflow definitions and their graph

The v2 workflow definition of `lib/workflow-definitions.ts` and what its validator reads off it: the
nodes by id, the edges with their ports resolved, and the edges into and out of a node.
-/

namespace ADT.Workflow

def maxWorkflowSteps : ℕ := 32
def stepExecutionsMax : ℕ := 128
def workflowRunInputMaxLength : ℕ := 65536

structure WorkflowNode where
  id : String
  blockType : String
  blockVersion : ℕ
  config : Json

structure WorkflowEdge where
  id : String
  source : String
  sourcePort : Option String := none
  target : String
  targetPort : Option String := none

/-- `schemaVersion` is always `2` and `status` always `"draft"`; the limit is the one field of
`limits`. -/
structure WorkflowDefinitionV2 where
  id : String
  name : String
  description : String
  runInputTemplate : Option String := none
  exposableAsBlock : Option Bool := none
  nodes : List WorkflowNode
  edges : List WorkflowEdge
  maxStepExecutions : ℕ

inductive PathKey where
  | key (name : String)
  | index (i : ℕ)
  deriving DecidableEq

/-- A validation issue: its text and the field it is about. -/
structure Issue where
  message : String
  path : List PathKey
  deriving DecidableEq

/-- The issue `message` at `path` when `bad`. -/
def issueIf (bad : Bool) (message : String) (path : List PathKey) : List Issue :=
  if bad then [⟨message, path⟩] else []

@[simp] theorem issueIf_eq_nil {bad : Bool} {message : String} {path : List PathKey} :
    issueIf bad message path = [] ↔ bad = false := by
  unfold issueIf; split <;> simp_all

/-! ### The graph of a definition -/

/-- An edge with its ports resolved. -/
structure ResolvedEdge where
  source : String
  sourcePort : String
  target : String
  targetPort : String
  deriving DecidableEq

namespace WorkflowDefinitionV2

variable (w : WorkflowDefinitionV2)

/-- `byId.get(id)`: the last node with this id. -/
def byId (id : String) : Option WorkflowNode := w.nodes.reverse.find? (·.id == id)

/-- The keys of `byId` in insertion order. -/
def nodeIds : List String := (w.nodes.map (·.id)).eraseDups

/-- `byId.get(id)?.blockType`. -/
def blockTypeOf (id : String) : Option String := (w.byId id).map (·.blockType)

def isType (type id : String) : Bool := w.blockTypeOf id == some type

/-- `workflow.nodes.indexOf(node)` for the node `byId` holds. -/
def nodeIndex (id : String) : ℕ := w.nodes.length - 1 - w.nodes.reverse.findIdx (·.id == id)

def resolveEdge (e : WorkflowEdge) : Except String ResolvedEdge :=
  match w.byId e.source, w.byId e.target with
  | some source, some target => do
    let sourcePort ← outputPort source.blockType source.blockVersion e.sourcePort
    let targetPort ← inputPort target.blockType target.blockVersion e.targetPort
    .ok ⟨e.source, sourcePort, e.target, targetPort⟩
  | _, _ => .error "Edge endpoints must exist."

/-- The edges the adjacency maps hold, in order. -/
def resolvedEdges : List ResolvedEdge := w.edges.filterMap fun e => (w.resolveEdge e).toOption

def incoming (id : String) : List ResolvedEdge := w.resolvedEdges.filter (·.target == id)

def outgoing (id : String) : List ResolvedEdge := w.resolvedEdges.filter (·.source == id)

def targets (id : String) : List String := (w.outgoing id).map (·.target)

def sources (id : String) : List String := (w.incoming id).map (·.source)

/-- Enough for every search over the nodes: one more than there are. -/
def fuel : ℕ := w.nodes.length + 1

end WorkflowDefinitionV2

end ADT.Workflow
