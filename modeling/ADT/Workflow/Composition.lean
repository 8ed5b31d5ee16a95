import ADT.Workflow.Plan

/-!
# Workflow.Composition — flattening reusable workflows

`composeVersionedWorkflowV2` of `lib/workflow-definitions.ts`: every node that refers to a workflow is replaced by
the nodes and edges of that workflow under ids scoped by the path of the invocation, and every node of the flat
workflow is recorded with where it comes from.
-/

namespace ADT.Workflow

open WorkflowDefinitionV2 (isContextAgent)

def maxCompositeDepth : ℕ := 8

/-! ### Scoped ids -/

def pathKey (segments : List String) : String :=
  "|".intercalate (segments.map fun value => toString (byteLength value) ++ ":" ++ value)

/-- `toString(16).padStart(8, "0")` -/
def hexDigits (hash : ℕ) : String :=
  let digits := Nat.toDigits 16 hash
  String.ofList (List.replicate (8 - digits.length) '0' ++ digits)

/-- Four hashes of the bytes, `Math.imul` being the product modulo 2^32. -/
def stableDigest (value : String) : String :=
  let bytes := value.toList.flatMap String.utf8EncodeChar
  String.join <| [2166136261, 2246822507, 3266489909, 668265263].map fun seed =>
    hexDigits (bytes.foldl (fun hash byte => (hash ^^^ byte.toNat) * 16777619 % 2 ^ 32) seed)

inductive IdKind
  | n | e

def IdKind.letter : IdKind → String
  | n => "n"
  | e => "e"

def scopedId (kind : IdKind) (segments : List String) : String :=
  "sw" ++ kind.letter ++ "-" ++ stableDigest (pathKey segments)

/-- One step of an invocation path. -/
structure InvocationSegment where
  workflowId : String
  workflowName : String
  invocationNodeId : String
  deriving DecidableEq

/-- The key of a node or an edge of the workflow invoked at `path`. -/
def scopeKey (path : List InvocationSegment) (workflowId id : String) : String :=
  pathKey (path.flatMap (fun item => [item.workflowId, item.invocationNodeId]) ++ [workflowId, id])

/-- `executionId`, and for edges `edgeId`: what the root invokes keeps its own ids. -/
def executionId (kind : IdKind) (path : List InvocationSegment) (workflowId id : String) : String :=
  if path.isEmpty then id else scopedId kind [scopeKey path workflowId id]

/-- The configuration of an agent with its references to other nodes made to their execution ids. -/
def executionConfig (path : List InvocationSegment) (workflowId : String) (node : WorkflowNode) : Json :=
  let rename (j : Json) : Json := match j with
    | .str id => .str (executionId .n path workflowId id)
    | j => j
  let renameAll (j : Json) : Json := match j with
    | .arr items => .arr (items.map rename)
    | j => j
  if isContextAgent node then
    (node.config.setField "context" (·.setField "includeNodeOutputs" renameAll)).setField "conversation"
      (·.setField "sourceNodeId" rename)
  else node.config

/-- A definition, which came out of its schema, and the revision of its file. -/
structure VersionedWorkflowDefinition where
  definition : WorkflowDefinitionV2
  fileSha : String
  accepted : definition.Accepted

/-- Where a node of the flat workflow comes from. -/
structure NodeProvenance where
  executionNodeId : String
  rootNodeId : String
  workflowId : String
  workflowName : String
  semanticNodeId : String
  invocationPath : List InvocationSegment
  displayPath : String

/-- A workflow that was invoked, as it was when it was invoked. -/
structure CompositeDependency where
  workflowId : String
  revision : String
  definition : WorkflowDefinitionV2
  dependencyWorkflowIds : List String
  accepted : definition.Accepted

/-- `snapshotVersion` is always `1`. -/
structure WorkflowCompositionSnapshot where
  dependencies : List CompositeDependency
  nodes : List NodeProvenance

structure ComposedWorkflowV2 where
  workflow : WorkflowDefinitionV2
  composition : WorkflowCompositionSnapshot

/-! ### Expansion -/

/-- What an expansion collects: the maps `used` and `claimed` in insertion order, and the provenance. -/
structure Composer where
  used : List CompositeDependency := []
  provenance : List NodeProvenance := []
  claimed : List (String × String) := []

abbrev Composing := StateT Composer (Except String)

def claim (kind : IdKind) (generated key : String) : Composing String := do
  let identity := kind.letter ++ ":" ++ generated
  match (← get).claimed.find? (·.1 == identity) with
  | some (_, previous) =>
    if previous != "" && previous != key then
      throw "subworkflow_identity_collision"
  | none => modify fun c => { c with claimed := c.claimed ++ [(identity, key)] }
  return generated

/-- `used.set` -/
def use (dependency : CompositeDependency) : Composing Unit :=
  modify fun c => { c with
    used := if c.used.any (·.workflowId == dependency.workflowId) then
        c.used.map fun d => if d.workflowId == dependency.workflowId then dependency else d
      else c.used ++ [dependency] }

def workflowSubworkflowReferences (workflow : WorkflowDefinitionV2) : Except String (List String) := do
  let configs ← workflow.nodes.mapM fun n => references n.blockType n.blockVersion n.config
  return configs.flatMap (·.workflowIds)

/-- The text that names a node of the flat workflow. -/
def displayPath (root : WorkflowDefinitionV2) (path : List InvocationSegment) (label : String) : String :=
  " / ".intercalate (root.name :: path.map (·.workflowName) ++ [label])

def provenanceOf (root : WorkflowDefinitionV2) (path : List InvocationSegment) (workflow : WorkflowDefinitionV2)
    (node : WorkflowNode) (label : String) : NodeProvenance where
  executionNodeId := executionId .n path workflow.id node.id
  rootNodeId := (path.head?.map (·.invocationNodeId)).getD node.id
  workflowId := workflow.id
  workflowName := workflow.name
  semanticNodeId := node.id
  invocationPath := path
  displayPath := displayPath root path label

/-- Where the edges into and out of a replaced node go. -/
structure Replacement where
  nodeId : String
  entry : String
  terminal : String

/-- What a node becomes. -/
structure Part where
  nodes : List WorkflowNode
  edges : List WorkflowEdge
  replacement : Option Replacement

/-- The name of a node in its display path. -/
def nodeLabel (node : WorkflowNode) : Except String String :=
  if node.blockType == "agent" then .ok node.id
  else (resolve node.blockType node.blockVersion).map (·.label)

def expandPrimitive (root workflow : WorkflowDefinitionV2) (path : List InvocationSegment) (node : WorkflowNode) :
    Composing Part := do
  let id ← claim .n (executionId .n path workflow.id node.id) (scopeKey path workflow.id node.id)
  let label ← nodeLabel node
  modify fun c => { c with provenance := c.provenance ++ [provenanceOf root path workflow node label] }
  return ⟨[{ node with id, config := executionConfig path workflow.id node }], [], none⟩

abbrev Expand :=
  WorkflowDefinitionV2 → List InvocationSegment → List String → Composing WorkflowDefinitionV2

/-- A node that invokes the workflow `childId`; `invoke` expands it. -/
def expandBlock (available : String → Option VersionedWorkflowDefinition) (invoke : Expand)
    (path : List InvocationSegment) (stack : List String) (node : WorkflowNode) (childId : String) :
    Composing Part := do
  if stack.contains childId then
    throw ("subworkflow_cycle:" ++ "->".intercalate (stack ++ [childId]))
  else match available childId with
  | none => throw ("missing_subworkflow:" ++ childId)
  | some versioned =>
    let child := versioned.definition
    if child.exposableAsBlock != some true then
      throw ("subworkflow_not_exposed:" ++ childId)
    else
      use ⟨childId, versioned.fileSha, child, ← workflowSubworkflowReferences child, versioned.accepted⟩
      let expanded ← invoke child (path ++ [⟨child.id, child.name, node.id⟩]) (stack ++ [childId])
      let entry ← graphEntryNode expanded.nodes expanded.edges
      match expanded.nodes.find? fun n => expanded.edges.all (·.source != n.id) with
      | none => throw "TypeError"
      | some terminal => return ⟨expanded.nodes, expanded.edges, some ⟨node.id, entry, terminal.id⟩⟩

def expandNode (root : WorkflowDefinitionV2) (available : String → Option VersionedWorkflowDefinition)
    (invoke : Expand) (workflow : WorkflowDefinitionV2) (path : List InvocationSegment) (stack : List String)
    (node : WorkflowNode) : Composing Part := do
  let config ← references node.blockType node.blockVersion node.config
  match config.workflowIds with
  | [] => expandPrimitive root workflow path node
  | childId :: _ => expandBlock available invoke path stack node childId

/-- The execution id an end of an edge is redirected to: a replaced node has its own, any other one is looked up
by its provenance. -/
def endpoint (workflow : WorkflowDefinitionV2) (path : List InvocationSegment) (replaced : Option String)
    (id : String) : Composing String := do
  match replaced with
  | some x => return x
  | none =>
    if path.isEmpty then
      return id
    else match (← get).provenance.find? fun item =>
        item.workflowId == workflow.id && item.semanticNodeId == id && item.invocationPath == path with
      | some item => return item.executionNodeId
      | none => throw "TypeError"

/-- `replacements.get` -/
def replacementOf (replacements : List Replacement) (id : String) : Option Replacement :=
  replacements.reverse.find? (·.nodeId == id)

def expandEdge (workflow : WorkflowDefinitionV2) (path : List InvocationSegment) (replacements : List Replacement)
    (edge : WorkflowEdge) : Composing WorkflowEdge := do
  let source ← endpoint workflow path ((replacementOf replacements edge.source).map (·.terminal)) edge.source
  let target ← endpoint workflow path ((replacementOf replacements edge.target).map (·.entry)) edge.target
  let id ← claim .e (executionId .e path workflow.id edge.id) (scopeKey path workflow.id edge.id)
  return { edge with id, source, target }

/-- `expand`; the stack is at most `maxCompositeDepth` long, and `depth` is how many more workflows it may
take, this one included. -/
def expand (root : WorkflowDefinitionV2) (available : String → Option VersionedWorkflowDefinition) :
    ℕ → Expand
  | 0, _, _, _ => throw "subworkflow_depth_exceeded"
  | depth + 1, workflow, path, stack => do
    let parts ← workflow.nodes.mapM (expandNode root available (expand root available depth) workflow path stack)
    let edges ← workflow.edges.mapM (expandEdge workflow path (parts.filterMap (·.replacement)))
    return { workflow with
      id := root.id
      exposableAsBlock := root.exposableAsBlock
      nodes := parts.flatMap (·.nodes)
      edges := parts.flatMap (·.edges) ++ edges
      maxStepExecutions := root.maxStepExecutions }

def segmentSchema (s : InvocationSegment) : Bool :=
  definitionId s.workflowId && trimmedText 120 s.workflowName && definitionId s.invocationNodeId

def provenanceSchema (q : NodeProvenance) : Bool :=
  definitionId q.executionNodeId && definitionId q.rootNodeId && definitionId q.workflowId &&
    trimmedText 120 q.workflowName && definitionId q.semanticNodeId && q.invocationPath.length ≤ 8 &&
    q.invocationPath.all segmentSchema && 1 ≤ utf16Length q.displayPath && utf16Length q.displayPath ≤ 2000

/-- The definition of a dependency passed its schema already. -/
def dependencySchema (d : CompositeDependency) : Bool :=
  definitionId d.workflowId && 1 ≤ utf16Length d.revision && utf16Length d.revision ≤ 100 &&
    d.dependencyWorkflowIds.all definitionId && d.dependencyWorkflowIds.length ≤ maxWorkflowSteps

def NodeProvenance.normalise (q : NodeProvenance) : NodeProvenance :=
  { q with
    workflowName := trim q.workflowName
    invocationPath := q.invocationPath.map fun s => { s with workflowName := trim s.workflowName } }

def snapshotIssues (s : WorkflowCompositionSnapshot) : List Issue :=
  issueIf (!s.dependencies.all dependencySchema || s.dependencies.length > maxWorkflowSteps) "Invalid"
    [.key "dependencies"] ++
  issueIf (!s.nodes.all provenanceSchema || s.nodes.isEmpty || s.nodes.length > maxWorkflowSteps) "Invalid"
    [.key "nodes"] ++
  issueIf (!decide (s.dependencies.map (·.workflowId)).Nodup) "Composite dependency IDs must be unique."
    [.key "dependencies"] ++
  issueIf (!decide (s.nodes.map (·.executionNodeId)).Nodup) "Composite execution node IDs must be unique."
    [.key "nodes"]

/-- `workflowCompositionSnapshotSchema.parse` -/
def parseSnapshot (s : WorkflowCompositionSnapshot) : Except PlanError WorkflowCompositionSnapshot :=
  if (snapshotIssues s).isEmpty then .ok { s with nodes := s.nodes.map NodeProvenance.normalise }
  else .error (.schema (snapshotIssues s))

/-! ### Composition -/

/-- `available`: the last of the versions of a workflow. -/
def availableIn (versions : List VersionedWorkflowDefinition) (id : String) : Option VersionedWorkflowDefinition :=
  versions.reverse.find? (·.definition.id == id)

/-- The checks of the flat workflow before its schema. -/
def checkFlat (workflow : WorkflowDefinitionV2) : Except PlanError Unit :=
  if workflow.nodes.length > maxWorkflowSteps || workflow.edges.length > stepExecutionsMax then
    .error (.thrown "subworkflow_expansion_too_large")
  else if (workflow.nodes.find? fun n => workflow.edges.all (·.source != n.id)).all
      (fun n => n.blockType != "agent" && n.blockType != "publish-github-pr") ||
      workflow.nodes.any (·.blockType == "subworkflow") then
    .error (.thrown "unsupported_workflow_topology:invalid_composite_terminal")
  else .ok ()

/-- The dependencies in the order of the snapshot. -/
def sortedDependencies (composer : Composer) : List CompositeDependency :=
  composer.used.insertionSort fun a b => a.workflowId ≤ b.workflowId

/-- Check the flat workflow, and freeze it with what was collected. -/
def freeze (workflow : WorkflowDefinitionV2) (composer : Composer) : Except PlanError ComposedWorkflowV2 := do
  checkFlat workflow
  let workflow ← match workflow.parse with
    | .ok w => .ok w
    | .error issues => .error (.schema issues)
  let composition ← parseSnapshot ⟨sortedDependencies composer, composer.provenance⟩
  .ok ⟨workflow, composition⟩

/-- The expansion of the root, alone on the stack. -/
def expandRoot (root : WorkflowDefinitionV2) (versions : List VersionedWorkflowDefinition) :
    Except String (WorkflowDefinitionV2 × Composer) :=
  expand root (availableIn versions) maxCompositeDepth root [] [root.id] {}

def composeVersionedWorkflowV2 (root : VersionedWorkflowDefinition) (versions : List VersionedWorkflowDefinition) :
    Except PlanError ComposedWorkflowV2 := do
  let expanded ← thrown (expandRoot root.definition versions)
  freeze expanded.1 expanded.2

end ADT.Workflow
