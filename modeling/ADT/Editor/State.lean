import ADT.Runtime.ResultCodec
import ADT.Workflow.Plan

/-!
# Editor.State — a workflow definition in the editor, and back

`hydrateWorkflowEditor` and `workflowDefinitionFromEditor` of `lib/workflow-editor-state.ts`, without the positions,
waypoints and labels, which the second does not read.
-/

namespace ADT.Editor

open Workflow

/-- The properties of a node's `data`; one that is `none` is undefined. -/
structure EditorData where
  agentId : Option Json := none
  blockVersion : Option ℕ := none
  publishOutput : Option Json := none
  includeRunInput : Option Json := none
  includeNodeOutputs : Option Json := none
  conversationSourceNodeId : Option Json := none
  message : Option Json := none
  sourceNodeId : Option Json := none
  title : Option Json := none
  body : Option Json := none
  draft : Option Json := none
  workflowId : Option Json := none
  value : Option Json := none
  caseSensitive : Option Json := none

structure EditorNode where
  id : String
  type : String
  data : EditorData

structure EditorEdge where
  id : String
  source : String
  sourceHandle : Option String
  target : String
  targetHandle : Option String

/-- The limit is `none` while its input is empty. -/
structure WorkflowEditorFields where
  id : String
  name : String
  description : String
  runInputTemplate : String
  exposableAsBlock : Bool
  maxStepExecutions : Option ℕ

structure EditorState where
  nodes : List EditorNode
  edges : List EditorEdge
  fields : WorkflowEditorFields

/-! ### Into the editor -/

/-- `Boolean(value)` -/
def truthy : Option Json → Bool
  | none | some .null => false
  | some (.bool b) => b
  | some (.num n) => n != 0
  | some (.str s) => s != ""
  | some (.arr _) | some (.obj _) => true

/-- `value ?? {}` -/
def orEmpty : Option Json → Json
  | none | some .null => .obj []
  | some v => v

def hydrateData (node : WorkflowNode) : EditorData :=
  let config := node.config
  let context := orEmpty (config.get? "context")
  if node.blockType == "agent" then
    { agentId := config.get? "agentId"
      blockVersion := some node.blockVersion
      publishOutput := some (.bool (truthy (context.get? "publishOutput")))
      includeRunInput := some (.bool (truthy (context.get? "includeRunInput")))
      includeNodeOutputs := some (.arr (itemsOf (context.get? "includeNodeOutputs")))
      conversationSourceNodeId := some (.str
        ((((config.get? "conversation").bind (·.get? "sourceNodeId")).bind Json.asStr?).getD "")) }
  else if node.blockType == "approval" then { message := config.get? "message" }
  else if node.blockType == "publish-github-pr" then
    { sourceNodeId := config.get? "sourceNodeId"
      title := config.get? "title"
      body := config.get? "body"
      draft := config.get? "draft" }
  else if node.blockType == "subworkflow" then { workflowId := config.get? "workflowId" }
  else { value := config.get? "value", caseSensitive := config.get? "caseSensitive" }

def hydrateNode (node : WorkflowNode) : EditorNode := ⟨node.id, node.blockType, hydrateData node⟩

/-- `workflow.nodes.find(node => node.id === id)!` -/
def nodeNamed (w : WorkflowDefinitionV2) (id : String) : Except String WorkflowNode :=
  match w.nodes.find? (·.id == id) with
  | some node => .ok node
  | none => .error "TypeError"

/-- The handles are the ports, also where the definition leaves them out. -/
def hydrateEdge (w : WorkflowDefinitionV2) (edge : WorkflowEdge) : Except String EditorEdge := do
  let source ← nodeNamed w edge.source
  let sourceHandle ← outputPort source.blockType source.blockVersion edge.sourcePort
  let target ← nodeNamed w edge.target
  let targetHandle ← inputPort target.blockType target.blockVersion edge.targetPort
  .ok ⟨edge.id, edge.source, some sourceHandle, edge.target, some targetHandle⟩

def hydrateWorkflowEditor (w : WorkflowDefinitionV2) : Except String EditorState := do
  let edges ← w.edges.mapM (hydrateEdge w)
  .ok ⟨w.nodes.map hydrateNode, edges, w.id, w.name, w.description, w.runInputTemplate.getD "",
    w.exposableAsBlock.getD false, some w.maxStepExecutions⟩

/-! ### Out of the editor -/

def contextFromEditor (data : EditorData) : Json := .obj [
  ("publishOutput", .bool (truthy data.publishOutput)),
  ("includeRunInput", .bool (truthy data.includeRunInput)),
  ("includeNodeOutputs", .arr ((itemsOf data.includeNodeOutputs).map fun item => .str (Runtime.text item)))]

/-- An agent that continues no conversation has no such property. -/
def conversationFromEditor (data : EditorData) : List (String × Json) :=
  if truthy data.conversationSourceNodeId then
    [("conversation", .obj [("sourceNodeId", .str (Runtime.textOf data.conversationSourceNodeId))])]
  else []

def agentFromEditor (id : String) (data : EditorData) : WorkflowNode :=
  let agentId := ("agentId", Json.str (Runtime.textOf data.agentId))
  if data.blockVersion == some 3 then
    ⟨id, "agent", 3, .obj ([agentId, ("context", contextFromEditor data)] ++ conversationFromEditor data)⟩
  else if data.blockVersion == some 2 then ⟨id, "agent", 2, .obj [agentId, ("context", contextFromEditor data)]⟩
  else ⟨id, "agent", 1, .obj [agentId]⟩

def nodeFromEditor (node : EditorNode) : WorkflowNode :=
  let data := node.data
  if node.type == "condition" then
    ⟨node.id, "condition", 1, .obj [("operator", .str "contains"), ("value", .str (Runtime.textOf data.value)),
      ("caseSensitive", .bool (truthy data.caseSensitive))]⟩
  else if node.type == "approval" then
    ⟨node.id, "approval", 1, .obj [("message", .str (Runtime.textOf data.message))]⟩
  else if node.type == "publish-github-pr" then
    ⟨node.id, "publish-github-pr", 1, .obj [("sourceNodeId", .str (Runtime.textOf data.sourceNodeId)),
      ("title", .str (Runtime.textOf data.title)), ("body", .str (Runtime.textOf data.body)),
      ("draft", .bool (truthy data.draft))]⟩
  else if node.type == "subworkflow" then
    ⟨node.id, "subworkflow", 1, .obj [("workflowId", .str (Runtime.textOf data.workflowId))]⟩
  else if node.type == "join" then ⟨node.id, "join", 1, .obj []⟩
  else agentFromEditor node.id data

def edgeFromEditor (edge : EditorEdge) : WorkflowEdge :=
  ⟨edge.id, edge.source, edge.sourceHandle, edge.target, edge.targetHandle⟩

def workflowExecutionLimitFromDraft (value : Option ℕ) : ℕ := value.getD 1

def workflowDefinitionFromEditor (s : EditorState) : WorkflowDefinitionV2 where
  id := s.fields.id
  name := s.fields.name
  description := s.fields.description
  runInputTemplate := if s.fields.runInputTemplate == "" then none else some s.fields.runInputTemplate
  exposableAsBlock := if s.fields.exposableAsBlock then some true else none
  nodes := s.nodes.map nodeFromEditor
  edges := s.edges.map edgeFromEditor
  maxStepExecutions := workflowExecutionLimitFromDraft s.fields.maxStepExecutions

/-- A definition opened and saved. -/
def reopened (w : WorkflowDefinitionV2) : Except String WorkflowDefinitionV2 :=
  (hydrateWorkflowEditor w).map workflowDefinitionFromEditor

end ADT.Editor
