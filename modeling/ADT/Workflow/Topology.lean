import ADT.Workflow.Definition

/-!
# Workflow.Topology — the graph validator

`validateGraphTopology` and `workflowDefinitionV2Schema` of `lib/workflow-definitions.ts`, as the list
of issues they report.  A definition is accepted when there are none.
-/

namespace ADT.Workflow

open Search

/-- Whether a schema or registry call fails. -/
def failed {α : Type} : Except String α → Bool
  | .ok _ => false
  | .error _ => true

namespace WorkflowDefinitionV2

variable (w : WorkflowDefinitionV2)

def nodePath (id : String) : List PathKey := [.key "nodes", .index (w.nodeIndex id)]

/-- One pass over the edges: endpoints, ports, and the semantic edges met so far. -/
def edgeIssues : ℕ → List ResolvedEdge → List WorkflowEdge → List Issue
  | _, _, [] => []
  | i, semantic, e :: es =>
    match w.resolveEdge e with
    | .error message => ⟨message, [.key "edges", .index i]⟩ :: edgeIssues (i + 1) semantic es
    | .ok r =>
      issueIf (semantic.contains r) "Duplicate semantic edges are not permitted."
        [.key "edges", .index i] ++ edgeIssues (i + 1) (r :: semantic) es

/-- `reaches`/`canReach`: is `target` reachable from `source`? -/
def canReach (source target : String) : Bool :=
  (search (fun id => if id == target then some true else none) (fun _ => false) (fun n => n)
    w.targets w.fuel [] source).1

def roots : List String := w.nodeIds.filter fun id => (w.incoming id).isEmpty

/-- The targets of the Condition edges that lie on a cycle. -/
def cycleRoots : List String :=
  (w.edges.filter fun e => w.isType "condition" e.source && w.canReach e.target e.source).map (·.target)

def entries : List String := if w.roots.isEmpty then w.cycleRoots.eraseDups else w.roots

def terminals : List String := w.nodeIds.filter fun id => (w.outgoing id).isEmpty

/-! ### Per-node rules -/

def conditionIssues (id : String) : List Issue :=
  let ports := (w.outgoing id).map (·.sourcePort)
  issueIf ((w.incoming id).length != 1) "Condition must have exactly one input." (w.nodePath id) ++
  issueIf ((w.outgoing id).length != 2 || (ports.filter (· == "true")).length != 1 ||
      (ports.filter (· == "false")).length != 1)
    "Condition must have exactly one true route and one false route." (w.nodePath id)

/-- The only predecessor of a node, if it has exactly one incoming edge. -/
def originOf (id : String) : Option String :=
  match w.incoming id with
  | [e] => some e.source
  | _ => none

/-- The Join closes one fan-out: its branches have one common origin, which feeds exactly them, and
each branch feeds the Join alone. -/
def structured (id : String) : Bool :=
  let predecessors := w.sources id
  match predecessors.head?.bind w.originOf with
  | none => false
  | some origin =>
    predecessors.all (fun source => w.originOf source == some origin) &&
    !w.isType "condition" origin && (w.outgoing origin).length == predecessors.length &&
    predecessors.all fun source => w.targets source == [id]

def joinIssues (id : String) : List Issue :=
  issueIf ((w.incoming id).length < 2) "Join must have at least two incoming branches." (w.nodePath id) ++
  issueIf ((w.outgoing id).length != 1) "Join must have exactly one outgoing route." (w.nodePath id) ++
  issueIf (!w.structured id) "Join must close one direct structured parallel fan-out." (w.nodePath id)

/-- Some incoming edge closes a cycle on which the search met a Condition. -/
def controlledCycleMerge (id : String) : Bool :=
  (w.incoming id).any fun e =>
    (search (fun (c : String × Bool) =>
        if c.1 == e.source then some (c.2 || w.isType "condition" c.1) else none) (fun _ => false)
      Prod.fst (fun c => (w.targets c.1).map fun t => (t, c.2 || w.isType "condition" c.1)) w.fuel []
      (id, false)).1

/-- Some Condition reaches a source of the merge from both its routes. -/
def exclusive (id : String) : Bool :=
  w.nodes.any fun candidate => candidate.blockType == "condition" &&
    ["true", "false"].all fun port =>
      match (w.outgoing candidate.id).find? (·.sourcePort == port) with
      | none => false
      | some e =>
        (search (fun n => if (w.sources id).contains n then some true
            else if n == id then some false else none) (fun _ => false) (fun n => n) w.targets w.fuel []
          e.target).1

def mergeIssues (id : String) : List Issue :=
  issueIf ((w.incoming id).length > 1 && !w.exclusive id && !w.controlledCycleMerge id)
    "Only Join may receive multiple parallel edges." (w.nodePath id)

/-- The first Joins met from `start`, in the order they are met. -/
def joinsFor (start : String) : List String :=
  (visited (fun id => if w.isType "join" id then [] else w.targets id) w.fuel start).filter
    (w.isType "join")

/-- The Joins that every branch of the fan-out reaches. -/
def commonJoins (id : String) : List String :=
  match w.targets id with
  | [] => []
  | t :: ts => (w.joinsFor t).filter fun join => (t :: ts).all fun t' => (w.joinsFor t').contains join

def containsApproval (join start : String) : Bool :=
  (search (fun id => if id == join then some false else none) (w.isType "approval") (fun n => n)
    w.targets w.fuel [] start).1

def fanOutIssues (id : String) : List Issue :=
  if (w.outgoing id).length > 1 then
    match w.commonJoins id with
    | [] => [⟨"Fan-out branches must reconverge at an explicit Join.", w.nodePath id⟩]
    | join :: _ =>
      issueIf ((w.targets id).any (w.containsApproval join))
        "Approval is not supported inside a structured parallel fan-out." (w.nodePath id)
  else []

def nodeIssues (id : String) : List Issue :=
  (if w.isType "condition" id then w.conditionIssues id
    else if w.isType "join" id then w.joinIssues id
    else w.mergeIssues id) ++
  (if w.isType "condition" id then []
    else issueIf ((w.outgoing id).length > 3) "Fan-out exceeds the supported concurrency bound."
      (w.nodePath id) ++ w.fanOutIssues id)

/-! ### References between nodes -/

def publishIssues (node : WorkflowNode) : List Issue :=
  if node.blockType == "publish-github-pr" then
    let source := (node.config.get? "sourceNodeId").bind Json.asStr?
    issueIf (match source with
        | none => true
        | some s => s == "" || !w.isType "agent" s || w.sources node.id != [s])
      "Publish GitHub PR must directly follow its configured Codex Agent source." (w.nodePath node.id)
  else []

def isContextAgent (node : WorkflowNode) : Bool :=
  node.blockType == "agent" && [2, 3].contains node.blockVersion

def selectedOutputs (node : WorkflowNode) : List String :=
  (((node.config.get? "context").bind (·.get? "includeNodeOutputs")).bind Json.asStrs?).getD []

def publishesOutput (node : WorkflowNode) : Bool :=
  ((node.config.get? "context").bind (·.get? "publishOutput")).bind Json.asBool? == some true

def contextIssues (node : WorkflowNode) : List Issue :=
  if isContextAgent node then
    (selectedOutputs node).flatMap fun sourceId =>
      issueIf (sourceId == node.id || (match w.byId sourceId with
          | none => true
          | some source => !isContextAgent source || !publishesOutput source) ||
          !w.canReach sourceId node.id)
        "Selected context must reference a publishing Agent block that can execute before this Agent."
        (w.nodePath node.id ++ [.key "config", .key "context", .key "includeNodeOutputs"])
  else []

/-- `conversation.sourceNodeId` of an agent that continues a conversation. -/
def conversationSource (node : WorkflowNode) : Option String :=
  if node.blockType == "agent" && node.blockVersion == 3 then
    ((node.config.get? "conversation").bind (·.get? "sourceNodeId")).bind Json.asStr?
  else none

def conversationNodes : List WorkflowNode := w.nodes.filter fun n => (conversationSource n).isSome

/-- The map from a continuing agent to its source. -/
def parent (id : String) : Option String :=
  (w.conversationNodes.reverse.find? (·.id == id)).bind conversationSource

/-- Does the chain of references from `cursor` come back to a node in `seen`? -/
def conversationCycle : ℕ → List String → String → Bool
  | 0, _, _ => false
  | fuel + 1, seen, cursor =>
    match w.parent cursor with
    | none => false
    | some next => seen.contains cursor || conversationCycle fuel (cursor :: seen) next

def conversationRootFrom : ℕ → List String → String → String
  | 0, _, value => value
  | fuel + 1, seen, value =>
    match w.parent value with
    | none => value
    | some next => if seen.contains value then value else conversationRootFrom fuel (value :: seen) next

def conversationRoot (id : String) : String := w.conversationRootFrom w.fuel [] id

def conversationIssues (node : WorkflowNode) : List Issue :=
  match conversationSource node with
  | none => []
  | some sourceId =>
    issueIf (sourceId == node.id || !w.isType "agent" sourceId || !w.canReach sourceId node.id)
      "Conversation source must reference an earlier Agent block."
      (w.nodePath node.id ++ [.key "config", .key "conversation", .key "sourceNodeId"]) ++
    issueIf (w.conversationCycle w.fuel [node.id] sourceId)
      "Conversation references must not contain a cycle."
      (w.nodePath node.id ++ [.key "config", .key "conversation"])

/-- Every pair of continuations of one lineage, in order. -/
def lineageIssues : List WorkflowNode → List Issue
  | [] => []
  | a :: rest =>
    rest.flatMap (fun b =>
      issueIf (w.conversationRoot a.id == w.conversationRoot b.id && !w.canReach a.id b.id &&
          !w.canReach b.id a.id)
        "Conversation continuations in one lineage must be structurally ordered."
        (w.nodePath b.id ++ [.key "config", .key "conversation"])) ++
    lineageIssues rest

/-! ### Reachability and cycles -/

def terminalIssues : List Issue :=
  match w.terminals with
  | [t] => issueIf (["agent", "subworkflow", "publish-github-pr"].all fun type => !w.isType type t)
      "The successful terminal must be an Agent, reusable Workflow, or Publish GitHub PR block."
      [.key "nodes"]
  | _ => []

def reachableIssues : List Issue :=
  match w.entries with
  | [e] => issueIf ((visited w.targets w.fuel e).length != w.nodes.length)
      "All nodes must be reachable from the graph entry." [.key "edges"]
  | _ => []

def leadsIssues : List Issue :=
  match w.terminals with
  | [t] => issueIf ((visited w.sources w.fuel t).length != w.nodes.length)
      "All nodes must structurally lead to the terminal." [.key "edges"]
  | _ => []

/-- The state of the strongly-connected-component search; the stack has its top first. -/
structure Tarjan where
  index : ℕ := 0
  indexes : List (String × ℕ) := []
  low : List (String × ℕ) := []
  stack : List String := []
  components : List (List String) := []

namespace Tarjan

def indexOf (t : Tarjan) (id : String) : Option ℕ := (t.indexes.find? (·.1 == id)).map (·.2)

def lowOf (t : Tarjan) (id : String) : ℕ := ((t.low.find? (·.1 == id)).map (·.2)).getD 0

/-- `low.set(id, Math.min(low.get(id), n))`; the newest entry wins. -/
def lower (t : Tarjan) (id : String) (n : ℕ) : Tarjan :=
  { t with low := (id, min (t.lowOf id) n) :: t.low }

/-- Pop the stack down to and including `id`. -/
def popComponent (t : Tarjan) (id : String) : Tarjan :=
  let above := t.stack.takeWhile (· != id)
  { t with stack := t.stack.drop (above.length + 1), components := t.components ++ [above ++ [id]] }

end Tarjan

/-- `strong(id)`. -/
def strong : ℕ → Tarjan → String → Tarjan
  | 0, t, _ => t
  | fuel + 1, t, id =>
    let t0 : Tarjan := { t with index := t.index + 1, indexes := (id, t.index) :: t.indexes,
                                low := (id, t.index) :: t.low, stack := id :: t.stack }
    let t1 := (w.targets id).foldl (fun (t : Tarjan) target =>
      match t.indexOf target with
      | none => let t' := strong fuel t target; t'.lower id (t'.lowOf target)
      | some i => if t.stack.contains target then t.lower id i else t) t0
    if t1.indexOf id == some (t1.lowOf id) then t1.popComponent id else t1

def components : List (List String) :=
  (w.nodeIds.foldl (fun (t : Tarjan) id => if (t.indexOf id).isSome then t else w.strong w.fuel t id) {}).components

def componentIssues (component : List String) : List Issue :=
  let cyclic := component.length > 1 || component.head?.any fun id => (w.targets id).contains id
  if cyclic then
    issueIf (!component.any (w.isType "condition")) "Every cycle must contain a Condition." [.key "edges"] ++
    issueIf (!component.any fun id => w.isType "condition" id &&
        (w.targets id).any fun t => !component.contains t)
      "Every cyclic region must have a structural exit." [.key "edges"]
  else []

def validateGraphTopology : List Issue :=
  w.edgeIssues 0 [] w.edges ++
  issueIf (w.entries.length != 1) "Workflow must have exactly one graph entry." [.key "edges"] ++
  issueIf (w.terminals.length != 1) "Workflow must have exactly one successful terminal." [.key "edges"] ++
  w.nodeIds.flatMap w.nodeIssues ++
  w.nodes.flatMap w.publishIssues ++
  w.nodes.flatMap w.contextIssues ++
  w.conversationNodes.flatMap w.conversationIssues ++
  w.lineageIssues w.conversationNodes ++
  w.terminalIssues ++ w.reachableIssues ++ w.leadsIssues ++
  w.components.flatMap w.componentIssues

/-! ### The schema -/

/-- What the schema changes: it trims the name and the block types. -/
def normalise : WorkflowDefinitionV2 :=
  { w with name := trim w.name
           nodes := w.nodes.map fun n => { n with blockType := trim n.blockType } }

def nodeFieldIssues (n : WorkflowNode) (i : ℕ) : List Issue :=
  issueIf (!definitionId n.id) "Invalid" [.key "nodes", .index i, .key "id"] ++
  issueIf (!trimmedText 80 n.blockType) "Invalid" [.key "nodes", .index i, .key "blockType"] ++
  issueIf (n.blockVersion == 0) "Invalid" [.key "nodes", .index i, .key "blockVersion"]

def edgeFieldIssues (e : WorkflowEdge) (i : ℕ) : List Issue :=
  issueIf (!definitionId e.id) "Invalid" [.key "edges", .index i, .key "id"] ++
  issueIf (!definitionId e.source) "Invalid" [.key "edges", .index i, .key "source"] ++
  issueIf (!e.sourcePort.all definitionId) "Invalid" [.key "edges", .index i, .key "sourcePort"] ++
  issueIf (!definitionId e.target) "Invalid" [.key "edges", .index i, .key "target"] ++
  issueIf (!e.targetPort.all definitionId) "Invalid" [.key "edges", .index i, .key "targetPort"]

/-- The checks of the single fields.  The texts are the schema library's own. -/
def fieldIssues : List Issue :=
  issueIf (!definitionId w.id) "Invalid" [.key "id"] ++
  issueIf (!trimmedText 120 w.name) "Invalid" [.key "name"] ++
  issueIf (utf16Length w.description > 2000) "Invalid" [.key "description"] ++
  issueIf (!w.runInputTemplate.all fun t => utf16Length t ≤ workflowRunInputMaxLength) "Invalid"
    [.key "runInputTemplate"] ++
  issueIf (w.nodes.isEmpty || w.nodes.length > maxWorkflowSteps) "Invalid" [.key "nodes"] ++
  w.nodes.zipIdx.flatMap (fun p => nodeFieldIssues p.1 p.2) ++
  issueIf (w.edges.length > stepExecutionsMax) "Invalid" [.key "edges"] ++
  w.edges.zipIdx.flatMap (fun p => edgeFieldIssues p.1 p.2) ++
  issueIf (w.maxStepExecutions == 0 || w.maxStepExecutions > stepExecutionsMax) "Invalid"
    [.key "limits", .key "maxStepExecutions"]

/-- Node ids are unique and every configuration fits its block. -/
def blockIssues : ℕ → List String → List WorkflowNode → List Issue
  | _, _, [] => []
  | i, seen, n :: ns =>
    issueIf (seen.contains n.id) "Node IDs must be unique." [.key "nodes", .index i, .key "id"] ++
    (match validate n.blockType n.blockVersion n.config with
      | .ok _ => []
      | .error message => [⟨message, [.key "nodes", .index i, .key "config"]⟩]) ++
    blockIssues (i + 1) (n.id :: seen) ns

def edgeIdIssues : ℕ → List String → List WorkflowEdge → List Issue
  | _, _, [] => []
  | i, seen, e :: es =>
    issueIf (seen.contains e.id) "Edge IDs must be unique." [.key "edges", .index i, .key "id"] ++
    edgeIdIssues (i + 1) (e.id :: seen) es

/-- Every issue of a definition whose fields are normalised. -/
def issues : List Issue :=
  w.fieldIssues ++ blockIssues 0 [] w.nodes ++ edgeIdIssues 0 [] w.edges ++ w.validateGraphTopology

def parse : Except (List Issue) WorkflowDefinitionV2 :=
  if w.normalise.issues.isEmpty then .ok w.normalise else .error w.normalise.issues

/-- Accepted as it stands: it passes its own schema, which changes nothing. -/
def Accepted : Prop := w.normalise = w ∧ w.issues = []

theorem normalise_eq_iff : w.normalise = w ↔ trim w.name = w.name ∧ ∀ n ∈ w.nodes, trim n.blockType = n.blockType := by
  obtain ⟨id, name, description, template, exposable, nodes, edges, limit⟩ := w
  simp only [normalise, mk.injEq, true_and, and_true, and_congr_right_iff]
  intro _
  have hid : nodes.map (fun n => { n with blockType := trim n.blockType }) = nodes ↔
      nodes.map (fun n => { n with blockType := trim n.blockType }) = nodes.map fun n => n := by
    rw [List.map_id']
  rw [hid, List.map_inj_left]
  exact forall₂_congr fun n _ => by cases n; simp

instance : Decidable w.Accepted :=
  decidable_of_iff ((trim w.name = w.name ∧ ∀ n ∈ w.nodes, trim n.blockType = n.blockType) ∧ w.issues = [])
    (and_congr_left fun _ => w.normalise_eq_iff.symm)

end WorkflowDefinitionV2

theorem parse_accepted {w : WorkflowDefinitionV2} (h : w.Accepted) : w.parse = .ok w := by
  unfold WorkflowDefinitionV2.parse
  rw [h.1, h.2]
  rfl

theorem parse_normalise {w d : WorkflowDefinitionV2} (h : w.parse = .ok d) : d = w.normalise ∧ w.normalise.issues = [] := by
  unfold WorkflowDefinitionV2.parse at h
  split_ifs at h with hissues
  exact ⟨(Except.ok.inj h).symm, List.isEmpty_iff.mp hissues⟩

def agentNode (id : String) : WorkflowNode := ⟨id, "agent", 1, .obj [("agentId", .str "a")]⟩

def conditionNode (id : String) : WorkflowNode :=
  ⟨id, "condition", 1, .obj [("operator", .str "contains"), ("value", .str "x")]⟩

def joinNode (id : String) : WorkflowNode := ⟨id, "join", 1, .obj []⟩

def edge (source target : String) : WorkflowEdge :=
  { id := source ++ "-" ++ target, source := source, target := target }

def portEdge (source port target : String) : WorkflowEdge :=
  { id := source ++ "-" ++ port ++ "-" ++ target, source := source, sourcePort := some port, target := target }

/-- A definition with the given graph. -/
def sample (limit : ℕ) (nodes : List WorkflowNode) (edges : List WorkflowEdge) : WorkflowDefinitionV2 :=
  { id := "w", name := "W", description := "", nodes := nodes, edges := edges, maxStepExecutions := limit }

example : (sample 1 [agentNode "a"] []).issues = [] := by decide

end ADT.Workflow
