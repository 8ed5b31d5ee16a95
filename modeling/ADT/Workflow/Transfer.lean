import ADT.Lib.JsonSize
import ADT.Lib.JsonValue
import ADT.Workflow.Reordering

/-!
# Workflow.Transfer — workflow transfer documents

The import of `lib/workflow-transfer.ts` with the layout schema of `lib/workflow-layout.ts`.  A transfer document is a JSON
text of a definition and, where there is one, its layout.  The import keeps a limit on the bytes of the text, which is
reckoned from the limits that the definition schema puts on texts; some of these the schema checks of the trimmed text
only, and then keeps the text as it is.
-/

namespace ADT.Workflow

open JsonValue
open JsonValue.Same (Blind blind_asStr blind_asBool blind_asNum blind_asNat)

/-! ### Definitions -/

def workflowNodeSchema (v : JsonValue) : Option WorkflowNode :=
  if v.strictKeys ["id", "blockType", "blockVersion", "config"] then do
    let id ← v.field "id" asStr?
    let blockType ← v.field "blockType" asStr?
    let blockVersion ← v.field "blockVersion" asNat?
    -- a configuration that is missing is like `null`: no block takes it
    let config ← match v.get? "config" with
      | none => some .null
      | some config => config.toJson?
    return ⟨id, blockType, blockVersion, config⟩
  else none

def workflowEdgeSchema (v : JsonValue) : Option WorkflowEdge :=
  if v.strictKeys ["id", "source", "sourcePort", "target", "targetPort"] then do
    let id ← v.field "id" asStr?
    let source ← v.field "source" asStr?
    let sourcePort ← v.optional "sourcePort" asStr?
    let target ← v.field "target" asStr?
    let targetPort ← v.optional "targetPort" asStr?
    return ⟨id, source, sourcePort, target, targetPort⟩
  else none

/-- An array whose items `read` reads. -/
def arrayOf {α : Type} (read : JsonValue → Option α) (v : JsonValue) : Option (List α) := v.asArr?.bind (·.mapM read)

def limitsSchema (v : JsonValue) : Option ℕ :=
  if v.strictKeys ["maxStepExecutions"] then v.field "maxStepExecutions" asNat? else none

/-- The types of the fields of a definition; their checks are those of `WorkflowDefinitionV2.parse`. -/
def definitionFields (v : JsonValue) : Option WorkflowDefinitionV2 :=
  if v.strictKeys ["schemaVersion", "id", "name", "description", "status", "runInputTemplate", "exposableAsBlock", "nodes",
      "edges", "limits"] ∧ v.field "schemaVersion" asNum? = some 2 ∧ v.field "status" asStr? = some "draft" then do
    let id ← v.field "id" asStr?
    let name ← v.field "name" asStr?
    let description ← v.field "description" asStr?
    let runInputTemplate ← v.optional "runInputTemplate" asStr?
    let exposableAsBlock ← v.optional "exposableAsBlock" asBool?
    let nodes ← v.field "nodes" (arrayOf workflowNodeSchema)
    let edges ← v.field "edges" (arrayOf workflowEdgeSchema)
    let maxStepExecutions ← v.field "limits" limitsSchema
    return ⟨id, name, description, runInputTemplate, exposableAsBlock, nodes, edges, maxStepExecutions⟩
  else none

/-- The validation of the graph reads a property of a configuration that is `null`, and throws. -/
def throwsOn (n : WorkflowNode) : Bool :=
  (match n.config with
    | .null => true
    | _ => false) && (n.blockType == "publish-github-pr" || WorkflowDefinitionV2.isContextAgent n)

def invalidDefinition : String :=
  "Invalid Workflow v2 definition. Check required fields, block configs, ports, graph topology, and limits against the authoring context."

def invalidConfiguration : String :=
  "Invalid Workflow v2 definition. Check block configuration and graph references against the authoring context."

/-- `workflowDefinitionV2Schema`, with the text that the import gives for an error. -/
def workflowDefinitionV2Schema (v : JsonValue) : Except String WorkflowDefinitionV2 :=
  match definitionFields v with
  | none => .error invalidDefinition
  | some w =>
    if w.normalise.nodes.any throwsOn then .error invalidConfiguration
    else
      match w.parse with
      | .ok definition => .ok definition
      | .error _ => .error invalidDefinition

/-! ### Layouts -/

structure Position where
  x : ℚ
  y : ℚ

structure Viewport where
  x : ℚ
  y : ℚ
  zoom : ℚ

/-- `schemaVersion` is always `1`. -/
structure WorkflowLayoutV1 where
  workflowId : String
  positions : List (String × Position)
  edgeWaypoints : Option (List (String × List Position))
  viewport : Viewport

def maxEdgeWaypoints : ℕ := 8

def position (v : JsonValue) : Option Position :=
  if v.strictKeys ["x", "y"] then do
    let x ← v.field "x" asNum?
    let y ← v.field "y" asNum?
    return ⟨x, y⟩
  else none

/-- `z.record(definitionId, …)` -/
def recordOf {α : Type} (read : JsonValue → Option α) (v : JsonValue) : Option (List (String × α)) :=
  v.asObj?.bind (·.mapM fun f => if definitionId f.1 then (read f.2).map (f.1, ·) else none)

def waypoints (v : JsonValue) : Option (List Position) :=
  (arrayOf position v).filter fun points => points.length ≤ maxEdgeWaypoints

def viewport (v : JsonValue) : Option Viewport :=
  if v.strictKeys ["x", "y", "zoom"] then do
    let x ← v.field "x" asNum?
    let y ← v.field "y" asNum?
    let zoom ← (v.field "zoom" asNum?).filter fun zoom => 1 / 10 ≤ zoom ∧ zoom ≤ 4
    return ⟨x, y, zoom⟩
  else none

def invalidLayout : String :=
  "Invalid layout. Use layout version 1, finite coordinates, supported zoom and waypoint counts."

/-- What is read, or the text of an error. -/
def orError {α : Type} (error : String) : Option α → Except String α
  | some a => .ok a
  | none => .error error

/-- `workflowLayoutSchema`, with the text that the import gives for its first issue. -/
def workflowLayoutSchema (v : JsonValue) : Except String WorkflowLayoutV1 := do
  if v.field "schemaVersion" asNum? ≠ some 1 then .error invalidLayout
  let workflowId ← orError invalidLayout ((v.field "workflowId" asStr?).filter definitionId)
  let positions ← orError invalidLayout (v.field "positions" (recordOf position))
  let edgeWaypoints ← orError invalidLayout (v.optional "edgeWaypoints" (recordOf waypoints))
  if edgeWaypoints.any fun routes => 128 < routes.length then .error "Too many edge routes."
  let viewport ← orError invalidLayout (v.field "viewport" viewport)
  if v.strictKeys ["schemaVersion", "workflowId", "positions", "edgeWaypoints", "viewport"] then
    .ok ⟨workflowId, positions, edgeWaypoints, viewport⟩
  else .error invalidLayout

/-! ### Transfers -/

/-- Every node with the largest supported configuration text. -/
def nodeTextBudget : ℕ := 65536 + 256 + 4096 + 2000 + (maxAgentContextSources + 4) * 80

def workflowTransferMaxBytes : ℕ :=
  6 * (workflowRunInputMaxLength + 2000 + 120 + 80 + maxWorkflowSteps * nodeTextBudget) +
    4096 * (1 + maxWorkflowSteps + stepExecutionsMax) + stepExecutionsMax * maxEdgeWaypoints * 128

def workflowTransferMaxCoordinate : ℚ := 1000000

structure WorkflowTransfer where
  definition : WorkflowDefinitionV2
  layout : Option WorkflowLayoutV1

namespace WorkflowLayoutV1

variable (layout : WorkflowLayoutV1) (definition : WorkflowDefinitionV2)

/-- The points of a layout, with the origin of its viewport. -/
def points : List Position :=
  layout.positions.map (·.2) ++ (layout.edgeWaypoints.getD []).flatMap (·.2) ++ [⟨layout.viewport.x, layout.viewport.y⟩]

/-- The first issue of a layout with its definition. -/
def issue : Option String :=
  if layout.points.any fun p => workflowTransferMaxCoordinate < |p.x| || workflowTransferMaxCoordinate < |p.y| then
    some "Layout coordinates must be within one million units of the origin."
  else if layout.workflowId ≠ definition.id then some "Layout Workflow ID must match the definition ID."
  else if layout.positions.any fun p => !(definition.nodes.map (·.id)).contains p.1 then
    some "Layout positions reference unknown nodes."
  else if (layout.edgeWaypoints.getD []).any fun r => !(definition.edges.map (·.id)).contains r.1 then
    some "Layout waypoints reference unknown edges."
  else none

end WorkflowLayoutV1

def parseWorkflowTransfer (text : String) : Except String WorkflowTransfer :=
  if workflowTransferMaxBytes < utf16Length text ∨ workflowTransferMaxBytes < byteLength text then
    .error "Workflow transfer is too large. Reduce text or graph size and try again."
  else
    match parse text with
    | none => .error "Invalid JSON. Paste only the Workflow Transfer JSON object, without Markdown fences."
    | some value =>
      if value.asObj?.isNone then .error "Paste a Workflow Transfer JSON object."
      else if value.field "format" asStr? ≠ some "adt-workflow-transfer" then
        .error "Wrong format. Expected \"adt-workflow-transfer\"."
      else if value.field "version" asNum? ≠ some 1 then
        .error "Unsupported Workflow Transfer version. This editor supports version 1."
      else do
        let definition ← match value.get? "definition" with
          | none => .error invalidDefinition
          | some v => workflowDefinitionV2Schema v
        let layout ← match value.get? "layout" with
          | none => .ok none
          | some v => (workflowLayoutSchema v).map some
        if !value.strictKeys ["format", "version", "definition", "layout"] then
          .error "Invalid transfer envelope. Only format, version, definition, and optional layout are permitted."
        match layout.bind (·.issue definition) with
        | some message => .error message
        | none => .ok ⟨definition, layout⟩

/-! ### Documents -/

/-- A property that is written where there is a value. -/
def given {α : Type} (k : String) (write : α → JsonValue) (a : Option α) : List (String × JsonValue) :=
  (a.map fun a => (k, write a)).toList

def nodeValue (n : WorkflowNode) : JsonValue :=
  .obj [("id", .str n.id), ("blockType", .str n.blockType), ("blockVersion", .num n.blockVersion), ("config", ofJson n.config)]

def edgeValue (e : WorkflowEdge) : JsonValue :=
  .obj (("id", .str e.id) :: ("source", .str e.source) :: (given "sourcePort" .str e.sourcePort ++
    ("target", .str e.target) :: given "targetPort" .str e.targetPort))

def definitionValue (w : WorkflowDefinitionV2) : JsonValue :=
  .obj (("schemaVersion", .num 2) :: ("id", .str w.id) :: ("name", .str w.name) :: ("description", .str w.description) ::
    ("status", .str "draft") :: (given "runInputTemplate" .str w.runInputTemplate ++
      (given "exposableAsBlock" .bool w.exposableAsBlock ++
        [("nodes", .arr (w.nodes.map nodeValue)), ("edges", .arr (w.edges.map edgeValue)),
          ("limits", .obj [("maxStepExecutions", .num w.maxStepExecutions)])])))

def positionValue (p : Position) : JsonValue := .obj [("x", .num p.x), ("y", .num p.y)]

def routesValue (routes : List (String × List Position)) : JsonValue :=
  .obj (routes.map fun r => (r.1, .arr (r.2.map positionValue)))

def layoutValue (l : WorkflowLayoutV1) : JsonValue :=
  .obj (("schemaVersion", .num 1) :: ("workflowId", .str l.workflowId) ::
    ("positions", .obj (l.positions.map fun p => (p.1, positionValue p.2))) ::
      (given "edgeWaypoints" routesValue l.edgeWaypoints ++
        [("viewport", .obj [("x", .num l.viewport.x), ("y", .num l.viewport.y), ("zoom", .num l.viewport.zoom)])]))

/-- A transfer as a JSON value, by the fields of its schemas. -/
def transferValue (t : WorkflowTransfer) : JsonValue :=
  .obj (("format", .str "adt-workflow-transfer") :: ("version", .num 1) :: ("definition", definitionValue t.definition) ::
    given "layout" layoutValue t.layout)

namespace WorkflowTransfer

/-- A text whose JSON has the fields of a transfer, with the members of each object in any order. -/
def IsDocument (t : WorkflowTransfer) (document : String) : Prop :=
  ∃ v, parse document = some v ∧ v.Same (transferValue t)

end WorkflowTransfer

/-- The same layout, with its records in any order. -/
structure WorkflowLayoutV1.Same (k l : WorkflowLayoutV1) : Prop where
  workflowId : k.workflowId = l.workflowId
  positions : k.positions.Perm l.positions
  edgeWaypoints : Option.Rel List.Perm k.edgeWaypoints l.edgeWaypoints
  viewport : k.viewport = l.viewport

/-- The same definition and layout. -/
structure WorkflowTransfer.Same (t u : WorkflowTransfer) : Prop where
  definition : t.definition.Same u.definition
  layout : Option.Rel WorkflowLayoutV1.Same t.layout u.layout

/-- A layout that is within its bounds, and that goes with a definition. -/
structure WorkflowLayoutV1.Within (definition : WorkflowDefinitionV2) (layout : WorkflowLayoutV1) : Prop where
  workflowId : definitionId layout.workflowId = true
  positions : ∀ p ∈ layout.positions, definitionId p.1 = true
  edgeWaypoints : ∀ r ∈ layout.edgeWaypoints.getD [], definitionId r.1 = true ∧ r.2.length ≤ maxEdgeWaypoints
  routes : (layout.edgeWaypoints.getD []).length ≤ 128
  zoom : 1 / 10 ≤ layout.viewport.zoom ∧ layout.viewport.zoom ≤ 4
  issue : layout.issue definition = none

/-! ### What is read of a document -/

theorem mapM_written {α β : Type} {read : β → Option α} {write : α → β} {l : List α}
    (h : ∀ a ∈ l, read (write a) = some a) : (l.map write).mapM read = some l := by
  induction l with
  | nil => rfl
  | cons a l ih =>
    rw [List.map_cons, List.mapM_cons, h a List.mem_cons_self, ih fun b hb => h b (List.mem_cons_of_mem _ hb)]
    rfl

theorem asNat_num (n : ℕ) : (JsonValue.num n).asNat? = some n := by
  unfold asNat? asNum?
  rw [Option.bind_some, if_pos]
  · rw [Rat.num_natCast, Int.toNat_natCast]
  · rw [Rat.den_natCast, Rat.num_natCast]
    exact ⟨rfl, Int.natCast_nonneg n⟩

variable {α : Type} {read : JsonValue → Option α} {v : JsonValue} {w : WorkflowDefinitionV2}
  {document message : String}

/-- Items that are read one by one, each up to `R`. -/
theorem mapM_related {β γ : Type} {R : β → α → Prop} {S : γ → α → Prop} {read : γ → Option β} {vs : List γ} {l : List α}
    (hread : ∀ x a, S x a → ∃ b, read x = some b ∧ R b a) (h : List.Forall₂ S vs l) :
    ∃ bs, vs.mapM read = some bs ∧ List.Forall₂ R bs l := by
  induction h with
  | nil => exact ⟨[], rfl, .nil⟩
  | @cons x a vs l hxa _ ih =>
    obtain ⟨b, hb, hba⟩ := hread x a hxa
    obtain ⟨bs, hbs, hrel⟩ := ih
    refine ⟨b :: bs, ?_, .cons hba hrel⟩
    rw [List.mapM_cons, hb, hbs]
    rfl

theorem mapM_same {β γ : Type} {S : β → γ → Prop} {read : β → Option α} {read' : γ → Option α} {vs : List β} {us : List γ}
    (hread : ∀ x y, S x y → read x = read' y) (h : List.Forall₂ S vs us) : vs.mapM read = us.mapM read' := by
  induction h with
  | nil => rfl
  | cons hxy _ ih => rw [List.mapM_cons, List.mapM_cons, hread _ _ hxy, ih]

theorem mapM_perm {β : Type} {read : α → Option β} {fs ms : List α} (h : fs.Perm ms) {bs : List β}
    (hms : ms.mapM read = some bs) : ∃ cs, fs.mapM read = some cs ∧ cs.Perm bs := by
  induction h generalizing bs with
  | nil => exact ⟨bs, hms, .refl bs⟩
  | cons f _ ih =>
    simp only [List.mapM_cons, Option.bind_eq_bind, Option.bind_eq_some_iff, Option.pure_def, Option.some.injEq] at hms
    obtain ⟨b, hb, rest, hrest, rfl⟩ := hms
    obtain ⟨cs, hcs, hperm⟩ := ih hrest
    refine ⟨b :: cs, ?_, hperm.cons b⟩
    rw [List.mapM_cons, hb, hcs]
    rfl
  | swap f g fs =>
    simp only [List.mapM_cons, Option.bind_eq_bind, Option.bind_eq_some_iff, Option.pure_def, Option.some.injEq] at hms
    obtain ⟨b, hb, _, ⟨c, hc, rest, hrest, rfl⟩, rfl⟩ := hms
    refine ⟨c :: b :: rest, ?_, .swap b c rest⟩
    rw [List.mapM_cons, List.mapM_cons, hc, hb, hrest]
    rfl
  | trans _ _ ih₁ ih₂ =>
    obtain ⟨cs, hcs, hperm⟩ := ih₂ hms
    obtain ⟨ds, hds, hperm'⟩ := ih₁ hcs
    exact ⟨ds, hds, hperm'.trans hperm⟩

theorem blind_arrayOf (hread : Blind read) : Blind (arrayOf read) := by
  intro v u h
  cases u with
  | arr us =>
    obtain ⟨vs, rfl, hitems⟩ := h.of_arr
    exact mapM_same hread hitems
  | _ =>
    cases h
    rfl

/-- The members of a record are read in the order of the document. -/
theorem recordOf_same (hread : Blind read) {u : JsonValue} (h : v.Same u)
    {entries : List (String × α)} (hu : recordOf read u = some entries) :
    ∃ es, recordOf read v = some es ∧ es.Perm entries := by
  cases u with
  | obj gs =>
    obtain ⟨fs, ms, rfl, -, horder, hmembers⟩ := h.of_obj
    refine mapM_perm horder ((mapM_same (fun f g hfg => ?_) hmembers).trans hu)
    rw [hfg.1, hread _ _ hfg.2]
  | _ => cases hu

/-! ### Definitions and layouts -/

theorem read_node {n : WorkflowNode} (h : v.Same (nodeValue n)) : ∃ m, workflowNodeSchema v = some m ∧ m.Same n := by
  have hid : (nodeValue n).field "id" asStr? = some n.id := rfl
  have htype : (nodeValue n).field "blockType" asStr? = some n.blockType := rfl
  have hversion : (nodeValue n).field "blockVersion" asNat? = some n.blockVersion := asNat_num n.blockVersion
  have hkeys : (nodeValue n).strictKeys ["id", "blockType", "blockVersion", "config"] = true := rfl
  have hmember : (nodeValue n).get? "config" = some (ofJson n.config) := rfl
  obtain ⟨x, hx, hsame⟩ := h.get?_some hmember
  obtain ⟨config, rfl⟩ := hsame.exists_ofJson ⟨n.config, rfl⟩
  refine ⟨⟨n.id, n.blockType, n.blockVersion, config⟩, ?_, rfl, rfl, rfl, hsame⟩
  rw [workflowNodeSchema, h.strictKeys, if_pos hkeys, h.field _ blind_asStr, hid, h.field _ blind_asStr, htype,
    h.field _ blind_asNat, hversion, hx]
  dsimp only [bind, Option.bind_some]
  rw [toJson_ofJson]
  rfl

theorem blind_workflowEdgeSchema : Blind workflowEdgeSchema := fun v u h => by
  simp only [workflowEdgeSchema, h.strictKeys, h.field _ blind_asStr, h.optional _ blind_asStr]

theorem read_edge (e : WorkflowEdge) : workflowEdgeSchema (edgeValue e) = some e := by
  obtain ⟨id, source, sourcePort, target, targetPort⟩ := e
  cases sourcePort with
  | none =>
    cases targetPort with
    | none => rfl
    | some targetPort => rfl
  | some sourcePort =>
    cases targetPort with
    | none => rfl
    | some targetPort => rfl

theorem blind_limitsSchema : Blind limitsSchema := fun v u h => by
  rw [limitsSchema, limitsSchema, h.strictKeys, h.field _ blind_asNat]

/-- A definition is read from any document with the same fields. -/
theorem read_definition (h : v.Same (definitionValue w)) : ∃ d, definitionFields v = some d ∧ d.Same w := by
  have hedges : arrayOf workflowEdgeSchema (.arr (w.edges.map edgeValue)) = some w.edges :=
    mapM_written fun e _ => read_edge e
  have hlimits : limitsSchema (.obj [("maxStepExecutions", .num w.maxStepExecutions)]) = some w.maxStepExecutions :=
    asNat_num w.maxStepExecutions
  obtain ⟨id, name, description, runInputTemplate, exposableAsBlock, nodes, edges, maxStepExecutions⟩ := w
  have hread : ∀ u : JsonValue, u = definitionValue ⟨id, name, description, runInputTemplate, exposableAsBlock, nodes, edges,
      maxStepExecutions⟩ → u.get? "nodes" = some (.arr (nodes.map nodeValue)) ∧
        u.field "edges" (arrayOf workflowEdgeSchema) = some edges ∧ u.field "limits" limitsSchema = some maxStepExecutions ∧
          u.optional "runInputTemplate" asStr? = some runInputTemplate ∧
            u.optional "exposableAsBlock" asBool? = some exposableAsBlock ∧ u.field "id" asStr? = some id ∧
              u.field "name" asStr? = some name ∧ u.field "description" asStr? = some description ∧
                (u.strictKeys ["schemaVersion", "id", "name", "description", "status", "runInputTemplate",
                  "exposableAsBlock", "nodes", "edges", "limits"] ∧ u.field "schemaVersion" asNum? = some 2 ∧
                    u.field "status" asStr? = some "draft") := by
    rintro u rfl
    cases runInputTemplate with
    | none =>
      cases exposableAsBlock with
      | none => exact ⟨rfl, hedges, hlimits, rfl, rfl, rfl, rfl, rfl, rfl, rfl, rfl⟩
      | some exposable => exact ⟨rfl, hedges, hlimits, rfl, rfl, rfl, rfl, rfl, rfl, rfl, rfl⟩
    | some text =>
      cases exposableAsBlock with
      | none => exact ⟨rfl, hedges, hlimits, rfl, rfl, rfl, rfl, rfl, rfl, rfl, rfl⟩
      | some exposable => exact ⟨rfl, hedges, hlimits, rfl, rfl, rfl, rfl, rfl, rfl, rfl, rfl⟩
  obtain ⟨hn, he, hl, htemplate, hexposable, hid, hname, hdescription, hshape⟩ := hread _ rfl
  obtain ⟨x, hx, hitems⟩ := h.get?_some hn
  obtain ⟨vs, rfl, hvs⟩ := hitems.of_arr
  rw [List.forall₂_map_right_iff] at hvs
  obtain ⟨ns, hns, hnodes⟩ := mapM_related (fun (x : JsonValue) n (hx : x.Same (nodeValue n)) => read_node hx) hvs
  have hfield : v.field "nodes" (arrayOf workflowNodeSchema) = some ns := by
    rw [field, hx]
    exact hns
  refine ⟨⟨id, name, description, runInputTemplate, exposableAsBlock, ns, edges, maxStepExecutions⟩, ?_, rfl, hnodes⟩
  rw [definitionFields, h.strictKeys, h.field "schemaVersion" blind_asNum, h.field "status" blind_asStr, if_pos hshape,
    h.field "id" blind_asStr, hid, h.field "name" blind_asStr, hname, h.field "description" blind_asStr, hdescription,
    h.optional _ blind_asStr, htemplate, h.optional _ blind_asBool, hexposable, hfield,
    h.field _ (blind_arrayOf blind_workflowEdgeSchema), he, h.field _ blind_limitsSchema, hl]
  rfl

theorem blind_position : Blind position := fun v u h => by
  simp only [position, h.strictKeys, h.field _ blind_asNum]

theorem blind_waypoints : Blind waypoints := fun v u h => by
  rw [waypoints, waypoints, blind_arrayOf blind_position v u h]

theorem blind_viewport : Blind viewport := fun v u h => by
  simp only [viewport, h.strictKeys, h.field _ blind_asNum]

theorem read_position (p : Position) : position (positionValue p) = some p := rfl

theorem recordOf_written {α : Type} {read : JsonValue → Option α} {write : α → JsonValue} {entries : List (String × α)}
    (h : ∀ e ∈ entries, definitionId e.1 = true ∧ read (write e.2) = some e.2) :
    recordOf read (.obj (entries.map fun e => (e.1, write e.2))) = some entries := by
  refine @mapM_written _ _ _ (fun e : String × α => (e.1, write e.2)) _ fun e he => ?_
  obtain ⟨hid, hread⟩ := h e he
  dsimp only
  rw [if_pos hid, hread]
  rfl

theorem read_waypoints {points : List Position} (h : points.length ≤ maxEdgeWaypoints) :
    waypoints (.arr (points.map positionValue)) = some points := by
  have hpoints : arrayOf position (.arr (points.map positionValue)) = some points := mapM_written fun p _ => read_position p
  rw [waypoints, hpoints, Option.filter_some, if_pos (decide_eq_true h)]

theorem read_layout {definition : WorkflowDefinitionV2} {l : WorkflowLayoutV1} (hl : l.Within definition)
    (h : v.Same (layoutValue l)) : ∃ k, workflowLayoutSchema v = .ok k ∧ k.Same l := by
  have hpositions : recordOf position (.obj (l.positions.map fun p => (p.1, positionValue p.2))) = some l.positions :=
    recordOf_written fun p hp => ⟨hl.positions p hp, rfl⟩
  have hroutes : ∀ routes, l.edgeWaypoints = some routes →
      recordOf waypoints (routesValue routes) = some routes := by
    intro routes hroutes
    refine @recordOf_written _ waypoints (fun points => .arr (points.map positionValue)) routes fun r hr => ?_
    have hr' : r ∈ l.edgeWaypoints.getD [] := by rwa [hroutes]
    obtain ⟨hid, hlength⟩ := hl.edgeWaypoints r hr'
    exact ⟨hid, read_waypoints hlength⟩
  have hview : viewport (.obj [("x", .num l.viewport.x), ("y", .num l.viewport.y), ("zoom", .num l.viewport.zoom)]) =
      some l.viewport := by
    have hzoom : ((some l.viewport.zoom).filter fun zoom => decide (1 / 10 ≤ zoom ∧ zoom ≤ 4)) = some l.viewport.zoom := by
      rw [Option.filter_some, if_pos (decide_eq_true hl.zoom)]
    have hkeys : strictKeys ["x", "y", "zoom"] (.obj [("x", .num l.viewport.x), ("y", .num l.viewport.y),
        ("zoom", .num l.viewport.zoom)]) = true := rfl
    rw [viewport, if_pos hkeys]
    exact congrArg (Option.bind · _) hzoom
  have hid := hl.workflowId
  have hcount := hl.routes
  obtain ⟨workflowId, positions, edgeWaypoints, view⟩ := l
  have hread : ∀ u : JsonValue, u = layoutValue ⟨workflowId, positions, edgeWaypoints, view⟩ →
      u.field "schemaVersion" asNum? = some 1 ∧ u.field "workflowId" asStr? = some workflowId ∧
        u.get? "positions" = some (.obj (positions.map fun p => (p.1, positionValue p.2))) ∧
          u.get? "edgeWaypoints" = edgeWaypoints.map routesValue ∧ u.field "viewport" viewport = some view ∧
            u.strictKeys ["schemaVersion", "workflowId", "positions", "edgeWaypoints", "viewport"] = true := by
    rintro u rfl
    cases edgeWaypoints with
    | none => exact ⟨rfl, rfl, rfl, rfl, hview, rfl⟩
    | some routes => exact ⟨rfl, rfl, rfl, rfl, hview, rfl⟩
  obtain ⟨hversion, hworkflow, hp, hw, hv, hkeys⟩ := hread _ rfl
  obtain ⟨ps, hps, hplaced⟩ : ∃ ps, v.field "positions" (recordOf position) = some ps ∧ ps.Perm positions := by
    obtain ⟨x, hx, hsame⟩ := h.get?_some hp
    rw [JsonValue.field, hx]
    exact recordOf_same blind_position hsame hpositions
  obtain ⟨ways, hways, hrouted⟩ : ∃ ways, v.optional "edgeWaypoints" (recordOf waypoints) = some ways ∧
      Option.Rel List.Perm ways edgeWaypoints := by
    rw [JsonValue.optional]
    cases edgeWaypoints with
    | none =>
      rw [h.get?_none hw]
      exact ⟨none, rfl, .none⟩
    | some routes =>
      obtain ⟨x, hx, hsame⟩ := h.get?_some hw
      obtain ⟨es, hes, hperm⟩ := recordOf_same blind_waypoints hsame (hroutes routes rfl)
      rw [hx]
      exact ⟨some es, congrArg (Option.map some) hes, .some hperm⟩
  have htooMany : ¬ (ways.any fun routes => decide (128 < routes.length)) = true := by
    cases hrouted with
    | none => exact Bool.false_ne_true
    | some hperm =>
      rw [Option.any_some, decide_eq_true_eq, hperm.length_eq]
      exact Nat.not_lt.mpr hcount
  refine ⟨⟨workflowId, ps, ways, view⟩, ?_, rfl, hplaced, hrouted, rfl⟩
  rw [workflowLayoutSchema, h.field _ blind_asNum, hversion, h.field _ blind_asStr, hworkflow, Option.filter_some, if_pos hid,
    hps, hways, h.field _ blind_viewport, hv, h.strictKeys, if_neg (fun h => h rfl)]
  dsimp only [orError, bind, Except.bind, pure, Except.pure]
  rw [if_neg htooMany, if_pos hkeys]

/-! ### Accepted definitions -/

theorem validate_null {type : String} {version : ℕ} {c : BlockConfig} : validate type version .null ≠ .ok c := by
  intro h
  obtain ⟨block, hresolve, hconfig⟩ := except_bind_ok.mp h
  have hnone : ∀ block ∈ blocks, block.configSchema .null = none := by
    intro block hblock
    simp only [blocks, List.mem_cons, List.not_mem_nil, or_false] at hblock
    rcases hblock with rfl | rfl | rfl | rfl | rfl | rfl | rfl | rfl
    · rfl
    · rfl
    · rfl
    · rfl
    · rfl
    · rfl
    · rfl
    · rfl
  rw [hnone block (resolve_mem hresolve).1] at hconfig
  cases hconfig

theorem throwsOn_accepted (h : w.normalise.issues = []) : w.normalise.nodes.any throwsOn = false := by
  rw [List.any_eq_false]
  intro n hn hthrows
  have hblocks : WorkflowDefinitionV2.blockIssues 0 [] w.normalise.nodes = [] := by
    simp only [WorkflowDefinitionV2.issues, List.append_eq_nil_iff] at h
    exact h.1.1.2
  obtain ⟨c, hc⟩ := (((WorkflowDefinitionV2.blockIssues_nil hblocks).2) n hn).2
  rw [throwsOn, Bool.and_eq_true] at hthrows
  have hnull : n.config = .null := by
    have htest := hthrows.1
    split at htest
    · assumption
    · cases htest
  rw [hnull] at hc
  exact validate_null hc

theorem read_accepted {d : WorkflowDefinitionV2} (hw : w.parse = .ok d) (h : v.Same (definitionValue w)) :
    ∃ d', workflowDefinitionV2Schema v = .ok d' ∧ d'.Same d := by
  obtain ⟨w', hread, hsame⟩ := read_definition h
  obtain ⟨hparse, hnormal⟩ := hsame.parse hw
  have hthrows := throwsOn_accepted (parse_normalise hparse).2
  refine ⟨w'.normalise, ?_, hnormal⟩
  rw [workflowDefinitionV2Schema, hread]
  dsimp only
  rw [hthrows, if_neg Bool.false_ne_true, hparse]

/-- The issues of a layout are those of the same layout, with a definition of the same ids. -/
theorem issue_same {d : WorkflowDefinitionV2} (hd : d.Same w.normalise) {k l : WorkflowLayoutV1} (h : k.Same l) :
    k.issue d = l.issue w := by
  obtain ⟨workflowId, positions, edgeWaypoints, view⟩ := k
  obtain ⟨_, positions', edgeWaypoints', _⟩ := l
  obtain ⟨rfl, hpositions, hroutes, rfl⟩ := h
  have hid : d.id = w.id := by rw [hd.rest]; rfl
  have hedges : d.edges = w.edges := by rw [hd.rest]; rfl
  have hnodes : d.nodes.map (·.id) = w.nodes.map (·.id) := by
    have hsame := WorkflowDefinitionV2.map_of_rel (fun _ _ hnm => hnm.id.symm) hd.nodes
    have hnormal : w.normalise.nodes = w.nodes.map fun n => { n with blockType := trim n.blockType } := rfl
    rw [← hsame, hnormal, List.map_map]
    rfl
  have hways : (edgeWaypoints.getD []).Perm (edgeWaypoints'.getD []) := by
    cases hroutes with
    | none => exact .refl _
    | some hperm => exact hperm
  have hpoints : (WorkflowLayoutV1.points ⟨workflowId, positions, edgeWaypoints, view⟩).Perm
      (WorkflowLayoutV1.points ⟨workflowId, positions', edgeWaypoints', view⟩) :=
    ((hpositions.map _).append (hways.flatMap_right _)).append (.refl _)
  rw [WorkflowLayoutV1.issue, WorkflowLayoutV1.issue, hid, hedges, hnodes, hpoints.any_eq, hpositions.any_eq, hways.any_eq]

/-! ### Export and import -/

theorem read_transfer (w : WorkflowDefinitionV2) (layout : Option WorkflowLayoutV1) :
    (transferValue ⟨w, layout⟩).asObj?.isNone = false ∧
      (transferValue ⟨w, layout⟩).field "format" asStr? = some "adt-workflow-transfer" ∧
        (transferValue ⟨w, layout⟩).field "version" asNum? = some 1 ∧
          (transferValue ⟨w, layout⟩).get? "definition" = some (definitionValue w) ∧
            (transferValue ⟨w, layout⟩).get? "layout" = layout.map layoutValue ∧
              (transferValue ⟨w, layout⟩).strictKeys ["format", "version", "definition", "layout"] = true := by
  cases layout with
  | none => exact ⟨rfl, rfl, rfl, rfl, rfl, rfl⟩
  | some l => exact ⟨rfl, rfl, rfl, rfl, rfl, rfl⟩

theorem import_large (hlarge : workflowTransferMaxBytes < byteLength document) :
    parseWorkflowTransfer document = .error "Workflow transfer is too large. Reduce text or graph size and try again." := by
  rw [parseWorkflowTransfer, if_pos (.inr hlarge)]

theorem import_document {d : WorkflowDefinitionV2} (hw : w.parse = .ok d) {layout : Option WorkflowLayoutV1}
    (hlayout : ∀ l, layout = some l → l.Within w) (hdocument : WorkflowTransfer.IsDocument ⟨w, layout⟩ document)
    (hsmall : byteLength document ≤ workflowTransferMaxBytes) :
    ∃ t, parseWorkflowTransfer document = .ok t ∧ t.Same ⟨d, layout⟩ := by
  have hunits := utf16Length_le_byteLength document
  obtain ⟨v, hparse, h⟩ := hdocument
  obtain ⟨hobject, hformat, hversion, hdefinition, hplaced, hkeys⟩ := read_transfer w layout
  obtain ⟨x, hx, hsame⟩ := h.get?_some hdefinition
  obtain ⟨d', hread, hd⟩ := read_accepted hw hsame
  obtain ⟨rfl, -⟩ := parse_normalise hw
  unfold parseWorkflowTransfer
  rw [if_neg (by omega), hparse]
  dsimp only
  rw [h.isObj, hobject, h.field _ blind_asStr, hformat, h.field _ blind_asNum, hversion, h.strictKeys, hkeys, hx,
    if_neg Bool.false_ne_true, if_neg fun h => h rfl, if_neg fun h => h rfl]
  dsimp only
  rw [hread]
  cases layout with
  | none =>
    rw [h.get?_none hplaced]
    exact ⟨⟨d', none⟩, rfl, hd, .none⟩
  | some l =>
    obtain ⟨y, hy, hsame'⟩ := h.get?_some hplaced
    obtain ⟨k, hread', hk⟩ := read_layout (hlayout l rfl) hsame'
    have hissue : k.issue d' = none := (issue_same hd hk).trans (hlayout l rfl).issue
    rw [hy]
    dsimp only
    rw [hread']
    dsimp only [bind, Except.bind, Except.map, pure, Except.pure, Option.bind_some]
    rw [hissue]
    exact ⟨⟨d', some k⟩, rfl, hd, .some hk⟩

/-- The import gives back the definition and the layout of a document exactly where the definition is as its schema gives
it and the document is within the limit. -/
theorem transfer_round_trips_iff {w d : WorkflowDefinitionV2} (hw : w.parse = .ok d) {layout : Option WorkflowLayoutV1}
    (hlayout : ∀ l, layout = some l → l.Within w) {document : String}
    (hdocument : WorkflowTransfer.IsDocument ⟨w, layout⟩ document) :
    (∃ t, parseWorkflowTransfer document = .ok t ∧ t.Same ⟨w, layout⟩) ↔
      w.normalise = w ∧ byteLength document ≤ workflowTransferMaxBytes := by
  obtain ⟨hnormal, -⟩ := parse_normalise hw
  constructor
  · rintro ⟨t, ht, hsame⟩
    by_cases hlarge : workflowTransferMaxBytes < byteLength document
    · rw [import_large hlarge] at ht
      cases ht
    · have hsmall := Nat.le_of_not_lt hlarge
      obtain ⟨t', ht', hsame'⟩ := import_document hw hlayout hdocument hsmall
      rw [ht'] at ht
      cases ht
      rw [hnormal] at hsame'
      exact ⟨hsame.definition.normalised hsame'.definition, hsmall⟩
  · rintro ⟨hself, hsmall⟩
    rw [hnormal, hself] at hw
    exact import_document hw hlayout hdocument hsmall

/-- Two agents in a row, and where they stand. -/
def placed : WorkflowTransfer :=
  ⟨sample 2 [agentNode "start", agentNode "finish"] [edge "start" "finish"],
    some ⟨"w", [("start", ⟨120, -45⟩), ("finish", ⟨480, 0⟩)], none, ⟨0, 0, 2⟩⟩⟩

/-- The transfer as `canonicalJson` writes it, with sorted keys. -/
def placedJson : Json :=
  .obj [("definition", .obj [("description", .str ""),
    ("edges", .arr [.obj [("id", .str "start-finish"), ("source", .str "start"), ("target", .str "finish")]]),
    ("id", .str "w"), ("limits", .obj [("maxStepExecutions", .num 2)]), ("name", .str "W"),
    ("nodes", .arr [
      .obj [("blockType", .str "agent"), ("blockVersion", .num 1), ("config", .obj [("agentId", .str "a")]),
        ("id", .str "start")],
      .obj [("blockType", .str "agent"), ("blockVersion", .num 1), ("config", .obj [("agentId", .str "a")]),
        ("id", .str "finish")]]),
    ("schemaVersion", .num 2), ("status", .str "draft")]),
    ("format", .str "adt-workflow-transfer"),
    ("layout", .obj [
      ("positions", .obj [("finish", .obj [("x", .num 480), ("y", .num 0)]),
        ("start", .obj [("x", .num 120), ("y", .num (-45))])]),
      ("schemaVersion", .num 1), ("viewport", .obj [("x", .num 0), ("y", .num 0), ("zoom", .num 2)]),
      ("workflowId", .str "w")]),
    ("version", .num 1)]

/-- A text with sorted keys is a document. -/
theorem sorted_document {t : WorkflowTransfer} {j : Json} (le : String → String → Bool) (hdistinct : j.distinct = true)
    (hvalue : (transferValue t).distinct = true) (hread : readJson j = (transferValue t).sort le) :
    t.IsDocument j.stringify := by
  refine ⟨(transferValue t).sort le, ?_, sort_same le _ hvalue⟩
  rw [parse_of_json (Json.parse_stringify j hdistinct), hread]

theorem placed_document : placed.IsDocument placedJson.stringify := by
  refine sorted_document (fun a b => decide (a ≤ b)) rfl rfl ?_
  simp (disch := decide) only [readJson, placedJson, ofJsonWith, ofFieldsWith, ofItemsWith, ofRat_intCast]
  simp [transferValue, placed, sample, definitionValue, layoutValue, nodeValue, edgeValue, positionValue, given, sort,
    sortFields, sortItems, agentNode, edge, List.insertionSort, List.orderedInsert, ofJson, ofJsonWith, ofFieldsWith]

theorem transfer_round_trips_placed : ∃ t, parseWorkflowTransfer placedJson.stringify = .ok t ∧ t.Same placed := by
  have haccepted : placed.definition.Accepted := by decide
  have hwithin : ∀ l, placed.layout = some l → l.Within placed.definition := by
    intro l hl
    cases hl
    exact ⟨by decide, by decide, by decide, by decide, by decide +kernel, by decide +kernel⟩
  have hsmall : byteLength placedJson.stringify ≤ workflowTransferMaxBytes :=
    (Json.size_le_sizeBound placedJson).trans (by decide +kernel)
  exact (transfer_round_trips_iff (parse_accepted haccepted) hwithin placed_document).mpr ⟨haccepted.1, hsmall⟩

/-! ### A message with white space at its end -/

def approval (message : String) : WorkflowNode := ⟨"review", "approval", 1, .obj [("message", .str message)]⟩

/-- A message is approved before an agent runs. -/
def approvedFirst (message : String) : WorkflowDefinitionV2 :=
  sample 2 [approval message, agentNode "finish"] [edge "review" "finish"]

def approvedFirstJson (message : String) : Json :=
  .obj [("definition", .obj [("description", .str ""),
    ("edges", .arr [.obj [("id", .str "review-finish"), ("source", .str "review"), ("target", .str "finish")]]),
    ("id", .str "w"), ("limits", .obj [("maxStepExecutions", .num 2)]), ("name", .str "W"),
    ("nodes", .arr [
      .obj [("blockType", .str "approval"), ("blockVersion", .num 1), ("config", .obj [("message", .str message)]),
        ("id", .str "review")],
      .obj [("blockType", .str "agent"), ("blockVersion", .num 1), ("config", .obj [("agentId", .str "a")]),
        ("id", .str "finish")]]),
    ("schemaVersion", .num 2), ("status", .str "draft")]),
    ("format", .str "adt-workflow-transfer"), ("version", .num 1)]

theorem approvedFirst_document (message : String) :
    WorkflowTransfer.IsDocument ⟨approvedFirst message, none⟩ (approvedFirstJson message).stringify := by
  refine sorted_document (fun a b => decide (a ≤ b)) rfl rfl ?_
  simp (disch := decide) only [readJson, approvedFirstJson, ofJsonWith, ofFieldsWith, ofItemsWith, ofRat_intCast]
  simp [transferValue, approvedFirst, sample, definitionValue, nodeValue, edgeValue, given, sort, sortFields, sortItems,
    approval, agentNode, edge, List.insertionSort, List.orderedInsert, ofJson, ofJsonWith, ofFieldsWith]

section

variable (h : trimmedText approvalMessageMaxLength message = true)

include h

theorem validate_approval :
    validate "approval" 1 (.obj [("message", .str message)]) = .ok (.approval (trim message)) := by
  have hkeys : Json.strictKeys ["message"] (.obj [("message", .str message)]) = true := rfl
  have hfield : strField (.obj [("message", .str message)]) "message" (trimmedText approvalMessageMaxLength) =
      some message := (Option.filter_some).trans (if_pos h)
  have hconfig : approvalBlockConfigSchema (.obj [("message", .str message)]) = some (.approval (trim message)) := by
    rw [approvalBlockConfigSchema, if_pos hkeys, hfield]
    rfl
  refine except_bind_ok.mpr ⟨⟨"approval", 1, approvalBlockConfigSchema, [⟨"in", true⟩], [⟨"out", true⟩], "Approval"⟩, rfl, ?_⟩
  dsimp only
  rw [hconfig]

theorem approvedFirst_alike : WorkflowDefinitionV2.Alike (approvedFirst "ok") (approvedFirst message) := by
  have happroval : WorkflowDefinitionV2.NodeAlike (approval "ok") (approval message) := {
    id := rfl
    blockType := rfl
    blockVersion := rfl
    valid := fun _ => ⟨_, validate_approval h⟩
    publish := fun htype => absurd htype (by decide)
    context := fun hcontext => absurd hcontext (by decide)
    conversation := rfl }
  have hagent : WorkflowDefinitionV2.NodeAlike (agentNode "finish") (agentNode "finish") := {
    id := rfl
    blockType := rfl
    blockVersion := rfl
    valid := fun h => h
    publish := fun _ => rfl
    context := fun _ => ⟨rfl, rfl⟩
    conversation := rfl }
  exact ⟨.cons happroval (.cons hagent .nil), .cons ⟨rfl, rfl, rfl, rfl⟩ .nil⟩

theorem approvedFirst_accepted : (approvedFirst message).Accepted := by
  have hplain : (approvedFirst "ok").issues = [] := by decide
  have halike := approvedFirst_alike h
  simp only [WorkflowDefinitionV2.issues, List.append_eq_nil_iff] at hplain
  obtain ⟨⟨⟨hfields, hblocks⟩, hedges⟩, htopology⟩ := hplain
  refine ⟨(WorkflowDefinitionV2.normalise_eq_iff _).mpr ⟨?_, fun n hn => ?_⟩, ?_⟩
  · show trim "W" = "W"
    decide
  · rcases List.mem_pair.mp hn with rfl | rfl
    · show trim "approval" = "approval"
      decide
    · show trim "agent" = "agent"
      decide
  · simp only [WorkflowDefinitionV2.issues, List.append_eq_nil_iff]
    exact ⟨⟨⟨hfields, WorkflowDefinitionV2.Alike.blockIssues halike.nodes hblocks⟩, hedges⟩,
      halike.validateGraphTopology.trans htopology⟩

end

/-- A short message with blanks after it. -/
def padded (n : ℕ) : String := String.ofList ('o' :: 'k' :: List.replicate n ' ')

theorem trimmedText_padded (n : ℕ) : trimmedText approvalMessageMaxLength (padded n) = true := by
  have hchars : (padded n).toList = 'o' :: 'k' :: List.replicate n ' ' := String.toList_ofList
  have htrim : trim (padded n) = "ok" := by
    have hfront : isTrimmed 'o' = false := by decide
    have hblank : isTrimmed ' ' = true := by decide
    have hreverse : ('o' :: 'k' :: List.replicate n ' ').reverse = List.replicate n ' ' ++ ['k', 'o'] := by
      rw [List.reverse_cons, List.reverse_cons, List.reverse_replicate, List.append_assoc]
      rfl
    rw [trim, hchars, List.dropWhile_cons_of_neg (by rw [hfront]; exact Bool.false_ne_true), hreverse,
      List.dropWhile_append_of_pos fun c hc => (List.eq_of_mem_replicate hc) ▸ hblank]
    rfl
  rw [trimmedText, htrim]
  decide

theorem approvedFirst_length (message : String) : message.toList.length ≤ byteLength (approvedFirstJson message).stringify := by
  have hnode : ∀ config, Json.get? (.obj [("blockType", .str "approval"), ("blockVersion", .num 1), ("config", config),
      ("id", .str "review")]) "config" = some config := fun _ => rfl
  have hitem : ∀ (node : Json) (nodes : List Json), node.size ≤ (Json.arr (node :: nodes)).size :=
    fun _ _ => Json.size_le_arr List.mem_cons_self
  calc message.toList.length ≤ (Json.str message).size := Json.length_le_size message
    _ ≤ (Json.obj [("message", .str message)]).size := Json.size_le_of_get? (k := "message") rfl
    _ ≤ _ := Json.size_le_of_get? (hnode _)
    _ ≤ _ := hitem _ [.obj [("blockType", .str "agent"), ("blockVersion", .num 1), ("config", .obj [("agentId", .str "a")]),
        ("id", .str "finish")]]
    _ ≤ (((approvedFirstJson message).get? "definition").getD .null).size := Json.size_le_of_get? (k := "nodes") rfl
    _ ≤ (approvedFirstJson message).size := Json.size_le_of_get? (k := "definition") rfl

/-- The schema accepts a message with so many blanks after it that no document of it is within the limit. -/
theorem padded_message_refused : ¬ ∀ (w : WorkflowDefinitionV2) (layout : Option WorkflowLayoutV1) (document : String),
    w.Accepted → (∀ l, layout = some l → l.Within w) → WorkflowTransfer.IsDocument ⟨w, layout⟩ document →
      ∃ t, parseWorkflowTransfer document = .ok t ∧ t.Same ⟨w, layout⟩ := by
  intro hall
  have haccepted := approvedFirst_accepted (trimmedText_padded workflowTransferMaxBytes)
  have hdocument := approvedFirst_document (padded workflowTransferMaxBytes)
  have hnone : ∀ l : WorkflowLayoutV1, (none : Option WorkflowLayoutV1) = some l →
      l.Within (approvedFirst (padded workflowTransferMaxBytes)) := fun l hl => (by cases hl)
  obtain ⟨t, himport, -⟩ := hall _ none _ haccepted hnone hdocument
  have hlength := approvedFirst_length (padded workflowTransferMaxBytes)
  have hchars : workflowTransferMaxBytes < (padded workflowTransferMaxBytes).toList.length := by
    rw [padded, String.toList_ofList, List.length_cons, List.length_cons, List.length_replicate]
    omega
  rw [import_large (hchars.trans_le hlength)] at himport
  cases himport

end ADT.Workflow
