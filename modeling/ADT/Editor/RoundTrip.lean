import ADT.Editor.State
import ADT.Runtime.PlanSchema
import ADT.Workflow.Alike

/-!
# Editor.RoundTrip — a definition opened and saved

The editor writes every port and every context that the definition may leave out.  What it writes is alike the
definition (`Workflow.Alike`), so it is accepted; it compiles to the same plan unless an agent continues a conversation
without a context of its own.
-/

namespace ADT.Editor

open Workflow WorkflowDefinitionV2 ADT.Runtime

/-! ### What the editor reads of a configuration -/

variable {j : Json} {check : String → Bool} {config : Json} {c : BlockConfig} {id : String}
  {conversation : Option String}

theorem strField_eq {k s : String} (h : strField j k check = some s) : j.get? k = some (.str s) := by
  rw [strField, Option.filter_eq_some_iff, Option.bind_eq_some_iff] at h
  obtain ⟨⟨v, hv, hs⟩, -⟩ := h
  cases v with
  | str t =>
    cases hs
    exact hv
  | _ => cases hs

theorem strField_of {k s : String} (h : j.get? k = some (.str s))
    (hs : check s = true) : strField j k check = some s := by
  rw [strField, h]
  exact Option.filter_eq_some_iff.mpr ⟨rfl, hs⟩

theorem truthy_of_boolField {k : String} {fallback : Option Bool} {b : Bool}
    (hfallback : fallback = none ∨ fallback = some false) (h : boolField j k fallback = some b) :
    truthy (j.get? k) = b := by
  unfold boolField at h
  cases hv : j.get? k with
  | none =>
    rw [hv] at h
    rcases hfallback with rfl | rfl
    · cases h
    · exact Option.some.inj h
  | some v =>
    rw [hv] at h
    cases v with
    | bool b' => exact Option.some.inj h
    | _ => cases h

theorem asStrs_map (l : List String) : (Json.arr (l.map .str)).asStrs? = some l := by
  show (l.map Json.str).mapM Json.asStr? = some l
  induction l with
  | nil => rfl
  | cons s l ih =>
    rw [List.map_cons, List.mapM_cons, ih]
    rfl

theorem items_of_asStrs {v : Json} {l : List String} (h : v.asStrs? = some l) : v = .arr (l.map .str) := by
  cases v with
  | arr items =>
    refine congrArg Json.arr ?_
    replace h : items.mapM Json.asStr? = some l := h
    induction items generalizing l with
    | nil =>
      cases h
      rfl
    | cons i items ih =>
      rw [List.mapM_cons, Option.bind_eq_bind, Option.bind_eq_some_iff] at h
      obtain ⟨s, hs, h⟩ := h
      obtain ⟨l', hl', h⟩ := Option.bind_eq_some_iff.mp h
      cases h
      rw [ih hl', List.map_cons]
      cases i with
      | str t =>
        cases hs
        rfl
      | _ => cases hs
  | _ => cases h

/-- A context as the editor writes it. -/
def contextJson (c : AgentContext) : Json := .obj [
  ("publishOutput", .bool c.publishOutput), ("includeRunInput", .bool c.includeRunInput),
  ("includeNodeOutputs", .arr (c.includeNodeOutputs.map .str))]

def emptyContext : AgentContext := ⟨false, false, []⟩

/-- What the editor and the validator read of a context. -/
structure ContextRead (context : Option Json) (c : AgentContext) : Prop where
  publishOutput : truthy ((orEmpty context).get? "publishOutput") = c.publishOutput
  includeRunInput : truthy ((orEmpty context).get? "includeRunInput") = c.includeRunInput
  items : itemsOf ((orEmpty context).get? "includeNodeOutputs") = c.includeNodeOutputs.map .str
  selected : ((context.bind (·.get? "includeNodeOutputs")).bind Json.asStrs?).getD [] = c.includeNodeOutputs
  publishes : (((context.bind (·.get? "publishOutput")).bind Json.asBool?) == some true) = c.publishOutput
  ids : c.includeNodeOutputs.all definitionId = true ∧ c.includeNodeOutputs.length ≤ maxAgentContextSources

theorem contextRead_some {c : AgentContext} (h : agentContextSchema j = some c) : ContextRead (some j) c := by
  have hread := agentContextSchema_some h
  have hobj : orEmpty (some j) = j := by
    cases j with
    | null => cases h
    | _ => rfl
  refine ⟨?_, ?_, ?_, ?_, ?_, hread.ids⟩
  · rw [hobj]
    exact truthy_of_boolField (.inr rfl) hread.publishOutput
  · rw [hobj]
    exact truthy_of_boolField (.inr rfl) hread.includeRunInput
  · rw [hobj]
    rcases hread.outputs with ⟨hnone, hempty⟩ | ⟨v, hv, hl⟩
    · rw [hempty, hnone]
      rfl
    · rw [hv, items_of_asStrs hl]
      rfl
  · exact hread.outputs_eq.symm
  · show ((j.get? "publishOutput").bind Json.asBool? == some true) = c.publishOutput
    have hpublish := hread.publishOutput
    unfold boolField at hpublish
    cases hv : j.get? "publishOutput" with
    | none =>
      rw [hv] at hpublish
      rw [← Option.some.inj hpublish]
      rfl
    | some v =>
      rw [hv] at hpublish
      replace hpublish : v.asBool? = some c.publishOutput := hpublish
      rw [Option.bind_some, hpublish]
      cases c.publishOutput <;> rfl

theorem contextRead {context : Option AgentContext} (h : optField config "context" agentContextSchema = some context) :
    ContextRead (config.get? "context") (context.getD emptyContext) := by
  unfold optField at h
  cases hv : config.get? "context" with
  | none =>
    rw [hv] at h
    cases h
    exact ⟨rfl, rfl, rfl, rfl, rfl, rfl, Nat.zero_le _⟩
  | some j =>
    rw [hv] at h
    obtain ⟨c, hc, rfl⟩ := Option.map_eq_some_iff.mp h
    exact contextRead_some hc

theorem agentContextSchema_json {c : AgentContext} (h : c.includeNodeOutputs.all definitionId = true ∧
    c.includeNodeOutputs.length ≤ maxAgentContextSources) : agentContextSchema (contextJson c) = some c := by
  have hstrs : (Json.arr (c.includeNodeOutputs.map .str)).asStrs? = some c.includeNodeOutputs := asStrs_map _
  unfold agentContextSchema
  show (do
    let includeNodeOutputs ← (Json.arr (c.includeNodeOutputs.map .str)).asStrs?
    if includeNodeOutputs.all definitionId && includeNodeOutputs.length ≤ maxAgentContextSources then
      some (AgentContext.mk c.publishOutput c.includeRunInput includeNodeOutputs)
    else none) = some c
  rw [hstrs]
  show (if _ then _ else _) = _
  rw [if_pos (by rw [h.1, decide_eq_true h.2]; rfl)]

/-! ### What the editor writes of a node -/

/-- An agent of version 2 or 3 has a context. -/
def withContext : BlockConfig → BlockConfig
  | .agentV2 a context => .agentV2 a (some (context.getD emptyContext))
  | .agentV3 a context conversation => .agentV3 a (some (context.getD emptyContext)) conversation
  | c => c

theorem agentIds_withContext (c : BlockConfig) : (withContext c).agentIds = c.agentIds := by
  cases c <;> rfl

/-- What `m`, which the editor writes of `n`, has to do with it; `c` is the configuration of `n`. -/
structure Rewritten (n m : WorkflowNode) (c : BlockConfig) : Prop where
  alike : NodeAlike n m
  valid : validate m.blockType m.blockVersion m.config = .ok (withContext c)

theorem validate_of_schema {type : String} {version : ℕ} {b : RegisteredBlock}
    (hb : resolve type version = .ok b) (hc : b.configSchema config = some c) :
    validate type version config = .ok c := by
  refine except_bind_ok.mpr ⟨b, hb, ?_⟩
  rw [hc]

theorem rewritten_plain {n m : WorkflowNode} (hid : m.id = n.id) (htype : m.blockType = n.blockType)
    (hversion : m.blockVersion = n.blockVersion) (hcontext : isContextAgent n = false)
    (hvalid : validate m.blockType m.blockVersion m.config = .ok (withContext c))
    (hpublish : n.blockType = "publish-github-pr" →
      (m.config.get? "sourceNodeId").bind Json.asStr? = (n.config.get? "sourceNodeId").bind Json.asStr?) :
    Rewritten n m c where
  alike := {
    id := hid
    blockType := htype
    blockVersion := hversion
    valid := fun _ => ⟨_, hvalid⟩
    publish := hpublish
    context := fun h => absurd h (by rw [hcontext]; exact Bool.false_ne_true)
    conversation := by
      have hno : ¬(n.blockType == "agent" && n.blockVersion == 3) = true := by
        intro h
        obtain ⟨ht, hv⟩ := (Bool.and_eq_true _ _).mp h
        rw [isContextAgent, ht, beq_iff_eq.mp hv] at hcontext
        exact absurd hcontext (by decide)
      unfold conversationSource
      rw [htype, hversion, if_neg hno, if_neg hno] }
  valid := hvalid

/-- What becomes of a node that is opened and saved. -/
abbrev Reopens (n : WorkflowNode) (c : BlockConfig) : Prop := Rewritten n (nodeFromEditor (hydrateNode n)) c

theorem rewritten_agentV1 {a : String} (ha : strField config "agentId" definitionId = some a) :
    Reopens ⟨id, "agent", 1, config⟩ (.agentV1 a) := by
  have hwritten : nodeFromEditor (hydrateNode ⟨id, "agent", 1, config⟩) =
      ⟨id, "agent", 1, .obj [("agentId", .str a)]⟩ := by
    show (⟨id, "agent", 1, .obj [("agentId", .str (textOf (config.get? "agentId")))]⟩ : WorkflowNode) = _
    rw [strField_eq ha]
    rfl
  have hvalid : validate "agent" 1 (.obj [("agentId", .str a)]) = .ok (.agentV1 a) :=
    validate_of_schema rfl (by
      show (strField (.obj [("agentId", .str a)]) "agentId" definitionId).map BlockConfig.agentV1 = _
      rw [strField_of rfl (strField_some ha)]
      rfl)
  rw [Reopens, hwritten]
  exact rewritten_plain rfl rfl rfl rfl hvalid fun (ht : "agent" = _) => absurd ht (by decide)

theorem contextFromEditor_eq {version : ℕ} {c : AgentContext} (h : ContextRead (config.get? "context") c) :
    contextFromEditor (hydrateData ⟨id, "agent", version, config⟩) = contextJson c := by
  have hitems : (itemsOf (some (.arr (itemsOf ((orEmpty (config.get? "context")).get? "includeNodeOutputs"))))).map
      (fun item => Json.str (text item)) = c.includeNodeOutputs.map .str := by
    rw [h.items]
    show (c.includeNodeOutputs.map Json.str).map (fun item => Json.str (text item)) = _
    rw [List.map_map]
    rfl
  show Json.obj [("publishOutput", .bool (truthy ((orEmpty (config.get? "context")).get? "publishOutput"))),
    ("includeRunInput", .bool (truthy ((orEmpty (config.get? "context")).get? "includeRunInput"))),
    ("includeNodeOutputs", .arr ((itemsOf (some (.arr (itemsOf ((orEmpty (config.get? "context")).get?
      "includeNodeOutputs"))))).map fun item => .str (text item)))] = _
  rw [h.publishOutput, h.includeRunInput, hitems]
  rfl

theorem optField_context {c : AgentContext} (h : config.get? "context" = some (contextJson c))
    (hids : c.includeNodeOutputs.all definitionId = true ∧ c.includeNodeOutputs.length ≤ maxAgentContextSources) :
    optField config "context" agentContextSchema = some (some c) := by
  unfold optField
  rw [h]
  show (agentContextSchema (contextJson c)).map some = _
  rw [agentContextSchema_json hids]
  rfl

theorem context_alike {n m : WorkflowNode} {c : AgentContext} (hn : ContextRead (n.config.get? "context") c)
    (hm : ContextRead (m.config.get? "context") c) :
    selectedOutputs m = selectedOutputs n ∧ publishesOutput m = publishesOutput n :=
  ⟨hm.selected.trans hn.selected.symm, hm.publishes.trans hn.publishes.symm⟩

theorem rewritten_agentV2 {a : String} {context : Option AgentContext} (ha : strField config "agentId" definitionId = some a)
    (hcontext : optField config "context" agentContextSchema = some context) :
    Reopens ⟨id, "agent", 2, config⟩ (.agentV2 a context) := by
  have hread := contextRead hcontext
  have hwritten : nodeFromEditor (hydrateNode ⟨id, "agent", 2, config⟩) =
      ⟨id, "agent", 2, .obj [("agentId", .str a), ("context", contextJson (context.getD emptyContext))]⟩ := by
    show (⟨id, "agent", 2, .obj [("agentId", .str (textOf (config.get? "agentId"))),
      ("context", contextFromEditor (hydrateData ⟨id, "agent", 2, config⟩))]⟩ : WorkflowNode) = _
    rw [strField_eq ha, contextFromEditor_eq hread]
    rfl
  have hvalid : validate "agent" 2 (.obj [("agentId", .str a), ("context", contextJson (context.getD emptyContext))]) =
      .ok (.agentV2 a (some (context.getD emptyContext))) := by
    refine validate_of_schema rfl ?_
    show ((strField (.obj [("agentId", .str a), ("context", contextJson (context.getD emptyContext))]) "agentId"
      definitionId).bind fun agentId => (optField (.obj [("agentId", .str a),
        ("context", contextJson (context.getD emptyContext))]) "context" agentContextSchema).bind fun context =>
          some (BlockConfig.agentV2 agentId context)) = _
    rw [strField_of rfl (strField_some ha), optField_context rfl hread.ids]
    rfl
  rw [Reopens, hwritten]
  exact {
    alike := {
      id := rfl
      blockType := rfl
      blockVersion := rfl
      valid := fun _ => ⟨_, hvalid⟩
      publish := fun (ht : "agent" = _) => absurd ht (by decide)
      context := fun _ => context_alike hread (contextRead_some (agentContextSchema_json hread.ids))
      conversation := rfl }
    valid := hvalid }

theorem conversation_field (h : optField config "conversation" agentConversationSchema = some conversation) :
    ((config.get? "conversation").bind (·.get? "sourceNodeId")).bind Json.asStr? = conversation ∧
      ((config.get? "conversation").isSome = conversation.isSome) := by
  unfold optField at h
  cases hv : config.get? "conversation" with
  | none =>
    rw [hv] at h
    cases h
    exact ⟨rfl, rfl⟩
  | some j =>
    rw [hv] at h
    obtain ⟨s, hs, rfl⟩ := Option.map_eq_some_iff.mp h
    rw [agentConversationSchema, Option.ite_none_right_eq_some] at hs
    rw [Option.bind_some, strField_eq hs.2]
    exact ⟨rfl, rfl⟩

theorem ne_empty_of_definitionId {s : String} (h : definitionId s = true) : s ≠ "" := by
  rintro rfl
  exact absurd h (by decide +kernel)

theorem conversationFromEditor_eq (id : String)
    (h : optField config "conversation" agentConversationSchema = some conversation) :
    conversationFromEditor (hydrateData ⟨id, "agent", 3, config⟩) =
      (conversation.map fun s => ("conversation", Json.obj [("sourceNodeId", .str s)])).toList := by
  have hids := conversation_of_field h
  show (if truthy (some (.str ((((config.get? "conversation").bind (·.get? "sourceNodeId")).bind
    Json.asStr?).getD ""))) then [("conversation", Json.obj [("sourceNodeId", .str ((((config.get?
    "conversation").bind (·.get? "sourceNodeId")).bind Json.asStr?).getD ""))])] else []) = _
  rw [(conversation_field h).1]
  cases conversation with
  | none => rfl
  | some s =>
    have hs : s ≠ "" := ne_empty_of_definitionId hids
    rw [if_pos (by simpa [truthy] using hs)]
    rfl

theorem validate_agentV3 {a : String} {context : AgentContext} (ha : definitionId a = true)
    (hids : context.includeNodeOutputs.all definitionId = true ∧ context.includeNodeOutputs.length ≤ maxAgentContextSources)
    (hconversation : conversation.all definitionId = true) :
    validate "agent" 3 (.obj ([("agentId", .str a), ("context", contextJson context)] ++
      (conversation.map fun s => ("conversation", Json.obj [("sourceNodeId", .str s)])).toList)) =
      .ok (.agentV3 a (some context) conversation) := by
  refine validate_of_schema rfl ?_
  generalize hj : Json.obj ([("agentId", .str a), ("context", contextJson context)] ++
    (conversation.map fun s => ("conversation", Json.obj [("sourceNodeId", .str s)])).toList) = j
  have hkeys : j.strictKeys ["agentId", "context", "conversation"] = true := by
    rw [← hj]
    cases conversation <;> rfl
  have hagent : strField j "agentId" definitionId = some a := strField_of (by rw [← hj]; rfl) ha
  have hfield : optField j "context" agentContextSchema = some (some context) :=
    optField_context (by rw [← hj]; rfl) hids
  have hconv : optField j "conversation" agentConversationSchema = some conversation := by
    rw [← hj]
    cases conversation with
    | none => rfl
    | some s =>
      show (agentConversationSchema (.obj [("sourceNodeId", .str s)])).map some = _
      show (strField (.obj [("sourceNodeId", .str s)]) "sourceNodeId" definitionId).map some = _
      rw [strField_of rfl hconversation]
      rfl
  show agentBlockV3ConfigSchema j = _
  simp only [agentBlockV3ConfigSchema, hkeys, hagent, hfield, hconv, if_true, Option.bind_eq_bind, Option.bind_some]

theorem rewritten_agentV3 {a : String} {context : Option AgentContext} (ha : strField config "agentId" definitionId = some a)
    (hcontext : optField config "context" agentContextSchema = some context)
    (hconversation : optField config "conversation" agentConversationSchema = some conversation) :
    Reopens ⟨id, "agent", 3, config⟩ (.agentV3 a context conversation) := by
  have hread := contextRead hcontext
  have hsource := (conversation_field hconversation).1
  have hwritten : nodeFromEditor (hydrateNode ⟨id, "agent", 3, config⟩) =
      ⟨id, "agent", 3, .obj ([("agentId", .str a), ("context", contextJson (context.getD emptyContext))] ++
        (conversation.map fun s => ("conversation", Json.obj [("sourceNodeId", .str s)])).toList)⟩ := by
    show (⟨id, "agent", 3, .obj ([("agentId", .str (textOf (config.get? "agentId"))),
      ("context", contextFromEditor (hydrateData ⟨id, "agent", 3, config⟩))] ++
        conversationFromEditor (hydrateData ⟨id, "agent", 3, config⟩))⟩ : WorkflowNode) = _
    rw [strField_eq ha, contextFromEditor_eq hread, conversationFromEditor_eq id hconversation]
    rfl
  have hvalid := validate_agentV3 (strField_some ha) hread.ids (conversation_of_field hconversation)
  rw [Reopens, hwritten]
  exact {
    alike := {
      id := rfl
      blockType := rfl
      blockVersion := rfl
      valid := fun _ => ⟨_, hvalid⟩
      publish := fun (ht : "agent" = _) => absurd ht (by decide)
      context := fun _ => context_alike hread (contextRead_some (agentContextSchema_json hread.ids))
      conversation := by
        show _ = ((config.get? "conversation").bind (·.get? "sourceNodeId")).bind Json.asStr?
        rw [hsource]
        cases conversation <;> rfl }
    valid := hvalid }

theorem rewritten_condition {value : String} {caseSensitive : Bool}
    (hvalue : strField config "value" (fun s => 1 ≤ utf16Length s && utf16Length s ≤ 4096) = some value)
    (hcase : boolField config "caseSensitive" (some false) = some caseSensitive) :
    Reopens ⟨id, "condition", 1, config⟩ (.condition ⟨value, caseSensitive⟩) := by
  have hwritten : nodeFromEditor (hydrateNode ⟨id, "condition", 1, config⟩) = ⟨id, "condition", 1, .obj
      [("operator", .str "contains"), ("value", .str value), ("caseSensitive", .bool caseSensitive)]⟩ := by
    show (⟨id, "condition", 1, .obj [("operator", .str "contains"), ("value", .str (textOf (config.get? "value"))),
      ("caseSensitive", .bool (truthy (config.get? "caseSensitive")))]⟩ : WorkflowNode) = _
    rw [strField_eq hvalue, truthy_of_boolField (.inr rfl) hcase]
    rfl
  have hvalid : validate "condition" 1 (.obj [("operator", .str "contains"), ("value", .str value),
      ("caseSensitive", .bool caseSensitive)]) = .ok (.condition ⟨value, caseSensitive⟩) := by
    refine validate_of_schema rfl ?_
    generalize hj : Json.obj [("operator", .str "contains"), ("value", .str value),
      ("caseSensitive", .bool caseSensitive)] = j
    have hkeys : j.strictKeys ["operator", "value", "caseSensitive"] = true := by rw [← hj]; rfl
    have hoperator : strField j "operator" (· == "contains") = some "contains" := strField_of (by rw [← hj]; rfl) rfl
    have htext := strField_of (j := j) (k := "value") (by rw [← hj]; rfl) (strField_some hvalue)
    have hbool : boolField j "caseSensitive" (some false) = some caseSensitive := by rw [← hj]; rfl
    show conditionBlockConfigSchema j = _
    simp only [conditionBlockConfigSchema, hkeys, hoperator, htext, hbool, if_true, Option.bind_eq_bind,
      Option.bind_some]
  rw [Reopens, hwritten]
  exact rewritten_plain rfl rfl rfl rfl hvalid fun (ht : "condition" = _) => absurd ht (by decide)

theorem rewritten_approval {message : String}
    (hmessage : strField config "message" (trimmedText approvalMessageMaxLength) = some message) :
    Reopens ⟨id, "approval", 1, config⟩ (.approval (trim message)) := by
  have hwritten : nodeFromEditor (hydrateNode ⟨id, "approval", 1, config⟩) =
      ⟨id, "approval", 1, .obj [("message", .str message)]⟩ := by
    show (⟨id, "approval", 1, .obj [("message", .str (textOf (config.get? "message")))]⟩ : WorkflowNode) = _
    rw [strField_eq hmessage]
    rfl
  have hvalid : validate "approval" 1 (.obj [("message", .str message)]) = .ok (.approval (trim message)) := by
    refine validate_of_schema rfl ?_
    generalize hj : Json.obj [("message", .str message)] = j
    have hkeys : j.strictKeys ["message"] = true := by rw [← hj]; rfl
    have htext := strField_of (j := j) (k := "message") (by rw [← hj]; rfl) (strField_some hmessage)
    show approvalBlockConfigSchema j = _
    simp only [approvalBlockConfigSchema, hkeys, htext, if_true, Option.map_some]
  rw [Reopens, hwritten]
  exact rewritten_plain rfl rfl rfl rfl hvalid fun (ht : "approval" = _) => absurd ht (by decide)

theorem rewritten_publish
    {source title body : String} {draft : Bool} (hsource : strField config "sourceNodeId" definitionId = some source)
    (htitle : strField config "title" (trimmedText 256) = some title)
    (hbody : strField config "body" (fun s => utf16Length s ≤ 65536) = some body)
    (hdraft : boolField config "draft" none = some draft) :
    Reopens ⟨id, "publish-github-pr", 1, config⟩ (.publishGitHubPr ⟨source, trim title, body, draft⟩) := by
  have hwritten : nodeFromEditor (hydrateNode ⟨id, "publish-github-pr", 1, config⟩) =
      ⟨id, "publish-github-pr", 1, .obj [("sourceNodeId", .str source), ("title", .str title), ("body", .str body),
        ("draft", .bool draft)]⟩ := by
    show (⟨id, "publish-github-pr", 1, .obj [("sourceNodeId", .str (textOf (config.get? "sourceNodeId"))),
      ("title", .str (textOf (config.get? "title"))), ("body", .str (textOf (config.get? "body"))),
      ("draft", .bool (truthy (config.get? "draft")))]⟩ : WorkflowNode) = _
    rw [strField_eq hsource, strField_eq htitle, strField_eq hbody, truthy_of_boolField (.inl rfl) hdraft]
    rfl
  have hvalid : validate "publish-github-pr" 1 (.obj [("sourceNodeId", .str source), ("title", .str title),
      ("body", .str body), ("draft", .bool draft)]) = .ok (.publishGitHubPr ⟨source, trim title, body, draft⟩) := by
    refine validate_of_schema rfl ?_
    generalize hj : Json.obj [("sourceNodeId", .str source), ("title", .str title), ("body", .str body),
      ("draft", .bool draft)] = j
    have hkeys : j.strictKeys ["sourceNodeId", "title", "body", "draft"] = true := by rw [← hj]; rfl
    have hs := strField_of (j := j) (k := "sourceNodeId") (by rw [← hj]; rfl) (strField_some hsource)
    have ht := strField_of (j := j) (k := "title") (by rw [← hj]; rfl) (strField_some htitle)
    have hb := strField_of (j := j) (k := "body") (by rw [← hj]; rfl) (strField_some hbody)
    have hd : boolField j "draft" none = some draft := by rw [← hj]; rfl
    show publishGitHubPrBlockConfigSchema j = _
    simp only [publishGitHubPrBlockConfigSchema, hkeys, hs, ht, hb, hd, if_true, Option.bind_eq_bind, Option.bind_some]
  rw [Reopens, hwritten]
  exact rewritten_plain rfl rfl rfl rfl hvalid fun _ => by
    show some source = (config.get? "sourceNodeId").bind Json.asStr?
    rw [strField_eq hsource]
    rfl

theorem rewritten_subworkflow {workflowId : String} (hworkflow : strField config "workflowId" definitionId = some workflowId) :
    Reopens ⟨id, "subworkflow", 1, config⟩ (.subworkflow workflowId) := by
  have hwritten : nodeFromEditor (hydrateNode ⟨id, "subworkflow", 1, config⟩) =
      ⟨id, "subworkflow", 1, .obj [("workflowId", .str workflowId)]⟩ := by
    show (⟨id, "subworkflow", 1, .obj [("workflowId", .str (textOf (config.get? "workflowId")))]⟩ : WorkflowNode) = _
    rw [strField_eq hworkflow]
    rfl
  have hvalid : validate "subworkflow" 1 (.obj [("workflowId", .str workflowId)]) = .ok (.subworkflow workflowId) := by
    refine validate_of_schema rfl ?_
    show (strField (.obj [("workflowId", .str workflowId)]) "workflowId" definitionId).map BlockConfig.subworkflow = _
    rw [strField_of rfl (strField_some hworkflow)]
    rfl
  rw [Reopens, hwritten]
  exact rewritten_plain rfl rfl rfl rfl hvalid fun (ht : "subworkflow" = _) => absurd ht (by decide)

theorem rewritten_join : Reopens ⟨id, "join", 1, config⟩ .join :=
  rewritten_plain rfl rfl rfl rfl rfl fun (ht : "join" = _) => absurd ht (by decide)

/-- **Every node** of an accepted definition is rewritten. -/
theorem rewritten {n : WorkflowNode} (h : validate n.blockType n.blockVersion n.config = .ok c) :
    Reopens n c := by
  obtain ⟨id, type, version, config⟩ := n
  cases configRead h with
  | agentV1 ha => exact rewritten_agentV1 ha
  | agentV2 ha hcontext => exact rewritten_agentV2 ha hcontext
  | agentV3 ha hcontext hconversation => exact rewritten_agentV3 ha hcontext hconversation
  | condition hvalue hcase => exact rewritten_condition hvalue hcase
  | approval hmessage => exact rewritten_approval hmessage
  | publish hsource htitle hbody hdraft => exact rewritten_publish hsource htitle hbody hdraft
  | subworkflow hworkflow => exact rewritten_subworkflow hworkflow
  | join => exact rewritten_join

/-! ### What the editor writes of a definition -/

section Definition

variable {w v : WorkflowDefinitionV2} {agents : List String}
variable {n : WorkflowNode} {port : Option String}

theorem nodeNamed_eq (hw : w.Facts) {id : String} (h : w.byId id = some n) : nodeNamed w id = .ok n := by
  obtain ⟨hn, rfl⟩ := byId_some h
  unfold nodeNamed
  cases hf : w.nodes.find? (·.id == n.id) with
  | none => exact absurd (List.find?_eq_none.mp hf n hn) (by simp)
  | some m =>
    have hm : m.id = n.id := by simpa using List.find?_some hf
    rw [List.inj_on_of_nodup_map hw.ids_nodup (List.mem_of_find?_eq_some hf) hn hm]

theorem hydrateEdge_eq (hw : w.Facts) {e : WorkflowEdge} {r : ResolvedEdge} (h : w.resolveEdge e = .ok r) :
    hydrateEdge w e = .ok ⟨e.id, e.source, some r.sourcePort, e.target, some r.targetPort⟩ := by
  obtain ⟨hsource, htarget, s, t, hs, ht, hout, hin⟩ := resolveEdge_ok h
  rw [hsource] at hs
  rw [htarget] at ht
  rw [hydrateEdge, nodeNamed_eq hw hs, nodeNamed_eq hw ht]
  show (outputPort s.blockType s.blockVersion e.sourcePort >>= fun sourceHandle =>
    inputPort t.blockType t.blockVersion e.targetPort >>= fun targetHandle =>
      Except.ok (EditorEdge.mk e.id e.source (some sourceHandle) e.target (some targetHandle))) = _
  rw [hout, hin]
  rfl

theorem portIn_self {ports : List BlockPort} {kind p : String}
    (h : portIn ports kind port = .ok p) : portIn ports kind (some p) = .ok p := by
  have hmem := portIn_mem h
  have hany : ports.any (·.id == p) = true := by
    rw [List.any_eq_true]
    obtain ⟨q, hq, hid⟩ := List.mem_map.mp hmem
    exact ⟨q, hq, beq_iff_eq.mpr hid⟩
  show (if ports.any (·.id == p) then Except.ok p else _) = _
  rw [if_pos hany]

theorem outputPort_self {type p : String} {version : ℕ}
    (h : outputPort type version port = .ok p) : outputPort type version (some p) = .ok p := by
  obtain ⟨b, hb, hp⟩ := except_bind_ok.mp h
  exact except_bind_ok.mpr ⟨b, hb, portIn_self hp⟩

theorem inputPort_self {type p : String} {version : ℕ}
    (h : inputPort type version port = .ok p) : inputPort type version (some p) = .ok p := by
  obtain ⟨b, hb, hp⟩ := except_bind_ok.mp h
  exact except_bind_ok.mpr ⟨b, hb, portIn_self hp⟩

theorem resolveEdge_written (hnodes : List.Forall₂ NodeAlike w.nodes v.nodes) {e : WorkflowEdge} {r : ResolvedEdge}
    (h : w.resolveEdge e = .ok r) :
    v.resolveEdge ⟨e.id, e.source, some r.sourcePort, e.target, some r.targetPort⟩ = .ok r := by
  obtain ⟨hsource, htarget, s, t, hs, ht, hout, hin⟩ := resolveEdge_ok h
  rw [hsource] at hs
  rw [htarget] at ht
  obtain ⟨s', hs', hsalike⟩ : ∃ s', v.byId e.source = some s' ∧ NodeAlike s s' := by
    have hrel := rel_byId hnodes e.source
    rw [hs] at hrel
    generalize hv : v.byId e.source = x at hrel
    cases hrel with
    | some hss => exact ⟨_, rfl, hss⟩
  obtain ⟨t', ht', htalike⟩ : ∃ t', v.byId e.target = some t' ∧ NodeAlike t t' := by
    have hrel := rel_byId hnodes e.target
    rw [ht] at hrel
    generalize hv : v.byId e.target = x at hrel
    cases hrel with
    | some htt => exact ⟨_, rfl, htt⟩
  unfold resolveEdge
  dsimp only
  rw [hs', ht']
  dsimp only
  rw [hsalike.blockType, hsalike.blockVersion, htalike.blockType, htalike.blockVersion, outputPort_self hout,
    inputPort_self hin]
  obtain ⟨source, sourcePort, target, targetPort⟩ := r
  obtain rfl : source = e.source := hsource
  obtain rfl : target = e.target := htarget
  rfl

/-- The edge the editor writes for an edge that resolves. -/
def Written (w : WorkflowDefinitionV2) (e d : WorkflowEdge) : Prop :=
  ∃ r, w.resolveEdge e = .ok r ∧ d = ⟨e.id, e.source, some r.sourcePort, e.target, some r.targetPort⟩

/-- What an accepted definition becomes. -/
structure Reopened (w v : WorkflowDefinitionV2) : Prop where
  id : v.id = w.id
  name : v.name = w.name
  description : v.description = w.description
  runInputTemplate : v.runInputTemplate.getD "" = w.runInputTemplate.getD ""
  nodes : v.nodes = w.nodes.map fun n => nodeFromEditor (hydrateNode n)
  edges : List.Forall₂ (Written w) w.edges v.edges
  limit : v.maxStepExecutions = w.maxStepExecutions

theorem exists_reopened (hw : w.Facts) : ∃ v, reopened w = .ok v ∧ Reopened w v := by
  obtain ⟨ds, hds⟩ := mapM_of_forall (f := hydrateEdge w) fun e he => (hw.resolves e he).imp' _
    fun r hr => hydrateEdge_eq hw hr
  have hforall := mapM_ok hds
  refine ⟨workflowDefinitionFromEditor ⟨w.nodes.map hydrateNode, ds, w.id, w.name, w.description,
    w.runInputTemplate.getD "", w.exposableAsBlock.getD false, some w.maxStepExecutions⟩, ?_, ?_⟩
  · rw [reopened, hydrateWorkflowEditor, hds]
    rfl
  · refine ⟨rfl, rfl, rfl, ?_, by rw [workflowDefinitionFromEditor, List.map_map]; rfl, ?_, rfl⟩
    · show (if w.runInputTemplate.getD "" == "" then none else some (w.runInputTemplate.getD "")).getD "" = _
      by_cases hempty : w.runInputTemplate.getD "" = ""
      · rw [if_pos (beq_iff_eq.mpr hempty), hempty]
        rfl
      · rw [if_neg (by simpa using hempty)]
        rfl
    · show List.Forall₂ (Written w) w.edges (ds.map edgeFromEditor)
      rw [List.forall₂_map_right_iff]
      refine (List.forall₂_iff_zip.mpr ⟨hforall.length_eq, fun {e d} hed => ?_⟩)
      have hd := (List.forall₂_iff_zip.mp hforall).2 hed
      obtain ⟨r, hr⟩ := hw.resolves e (List.of_mem_zip hed).1
      rw [hydrateEdge_eq hw hr] at hd
      exact ⟨r, hr, by rw [← Except.ok.inj hd]; rfl⟩

namespace Reopened

theorem rewrites (h : Reopened w v) (hw : w.Facts) :
    List.Forall₂ (fun n m => ∃ c, validate n.blockType n.blockVersion n.config = .ok c ∧ Rewritten n m c)
      w.nodes v.nodes := by
  rw [h.nodes, List.forall₂_map_right_iff, List.forall₂_same]
  intro n hn
  obtain ⟨c, hc⟩ := hw.valid n hn
  exact ⟨c, hc, rewritten hc⟩

theorem alike (h : Reopened w v) (hw : w.Facts) : Alike w v := by
  have hnodes : List.Forall₂ NodeAlike w.nodes v.nodes :=
    (h.rewrites hw).imp fun _ _ ⟨_, _, hr⟩ => hr.alike
  refine ⟨hnodes, h.edges.imp fun e d hd => ?_⟩
  obtain ⟨r, hr, rfl⟩ := hd
  exact ⟨rfl, rfl, rfl, (resolveEdge_written hnodes hr).trans hr.symm⟩

theorem fieldIssues (h : Reopened w v) (hw : w.Accepted) : v.fieldIssues = [] := by
  have hfacts := hw.facts
  have hi := hw.2
  have hports := fun e he r hr => resolved_definitionIds (e := e) (r := r) hw he hr
  have hlength : v.nodes.length = w.nodes.length := by rw [h.nodes, List.length_map]
  have hcount : v.edges.length = w.edges.length := h.edges.length_eq.symm
  have hempty : v.nodes.isEmpty = w.nodes.isEmpty := by rw [h.nodes, List.isEmpty_map]
  simp only [issues, WorkflowDefinitionV2.fieldIssues, List.append_eq_nil_iff, issueIf_eq_nil,
    List.flatMap_eq_nil_iff] at hi
  obtain ⟨⟨⟨⟨⟨⟨⟨⟨⟨⟨⟨hid, hname⟩, hdescription⟩, htemplate⟩, hnodeCount⟩, hnodes⟩, hedgeCount⟩, hedges⟩, hlimit⟩,
    -⟩, -⟩, -⟩ := hi
  simp only [WorkflowDefinitionV2.fieldIssues, List.append_eq_nil_iff, issueIf_eq_nil, List.flatMap_eq_nil_iff]
  refine ⟨⟨⟨⟨⟨⟨⟨⟨by rw [h.id]; exact hid, by rw [h.name]; exact hname⟩, by rw [h.description]; exact hdescription⟩,
    ?_⟩, by rw [hempty, hlength]; exact hnodeCount⟩, fun p hp => ?_⟩, by rw [hcount]; exact hedgeCount⟩,
    fun p hp => ?_⟩, by rw [h.limit]; exact hlimit⟩
  · have htext := h.runInputTemplate
    cases hv : v.runInputTemplate with
    | none => rfl
    | some t =>
      rw [hv, Option.getD_some] at htext
      cases hwt : w.runInputTemplate with
      | none =>
        rw [hwt] at htext
        rw [htext]
        rfl
      | some t' =>
        rw [hwt] at htext htemplate
        rw [htext]
        exact htemplate
  · obtain ⟨m, i⟩ := p
    have hm : v.nodes[i]? = some m := List.mk_mem_zipIdx_iff_getElem?.mp hp
    rw [h.nodes, List.getElem?_map, Option.map_eq_some_iff] at hm
    obtain ⟨n, hn, rfl⟩ := hm
    obtain ⟨c, hc⟩ := hfacts.valid n (List.mem_of_getElem? hn)
    have halike := (rewritten hc).alike
    have hissues := hnodes (n, i) (List.mk_mem_zipIdx_iff_getElem?.mpr hn)
    simp only [nodeFieldIssues, halike.id, halike.blockType, halike.blockVersion] at hissues ⊢
    exact hissues
  · obtain ⟨d, i⟩ := p
    have hd : d ∈ v.edges := List.mem_of_getElem? (List.mk_mem_zipIdx_iff_getElem?.mp hp)
    obtain ⟨e, he, r, hr, rfl⟩ := exists_of_forall₂_right h.edges hd
    have hread := hports e he r hr
    obtain ⟨j, hj⟩ := List.getElem?_of_mem he
    have hissues := hedges (e, j) (List.mk_mem_zipIdx_iff_getElem?.mpr hj)
    simp only [Bool.and_eq_true] at hread
    simp only [edgeFieldIssues, List.append_eq_nil_iff, issueIf_eq_nil, Bool.not_eq_false', Option.all_some]
      at hissues ⊢
    exact ⟨⟨⟨⟨hissues.1.1.1.1, hissues.1.1.1.2⟩, hread.1.1.2⟩, hissues.1.2⟩, hread.2⟩

theorem accepted (h : Reopened w v) (hw : w.Accepted) : v.Accepted := by
  have hfacts := hw.facts
  have halike := h.alike hfacts
  have hi := hw.2
  simp only [issues, List.append_eq_nil_iff] at hi
  obtain ⟨⟨⟨-, hblocks⟩, hedgeIds⟩, htopology⟩ := hi
  constructor
  · obtain ⟨hname, htypes⟩ := w.normalise_eq_iff.mp hw.1
    refine v.normalise_eq_iff.mpr ⟨by rw [h.name]; exact hname, fun m hm => ?_⟩
    obtain ⟨n, hn, hnm⟩ := exists_of_forall₂_right halike.nodes hm
    rw [hnm.blockType]
    exact htypes n hn
  · rw [issues, h.fieldIssues hw, Alike.blockIssues halike.nodes hblocks,
      Alike.edgeIdIssues (halike.edges.imp fun _ _ hd => hd.1), hedgeIds, halike.validateGraphTopology, htopology]
    rfl

end Reopened

/-! ### The plan -/

/-- An agent that continues a conversation and has no context of its own. -/
def bareConversation (n : WorkflowNode) : Bool :=
  n.blockType == "agent" && n.blockVersion == 3 && (n.config.get? "conversation").isSome &&
    (n.config.get? "context").isNone

theorem planConfig_withContext (c : BlockConfig) :
    planConfig (withContext c) = planConfig c ↔ ∀ a s, c ≠ .agentV3 a none (some s) := by
  have hagent : ∀ a context, agentConfig a (some (Option.getD context emptyContext)) = agentConfig a context := by
    intro a context
    cases context with
    | none => rfl
    | some c => rfl
  cases c with
  | agentV2 a context => exact ⟨fun _ a' s h => (by cases h), fun _ => hagent a context⟩
  | agentV3 a context conversation =>
    cases conversation with
    | none => exact ⟨fun _ a' s h => (by cases h), fun _ => hagent a context⟩
    | some s =>
      cases context with
      | none => exact ⟨fun h => (by cases h), fun h => absurd rfl (h a s)⟩
      | some c => exact ⟨fun _ a' s' h => (by cases h), fun _ => rfl⟩
  | _ => exact ⟨fun _ a' s h => (by cases h), fun _ => rfl⟩

theorem bareConversation_iff {c : BlockConfig} (h : validate n.blockType n.blockVersion n.config = .ok c) :
    bareConversation n = true ↔ ∃ a s, c = .agentV3 a none (some s) := by
  obtain ⟨id, type, version, config⟩ := n
  cases configRead h with
  | @agentV3 a context conversation _ hcontext hconversation =>
    have hsome := (conversation_field hconversation).2
    have hnone : (config.get? "context").isNone = context.isNone := by
      unfold optField at hcontext
      cases hv : config.get? "context" with
      | none =>
        rw [hv] at hcontext
        rw [← Option.some.inj hcontext]
        rfl
      | some j =>
        rw [hv] at hcontext
        obtain ⟨_, -, rfl⟩ := Option.map_eq_some_iff.mp hcontext
        rfl
    simp only [bareConversation, hsome, hnone]
    cases context <;> cases conversation <;> simp
  | _ => simp [bareConversation]

theorem planNode_rewritten {m : WorkflowNode} {c : BlockConfig}
    (hc : validate n.blockType n.blockVersion n.config = .ok c) (h : Rewritten n m c) :
    planNode m = planNode n ↔ bareConversation n = false := by
  have hn : planNode n = .ok ⟨n.id, planConfig c⟩ := by
    rw [planNode, hc]
    rfl
  have hm : planNode m = .ok ⟨n.id, planConfig (withContext c)⟩ := by
    rw [planNode, h.valid, ← h.alike.id]
    rfl
  rw [hn, hm, Except.ok.injEq, PlanNode.mk.injEq, and_iff_right rfl, planConfig_withContext,
    ← Bool.not_eq_true, bareConversation_iff hc]
  push Not
  exact Iff.rfl

theorem no_subworkflow {p : ExecutionPlan} (hw : w.Accepted) (hp : compileWorkflowV2ExecutionPlan w agents = .ok p) :
    ∀ n ∈ w.nodes, n.blockType ≠ "subworkflow" := by
  intro n hn htype
  obtain ⟨hnodes, -, -, -, -, hschema⟩ := compile_ok hw hp
  obtain ⟨k, hk, hnk⟩ := exists_of_forall₂_left hnodes hn
  have hblock : k.blockType = n.blockType := congrArg Prod.snd (planNode_ok hnk)
  simp only [planSchema, Bool.and_eq_true, List.all_eq_true] at hschema
  have hconfig := (hschema.1.1.1.1.1.1.2 k hk).2
  rw [htype] at hblock
  obtain ⟨id, config⟩ := k
  cases config with
  | subworkflow id => cases hconfig
  | _ => simp [PlanNode.blockType, BlockConfig.blockType] at hblock

theorem referencedAgents_reopened (h : Reopened w v) (hw : w.Facts) : referencedAgents v = referencedAgents w := by
  refine flatMap_of_rel (fun n m hnm => ?_) (h.rewrites hw)
  obtain ⟨c, hc, hr⟩ := hnm
  rw [references, references, hc, hr.valid]
  exact agentIds_withContext c

/-- What is opened and saved compiles to the same plan. -/
theorem compile_reopened {p : ExecutionPlan} (h : Reopened w v) (hw : w.Accepted)
    (hbare : ∀ n ∈ w.nodes, bareConversation n = false) (hagents : referencedAgents w ⊆ agents)
    (hp : compileWorkflowV2ExecutionPlan w agents = .ok p) : compileWorkflowV2ExecutionPlan v agents = .ok p := by
  have hfacts := hw.facts
  have hv := h.accepted hw
  have halike := h.alike hfacts
  have hsub : ∀ m ∈ v.nodes, m.blockType ≠ "subworkflow" := by
    intro m hm
    obtain ⟨n, hn, hnm⟩ := exists_of_forall₂_right halike.nodes hm
    rw [hnm.blockType]
    exact no_subworkflow hw hp n hn
  obtain ⟨q, hq⟩ := compile_exists hv hsub (referencedAgents_reopened h hfacts ▸ hagents)
  have hpw := planOf_compile hw hp
  have hqv := planOf_compile hv hq
  have hnodes : q.nodes = p.nodes := by
    have hmap : v.nodes.map planNode = w.nodes.map planNode := by
      rw [h.nodes, List.map_map]
      refine List.map_congr_left fun n hn => ?_
      obtain ⟨c, hc⟩ := hfacts.valid n hn
      exact (planNode_rewritten hc (rewritten hc)).mpr (hbare n hn)
    have hwp : w.nodes.map planNode = p.nodes.map .ok := by
      rw [← List.forall₂_eq_eq_eq, List.forall₂_map_left_iff, List.forall₂_map_right_iff]
      exact (compile_ok hw hp).1
    have hvq : v.nodes.map planNode = q.nodes.map .ok := by
      rw [← List.forall₂_eq_eq_eq, List.forall₂_map_left_iff, List.forall₂_map_right_iff]
      exact (compile_ok hv hq).1
    exact List.map_injective_iff.mpr (fun _ _ => Except.ok.inj) (hvq.symm.trans (hmap.trans hwp))
  have hedges : q.edges = p.edges := by rw [hqv.edges, hpw.edges, halike.resolvedEdges]
  have hentry : [q.entryNodeId] = [p.entryNodeId] := by rw [← hqv.entry, ← hpw.entry, halike.entries]
  have hterminal : [q.terminalNodeId] = [p.terminalNodeId] := by rw [← hqv.terminal, ← hpw.terminal, halike.terminals]
  have hlimit : q.maxStepExecutions = p.maxStepExecutions := by rw [hqv.limit, hpw.limit, h.limit]
  rw [hq]
  obtain ⟨nodes, edges, entry, terminal, limit⟩ := q
  obtain ⟨nodes', edges', entry', terminal', limit'⟩ := p
  dsimp only at hnodes hedges hentry hterminal hlimit
  rw [hnodes, hedges, hlimit, (List.cons.inj hentry).1, (List.cons.inj hterminal).1]

theorem compile_ne {p : ExecutionPlan} (h : Reopened w v) (hw : w.Accepted) (hn : n ∈ w.nodes)
    (hbare : bareConversation n = true) (hp : compileWorkflowV2ExecutionPlan w agents = .ok p) :
    compileWorkflowV2ExecutionPlan v agents ≠ .ok p := by
  intro hq
  obtain ⟨c, hc⟩ := hw.facts.valid n hn
  have hwp : w.nodes.map planNode = p.nodes.map .ok := by
    rw [← List.forall₂_eq_eq_eq, List.forall₂_map_left_iff, List.forall₂_map_right_iff]
    exact (compile_ok hw hp).1
  have hvp : v.nodes.map planNode = p.nodes.map .ok := by
    rw [← List.forall₂_eq_eq_eq, List.forall₂_map_left_iff, List.forall₂_map_right_iff]
    exact (compile_ok (h.accepted hw) hq).1
  rw [h.nodes, List.map_map, ← hwp] at hvp
  have hsame : planNode (nodeFromEditor (hydrateNode n)) = planNode n := List.map_inj_left.mp hvp n hn
  rw [(planNode_rewritten hc (rewritten hc)).mp hsame] at hbare
  cases hbare

end Definition

/-- **A definition that is opened and saved** is accepted, and compiles to the same plan, exactly when no agent
continues a conversation without a context of its own, or it has no plan for the workflows it invokes. -/
theorem reopened_same_plan_iff {w : WorkflowDefinitionV2} (hw : w.Accepted) :
    (∃ v, reopened w = .ok v ∧ v.Accepted ∧ ∀ agents p, referencedAgents w ⊆ agents →
      compileWorkflowV2ExecutionPlan w agents = .ok p → compileWorkflowV2ExecutionPlan v agents = .ok p) ↔
    (∀ n ∈ w.nodes, bareConversation n = false) ∨ ∃ n ∈ w.nodes, n.blockType = "subworkflow" := by
  obtain ⟨v, hv, hrewritten⟩ := exists_reopened hw.facts
  constructor
  · rintro ⟨v', hv', -, hplan⟩
    obtain rfl : v = v' := Except.ok.inj (hv.symm.trans hv')
    by_cases hsub : ∃ n ∈ w.nodes, n.blockType = "subworkflow"
    · exact .inr hsub
    refine .inl fun n hn => ?_
    by_contra hbare
    obtain ⟨p, hp⟩ := compile_exists hw (fun m hm htype => hsub ⟨m, hm, htype⟩) (List.Subset.refl _)
    exact compile_ne hrewritten hw hn (by simpa using hbare) hp (hplan _ p (List.Subset.refl _) hp)
  · intro hcondition
    refine ⟨v, hv, hrewritten.accepted hw, fun agents p hagents hp => ?_⟩
    rcases hcondition with hbare | ⟨n, hn, htype⟩
    · exact compile_reopened hrewritten hw hbare hagents hp
    · exact absurd htype (no_subworkflow hw hp n hn)

/-- An agent that goes on with the conversation of the one before it. -/
def talk : WorkflowDefinitionV2 := sample 2
  [agentNode "a", ⟨"b", "agent", 3, .obj [("agentId", .str "a"), ("conversation", .obj [("sourceNodeId", .str "a")])]⟩]
  [edge "a" "b"]

/-- The same with a context of its own. -/
def talkInContext : WorkflowDefinitionV2 := sample 2
  [agentNode "a", ⟨"b", "agent", 3, .obj [("agentId", .str "a"), ("context", .obj [("includeRunInput", .bool true)]),
    ("conversation", .obj [("sourceNodeId", .str "a")])]⟩] [edge "a" "b"]

theorem reopened_same_plan_talk : ∃ v, reopened talkInContext = .ok v ∧ v.Accepted ∧ ∀ agents p,
    referencedAgents talkInContext ⊆ agents → compileWorkflowV2ExecutionPlan talkInContext agents = .ok p →
      compileWorkflowV2ExecutionPlan v agents = .ok p :=
  (reopened_same_plan_iff (by decide +kernel)).mpr (.inl (by decide +kernel))

/-- The conversation gets a context when it is opened and saved, and its plan another configuration. -/
theorem talk_changed : talk.Accepted ∧ referencedAgents talk ⊆ ["a"] ∧
    ∃ v, reopened talk = .ok v ∧ v.Accepted ∧
      (compileWorkflowV2ExecutionPlan talk ["a"]).isOk = true ∧
        compileWorkflowV2ExecutionPlan v ["a"] ≠ compileWorkflowV2ExecutionPlan talk ["a"] := by
  have haccepted : talk.Accepted := by decide +kernel
  obtain ⟨v, hv, hrewritten⟩ := exists_reopened haccepted.facts
  have hagents : referencedAgents talk ⊆ ["a"] := by decide +kernel
  obtain ⟨p, hp⟩ := compile_exists haccepted (by decide) hagents
  refine ⟨haccepted, hagents, v, hv, hrewritten.accepted haccepted, by rw [hp]; rfl, ?_⟩
  rw [hp]
  exact compile_ne hrewritten haccepted (List.mem_cons_of_mem _ (List.mem_cons_self ..)) (by decide +kernel) hp

end ADT.Editor
