import ADT.Lib.Basics
import ADT.Lib.Json

/-!
# Workflow.Registry — the registered blocks

The block registry of `lib/workflow-block-registry.ts`: for every block type and version its ports, its
configuration schema and the references its configuration makes.
-/

namespace ADT.Workflow

/-- `/^[a-z0-9]+(?:-[a-z0-9]+)*$/` over the remaining characters; `last` tells whether the character
before them was a letter or a digit. -/
def matchDefinitionId : Bool → List Char → Bool
  | last, [] => last
  | last, c :: cs =>
    if ('a' ≤ c && c ≤ 'z') || ('0' ≤ c && c ≤ '9') then matchDefinitionId true cs
    else c == '-' && last && matchDefinitionId false cs

/-- `z.string().regex(DEFINITION_ID).max(80)`. -/
def definitionId (s : String) : Bool := matchDefinitionId false s.toList && utf16Length s ≤ 80

def maxAgentContextSources : ℕ := 16
def approvalMessageMaxLength : ℕ := 2000

/-! ### Configurations -/

structure AgentContext where
  publishOutput : Bool
  includeRunInput : Bool
  includeNodeOutputs : List String
  deriving DecidableEq

structure ConditionConfig where
  value : String
  caseSensitive : Bool
  deriving DecidableEq

structure PublishGitHubPrConfig where
  sourceNodeId : String
  title : String
  body : String
  draft : Bool
  deriving DecidableEq

/-- A configuration that passed its block's schema. -/
inductive BlockConfig where
  | agentV1 (agentId : String)
  | agentV2 (agentId : String) (context : Option AgentContext)
  | agentV3 (agentId : String) (context : Option AgentContext) (conversation : Option String)
  | condition (config : ConditionConfig)
  | approval (message : String)
  | publishGitHubPr (config : PublishGitHubPrConfig)
  | subworkflow (workflowId : String)
  | join
  deriving DecidableEq

/-- A string property that `check` accepts. -/
def strField (j : Json) (k : String) (check : String → Bool) : Option String :=
  ((j.get? k).bind Json.asStr?).filter check

/-- A boolean property; `fallback` is the default for an absent one. -/
def boolField (j : Json) (k : String) (fallback : Option Bool) : Option Bool :=
  match j.get? k with
  | none => fallback
  | some v => v.asBool?

/-- An optional property: absent, or accepted by `parse`. -/
def optField {α : Type} (j : Json) (k : String) (parse : Json → Option α) : Option (Option α) :=
  match j.get? k with
  | none => some none
  | some v => (parse v).map some

def agentContextSchema (j : Json) : Option AgentContext :=
  if j.strictKeys ["publishOutput", "includeRunInput", "includeNodeOutputs"] then do
    let publishOutput ← boolField j "publishOutput" (some false)
    let includeRunInput ← boolField j "includeRunInput" (some false)
    let includeNodeOutputs ← match j.get? "includeNodeOutputs" with
      | none => some []
      | some v => v.asStrs?
    if includeNodeOutputs.all definitionId && includeNodeOutputs.length ≤ maxAgentContextSources then
      some ⟨publishOutput, includeRunInput, includeNodeOutputs⟩
    else none
  else none

def agentConversationSchema (j : Json) : Option String :=
  if j.strictKeys ["sourceNodeId"] then strField j "sourceNodeId" definitionId else none

/-- A trimmed text of at most `max` units that is not empty. -/
def trimmedText (max : ℕ) (s : String) : Bool := 1 ≤ utf16Length (trim s) && utf16Length (trim s) ≤ max

def agentBlockConfigSchema (j : Json) : Option BlockConfig :=
  if j.strictKeys ["agentId"] then (strField j "agentId" definitionId).map .agentV1 else none

def agentBlockV2ConfigSchema (j : Json) : Option BlockConfig :=
  if j.strictKeys ["agentId", "context"] then do
    let agentId ← strField j "agentId" definitionId
    let context ← optField j "context" agentContextSchema
    some (.agentV2 agentId context)
  else none

def agentBlockV3ConfigSchema (j : Json) : Option BlockConfig :=
  if j.strictKeys ["agentId", "context", "conversation"] then do
    let agentId ← strField j "agentId" definitionId
    let context ← optField j "context" agentContextSchema
    let conversation ← optField j "conversation" agentConversationSchema
    some (.agentV3 agentId context conversation)
  else none

def conditionBlockConfigSchema (j : Json) : Option BlockConfig :=
  if j.strictKeys ["operator", "value", "caseSensitive"] then do
    let _ ← strField j "operator" (· == "contains")
    let value ← strField j "value" fun s => 1 ≤ utf16Length s && utf16Length s ≤ 4096
    let caseSensitive ← boolField j "caseSensitive" (some false)
    some (.condition ⟨value, caseSensitive⟩)
  else none

def joinBlockConfigSchema (j : Json) : Option BlockConfig :=
  if j.strictKeys [] then some .join else none

def approvalBlockConfigSchema (j : Json) : Option BlockConfig :=
  if j.strictKeys ["message"] then
    (strField j "message" (trimmedText approvalMessageMaxLength)).map fun s => .approval (trim s)
  else none

def subworkflowBlockConfigSchema (j : Json) : Option BlockConfig :=
  if j.strictKeys ["workflowId"] then (strField j "workflowId" definitionId).map .subworkflow else none

def publishGitHubPrBlockConfigSchema (j : Json) : Option BlockConfig :=
  if j.strictKeys ["sourceNodeId", "title", "body", "draft"] then do
    let sourceNodeId ← strField j "sourceNodeId" definitionId
    let title ← strField j "title" (trimmedText 256)
    let body ← strField j "body" fun s => utf16Length s ≤ 65536
    let draft ← boolField j "draft" none
    some (.publishGitHubPr ⟨sourceNodeId, trim title, body, draft⟩)
  else none

/-! ### Registered blocks -/

structure BlockPort where
  id : String
  isDefault : Bool

structure RegisteredBlock where
  type : String
  version : ℕ
  configSchema : Json → Option BlockConfig
  inputs : List BlockPort
  outputs : List BlockPort
  label : String

def blocks : List RegisteredBlock := [
  ⟨"agent", 1, agentBlockConfigSchema, [⟨"in", true⟩], [⟨"out", true⟩], "Agent"⟩,
  ⟨"agent", 2, agentBlockV2ConfigSchema, [⟨"in", true⟩], [⟨"out", true⟩], "Agent"⟩,
  ⟨"agent", 3, agentBlockV3ConfigSchema, [⟨"in", true⟩], [⟨"out", true⟩], "Agent"⟩,
  ⟨"condition", 1, conditionBlockConfigSchema, [⟨"in", true⟩], [⟨"true", true⟩, ⟨"false", false⟩], "Condition"⟩,
  ⟨"approval", 1, approvalBlockConfigSchema, [⟨"in", true⟩], [⟨"out", true⟩], "Approval"⟩,
  ⟨"publish-github-pr", 1, publishGitHubPrBlockConfigSchema, [⟨"managed-result", true⟩],
    [⟨"pull-request", true⟩], "Publish GitHub PR"⟩,
  ⟨"subworkflow", 1, subworkflowBlockConfigSchema, [⟨"in", true⟩], [⟨"out", true⟩], "Reusable workflow"⟩,
  ⟨"join", 1, joinBlockConfigSchema, [⟨"in", true⟩], [⟨"out", true⟩], "Join"⟩]

def hasType (type : String) : Bool := blocks.any (·.type == type)

def resolve (type : String) (version : ℕ) : Except String RegisteredBlock :=
  match blocks.find? (fun b => b.type == type && b.version == version) with
  | some b => .ok b
  | none => .error (if hasType type then "unsupported_block_version:" ++ type ++ "@" ++ toString version
      else "unknown_block_type:" ++ type)

/-- The configuration as the block's schema reads it.  The text of a schema error is the schema
library's own; only that it is an error is kept. -/
def validate (type : String) (version : ℕ) (config : Json) : Except String BlockConfig := do
  let block ← resolve type version
  match block.configSchema config with
  | some c => .ok c
  | none => .error "Invalid block configuration."

/-- The agents a configuration refers to. -/
def BlockConfig.agentIds : BlockConfig → List String
  | .agentV1 a => [a]
  | .agentV2 a _ => [a]
  | .agentV3 a _ _ => [a]
  | _ => []

/-- The workflows a configuration refers to. -/
def BlockConfig.workflowIds : BlockConfig → List String
  | .subworkflow w => [w]
  | _ => []

def references (type : String) (version : ℕ) (config : Json) : Except String BlockConfig :=
  validate type version config

/-- Resolve a port name, or the default port, among `ports`. -/
def portIn (ports : List BlockPort) (kind : String) (port : Option String) : Except String String :=
  match port.or ((ports.find? (·.isDefault)).map (·.id)) with
  | some p => if ports.any (·.id == p) then .ok p
      else .error ("unknown_" ++ kind ++ "_port:" ++ port.getD "default")
  | none => .error ("unknown_" ++ kind ++ "_port:" ++ port.getD "default")

def outputPort (type : String) (version : ℕ) (port : Option String) : Except String String := do
  portIn (← resolve type version).outputs "source" port

def inputPort (type : String) (version : ℕ) (port : Option String) : Except String String := do
  portIn (← resolve type version).inputs "target" port

/-! ### What the ports allow -/

variable {type : String} {b : RegisteredBlock}

theorem resolve_mem {version : ℕ}
    (h : resolve type version = .ok b) : b ∈ blocks ∧ b.type = type ∧ b.version = version := by
  unfold resolve at h
  split at h
  · rename_i b' hb
    cases h
    have h1 := List.find?_some hb
    simp only [Bool.and_eq_true, beq_iff_eq] at h1
    exact ⟨List.mem_of_find?_eq_some hb, h1⟩
  · cases h

theorem portIn_mem {ports : List BlockPort} {kind p : String} {port : Option String}
    (h : portIn ports kind port = .ok p) : p ∈ ports.map (·.id) := by
  unfold portIn at h
  split at h
  · split_ifs at h with hp
    cases h
    simpa using hp
  · cases h

theorem ports_of_type {b' : RegisteredBlock} (hb : b ∈ blocks) (hb' : b' ∈ blocks)
    (h : b.type = b'.type) : b.inputs = b'.inputs ∧ b.outputs = b'.outputs := by
  simp only [blocks, List.mem_cons, List.not_mem_nil, or_false] at hb hb'
  rcases hb with rfl | rfl | rfl | rfl | rfl | rfl | rfl | rfl <;>
    rcases hb' with rfl | rfl | rfl | rfl | rfl | rfl | rfl | rfl <;> simp_all

theorem ports_length (hb : b ∈ blocks) : b.inputs.length = 1 ∧ (b.type ≠ "condition" → b.outputs.length = 1) := by
  simp only [blocks, List.mem_cons, List.not_mem_nil, or_false] at hb
  rcases hb with rfl | rfl | rfl | rfl | rfl | rfl | rfl | rfl <;> simp

theorem outputPort_unique {v v' : ℕ} {port port' : Option String} {p p' : String}
    (hc : type ≠ "condition") (h : outputPort type v port = .ok p)
    (h' : outputPort type v' port' = .ok p') : p = p' := by
  obtain ⟨b, hr, hp⟩ := except_bind_ok.mp h
  obtain ⟨b', hr', hp'⟩ := except_bind_ok.mp h'
  obtain ⟨hb, rfl, -⟩ := resolve_mem hr
  obtain ⟨hb', hty, -⟩ := resolve_mem hr'
  have hm' := portIn_mem hp'
  rw [(ports_of_type hb' hb hty).2] at hm'
  exact mem_unique_of_length (by simpa using (ports_length hb).2 hc) (portIn_mem hp) hm'

theorem inputPort_unique {v v' : ℕ} {port port' : Option String} {p p' : String}
    (h : inputPort type v port = .ok p) (h' : inputPort type v' port' = .ok p') : p = p' := by
  obtain ⟨b, hr, hp⟩ := except_bind_ok.mp h
  obtain ⟨b', hr', hp'⟩ := except_bind_ok.mp h'
  obtain ⟨hb, rfl, -⟩ := resolve_mem hr
  obtain ⟨hb', hty, -⟩ := resolve_mem hr'
  have hm' := portIn_mem hp'
  rw [(ports_of_type hb' hb hty).1] at hm'
  exact mem_unique_of_length (by simpa using (ports_length hb).1) (portIn_mem hp) hm'

/-! ### What the schemas accept -/

variable {j config : Json} {version : ℕ} {c : BlockConfig}

/-- How a context that is accepted was read. -/
structure AgentContext.ReadFrom (j : Json) (c : AgentContext) : Prop where
  publishOutput : boolField j "publishOutput" (some false) = some c.publishOutput
  includeRunInput : boolField j "includeRunInput" (some false) = some c.includeRunInput
  outputs : j.get? "includeNodeOutputs" = none ∧ c.includeNodeOutputs = [] ∨
    ∃ v, j.get? "includeNodeOutputs" = some v ∧ v.asStrs? = some c.includeNodeOutputs
  ids : c.includeNodeOutputs.all definitionId = true ∧ c.includeNodeOutputs.length ≤ maxAgentContextSources

theorem agentContextSchema_some {c : AgentContext} (h : agentContextSchema j = some c) : c.ReadFrom j := by
  unfold agentContextSchema at h
  simp only [Option.ite_none_right_eq_some, Option.bind_eq_bind, Option.bind_eq_some_iff] at h
  obtain ⟨-, publishOutput, hpublish, includeRunInput, hrun, h⟩ := h
  split at h
  · rename_i hnone
    obtain rfl : AgentContext.mk publishOutput includeRunInput [] = c := Option.some.inj h
    exact ⟨hpublish, hrun, .inl ⟨hnone, rfl⟩, rfl, Nat.zero_le _⟩
  · rename_i v hv
    simp only [Option.bind_eq_some_iff, Option.ite_none_right_eq_some, Bool.and_eq_true, decide_eq_true_eq,
      Option.some.injEq] at h
    obtain ⟨outputs, houtputs, hids, rfl⟩ := h
    exact ⟨hpublish, hrun, .inr ⟨v, hv, houtputs⟩, hids⟩

theorem AgentContext.ReadFrom.outputs_eq {c : AgentContext} (h : c.ReadFrom j) :
    c.includeNodeOutputs = ((j.get? "includeNodeOutputs").bind Json.asStrs?).getD [] := by
  rcases h.outputs with ⟨hnone, hempty⟩ | ⟨v, hv, houtputs⟩
  · rw [hnone, hempty]
    rfl
  · rw [hv, Option.bind_some, houtputs]
    rfl

/-- How a configuration that its block accepts was read. -/
inductive ConfigRead (j : Json) : String → ℕ → BlockConfig → Prop
  | agentV1 {a : String} (ha : strField j "agentId" definitionId = some a) : ConfigRead j "agent" 1 (.agentV1 a)
  | agentV2 {a : String} {context : Option AgentContext} (ha : strField j "agentId" definitionId = some a)
      (hcontext : optField j "context" agentContextSchema = some context) :
    ConfigRead j "agent" 2 (.agentV2 a context)
  | agentV3 {a : String} {context : Option AgentContext} {conversation : Option String}
      (ha : strField j "agentId" definitionId = some a)
      (hcontext : optField j "context" agentContextSchema = some context)
      (hconversation : optField j "conversation" agentConversationSchema = some conversation) :
    ConfigRead j "agent" 3 (.agentV3 a context conversation)
  | condition {value : String} {caseSensitive : Bool}
      (hvalue : strField j "value" (fun s => 1 ≤ utf16Length s && utf16Length s ≤ 4096) = some value)
      (hcase : boolField j "caseSensitive" (some false) = some caseSensitive) :
    ConfigRead j "condition" 1 (.condition ⟨value, caseSensitive⟩)
  | approval {message : String}
      (hmessage : strField j "message" (trimmedText approvalMessageMaxLength) = some message) :
    ConfigRead j "approval" 1 (.approval (trim message))
  | publish {source title body : String} {draft : Bool} (hsource : strField j "sourceNodeId" definitionId = some source)
      (htitle : strField j "title" (trimmedText 256) = some title)
      (hbody : strField j "body" (fun s => utf16Length s ≤ 65536) = some body)
      (hdraft : boolField j "draft" none = some draft) :
    ConfigRead j "publish-github-pr" 1 (.publishGitHubPr ⟨source, trim title, body, draft⟩)
  | subworkflow {workflowId : String} (hworkflow : strField j "workflowId" definitionId = some workflowId) :
    ConfigRead j "subworkflow" 1 (.subworkflow workflowId)
  | join : ConfigRead j "join" 1 .join

/-- **Inversion.** -/
theorem configRead (h : validate type version config = .ok c) : ConfigRead config type version c := by
  obtain ⟨b, hb, hs⟩ := except_bind_ok.mp h
  clear h
  obtain ⟨hmem, rfl, rfl⟩ := resolve_mem hb
  split at hs
  swap
  · cases hs
  rename_i c' hc
  cases hs
  simp only [blocks, List.mem_cons, List.not_mem_nil, or_false] at hmem
  rcases hmem with rfl | rfl | rfl | rfl | rfl | rfl | rfl | rfl <;>
    simp only [agentBlockConfigSchema, agentBlockV2ConfigSchema, agentBlockV3ConfigSchema, conditionBlockConfigSchema,
      joinBlockConfigSchema, approvalBlockConfigSchema, subworkflowBlockConfigSchema, publishGitHubPrBlockConfigSchema,
      Option.ite_none_right_eq_some, Option.bind_eq_bind, Option.bind_eq_some_iff, Option.map_eq_some_iff,
      Option.some.injEq] at hc
  · obtain ⟨-, a, ha, rfl⟩ := hc
    exact .agentV1 ha
  · obtain ⟨-, a, ha, context, hcontext, rfl⟩ := hc
    exact .agentV2 ha hcontext
  · obtain ⟨-, a, ha, context, hcontext, conversation, hconversation, rfl⟩ := hc
    exact .agentV3 ha hcontext hconversation
  · obtain ⟨-, _, -, value, hvalue, caseSensitive, hcase, rfl⟩ := hc
    exact .condition hvalue hcase
  · obtain ⟨-, message, hmessage, rfl⟩ := hc
    exact .approval hmessage
  · obtain ⟨-, source, hsource, title, htitle, body, hbody, draft, hdraft, rfl⟩ := hc
    exact .publish hsource htitle hbody hdraft
  · obtain ⟨-, workflowId, hworkflow, rfl⟩ := hc
    exact .subworkflow hworkflow
  · obtain ⟨-, rfl⟩ := hc
    exact .join

end ADT.Workflow
