import ADT.Lib.Base64Url
import ADT.Lib.Utf8
import ADT.Provider.Policies
import ADT.Workflow.Registry

/-!
# Provider.Invocation — what a run hands to its provider

The agents, connections, granted tools and security profiles of a run, as admission freezes them and the store reads
them back, and the invocation `durableInvocation` makes of them for an attempt.

* `durableInvocation_valid`: an invocation of an admitted run keeps the bounds of its definitions.
-/

namespace ADT.Provider

open Workflow (definitionId)

inductive AgentTool where
  /-- `"artifact_search"`, as a name or as a built-in tool. -/
  | artifactSearch
  | mcp (serverId toolName : String)
  deriving DecidableEq

def agentMasterPromptMaxLength : ℕ := 65536

/-- The agent of a run; `masterPrompt` is the resolved prompt. -/
structure AgentSnapshot where
  id : String
  name : String
  masterPrompt : String
  securityProfileId : Option String
  tools : Option (List AgentTool)
  adapterOptions : Option Json
  named : bounded 120 name = true
  prompted : bounded agentMasterPromptMaxLength masterPrompt = true

def mcpToolGrants (tools : Option (List AgentTool)) : List (String × String) :=
  (tools.getD []).filterMap fun tool => match tool with
    | .mcp serverId toolName => some (serverId, toolName)
    | .artifactSearch => none

/-! ### Granted tools -/

structure McpCatalogueTool where
  name : String
  description : Option String
  inputSchema : List (String × Json)
  named : bounded 128 name = true
  described : description.all (utf16Length · ≤ 2048) = true

structure McpServerDefinition (P : Platform) where
  id : String
  endpointUrl : String
  /-- The secret of a server with bearer authentication. -/
  credentialSecretRef : Option String
  tools : List McpCatalogueTool
  identified : definitionId id = true
  reachable : ∃ text, P.url text = some endpointUrl
  short : utf16Length endpointUrl ≤ 2048

structure FrozenMcpTool where
  toolAlias : String
  serverId : String
  authenticationMode : AuthMode
  credentialBindingId : Option String
  url : String
  tool : McpCatalogueTool

/-- `[^A-Za-z0-9_-]` replaced, unit by unit. -/
def wordChars (c : Char) : List Char :=
  if isWordChar c then [c] else if c.toNat < 0x10000 then ['_'] else ['_', '_']

/-- A first character that is no letter replaced. -/
def withLetter : List Char → List Char
  | [] => []
  | c :: cs => if c.isAlpha || c == '_' then c :: cs else '_' :: cs

/-- The part of an alias that shows the name of the tool. -/
def safe (name : String) : String :=
  match (withLetter (name.toList.flatMap wordChars)).take 30 with
  | [] => "tool"
  | front => String.ofList front

def mcpToolAlias (digest : List UInt8 → List UInt8) (serverId toolName : String) : String :=
  let hash := Base64Url.encode (digest (Utf8.encode (serverId.toList ++ Char.ofNat 0 :: toolName.toList)))
  "mcp_" ++ safe toolName ++ "_" ++ String.ofList (hash.take 22)

section Freezing

variable (P : Platform) (digest : List UInt8 → List UInt8)

/-- The frozen form of a grant; `bind` finds or makes the credential binding of a server. -/
def freezeGrant (servers : List (McpServerDefinition P)) (bind : McpServerDefinition P → String)
    (grant : String × String) : Except String FrozenMcpTool :=
  -- of two servers with one id the map keeps the last
  match servers.reverse.find? (·.id == grant.1) with
  | none => .error "mcp_server_missing"
  | some server =>
    match server.tools.find? (·.name == grant.2) with
    | none => .error "mcp_grant_unavailable"
    | some tool => .ok
      { toolAlias := mcpToolAlias digest server.id tool.name
        serverId := server.id
        authenticationMode := if server.credentialSecretRef.isSome then .bearer else .none
        credentialBindingId := if server.credentialSecretRef.isSome then some (bind server) else none
        url := server.endpointUrl
        tool := tool }

def freezeAgentTools (servers : List (McpServerDefinition P)) (bind : McpServerDefinition P → String)
    (agent : AgentSnapshot) : Except String (List FrozenMcpTool) := do
  let result ← (mcpToolGrants agent.tools).mapM (freezeGrant P digest servers bind)
  if (result.map (·.toolAlias)).Nodup then .ok result else .error "mcp_alias_collision"

def freezeAuthorizedMcpTools (servers : List (McpServerDefinition P)) (bind : McpServerDefinition P → String)
    (agents : List AgentSnapshot) : Except String (List (String × List FrozenMcpTool)) := do
  let snapshot ← agents.mapM fun agent => (freezeAgentTools P digest servers bind agent).map (agent.id, ·)
  .ok (snapshot.filter fun entry => !entry.2.isEmpty)

end Freezing

structure AuthorizedMcpTool where
  toolAlias : String
  serverId : String
  url : String
  tool : McpCatalogueTool
  credential : Option String

def toolCredential (resolve : String → Except String String) (item : FrozenMcpTool) : Except String (Option String) :=
  match item.authenticationMode, item.credentialBindingId with
  | .bearer, none => .error "mcp_run_snapshot_invalid"
  | .bearer, some binding => (resolve binding).map some
  | .none, _ => .ok none

/-- The tool of a grant; an empty credential is left out. -/
def resolveFrozenTool (resolve : String → Except String String) (item : FrozenMcpTool) :
    Except String AuthorizedMcpTool :=
  (toolCredential resolve item).map fun credential =>
    ⟨item.toolAlias, item.serverId, item.url, item.tool, credential.filter (· ≠ "")⟩

def resolveFrozenMcpTools (resolve : String → Except String String) (agent : AgentSnapshot)
    (snapshot : List (String × List FrozenMcpTool)) : Except String (List AuthorizedMcpTool) :=
  let grants := mcpToolGrants agent.tools
  if grants.isEmpty then .ok []
  else
    match snapshot.lookup agent.id with
    | none => .error "mcp_run_snapshot_missing"
    | some frozen =>
      if frozen.length ≠ grants.length ||
          grants.any (fun grant => !frozen.any fun item => item.serverId == grant.1 && item.tool.name == grant.2) then
        .error "mcp_run_snapshot_invalid"
      else frozen.mapM (resolveFrozenTool resolve)

/-! ### Security profiles -/

structure SecurityProfileDefinition (P : Platform) where
  id : String
  endpointUrl : String
  decisionTimeoutMs : ℤ
  identified : definitionId id = true
  canonical : ∃ text, canonicalAdrianEndpoint P text = .ok endpointUrl
  timed : 250 ≤ decisionTimeoutMs ∧ decisionTimeoutMs ≤ 30000

structure FrozenSecurityProfile where
  profileId : String
  endpointUrl : String
  decisionTimeoutMs : ℤ
  credentialBindingId : String

section FreezingProfiles

variable (P : Platform)

/-- `frozenSecurityProfileSchema.parse` of the profile of an agent. -/
def freezeProfile (profiles : List (SecurityProfileDefinition P))
    (bind : SecurityProfileDefinition P → Except String String) (profileId : String) :
    Except String FrozenSecurityProfile :=
  match profiles.reverse.find? (·.id == profileId) with
  | none => .error "security_profile_missing"
  | some profile => do
    let binding ← bind profile
    match P.url profile.endpointUrl with
    | none => .error "invalid_security_profile"
    | some endpointUrl =>
      if (P.parseUrl endpointUrl).any (·.protocol == "wss:") then
        .ok ⟨profile.id, endpointUrl, profile.decisionTimeoutMs, binding⟩
      else .error "invalid_security_profile"

def freezeSecurityProfiles (profiles : List (SecurityProfileDefinition P))
    (bind : SecurityProfileDefinition P → Except String String) (agents : List AgentSnapshot) :
    Except String (List (String × FrozenSecurityProfile)) :=
  (agents.filterMap fun agent => agent.securityProfileId.map (agent.id, ·)).mapM fun entry =>
    (freezeProfile P profiles bind entry.2).map (entry.1, ·)

end FreezingProfiles

structure AuthorizedRuntimeSecurity where
  profileId : String
  endpointUrl : String
  decisionTimeoutMs : ℤ
  credential : String

def resolveFrozenSecurityProfile (resolve : String → String → Except String String) (agent : AgentSnapshot)
    (snapshot : List (String × FrozenSecurityProfile)) : Except String (Option AuthorizedRuntimeSecurity) :=
  match agent.securityProfileId with
  | none => .ok none
  | some profileId =>
    match snapshot.lookup agent.id with
    | none => .error "security_profile_snapshot_missing"
    | some frozen =>
      if frozen.profileId ≠ profileId then .error "security_profile_snapshot_missing"
      else (resolve frozen.credentialBindingId frozen.endpointUrl).map fun credential =>
        some ⟨frozen.profileId, frozen.endpointUrl, frozen.decisionTimeoutMs, credential⟩

/-- The configuration the store reads back from a connection snapshot. -/
def snapshotConfiguration (P : Platform) (kind : RuntimeProviderKind) (value : Option Json) :
    Except String (Option Json) :=
  if value.isNone && kind ≠ .ollamaChat then .ok none
  else normalizeProviderSafeConfiguration (requireProviderConnectionType P kind) value

structure ConnectionDescriptor (P : Platform) where
  adapter : String
  enabled : Bool
  endpoint : Option String
  defaultModel : Option String
  providerConfiguration : Option Json
  modelled : defaultModel.all (utf16Length · ≤ 120) = true
  configured : ∀ kind : RuntimeProviderKind, adapter = kind.label →
    ∃ value, snapshotConfiguration P kind value = .ok providerConfiguration

/-- What the credential store says of a connection now. -/
structure ResolvedConnection where
  adapter : String
  enabled : Bool
  credential : Option String

/-! ### Runs -/

structure ConversationSourceIdentity where
  runId : String
  stepId : String
  activationId : Option String
  iteration : ℕ
  attempt : ℕ

def maxText : ℕ := 262144

/-- An attempt; its numbers are integers of the database and its input was bounded when the node was claimed. -/
structure StepAttempt where
  runId : String
  stepId : String
  graphActivationId : Option String
  iteration : ℕ
  attempt : ℕ
  agentId : String
  connectionKey : String
  succeeded : Bool
  inputText : Option String
  providerTaskId : Option String
  conversationSource : Option ConversationSourceIdentity
  identified : definitionId stepId = true
  iteration_lt : iteration < 2 ^ 63
  attempt_lt : attempt < 2 ^ 63
  input_le : inputText.all (byteLength · ≤ maxText) = true

/-- A run as admission made it and the store reads it back. -/
structure WorkflowRun (P : Platform) (digest : List UInt8 → List UInt8) where
  id : String
  agentSnapshots : List (String × AgentSnapshot)
  connectionSnapshots : List (String × ConnectionDescriptor P)
  mcpToolSnapshots : List (String × List FrozenMcpTool)
  securityProfileSnapshots : List (String × FrozenSecurityProfile)
  attempts : List StepAttempt
  /-- The id is a random UUID. -/
  uuid : utf16Length id = 36
  frozenTools : ∃ servers bind agents, freezeAuthorizedMcpTools P digest servers bind agents = .ok mcpToolSnapshots
  readTools : ∀ entry ∈ mcpToolSnapshots, entry.2.length ≤ 128
  frozenProfiles : ∃ profiles bind agents, freezeSecurityProfiles P profiles bind agents = .ok securityProfileSnapshots

/-- An error with the category and the text the driver keeps of it. -/
structure Failure where
  category : String
  safeMessage : Option String

/-- What the remote runtimes read of an invocation. -/
structure AdapterInvocation (P : Platform) where
  idempotencyKey : String
  agentName : String
  masterPrompt : String
  inputText : String
  tools : Option (List AgentTool)
  authorizedMcpTools : Option (List AuthorizedMcpTool)
  runtimeSecurity : Option AuthorizedRuntimeSecurity
  connection : ConnectionDescriptor P
  credential : Option String
  providerOptions : Option Json
  conversationRef : Option String

/-- The attempt a conversation is continued from. -/
def StepAttempt.isSource (attempt : StepAttempt) (source : ConversationSourceIdentity) : Bool :=
  attempt.runId == source.runId && attempt.stepId == source.stepId &&
    attempt.graphActivationId == source.activationId && attempt.iteration == source.iteration &&
    attempt.attempt == source.attempt

def conversationRef (attempts : List StepAttempt) (attempt : StepAttempt) : Except Failure (Option String) :=
  match attempt.conversationSource with
  | none => .ok none
  | some source =>
    match (attempts.find? (·.isSource source)).filter (·.succeeded) with
    | none => .error ⟨"conversation_unavailable", some "The selected Codex conversation is no longer available to continue."⟩
    | some found =>
      match found.providerTaskId.filter (· ≠ "") with
      | none => .error ⟨"conversation_unavailable", some "The selected Codex conversation is no longer available to continue."⟩
      | some taskId => .ok (some taskId)

def durableInvocation {P : Platform} {digest : List UInt8 → List UInt8} (run : WorkflowRun P digest)
    (attempt : StepAttempt) (live : ResolvedConnection) (authorizedMcpTools : Option (List AuthorizedMcpTool))
    (runtimeSecurity : Option AuthorizedRuntimeSecurity) : Except Failure (AdapterInvocation P) :=
  match run.connectionSnapshots.lookup attempt.connectionKey with
  | none => .error ⟨"connection_unavailable", none⟩
  | some snapshot =>
    if !live.enabled || snapshot.adapter ≠ live.adapter then .error ⟨"connection_unavailable", none⟩
    else do
      let conversationRef ← conversationRef run.attempts attempt
      match run.agentSnapshots.lookup attempt.agentId with
      -- reading the name of a missing agent throws
      | none => .error ⟨"internal_error", none⟩
      | some agent => .ok {
          idempotencyKey := run.id ++ ":" ++ attempt.stepId ++ ":" ++ toString attempt.iteration ++ ":" ++
            toString attempt.attempt
          agentName := agent.name
          masterPrompt := agent.masterPrompt
          inputText := attempt.inputText.getD ""
          tools := agent.tools
          authorizedMcpTools := authorizedMcpTools
          runtimeSecurity := runtimeSecurity
          connection := snapshot
          credential := live.credential
          providerOptions := agent.adapterOptions
          conversationRef := conversationRef }

/-! ### What an alias looks like -/

/-- `/^[A-Za-z_][A-Za-z0-9_-]*$/`. -/
def isAlias (s : String) : Bool :=
  match s.toList with
  | [] => false
  | c :: cs => (c.isAlpha || c == '_') && cs.all isWordChar

theorem isWordChar_lt {c : Char} (h : isWordChar c = true) : c.toNat < 0x10000 := by
  have hranges : c.isAlphanum = (decide ('A'.val ≤ c.val ∧ c.val ≤ 'Z'.val) ||
      decide ('a'.val ≤ c.val) && decide (c.val ≤ 'z'.val) ||
      decide ('0'.val ≤ c.val) && decide (c.val ≤ '9'.val)) := rfl
  simp only [isWordChar, hranges, Bool.or_eq_true, Bool.and_eq_true, decide_eq_true_eq, UInt32.le_iff_toNat_le,
    beq_iff_eq] at h
  have hz : 'z'.val.toNat = 122 := rfl
  have hZ : 'Z'.val.toNat = 90 := rfl
  have h9 : '9'.val.toNat = 57 := rfl
  have hval : c.toNat = c.val.toNat := rfl
  rcases h with (h | rfl) | rfl
  · omega
  · decide
  · decide

theorem isWordChar_encode {bytes : List UInt8} {c : Char} (hc : c ∈ Base64Url.encode bytes) : isWordChar c = true := by
  have hdigit : ∀ n < 64, isWordChar (Base64Url.digit n) = true := by decide
  obtain ⟨n, hn, rfl⟩ := List.mem_map.mp hc
  exact hdigit n (Base64Url.group_lt bytes n hn)

theorem isWordChar_wordChars {c d : Char} (hd : d ∈ wordChars c) : isWordChar d = true := by
  unfold wordChars at hd
  split at hd
  · rename_i hword
    rw [List.mem_singleton.mp hd]
    exact hword
  · have hunderscore : d = '_' := by
      split at hd
      · exact List.mem_singleton.mp hd
      · simpa using hd
    rw [hunderscore]
    rfl

theorem isWordChar_withLetter {cs : List Char} (h : ∀ c ∈ cs, isWordChar c = true) :
    ∀ c ∈ withLetter cs, isWordChar c = true := by
  cases cs with
  | nil => exact h
  | cons c cs =>
    intro d hd
    rw [withLetter] at hd
    split at hd
    · exact h d hd
    · rcases List.mem_cons.mp hd with rfl | hd
      · rfl
      · exact h d (List.mem_cons_of_mem _ hd)

theorem safe_spec (name : String) :
    (∀ c ∈ (safe name).toList, isWordChar c = true) ∧ (safe name).toList.length ≤ 30 := by
  have hword := isWordChar_withLetter fun c hc => by
    obtain ⟨d, -, hd⟩ := List.mem_flatMap.mp (hc : c ∈ name.toList.flatMap wordChars)
    exact isWordChar_wordChars hd
  unfold safe
  split
  · have htool : "tool".toList = ['t', 'o', 'o', 'l'] := rfl
    simp only [htool, List.mem_cons, List.not_mem_nil, or_false, List.length_cons, List.length_nil]
    refine ⟨?_, by omega⟩
    rintro c (rfl | rfl | rfl | rfl) <;> rfl
  · rename_i front _
    rw [String.toList_ofList]
    exact ⟨fun c hc => hword c (List.mem_of_mem_take hc), List.length_take_le _ _⟩

/-- **Aliases**: an alias has the form and the length the Runtime asks for. -/
theorem mcpToolAlias_spec (digest : List UInt8 → List UInt8) (serverId toolName : String) :
    isAlias (mcpToolAlias digest serverId toolName) = true ∧
      bounded 64 (mcpToolAlias digest serverId toolName) = true := by
  obtain ⟨hsafe, hshort⟩ := safe_spec toolName
  set hash := (Base64Url.encode (digest (Utf8.encode (serverId.toList ++ Char.ofNat 0 :: toolName.toList)))).take 22
    with hhash
  have hlist : (mcpToolAlias digest serverId toolName).toList =
      'm' :: 'c' :: 'p' :: '_' :: ((safe toolName).toList ++ '_' :: hash) := by
    rw [mcpToolAlias, String.toList_append, String.toList_append, String.toList_append, String.toList_ofList, ← hhash]
    simp
  have hlength : hash.length ≤ 22 := List.length_take_le _ _
  have hword : ∀ c ∈ 'c' :: 'p' :: '_' :: ((safe toolName).toList ++ '_' :: hash), isWordChar c = true := by
    intro c hc
    simp only [List.mem_cons, List.mem_append] at hc
    rcases hc with rfl | rfl | rfl | hc | rfl | hc
    · rfl
    · rfl
    · rfl
    · exact hsafe c hc
    · rfl
    · exact isWordChar_encode (List.mem_of_mem_take hc)
  constructor
  · unfold isAlias
    rw [hlist]
    exact List.all_eq_true.mpr hword
  · have hsize : utf16Length (mcpToolAlias digest serverId toolName) =
        (mcpToolAlias digest serverId toolName).toList.length := by
      have hself : String.ofList (mcpToolAlias digest serverId toolName).toList = mcpToolAlias digest serverId toolName :=
        String.ofList_toList
      rw [← hself, utf16Length_ofList, String.toList_ofList]
      intro c hc
      rw [hlist] at hc
      rcases List.mem_cons.mp hc with rfl | hc
      · decide
      · exact isWordChar_lt (hword c hc)
    rw [hlist] at hsize
    simp only [List.length_cons, List.length_append] at hsize
    unfold bounded
    rw [Bool.and_eq_true, decide_eq_true_eq, decide_eq_true_eq]
    omega

/-! ### Admitted invocations -/

section Admitted

variable {P : Platform} {digest : List UInt8 → List UInt8}

/-- The tools `executeWorkflowGraphNode` resolves; `none` for an agent without grants. -/
def nodeTools (resolve : String → Except String String) (agent : AgentSnapshot)
    (snapshot : List (String × List FrozenMcpTool)) : Except String (Option (List AuthorizedMcpTool)) :=
  if (mcpToolGrants agent.tools).isEmpty then .ok none else (resolveFrozenMcpTools resolve agent snapshot).map some

/-- What `executeWorkflowGraphNode` resolves of the run before the node takes its turn, and the invocation of that turn. -/
def nodeInvocation (run : WorkflowRun P digest) (attempt : StepAttempt) (live : ResolvedConnection)
    (resolveTool : String → Except String String) (resolveProfile : String → String → Except String String) :
    Except Failure (AdapterInvocation P) :=
  match run.agentSnapshots.lookup attempt.agentId with
  | none => durableInvocation run attempt live none none
  | some agent =>
    match nodeTools resolveTool agent run.mcpToolSnapshots,
      resolveFrozenSecurityProfile resolveProfile agent run.securityProfileSnapshots with
    | .ok authorizedMcpTools, .ok runtimeSecurity =>
      durableInvocation run attempt live authorizedMcpTools runtimeSecurity
    | _, _ => .error ⟨"internal_error", none⟩

/-- The definition of a server granted the tool. -/
structure Granted (P : Platform) (digest : List UInt8 → List UInt8) (toolAlias serverId url : String)
    (tool : McpCatalogueTool) : Prop where
  named : toolAlias = mcpToolAlias digest serverId tool.name
  identified : definitionId serverId = true
  reachable : P.url url = some url
  short : utf16Length url ≤ 2048

/-- The definition of a profile set the endpoint and the time a decision may take. -/
structure Profiled (P : Platform) (profileId endpointUrl : String) (decisionTimeoutMs : ℤ) : Prop where
  identified : definitionId profileId = true
  passed : P.url endpointUrl = some endpointUrl
  canonical : ∃ url, P.parseUrl endpointUrl = some url ∧ url.protocol = "wss:" ∧ url.username = "" ∧
    url.password = "" ∧ url.search = ""
  timed : 250 ≤ decisionTimeoutMs ∧ decisionTimeoutMs ≤ 30000

/-- The bounds an invocation of an admitted run keeps. -/
structure AdapterInvocation.Valid (digest : List UInt8 → List UInt8) (i : AdapterInvocation P) : Prop where
  keyed : bounded 256 i.idempotencyKey = true
  named : bounded 120 i.agentName = true
  prompted : bounded agentMasterPromptMaxLength i.masterPrompt = true
  input_le : byteLength i.inputText ≤ maxText
  granted : ∀ t ∈ i.authorizedMcpTools.getD [], Granted P digest t.toolAlias t.serverId t.url t.tool
  distinct : ((i.authorizedMcpTools.getD []).map (·.toolAlias)).Nodup
  few : (i.authorizedMcpTools.getD []).length ≤ 128
  profiled : ∀ s ∈ i.runtimeSecurity, Profiled P s.profileId s.endpointUrl s.decisionTimeoutMs

variable {servers : List (McpServerDefinition P)} {bind : McpServerDefinition P → String} {agent : AgentSnapshot}
  {frozen : List FrozenMcpTool} {resolve : String → Except String String} {run : WorkflowRun P digest}
  {tools : Option (List AuthorizedMcpTool)} {security : Option AuthorizedRuntimeSecurity} {attempt : StepAttempt}
  {live : ResolvedConnection} {i : AdapterInvocation P}

theorem freezeGrant_ok (hP : P.Lawful)
    {grant : String × String} {t : FrozenMcpTool} (h : freezeGrant P digest servers bind grant = .ok t) :
    Granted P digest t.toolAlias t.serverId t.url t.tool := by
  unfold freezeGrant at h
  split at h
  · cases h
  · rename_i server _
    split at h
    · cases h
    · cases h
      obtain ⟨text, htext⟩ := server.reachable
      exact ⟨rfl, server.identified, hP.url_url htext, server.short⟩

theorem freezeAgentTools_ok (hP : P.Lawful) (h : freezeAgentTools P digest servers bind agent = .ok frozen) :
    (∀ t ∈ frozen, Granted P digest t.toolAlias t.serverId t.url t.tool) ∧ (frozen.map (·.toolAlias)).Nodup := by
  obtain ⟨result, hresult, h⟩ := except_bind_ok.mp h
  split at h
  · rename_i hnodup
    cases h
    refine ⟨fun t ht => ?_, hnodup⟩
    obtain ⟨grant, -, hgrant⟩ := exists_of_forall₂_right (mapM_ok hresult) ht
    exact freezeGrant_ok hP hgrant
  · cases h

theorem mem_of_lookup {α : Type} {entries : List (String × α)} {key : String} {value : α}
    (h : entries.lookup key = some value) : (key, value) ∈ entries := by
  obtain ⟨front, rest, rfl, -⟩ := List.lookup_eq_some_iff.mp h
  exact List.mem_append_right _ List.mem_cons_self

theorem WorkflowRun.frozen_spec (hP : P.Lawful) (run : WorkflowRun P digest) {agentId : String}
    (h : run.mcpToolSnapshots.lookup agentId = some frozen) :
    (∀ t ∈ frozen, Granted P digest t.toolAlias t.serverId t.url t.tool) ∧
      (frozen.map (·.toolAlias)).Nodup ∧ frozen.length ≤ 128 := by
  have hmem := mem_of_lookup h
  obtain ⟨servers, bind, agents, hfreeze⟩ := run.frozenTools
  obtain ⟨snapshot, hsnapshot, hkept⟩ := except_bind_ok.mp hfreeze
  have hentry : (agentId, frozen) ∈ snapshot := by
    rw [← Except.ok.inj hkept] at hmem
    exact List.mem_of_mem_filter hmem
  obtain ⟨agent, -, hagent⟩ := exists_of_forall₂_right (mapM_ok hsnapshot) hentry
  obtain ⟨tools, htools, hpair⟩ := except_map_ok.mp hagent
  obtain rfl : tools = frozen := congrArg Prod.snd hpair
  obtain ⟨hgranted, hnodup⟩ := freezeAgentTools_ok hP htools
  exact ⟨hgranted, hnodup, run.readTools _ hmem⟩

theorem resolveFrozenTool_ok {item : FrozenMcpTool} {t : AuthorizedMcpTool}
    (h : resolveFrozenTool resolve item = .ok t) :
    t.toolAlias = item.toolAlias ∧ t.serverId = item.serverId ∧ t.url = item.url ∧ t.tool = item.tool := by
  obtain ⟨credential, -, rfl⟩ := except_map_ok.mp h
  exact ⟨rfl, rfl, rfl, rfl⟩

theorem resolveFrozenMcpTools_ok (hP : P.Lawful) {tools : List AuthorizedMcpTool}
    (h : resolveFrozenMcpTools resolve agent run.mcpToolSnapshots = .ok tools) :
    (∀ t ∈ tools, Granted P digest t.toolAlias t.serverId t.url t.tool) ∧
      (tools.map (·.toolAlias)).Nodup ∧ tools.length ≤ 128 := by
  unfold resolveFrozenMcpTools at h
  dsimp only at h
  split at h
  · cases h
    exact ⟨List.forall_mem_nil _, List.nodup_nil, Nat.zero_le _⟩
  · split at h
    · cases h
    · rename_i frozen hfrozen
      split at h
      · cases h
      · obtain ⟨hgranted, hnodup, hfew⟩ := run.frozen_spec hP hfrozen
        have hall := mapM_ok h
        have haliases : frozen.map (·.toolAlias) = tools.map (·.toolAlias) := by
          refine List.forall₂_eq_eq_eq ▸ List.forall₂_map_left_iff.mpr (List.forall₂_map_right_iff.mpr ?_)
          exact hall.imp fun item t ht => (resolveFrozenTool_ok ht).1.symm
        refine ⟨fun t ht => ?_, haliases ▸ hnodup, hall.length_eq ▸ hfew⟩
        obtain ⟨item, hitem, hresolved⟩ := exists_of_forall₂_right hall ht
        obtain ⟨halias, hserver, hurl, htool⟩ := resolveFrozenTool_ok hresolved
        rw [halias, hserver, hurl, htool]
        exact hgranted item hitem

theorem nodeTools_ok (hP : P.Lawful) (h : nodeTools resolve agent run.mcpToolSnapshots = .ok tools) :
    (∀ t ∈ tools.getD [], Granted P digest t.toolAlias t.serverId t.url t.tool) ∧
      ((tools.getD []).map (·.toolAlias)).Nodup ∧ (tools.getD []).length ≤ 128 := by
  unfold nodeTools at h
  split at h
  · cases h
    exact ⟨List.forall_mem_nil _, List.nodup_nil, Nat.zero_le _⟩
  · obtain ⟨resolved, hresolved, rfl⟩ := except_map_ok.mp h
    exact resolveFrozenMcpTools_ok hP hresolved

theorem freezeProfile_ok (hP : P.Lawful) {profiles : List (SecurityProfileDefinition P)}
    {bind : SecurityProfileDefinition P → Except String String} {profileId : String} {frozen : FrozenSecurityProfile}
    (h : freezeProfile P profiles bind profileId = .ok frozen) :
    Profiled P frozen.profileId frozen.endpointUrl frozen.decisionTimeoutMs := by
  unfold freezeProfile at h
  split at h
  · cases h
  · rename_i profile _
    obtain ⟨binding, -, h⟩ := except_bind_ok.mp h
    obtain ⟨text, htext⟩ := profile.canonical
    obtain ⟨hpassed, hcanonical⟩ := canonicalAdrianEndpoint_ok hP htext
    rw [hpassed] at h
    dsimp only at h
    split at h
    · cases h
      exact ⟨profile.identified, hpassed, hcanonical, profile.timed⟩
    · cases h

theorem resolveFrozenSecurityProfile_ok (hP : P.Lawful) {resolve : String → String → Except String String}
    (h : resolveFrozenSecurityProfile resolve agent run.securityProfileSnapshots = .ok security) :
    ∀ s ∈ security, Profiled P s.profileId s.endpointUrl s.decisionTimeoutMs := by
  unfold resolveFrozenSecurityProfile at h
  split at h
  · cases h
    intro s hs
    cases hs
  · split at h
    · cases h
    · rename_i frozen hfrozen
      split at h
      · cases h
      · obtain ⟨credential, -, rfl⟩ := except_map_ok.mp h
        intro s hs
        cases hs
        obtain ⟨profiles, bind, agents, hfreeze⟩ := run.frozenProfiles
        obtain ⟨entry, -, hentry⟩ := exists_of_forall₂_right (mapM_ok hfreeze) (mem_of_lookup hfrozen)
        obtain ⟨profile, hprofile, hpair⟩ := except_map_ok.mp hentry
        obtain rfl : profile = frozen := congrArg Prod.snd hpair
        exact freezeProfile_ok hP hprofile

theorem StepAttempt.key_bounded (attempt : StepAttempt) {id : String} (huuid : utf16Length id = 36) :
    bounded 256 (id ++ ":" ++ attempt.stepId ++ ":" ++ toString attempt.iteration ++ ":" ++ toString attempt.attempt) =
      true := by
  have hcolon : utf16Length ":" = 1 := rfl
  have hstep : utf16Length attempt.stepId ≤ 80 := by
    have h := attempt.identified
    unfold definitionId at h
    rw [Bool.and_eq_true, decide_eq_true_eq] at h
    exact h.2
  have hiteration := utf16Length_toString_le (n := attempt.iteration) (k := 19) (by omega) (by
    have := attempt.iteration_lt
    omega)
  have hattempt := utf16Length_toString_le (n := attempt.attempt) (k := 19) (by omega) (by
    have := attempt.attempt_lt
    omega)
  unfold bounded
  simp only [utf16Length_append, hcolon, huuid, Bool.and_eq_true, decide_eq_true_eq]
  omega

theorem durableInvocation_ok (h : durableInvocation run attempt live tools security = .ok i) :
    bounded 256 i.idempotencyKey = true ∧ (∃ agent : AgentSnapshot, i.agentName = agent.name ∧
      i.masterPrompt = agent.masterPrompt) ∧ i.inputText = attempt.inputText.getD "" ∧
      i.authorizedMcpTools = tools ∧ i.runtimeSecurity = security := by
  unfold durableInvocation at h
  split at h
  · cases h
  · split at h
    · cases h
    · obtain ⟨conversation, -, h⟩ := except_bind_ok.mp h
      split at h
      · cases h
      · rename_i agent _
        cases h
        exact ⟨attempt.key_bounded run.uuid, ⟨agent, rfl, rfl⟩, rfl, rfl, rfl⟩

/-- **Admitted invocations**: what a node of an admitted run is invoked with keeps the bounds of its definitions. -/
theorem nodeInvocation_valid (hP : P.Lawful) {resolveTool : String → Except String String}
    {resolveProfile : String → String → Except String String}
    (h : nodeInvocation run attempt live resolveTool resolveProfile = .ok i) : i.Valid digest := by
  have hmade : ∃ tools security, durableInvocation run attempt live tools security = .ok i ∧
      (∀ t ∈ tools.getD [], Granted P digest t.toolAlias t.serverId t.url t.tool) ∧
      ((tools.getD []).map (·.toolAlias)).Nodup ∧ (tools.getD []).length ≤ 128 ∧
      ∀ s ∈ security, Profiled P s.profileId s.endpointUrl s.decisionTimeoutMs := by
    unfold nodeInvocation at h
    split at h
    · refine ⟨none, none, h, List.forall_mem_nil _, List.nodup_nil, Nat.zero_le _, ?_⟩
      intro s hs
      cases hs
    · split at h
      · rename_i tools security htools hsecurity
        obtain ⟨hgranted, hnodup, hfew⟩ := nodeTools_ok hP htools
        exact ⟨tools, security, h, hgranted, hnodup, hfew, resolveFrozenSecurityProfile_ok hP hsecurity⟩
      · cases h
  obtain ⟨tools, security, hinvocation, hgranted, hnodup, hfew, hprofiled⟩ := hmade
  obtain ⟨hkey, ⟨agent, hname, hprompt⟩, hinput, rfl, rfl⟩ := durableInvocation_ok hinvocation
  refine ⟨hkey, hname ▸ agent.named, hprompt ▸ agent.prompted, ?_, hgranted, hnodup, hfew, hprofiled⟩
  have hbound := attempt.input_le
  rw [hinput]
  cases htext : attempt.inputText with
  | none => exact Nat.zero_le _
  | some text =>
    rw [htext] at hbound
    exact of_decide_eq_true hbound

end Admitted

end ADT.Provider
