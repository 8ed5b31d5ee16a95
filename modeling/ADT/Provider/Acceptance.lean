import ADT.Provider.Requests

/-!
# Provider.Acceptance — which execution requests the Runtime accepts

* `accepted_iff`: the request of an admitted run is accepted if and only if it is `Acceptable`.
-/

namespace ADT.Provider

open Workflow (definitionId)

section Acceptance

variable {P : Platform} {C : Crypto}

/-- The credentials a request carries. -/
def AdapterInvocation.credentials (i : AdapterInvocation P) : List String :=
  i.credential.toList ++ (i.authorizedMcpTools.getD []).filterMap (·.credential.filter (· ≠ "")) ++
    (i.runtimeSecurity.map (·.credential)).toList

/-- **Acceptable**: what the Runtime asks of a request beyond what the run was admitted with. -/
structure Acceptable (kind : RuntimeProviderKind) (config : ADTRuntimeConfiguration P) (i : AdapterInvocation P) :
    Prop where
  /-- Only one provider asks for an input. -/
  input : kind = .openaiAgents → i.inputText ≠ ""
  /-- The ciphertext of a credential is bounded, the credential only in UTF-16 units. -/
  credentials : ∀ credential ∈ i.credentials, byteLength credential ≤ 12272
  wrapping : i.credentials ≠ [] → ∀ key ∈ config.wrappingPublicKey, key.modulusLength ≤ 1536
  gateway : kind = .openaiAgents → i.usesArtifactSearch = true → ∀ url ∈ config.toolGatewayUrl,
    ∀ authority ∈ config.toolAuthority, urlText P url = true ∧ bounded 4096 (authority i) = true
  endpoint : kind = .openaiAgents → ∀ s ∈ i.runtimeSecurity, utf16Length s.endpointUrl ≤ 2048
  /-- An inherited name passes the policy of the control plane. -/
  configuration : kind = .anthropicMessages → ∀ value ∈ i.connection.providerConfiguration,
    value.strictKeys ["workspaceId", "__proto__"] = true

theorem utf16Length_b64 (bytes : List UInt8) : utf16Length (b64 bytes) = (4 * bytes.length + 2) / 3 := by
  rw [b64, utf16Length_ofList, Base64Url.length_encode]
  intro c hc
  have := Base64Url.encode_ascii hc
  omega

variable {s : String} {options : Json} {base : ProviderFields} {fields : List (String × Option Json)}

theorem bounded_iff {max : ℕ} : bounded max s = true ↔ 1 ≤ utf16Length s ∧ utf16Length s ≤ max := by
  rw [bounded, Bool.and_eq_true, decide_eq_true_eq, decide_eq_true_eq]

theorem bounded_mono {m n : ℕ} (hmn : m ≤ n) (h : bounded m s = true) : bounded n s = true := by
  rw [bounded_iff] at h ⊢
  omega

theorem isEnvelope_iff (key : WrappingKey) (credential aad : String) :
    isEnvelope (envelope C key credential aad) = true ↔
      byteLength credential ≤ 12272 ∧ key.modulusLength ≤ 1536 := by
  have hfits : isEnvelope (envelope C key credential aad) =
      (true && (bounded 128 (b64 (C.digest key.der)) && (true && (bounded 2048 (b64 (C.wrap key aad)) &&
        (bounded 64 (b64 (C.iv aad)) && (bounded 16384 (b64 (C.encrypt credential aad)) && true)))))) := by
    unfold isEnvelope envelope
    rw [Json.fits_record]
    · rfl
    · simp
    · simp [envelopeSchema]
  have hpos := key.modulus_pos
  rw [hfits]
  simp only [Bool.true_and, Bool.and_true, Bool.and_eq_true, bounded_iff, utf16Length_b64, C.digest_length,
    C.wrap_length, C.iv_length, C.encrypt_length]
  omega

/-! ### Tools and profiles -/

theorem fits_tool (tool : McpCatalogueTool) : tool.toJson.fits mcpTool = true := by
  have hfits : tool.toJson.fits mcpTool =
      (bounded 128 tool.name && (Json.optional (Json.string (utf16Length · ≤ 2048)) (tool.description.map .str) &&
        (true && true))) := by
    unfold McpCatalogueTool.toJson
    rw [Json.fits_record]
    · rfl
    · simp
    · simp [mcpTool]
  have hdescribed : Json.optional (Json.string (utf16Length · ≤ 2048)) (tool.description.map .str) = true := by
    have := tool.described
    cases hdescription : tool.description with
    | none => rfl
    | some text =>
      rw [hdescription] at this
      exact this
  rw [hfits, tool.named, hdescribed]
  rfl

theorem urlText_of_passed {text : String} (h : P.url text = some text) :
    urlText P text = decide (utf16Length text ≤ 2048) := by
  rw [urlText, h]
  rfl

theorem definitionId_bounded (h : definitionId s = true) :
    bounded 80 s = true ∧ Workflow.matchDefinitionId false s.toList = true := by
  rw [definitionId, Bool.and_eq_true, decide_eq_true_eq] at h
  refine ⟨bounded_iff.mpr ⟨?_, h.2⟩, h.1⟩
  by_contra hzero
  have hempty : s = "" := utf16Length_eq_zero.mp (by omega)
  rw [hempty] at h
  cases h.1

theorem optional_envelope_iff (key : WrappingKey) (credential : Option String) (aad : String) :
    Json.optional isEnvelope (credential.map fun c => envelope C key c aad) = true ↔
      ∀ c ∈ credential, byteLength c ≤ 12272 ∧ key.modulusLength ≤ 1536 := by
  cases credential with
  | none => simp [Json.optional]
  | some c => simp [Json.optional, isEnvelope_iff]

theorem fits_grant_iff {t : AuthorizedMcpTool} (key : WrappingKey) (idempotencyKey : String)
    (h : Granted P C.digest t.toolAlias t.serverId t.url t.tool) :
    (t.toJson C key idempotencyKey).fits (authorizedMcpTool P) = true ↔
      ∀ c ∈ t.credential.filter (· ≠ ""), byteLength c ≤ 12272 ∧ key.modulusLength ≤ 1536 := by
  obtain ⟨halias, hbounded⟩ := mcpToolAlias_spec C.digest t.serverId t.tool.name
  rw [← h.named] at halias hbounded
  have hserver : (Json.record [("url", some (.str t.url)), ("transport", some (.str "streamable-http"))]).fits
      (mcpConfig P) = true := by
    rw [Json.fits_record]
    · show (urlText P t.url && (true && true)) = true
      rw [urlText_of_passed h.reachable, decide_eq_true h.short]
      rfl
    · simp
    · simp [mcpConfig]
  have hid := (definitionId_bounded h.identified).1
  rw [← optional_envelope_iff (C := C) key _
    (adtRuntimeProtocol ++ ":openai-agents:" ++ idempotencyKey ++ ":mcp:" ++ t.toolAlias)]
  unfold AuthorizedMcpTool.toJson
  generalize (t.credential.filter (· ≠ "")).map _ = credential
  have htool := fits_tool t.tool
  generalize t.tool.toJson = tool at htool
  generalize Json.record [("url", _), _] = server at hserver
  rw [Json.fits_record]
  · show ((bounded 64 t.toolAlias && isAlias t.toolAlias) && (bounded 80 t.serverId && (server.fits (mcpConfig P) &&
      (tool.fits mcpTool && (Json.optional isEnvelope credential && true))))) = true ↔
        Json.optional isEnvelope credential = true
    simp only [halias, hbounded, hid, hserver, htool, Bool.true_and, Bool.and_true]
  · simp
  · simp [authorizedMcpTool]

theorem fits_security_iff {s : AuthorizedRuntimeSecurity} (key : WrappingKey) (idempotencyKey : String)
    (h : Profiled P s.profileId s.endpointUrl s.decisionTimeoutMs) :
    (s.toJson C key idempotencyKey).fits (runtimeSecurity P) = true ↔
      utf16Length s.endpointUrl ≤ 2048 ∧ byteLength s.credential ≤ 12272 ∧ key.modulusLength ≤ 1536 := by
  obtain ⟨hid, hslug⟩ := definitionId_bounded h.identified
  obtain ⟨url, hurl, hprotocol, husername, hpassword, hsearch⟩ := h.canonical
  have hendpoint : isEndpoint P s.endpointUrl = decide (utf16Length s.endpointUrl ≤ 2048) := by
    rw [isEndpoint, urlText_of_passed h.passed, hurl, Option.any_some, hprotocol, husername, hpassword, hsearch]
    simp
  have htimed : Json.integer 250 30000 (.num s.decisionTimeoutMs) = true := by
    rw [Json.integer, decide_eq_true h.timed.1, decide_eq_true h.timed.2]
    rfl
  rw [← isEnvelope_iff (C := C) key s.credential
    (adtRuntimeProtocol ++ ":openai-agents:" ++ idempotencyKey ++ ":security:adrian")]
  unfold AuthorizedRuntimeSecurity.toJson
  generalize envelope C key s.credential _ = credential
  rw [Json.fits_record]
  · show (true && ((bounded 80 s.profileId && Workflow.matchDefinitionId false s.profileId.toList) &&
      (isEndpoint P s.endpointUrl && (Json.integer 250 30000 (.num s.decisionTimeoutMs) &&
        (isEnvelope credential && true))))) = true ↔ _
    rw [hid, hslug, hendpoint, htimed]
    simp
  · simp
  · simp [runtimeSecurity]

/-! ### Requests -/

theorem failIf_ok {bad : Bool} {category safeMessage : String} {u : Unit} (h : failIf bad category safeMessage = .ok u) :
    bad = false := by
  unfold failIf at h
  split at h
  · cases h
  · rename_i hgood
    exact Bool.eq_false_iff.mpr hgood

theorem parseOptions_ok {shape : Json.Shape} {i : AdapterInvocation P}
    (h : parseOptions shape i = .ok options) : Json.parse? shape i.options = some options := by
  unfold parseOptions at h
  cases hparse : Json.parse? shape i.options with
  | none =>
    rw [hparse] at h
    cases h
  | some out =>
    rw [hparse] at h
    rw [Except.ok.inj h]

theorem requiredCredential_ok {i : AdapterInvocation P} {credential : String}
    (h : requiredCredential i = .ok credential) : i.credential = some credential := by
  unfold requiredCredential at h
  split at h
  · rename_i value hvalue
    rw [← Except.ok.inj h]
    exact (Option.filter_eq_some_iff.mp hvalue).1
  · cases h

theorem parseConfiguration_ok {α : Type} {parsed : Except String α} {out : α} (h : parseConfiguration parsed = .ok out) :
    parsed = .ok out := by
  cases parsed with
  | error e => cases h
  | ok value => rw [Except.ok.inj h]

/-- What `start` did when it sent a request. -/
structure Sent (C : Crypto) (kind : RuntimeProviderKind) (config : ADTRuntimeConfiguration P) (i : AdapterInvocation P)
    (base : ProviderFields) (key : WrappingKey) (fields : List (String × Option Json)) : Prop where
  connection : connectionValid (requireProviderConnectionType P kind) kind i.connection = true
  untooled : kind ≠ .openaiAgents → hasTools i = false
  provided : providerFields P kind i = .ok base
  wrapping : config.wrappingPublicKey = some key
  own : kind ≠ .openaiAgents → fields = base.fields
  openai : kind = .openaiAgents → ∃ capabilities, openAIFields C config key capabilities i = .ok fields

/-- **Inversion.** What is sent is the body of the invocation. -/
theorem start_sent {kind : RuntimeProviderKind} {config : ADTRuntimeConfiguration P}
    {readiness : Except Failure (List String)} {legacyAdapter generic : Bool} {i : AdapterInvocation P} {request : Json}
    (h : start C kind config readiness legacyAdapter i = .ok (.sent generic request)) :
    ∃ base key fields, Sent C kind config i base key fields ∧
      request = requestBody C kind key i fields base.credential := by
  unfold start at h
  obtain ⟨_, hconnection, h⟩ := except_bind_ok.mp h
  obtain ⟨_, htools, h⟩ := except_bind_ok.mp h
  obtain ⟨base, hbase, h⟩ := except_bind_ok.mp h
  obtain ⟨key, hkey, h⟩ := except_bind_ok.mp h
  obtain ⟨capabilities, -, h⟩ := except_bind_ok.mp h
  have hvalid := failIf_ok hconnection
  have huntooled := failIf_ok htools
  have hwrapping : config.wrappingPublicKey = some key := by
    cases hconfig : config.wrappingPublicKey with
    | none =>
      rw [hconfig] at hkey
      cases hkey
    | some k =>
      rw [hconfig] at hkey
      rw [Except.ok.inj hkey]
  have hplain : kind ≠ .openaiAgents → hasTools i = false := by
    intro hne
    rwa [decide_eq_true hne, Bool.true_and] at huntooled
  dsimp only at h
  split at h
  · obtain ⟨u, -, hlegacy⟩ := except_map_ok.mp h
    cases hlegacy
  · obtain ⟨-, -, h⟩ := except_bind_ok.mp h
    obtain ⟨fields, hfields, h⟩ := except_bind_ok.mp h
    unfold executionFields at hfields
    obtain ⟨-, -, h⟩ := except_bind_ok.mp h
    have hrequest := (Started.sent.inj (Except.ok.inj h)).2
    refine ⟨base, key, fields, ⟨by simpa using hvalid, hplain, hbase, hwrapping, fun hne => ?_, fun heq => ?_⟩,
      hrequest.symm⟩
    · rw [if_neg hne] at hfields
      exact (Except.ok.inj hfields).symm
    · rw [if_pos heq] at hfields
      exact ⟨capabilities, hfields⟩

theorem bounded_requestId (i : AdapterInvocation P) :
    bounded 128 (String.ofList ((digestText C i.idempotencyKey).toList.take 43)) = true := by
  have hlength : ((digestText C i.idempotencyKey).toList.take 43).length = 43 := by
    rw [digestText, b64, String.toList_ofList, List.length_take, Base64Url.length_encode, C.digest_length]
    rfl
  have hplain : ∀ c ∈ (digestText C i.idempotencyKey).toList.take 43, c.toNat < 0x10000 := by
    intro c hc
    have hmem := List.mem_of_mem_take hc
    rw [digestText, b64, String.toList_ofList] at hmem
    have := Base64Url.encode_ascii hmem
    omega
  rw [bounded_iff, utf16Length_ofList hplain, hlength]
  omega

/-- The identity of an admitted invocation passes the checks of every provider; one of them also asks for an input. -/
structure IdentityOk (C : Crypto) (i : AdapterInvocation P) : Prop where
  requestId : bounded 128 (String.ofList ((digestText C i.idempotencyKey).toList.take 43)) = true
  keyed : bounded 256 i.idempotencyKey = true
  named : bounded 160 i.agentName = true
  prompted : bounded 262144 i.masterPrompt = true
  input_le : decide (utf16Length i.inputText ≤ 262144) = true

theorem AdapterInvocation.Valid.identity {i : AdapterInvocation P} (h : i.Valid C.digest) : IdentityOk C i where
  requestId := bounded_requestId i
  keyed := h.keyed
  named := bounded_mono (by omega) h.named
  prompted := bounded_mono (by decide) h.prompted
  input_le := decide_eq_true ((utf16Length_le_byteLength i.inputText).trans h.input_le)

theorem model_ok {policy : ProviderConnectionTypePolicy} {kind : RuntimeProviderKind} {connection : ConnectionDescriptor P}
    (h : connectionValid policy kind connection = true) (hpolicy : policy.modelRequired = true) :
    Json.required (boundedText 120) (connection.defaultModel.map .str) = true := by
  rw [connectionValid, hpolicy] at h
  simp only [Bool.not_true, Bool.false_or, Bool.and_eq_true] at h
  have hbound := connection.modelled
  cases hmodel : connection.defaultModel with
  | none =>
    rw [hmodel] at h
    cases h.2
  | some model =>
    rw [hmodel] at h hbound
    refine bounded_iff.mpr ⟨?_, of_decide_eq_true hbound⟩
    by_contra hzero
    have hempty : model = "" := utf16Length_eq_zero.mp (by omega)
    rw [hempty] at h
    exact absurd h.2 (by decide)

/-! ### Options -/

theorem nodup_openAIAgentsOptions : (openAIAgentsOptionsSchema.map (·.1)).Nodup := by
  simp [openAIAgentsOptionsSchema, openAIResponsesOptionsSchema]

theorem openAIOptions_ok {value : Json} (h : Json.parse? openAIAgentsOptionsSchema value = some options) :
    (options.without "executionTimeoutSeconds").fits executionOptions = true := by
  have hshape : openAIAgentsOptionsSchema.filter (·.1 ≠ "executionTimeoutSeconds") = executionOptions := by
    simp [openAIAgentsOptionsSchema, openAIResponsesOptionsSchema, executionOptions]
  rw [← hshape]
  exact Json.fits_without (Json.fits_parse nodup_openAIAgentsOptions h) "executionTimeoutSeconds"

theorem timeout_ok {value : Json} (h : Json.parse? openAIAgentsOptionsSchema value = some options) :
    Json.integer 5000 120000 (.num (agentExecutionTimeoutSeconds options * 1000)) = true := by
  have hcheck := Json.check_parse nodup_openAIAgentsOptions h
    (p := ("executionTimeoutSeconds", Json.optional (Json.integer 5 120))) (by
      simp [openAIAgentsOptionsSchema, openAIResponsesOptionsSchema, agentExecutionTimeoutMinSeconds,
        agentExecutionTimeoutMaxSeconds])
  have hrange : 5 ≤ agentExecutionTimeoutSeconds options ∧ agentExecutionTimeoutSeconds options ≤ 120 := by
    unfold agentExecutionTimeoutSeconds
    split
    · rename_i seconds hseconds
      dsimp only at hcheck
      rw [hseconds, Json.optional_some, Json.integer, Bool.and_eq_true, decide_eq_true_eq, decide_eq_true_eq] at hcheck
      exact hcheck
    · decide
  rw [Json.integer, Bool.and_eq_true, decide_eq_true_eq, decide_eq_true_eq]
  omega

theorem ollamaDefaults_ok {value : Json} (h : Json.parse? ollamaChatOptionsSchema value = some options) :
    (ollamaDefaults options).fits [("maxOutputTokens", Json.optional (Json.integer 1 32768)),
      ("executionTimeoutSeconds", Json.optional (Json.integer 5 900))] = true := by
  have hnodup : (ollamaChatOptionsSchema.map (·.1)).Nodup := by simp [ollamaChatOptionsSchema]
  have htokens := Json.check_parse hnodup h (p := ("maxOutputTokens", Json.optional (Json.integer 1 32768)))
    (by simp [ollamaChatOptionsSchema])
  have hseconds := Json.check_parse hnodup h (p := ("executionTimeoutSeconds", Json.optional (Json.integer 5 900)))
    (by simp [ollamaChatOptionsSchema])
  have hdefault : ∀ (check : Json → Bool) (value : Option Json) (fallback : Json), Json.optional check value = true →
      check fallback = true → check (value.getD fallback) = true := by
    intro check value fallback hvalue hfallback
    cases value with
    | none => exact hfallback
    | some value => exact hvalue
  rw [ollamaDefaults, Json.fits_record]
  · simp only [List.all_cons, List.all_nil, List.lookup_cons, String.reduceBEq, Option.join_some, Json.optional_some,
      hdefault _ _ _ htokens (rfl : Json.integer 1 32768 (.num 4096) = true),
      hdefault _ _ _ hseconds (rfl : Json.integer 5 900 (.num 300) = true), Bool.and_self]
  · simp
  · simp

/-! ### Configurations -/

theorem fits_anthropicConfiguration_iff {input entries : List (String × Json)}
    (h : List.Forall₂ (fun entry e => normalizeField anthropicFields entry = .ok e) input entries) :
    (Json.obj (entries.filter (·.1 ≠ "__proto__"))).fits anthropicConfiguration = true ↔
      ∀ e ∈ entries, e.1 = "workspaceId" ∨ e.1 = "__proto__" := by
  have hchecked : ∀ e ∈ entries, e.1 = "workspaceId" →
      Json.string (fun s => bounded 128 s && isWorkspaceId s) e.2 = true := by
    intro e he hname
    obtain ⟨entry, -, hentry⟩ := exists_of_forall₂_right h he
    obtain ⟨hkey, rule, s, hrule, hvalue, hne, hmax, hpattern⟩ := normalizeField_ok hentry
    rw [← hkey, hname] at hrule
    obtain rfl : { maxLength := some 128, pattern := some isWorkspaceId } = rule := Option.some.inj hrule
    rw [hvalue, Json.string_str, Bool.and_eq_true, bounded_iff]
    refine ⟨⟨?_, hmax 128 rfl⟩, hpattern isWorkspaceId rfl⟩
    by_contra hzero
    exact hne (utf16Length_eq_zero.mp (by omega))
  have hvalue : Json.optional (Json.string fun s => bounded 128 s && isWorkspaceId s)
      ((Json.obj (entries.filter (·.1 ≠ "__proto__"))).get? "workspaceId") = true := by
    rw [Json.get?_obj]
    cases hfound : (entries.filter (·.1 ≠ "__proto__")).find? (·.1 == "workspaceId") with
    | none => rfl
    | some e =>
      have hname := List.find?_some hfound
      exact hchecked e (List.mem_of_mem_filter (List.mem_of_find?_eq_some hfound)) (beq_iff_eq.mp hname)
  rw [Json.fits, Bool.and_eq_true]
  simp only [anthropicConfiguration, List.all_cons, List.all_nil, hvalue, Bool.and_true, and_true]
  unfold Json.strictKeys
  rw [List.all_eq_true]
  constructor
  · intro hall e he
    by_cases hproto : e.1 = "__proto__"
    · exact Or.inr hproto
    · have hmem := hall e (List.mem_filter.mpr ⟨he, decide_eq_true hproto⟩)
      exact Or.inl (by simpa using hmem)
  · intro hall e he
    obtain ⟨hmem, hproto⟩ := List.mem_filter.mp he
    rcases hall e hmem with hname | hname
    · simp [hname]
    · exact absurd hname (of_decide_eq_true hproto)

theorem anthropicConfiguration_iff {value configuration : Option Json}
    (h : parseAnthropicConfiguration value = .ok configuration) :
    Json.optional (Json.fits anthropicConfiguration) configuration = true ↔
      ∀ v ∈ value, v.strictKeys ["workspaceId", "__proto__"] = true := by
  cases value with
  | none =>
    cases h
    simp
  | some v =>
    obtain ⟨out, hout, rfl⟩ := except_map_ok.mp h
    obtain ⟨input, entries, hinput, hall, rfl⟩ := parseStringFields_ok hout
    cases hinput
    have hnonempty : Json.optional (Json.fits anthropicConfiguration)
        (nonempty (.obj (entries.filter (·.1 ≠ "__proto__")))) =
          (Json.obj (entries.filter (·.1 ≠ "__proto__"))).fits anthropicConfiguration := by
      cases entries.filter (·.1 ≠ "__proto__") with
      | nil => rfl
      | cons e rest => rfl
    have hkeys : input.map (·.1) = entries.map (·.1) := by
      refine List.forall₂_eq_eq_eq ▸ List.forall₂_map_left_iff.mpr (List.forall₂_map_right_iff.mpr ?_)
      exact hall.imp fun entry e he => (normalizeField_ok he).1.symm
    have hstrict : (Json.obj input).strictKeys ["workspaceId", "__proto__"] = true ↔
        ∀ name ∈ input.map (·.1), name = "workspaceId" ∨ name = "__proto__" := by
      rw [Json.strictKeys, List.all_eq_true, List.forall_mem_map]
      simp
    rw [hnonempty, fits_anthropicConfiguration_iff hall]
    simp only [Option.mem_some_iff, forall_eq', hstrict, hkeys, List.forall_mem_map]

theorem ofLabel_label (kind : RuntimeProviderKind) : RuntimeProviderKind.ofLabel kind.label = some kind := by
  cases kind
  · rfl
  · rfl
  · rfl
  · rfl

theorem schema_requestBody (kind : RuntimeProviderKind) (key : WrappingKey) (i : AdapterInvocation P)
    (fields : List (String × Option Json)) (credential : Option String) :
    providerExecutionSchema P (requestBody C kind key i fields credential) =
      executionSchemaOf P kind (requestBody C kind key i fields credential) := by
  have hcapability : ((requestBody C kind key i fields credential).get? "capability").bind Json.asStr? =
      some kind.label := rfl
  rw [providerExecutionSchema, hcapability, Option.bind_some, ofLabel_label, Option.any_some]

theorem aliases_nodup {tools : List AuthorizedMcpTool} (key : WrappingKey) (idempotencyKey : String)
    (h : (tools.map (·.toolAlias)).Nodup) :
    ((tools.map (AuthorizedMcpTool.toJson C key idempotencyKey)).map fun t =>
      (t.get? "alias").bind Json.asStr?).Nodup := by
  have halias : ((tools.map (AuthorizedMcpTool.toJson C key idempotencyKey)).map fun t =>
      (t.get? "alias").bind Json.asStr?) = (tools.map (·.toolAlias)).map some := by
    rw [List.map_map, List.map_map]
    rfl
  rw [halias]
  exact h.map (Option.some_injective _)

section Shapes

variable {i : AdapterInvocation P} (hid : IdentityOk C i) (key : WrappingKey)

include hid

variable {options : Json} (credential : String)

theorem anthropic_fits_iff (configuration : Option Json) (credential : String)
    (hmodel : Json.required (boundedText 120) (i.connection.defaultModel.map .str) = true)
    (hoptions : options.fits [("maxOutputTokens", Json.optional (Json.integer 1 32768))] = true) :
    providerExecutionSchema P (requestBody C .anthropicMessages key i
      [("model", i.connection.defaultModel.map .str), ("options", some options), ("configuration", configuration)]
      (some credential)) = true ↔
      Json.optional (Json.fits anthropicConfiguration) configuration = true ∧ byteLength credential ≤ 12272 ∧
        key.modulusLength ≤ 1536 := by
  rw [← isEnvelope_iff (C := C) key credential
    (adtRuntimeProtocol ++ ":" ++ RuntimeProviderKind.anthropicMessages.label ++ ":" ++ i.idempotencyKey)]
  rw [schema_requestBody, executionSchemaOf, requestBody]
  rw [Option.map_some]
  generalize envelope C key credential _ = wrapped
  generalize i.connection.defaultModel.map Json.str = model at hmodel
  rw [Json.fits_record]
  · simp only [anthropicExecutionSchema, providerIdentity, List.cons_append, List.nil_append, List.all_cons, List.all_nil,
      List.lookup_cons, String.reduceBEq, Option.join_some, Json.required_some, Json.string_str, literal_str,
      boundedText_str, hid.requestId, hid.keyed, hid.named, hid.prompted, hid.input_le, hmodel, hoptions,
      RuntimeProviderKind.label, beq_self_eq_true, Bool.true_and, Bool.and_true, Bool.and_eq_true]
  · simp
  · simp [anthropicExecutionSchema, providerIdentity]

theorem workIq_fits_iff (hoptions : options.fits (workIqRestOptionsSchema P) = true) :
    providerExecutionSchema P (requestBody C .workIqRest key i [("options", some options)] (some credential)) = true ↔
      byteLength credential ≤ 12272 ∧ key.modulusLength ≤ 1536 := by
  rw [← isEnvelope_iff (C := C) key credential
    (adtRuntimeProtocol ++ ":" ++ RuntimeProviderKind.workIqRest.label ++ ":" ++ i.idempotencyKey)]
  rw [schema_requestBody, executionSchemaOf, requestBody]
  rw [Option.map_some]
  generalize envelope C key credential _ = wrapped
  rw [workIqRestOptionsSchema] at hoptions
  rw [Json.fits_record]
  · simp only [workIqExecutionSchema, providerIdentity, List.cons_append, List.nil_append, List.all_cons, List.all_nil,
      List.lookup_cons, String.reduceBEq, Option.join_some, Json.required_some, Json.string_str, literal_str,
      boundedText_str, hid.requestId, hid.keyed, hid.named, hid.prompted, hid.input_le, hoptions,
      RuntimeProviderKind.label, beq_self_eq_true, Bool.true_and, Bool.and_true]
  · simp
  · simp [workIqExecutionSchema, providerIdentity]

theorem ollama_fits_iff {configuration : OllamaConfiguration} (credential : Option String)
    (hmodel : Json.required (boundedText 120) (i.connection.defaultModel.map .str) = true)
    (hoptions : options.fits [("maxOutputTokens", Json.optional (Json.integer 1 32768)),
      ("executionTimeoutSeconds", Json.optional (Json.integer 5 900))] = true)
    (hparsed : parseOllamaConfiguration P (some configuration.toJson) = .ok configuration)
    (hcredential : credential.isSome = decide (configuration.authMode = .bearer)) :
    providerExecutionSchema P (requestBody C .ollamaChat key i
      [("model", i.connection.defaultModel.map .str), ("configuration", some configuration.toJson),
        ("options", some options)] credential) = true ↔
      ∀ c ∈ credential, byteLength c ≤ 12272 ∧ key.modulusLength ≤ 1536 := by
  rw [← optional_envelope_iff (C := C) key credential
    (adtRuntimeProtocol ++ ":" ++ RuntimeProviderKind.ollamaChat.label ++ ":" ++ i.idempotencyKey)]
  rw [schema_requestBody, executionSchemaOf, ollamaExecutionSchema, requestBody]
  have hsome : (credential.map fun credential => envelope C key credential
      (adtRuntimeProtocol ++ ":" ++ RuntimeProviderKind.ollamaChat.label ++ ":" ++ i.idempotencyKey)).isSome =
        decide (configuration.authMode = .bearer) := by
    rw [Option.isSome_map, hcredential]
  generalize credential.map _ = wrapped at hsome ⊢
  generalize i.connection.defaultModel.map Json.str = model at hmodel
  rw [Json.fits_record, checkOllamaCredential, Json.get?_record, Json.get?_record]
  · simp only [ollamaShape, providerIdentity, List.cons_append, List.nil_append, List.all_cons, List.all_nil,
      List.lookup_cons, String.reduceBEq, Option.join_some, Json.required_some, Json.string_str, literal_str,
      boundedText_str, hid.requestId, hid.keyed, hid.named, hid.prompted, hid.input_le, hmodel, hoptions, hparsed, hsome,
      Except.isOk, Except.toBool, RuntimeProviderKind.label, beq_self_eq_true, Bool.true_and, Bool.and_true]
  · simp
  · simp
  · simp
  · simp [ollamaShape, providerIdentity]

theorem openAI_fits_iff {gateway timeout : Option Json}
    (hvalid : i.Valid C.digest) (hmodel : Json.required (boundedText 120) (i.connection.defaultModel.map .str) = true)
    (hoptions : options.fits executionOptions = true)
    (htimeout : Json.optional (Json.integer 5000 120000) timeout = true)
    (hgateway : i.usesArtifactSearch = true → gateway.isSome = true) :
    providerExecutionSchema P (requestBody C .openaiAgents key i
      [("model", i.connection.defaultModel.map .str), ("options", some options), ("executionTimeoutMs", timeout),
        ("tools", some (.arr (if i.usesArtifactSearch then [.str "artifact_search"] else []))), ("toolGateway", gateway),
        ("mcpTools", some (.arr ((i.authorizedMcpTools.getD []).map (AuthorizedMcpTool.toJson C key i.idempotencyKey)))),
        ("runtimeSecurity", i.runtimeSecurity.map (AuthorizedRuntimeSecurity.toJson C key i.idempotencyKey))]
      (some credential)) = true ↔ i.inputText ≠ "" ∧ Json.optional (Json.fits (toolGatewaySchema P)) gateway = true ∧
        (∀ t ∈ i.authorizedMcpTools.getD [], ∀ c ∈ t.credential.filter (· ≠ ""),
          byteLength c ≤ 12272 ∧ key.modulusLength ≤ 1536) ∧ (∀ s ∈ i.runtimeSecurity,
          utf16Length s.endpointUrl ≤ 2048 ∧ byteLength s.credential ≤ 12272 ∧ key.modulusLength ≤ 1536) ∧
        byteLength credential ≤ 12272 ∧ key.modulusLength ≤ 1536 := by
  rw [← isEnvelope_iff (C := C) key credential
    (adtRuntimeProtocol ++ ":" ++ RuntimeProviderKind.openaiAgents.label ++ ":" ++ i.idempotencyKey)]
  rw [schema_requestBody, executionSchemaOf, executionSchema, requestBody, Option.map_some]
  have hinput : bounded 262144 i.inputText = true ↔ i.inputText ≠ "" := by
    have hle := of_decide_eq_true hid.input_le
    rw [bounded_iff, ← not_iff_not, not_ne_iff, ← utf16Length_eq_zero]
    omega
  have hgrants : ((i.authorizedMcpTools.getD []).map (AuthorizedMcpTool.toJson C key i.idempotencyKey)).all
      (Json.fits (authorizedMcpTool P)) = true ↔ ∀ t ∈ i.authorizedMcpTools.getD [],
        ∀ c ∈ t.credential.filter (· ≠ ""), byteLength c ≤ 12272 ∧ key.modulusLength ≤ 1536 := by
    rw [List.all_map, List.all_eq_true]
    exact forall₂_congr fun t ht => fits_grant_iff key i.idempotencyKey (hvalid.granted t ht)
  have hsecurity : Json.optional (Json.fits (runtimeSecurity P))
      (i.runtimeSecurity.map (AuthorizedRuntimeSecurity.toJson C key i.idempotencyKey)) = true ↔ ∀ s ∈ i.runtimeSecurity,
        utf16Length s.endpointUrl ≤ 2048 ∧ byteLength s.credential ≤ 12272 ∧ key.modulusLength ≤ 1536 := by
    have hprofiled := hvalid.profiled
    cases hruntime : i.runtimeSecurity with
    | none => simp
    | some s =>
      rw [Option.map_some, Json.optional_some, fits_security_iff key i.idempotencyKey (hprofiled s hruntime)]
      simp
  have hfew : ((i.authorizedMcpTools.getD []).map (AuthorizedMcpTool.toJson C key i.idempotencyKey)).length ≤ 128 := by
    rw [List.length_map]
    exact hvalid.few
  have haliases := aliases_nodup (C := C) key i.idempotencyKey hvalid.distinct
  have htools : (arrayOf (literal "artifact_search") 1
      (.arr (if i.usesArtifactSearch then [.str "artifact_search"] else []))) = true := by
    cases i.usesArtifactSearch
    · rfl
    · rfl
  have hneeded : ((itemsOf (some (.arr (if i.usesArtifactSearch then [.str "artifact_search"] else [])))).isEmpty ||
      gateway.isSome) = true := by
    cases huses : i.usesArtifactSearch with
    | false => rfl
    | true =>
      rw [hgateway huses]
      rfl
  generalize envelope C key credential _ = wrapped
  generalize i.connection.defaultModel.map Json.str = model at hmodel
  generalize Json.arr (if i.usesArtifactSearch then [.str "artifact_search"] else []) = tools at htools hneeded
  rw [← hgrants, ← hsecurity, ← hinput]
  generalize (i.authorizedMcpTools.getD []).map (AuthorizedMcpTool.toJson C key i.idempotencyKey) = grants at hfew haliases
  generalize i.runtimeSecurity.map (AuthorizedRuntimeSecurity.toJson C key i.idempotencyKey) = security
  have hbound : decide (grants.length ≤ 128) = true := decide_eq_true hfew
  have hunique : decide ((itemsOf (some (.arr grants))).map fun t => (t.get? "alias").bind Json.asStr?).Nodup = true :=
    decide_eq_true haliases
  rw [Json.fits_record, executionRefined, Json.get?_record, Json.get?_record, Json.get?_record]
  · simp only [executionShape, List.cons_append, List.nil_append, List.all_cons, List.all_nil,
      List.lookup_cons, String.reduceBEq, Option.join_some, Json.required_some, Json.optional_some, literal_str,
      boundedText_str, arrayOf_arr, hid.requestId, hid.keyed, hid.named, hid.prompted, hmodel, hoptions, htimeout, htools,
      hneeded, RuntimeProviderKind.label, beq_self_eq_true, Bool.true_and, Bool.and_true, Bool.and_eq_true]
    simp only [hbound, hunique, and_true]
  · simp
  · simp
  · simp
  · simp
  · simp [executionShape]

end Shapes

/-! ### Which requests are accepted -/

variable {kind : RuntimeProviderKind} {config : ADTRuntimeConfiguration P} {i : AdapterInvocation P} {key : WrappingKey}

theorem mem_credentials {c : String} : c ∈ i.credentials ↔ c ∈ i.credential ∨
    (∃ t ∈ i.authorizedMcpTools.getD [], c ∈ t.credential.filter (· ≠ "")) ∨
      ∃ s ∈ i.runtimeSecurity, s.credential = c := by
  rw [AdapterInvocation.credentials, List.mem_append, List.mem_append, List.mem_filterMap, Option.mem_toList,
    Option.mem_toList, or_assoc]
  simp only [Option.mem_def, Option.map_eq_some_iff]

theorem credentials_untooled (h : hasTools i = false) : i.credentials = i.credential.toList := by
  rw [hasTools, Bool.or_eq_false_iff, Bool.or_eq_false_iff, Bool.not_eq_false', List.isEmpty_iff, Bool.not_eq_false',
    List.isEmpty_iff, Option.isSome_eq_false_iff, Option.isNone_iff_eq_none] at h
  rw [AdapterInvocation.credentials, h.1.2, h.2]
  simp

theorem acceptable_untooled_iff (hkind : kind ≠ .openaiAgents) (hkey : config.wrappingPublicKey = some key)
    (h : hasTools i = false) : Acceptable kind config i ↔
      (∀ c ∈ i.credential, byteLength c ≤ 12272 ∧ key.modulusLength ≤ 1536) ∧
        (kind = .anthropicMessages → ∀ value ∈ i.connection.providerConfiguration,
          value.strictKeys ["workspaceId", "__proto__"] = true) := by
  have hcredentials := credentials_untooled h
  constructor
  · intro hacceptable
    refine ⟨fun c hc => ?_, hacceptable.configuration⟩
    have hmem : c ∈ i.credentials := by
      rw [hcredentials]
      exact Option.mem_toList.mpr hc
    exact ⟨hacceptable.credentials c hmem, hacceptable.wrapping (List.ne_nil_of_mem hmem) key hkey⟩
  · rintro ⟨hall, hconfiguration⟩
    refine ⟨fun heq => absurd heq hkind, fun c hc => ?_, fun hne k hk => ?_, fun heq => absurd heq hkind,
      fun heq => absurd heq hkind, hconfiguration⟩
    · rw [hcredentials] at hc
      exact (hall c (Option.mem_toList.mp hc)).1
    · obtain ⟨c, hc⟩ := List.exists_mem_of_ne_nil _ hne
      rw [hcredentials] at hc
      obtain rfl : key = k := Option.some.inj (hkey.symm.trans hk)
      exact (hall c (Option.mem_toList.mp hc)).2

theorem anthropic_accepted_iff (hvalid : i.Valid C.digest) (h : Sent C .anthropicMessages config i base key fields) :
    providerExecutionSchema P (requestBody C .anthropicMessages key i fields base.credential) = true ↔
      Acceptable .anthropicMessages config i := by
  obtain ⟨options, hoptions, hrest⟩ := except_bind_ok.mp h.provided
  obtain ⟨credential, hcredential, hrest⟩ := except_bind_ok.mp hrest
  obtain ⟨configuration, hconfiguration, hbase⟩ := except_bind_ok.mp hrest
  have hfits : options.fits anthropicMessagesOptionsSchema = true :=
    Json.fits_parse (by simp [anthropicMessagesOptionsSchema]) (parseOptions_ok hoptions)
  have hmodel := model_ok h.connection rfl
  rw [h.own (by decide), ← Except.ok.inj hbase, anthropic_fits_iff hvalid.identity key configuration credential hmodel hfits,
    anthropicConfiguration_iff (parseConfiguration_ok hconfiguration),
    acceptable_untooled_iff (by decide) h.wrapping (h.untooled (by decide)), requiredCredential_ok hcredential]
  constructor
  · rintro ⟨hnames, hsmall⟩
    exact ⟨fun c hc => Option.some.inj hc ▸ hsmall, fun _ => hnames⟩
  · rintro ⟨hsmall, hnames⟩
    exact ⟨hnames rfl, hsmall credential rfl⟩

theorem workIq_accepted_iff (hvalid : i.Valid C.digest) (h : Sent C .workIqRest config i base key fields) :
    providerExecutionSchema P (requestBody C .workIqRest key i fields base.credential) = true ↔
      Acceptable .workIqRest config i := by
  obtain ⟨credential, hcredential, hrest⟩ := except_bind_ok.mp h.provided
  obtain ⟨options, hoptions, hbase⟩ := except_bind_ok.mp hrest
  have hfits : options.fits (workIqRestOptionsSchema P) = true :=
    Json.fits_parse (by simp [workIqRestOptionsSchema]) (parseOptions_ok hoptions)
  rw [h.own (by decide), ← Except.ok.inj hbase, workIq_fits_iff hvalid.identity key credential hfits,
    acceptable_untooled_iff (by decide) h.wrapping (h.untooled (by decide)), requiredCredential_ok hcredential]
  constructor
  · intro hsmall
    exact ⟨fun c hc => Option.some.inj hc ▸ hsmall, fun heq => by cases heq⟩
  · rintro ⟨hsmall, -⟩
    exact hsmall credential rfl

theorem ollamaCredential_ok {mode : AuthMode} {credential : Option String} (h : ollamaCredential i mode = .ok credential) :
    credential = i.credential ∧ credential.isSome = decide (mode = .bearer) := by
  cases mode with
  | bearer =>
    obtain ⟨value, hvalue, rfl⟩ := except_map_ok.mp h
    exact ⟨(requiredCredential_ok hvalue).symm, rfl⟩
  | none =>
    obtain ⟨u, hnone, rfl⟩ := except_map_ok.mp h
    have := failIf_ok hnone
    rw [Option.isSome_eq_false_iff, Option.isNone_iff_eq_none] at this
    exact ⟨this.symm, rfl⟩

theorem ollama_accepted_iff (hP : P.Lawful)
    (hvalid : i.Valid C.digest) (h : Sent C .ollamaChat config i base key fields) :
    providerExecutionSchema P (requestBody C .ollamaChat key i fields base.credential) = true ↔
      Acceptable .ollamaChat config i := by
  obtain ⟨options, hoptions, hrest⟩ := except_bind_ok.mp h.provided
  obtain ⟨configuration, hconfiguration, hrest⟩ := except_bind_ok.mp hrest
  obtain ⟨credential, hcredential, hbase⟩ := except_bind_ok.mp hrest
  have hmodel := model_ok h.connection rfl
  -- the snapshot was parsed when the run was read, so the configuration is the one it holds
  have hparsed : parseOllamaConfiguration P (some configuration.toJson) = .ok configuration := by
    have hadapter : i.connection.adapter = RuntimeProviderKind.ollamaChat.label := by
      have hconnection := h.connection
      rw [connectionValid] at hconnection
      simp only [Bool.and_eq_true, beq_iff_eq] at hconnection
      exact hconnection.1.1.1
    obtain ⟨value, hvalue⟩ := i.connection.configured .ollamaChat hadapter
    have hread : (parseOllamaConfiguration P value).map (fun c => some c.toJson) =
        .ok i.connection.providerConfiguration := by
      rw [snapshotConfiguration, if_neg (by simp)] at hvalue
      exact hvalue
    obtain ⟨c, hc, hown⟩ := except_map_ok.mp hread
    have hagain := parseConfiguration_ok hconfiguration
    rw [← hown] at hagain
    obtain rfl := parseOllamaConfiguration_of_parsed hP hc hagain
    exact hagain
  obtain ⟨rfl, hbearer⟩ := ollamaCredential_ok hcredential
  rw [h.own (by decide), ← Except.ok.inj hbase, ollama_fits_iff hvalid.identity key i.credential hmodel
    (ollamaDefaults_ok (parseOptions_ok hoptions)) hparsed hbearer,
    acceptable_untooled_iff (by decide) h.wrapping (h.untooled (by decide))]
  constructor
  · intro hsmall
    exact ⟨hsmall, fun heq => by cases heq⟩
  · rintro ⟨hsmall, -⟩
    exact hsmall

theorem gateway_iff {gateway : Option Json} (h : toolGateway config i = .ok gateway) :
    (i.usesArtifactSearch = true → gateway.isSome = true) ∧
      (Json.optional (Json.fits (toolGatewaySchema P)) gateway = true ↔
        (i.usesArtifactSearch = true → ∀ url ∈ config.toolGatewayUrl, ∀ authority ∈ config.toolAuthority,
          urlText P url = true ∧ bounded 4096 (authority i) = true)) := by
  unfold toolGateway at h
  split at h
  · rename_i huses
    split at h
    · rename_i url authority hurl hauthority
      cases h
      have hconfigured := (Option.filter_eq_some_iff.mp hurl).1
      refine ⟨fun _ => rfl, ?_⟩
      rw [Json.optional_some, Json.fits_record, hconfigured, hauthority]
      · simp only [toolGatewaySchema, List.all_cons, List.all_nil, List.lookup_cons, String.reduceBEq, Option.join_some,
          Json.required_some, Json.string_str, boundedText_str, Bool.and_true, Bool.and_eq_true, huses, forall_const,
          Option.mem_some_iff, forall_eq']
      · simp
      · simp [toolGatewaySchema]
    · cases h
  · rename_i huses
    cases h
    exact ⟨fun h => absurd h huses, ⟨fun _ h => absurd h huses, fun _ => rfl⟩⟩

/-- The tool gateway and the timeout are checked as well. -/
theorem openAI_accepted_iff (hvalid : i.Valid C.digest) (h : Sent C .openaiAgents config i base key fields) :
    providerExecutionSchema P (requestBody C .openaiAgents key i fields base.credential) = true ↔
      Acceptable .openaiAgents config i := by
  obtain ⟨-, -, hrest⟩ := except_bind_ok.mp h.provided
  obtain ⟨credential, hcredential, hbase⟩ := except_bind_ok.mp hrest
  obtain ⟨capabilities, hfields⟩ := h.openai rfl
  unfold openAIFields at hfields
  obtain ⟨options, hoptions, hrest⟩ := except_bind_ok.mp hfields
  obtain ⟨-, -, hrest⟩ := except_bind_ok.mp hrest
  obtain ⟨-, -, hrest⟩ := except_bind_ok.mp hrest
  obtain ⟨-, -, hrest⟩ := except_bind_ok.mp hrest
  obtain ⟨-, -, hrest⟩ := except_bind_ok.mp hrest
  obtain ⟨gateway, hgateway, hrest⟩ := except_bind_ok.mp hrest
  obtain ⟨hneeded, hallowed⟩ := gateway_iff hgateway
  have hparsed := parseOptions_ok hoptions
  have hmodel := model_ok h.connection rfl
  have htimeout : ∀ sent : Bool, Json.optional (Json.integer 5000 120000)
      (if sent then some (.num (agentExecutionTimeoutSeconds options * 1000)) else none) = true := by
    intro sent
    cases sent
    · rfl
    · exact timeout_ok hparsed
  rw [← Except.ok.inj hrest, ← Except.ok.inj hbase,
    openAI_fits_iff hvalid.identity key credential hvalid hmodel (openAIOptions_ok hparsed) (htimeout _) hneeded, hallowed]
  have hown : credential ∈ i.credentials := mem_credentials.mpr (Or.inl (requiredCredential_ok hcredential))
  constructor
  · rintro ⟨hinput, hgate, hgrants, hsecurity, hsmall, hwrapping⟩
    refine ⟨fun _ => hinput, fun c hc => ?_, fun _ k hk => ?_, fun _ => hgate, fun _ s hs => (hsecurity s hs).1,
      fun heq => by cases heq⟩
    · rcases mem_credentials.mp hc with hc | ⟨t, ht, hc⟩ | ⟨s, hs, rfl⟩
      · rw [requiredCredential_ok hcredential] at hc
        exact Option.some.inj hc ▸ hsmall
      · exact (hgrants t ht c hc).1
      · exact (hsecurity s hs).2.1
    · obtain rfl : key = k := Option.some.inj (h.wrapping.symm.trans hk)
      exact hwrapping
  · intro hacceptable
    have hwrapping : key.modulusLength ≤ 1536 := hacceptable.wrapping (List.ne_nil_of_mem hown) key h.wrapping
    refine ⟨hacceptable.input rfl, hacceptable.gateway rfl, fun t ht c hc => ⟨?_, hwrapping⟩,
      fun s hs => ⟨hacceptable.endpoint rfl s hs, ?_, hwrapping⟩, hacceptable.credentials credential hown, hwrapping⟩
    · exact hacceptable.credentials c (mem_credentials.mpr (Or.inr (Or.inl ⟨t, ht, hc⟩)))
    · exact hacceptable.credentials s.credential (mem_credentials.mpr (Or.inr (Or.inr ⟨s, hs, rfl⟩)))

/-- **Acceptance**: the Runtime accepts the request of an admitted run if and only if it is acceptable. -/
theorem accepted_iff (hP : P.Lawful) {run : WorkflowRun P C.digest} {attempt : StepAttempt} {live : ResolvedConnection}
    {resolveTool : String → Except String String} {resolveProfile : String → String → Except String String}
    (hinvocation : nodeInvocation run attempt live resolveTool resolveProfile = .ok i)
    {readiness : Except Failure (List String)} {legacyAdapter generic : Bool} {request : Json}
    (hstart : start C kind config readiness legacyAdapter i = .ok (.sent generic request)) :
    providerExecutionSchema P request = true ↔ Acceptable kind config i := by
  have hvalid := nodeInvocation_valid hP hinvocation
  obtain ⟨base, key, fields, hsent, rfl⟩ := start_sent hstart
  cases kind with
  | openaiAgents => exact openAI_accepted_iff hvalid hsent
  | anthropicMessages => exact anthropic_accepted_iff hvalid hsent
  | workIqRest => exact workIq_accepted_iff hvalid hsent
  | ollamaChat => exact ollama_accepted_iff hP hvalid hsent

theorem start_sends {capabilities : List String}
    {legacyAdapter : Bool} (hconnection : connectionValid (requireProviderConnectionType P kind) kind i.connection = true)
    (huntooled : (kind ≠ .openaiAgents && hasTools i) = false) (hbase : providerFields P kind i = .ok base)
    (hkey : config.wrappingPublicKey = some key)
    (hgeneric : capabilities.contains adtRuntimeProviderCapability = true)
    (hserved : capabilities.contains kind.label = true)
    (hfields : executionFields C config kind base key capabilities i = .ok fields)
    (hsize : (requestBody C kind key i fields base.credential).sizeBound ≤ maxBodyBytes) :
    start C kind config (.ok capabilities) legacyAdapter i =
      .ok (.sent true (requestBody C kind key i fields base.credential)) := by
  have hfits : decide (maxBodyBytes < byteLength (requestBody C kind key i fields base.credential).stringify) = false := by
    have hle := Json.size_le_sizeBound (requestBody C kind key i fields base.credential)
    rw [Json.size] at hle
    rw [decide_eq_false_iff_not]
    omega
  unfold start
  rw [hconnection, huntooled, hbase, hkey]
  simp only [failIf, Option.elim_some, bind, Except.bind, Bool.not_true, Bool.false_and, Bool.false_eq_true, if_false,
    hgeneric, hserved, hfields, hfits]

end Acceptance

/-! ### A review -/

section Review

def endpoint : String := "wss://adrian.example.com/"

def endpointUrl : Url :=
  { protocol := "wss:", username := "", password := "", hostname := "adrian.example.com", port := "", pathname := "/",
    search := "", hash := "" }

/-- A platform that knows one URL. -/
def oneUrl : Platform where
  parseUrl text := if text = endpoint then some endpointUrl else none
  href url := if url = endpointUrl then endpoint else ""
  origin _ := "wss://adrian.example.com"
  url text := if text = endpoint then some endpoint else none
  isTimeZone name := name = "UTC"

theorem oneUrl_lawful : oneUrl.Lawful where
  url_url := by
    intro text out h
    simp only [oneUrl] at h ⊢
    split at h
    · cases h
      rfl
    · cases h
  origin_origin := by
    intro text url again _ _
    rfl
  parse_href := by
    intro text url h _
    simp only [oneUrl] at h
    split at h
    · cases h
      rfl
    · cases h
  url_href := by
    intro text url h _
    simp only [oneUrl] at h
    split at h
    · cases h
      rfl
    · cases h

def zeros : Crypto where
  digest _ := List.replicate 32 0
  wrap key _ := List.replicate key.modulusLength 0
  iv _ := List.replicate 12 0
  encrypt credential _ := List.replicate (byteLength credential + 16) 0
  digest_length _ := List.length_replicate
  wrap_length _ _ := List.length_replicate
  iv_length _ := List.length_replicate
  encrypt_length _ _ := List.length_replicate

def reviewer : AgentSnapshot :=
  { id := "reviewer", name := "Reviewer", masterPrompt := "Review the change.", securityProfileId := some "adrian",
    tools := none, adapterOptions := none, named := by decide, prompted := by decide }

theorem openAI_snapshot (kind : RuntimeProviderKind) (h : "openai-agents" = kind.label) :
    ∃ value, snapshotConfiguration oneUrl kind value = .ok none := by
  cases kind with
  | openaiAgents => exact ⟨none, rfl⟩
  | anthropicMessages => exact absurd h (by decide)
  | workIqRest => exact absurd h (by decide)
  | ollamaChat => exact absurd h (by decide)

def openAIConnection : ConnectionDescriptor oneUrl :=
  { adapter := "openai-agents", enabled := true, endpoint := some "https://api.openai.com/v1",
    defaultModel := some "gpt-5", providerConfiguration := none, modelled := by decide, configured := openAI_snapshot }

def adrian : SecurityProfileDefinition oneUrl :=
  { id := "adrian", endpointUrl := endpoint, decisionTimeoutMs := 5000, identified := by decide,
    canonical := ⟨endpoint, rfl⟩, timed := by decide }

def reviewRun : WorkflowRun oneUrl zeros.digest :=
  { id := "5f0c2b3e-8f3d-4c56-9a7e-0d6a1f0b9c11"
    agentSnapshots := [("reviewer", reviewer)]
    connectionSnapshots := [("openai", openAIConnection)]
    mcpToolSnapshots := []
    securityProfileSnapshots := [("reviewer", ⟨"adrian", endpoint, 5000, "spb_1"⟩)]
    attempts := []
    uuid := by decide
    frozenTools := ⟨[], fun _ => "", [], rfl⟩
    readTools := fun _ h => by cases h
    frozenProfiles := ⟨[adrian], fun _ => .ok "spb_1", [reviewer], rfl⟩ }

/-- The attempt of the one node, with its input. -/
def reviewAttempt (input : String) (h : byteLength input ≤ maxText) : StepAttempt :=
  { runId := reviewRun.id, stepId := "review", graphActivationId := none, iteration := 1, attempt := 1,
    agentId := "reviewer", connectionKey := "openai", succeeded := false, inputText := some input,
    providerTaskId := none, conversationSource := none, identified := by decide, iteration_lt := by decide,
    attempt_lt := by decide, input_le := decide_eq_true h }

def runtimeConfiguration : ADTRuntimeConfiguration oneUrl :=
  { wrappingPublicKey := some ⟨[], 256, by decide⟩, toolGatewayUrl := none, toolAuthority := none }

def liveConnection : ResolvedConnection := ⟨"openai-agents", true, some "sk-1"⟩

def reviewCapabilities : List String := ["provider-execution", "openai-agents", "security:adrian"]

/-- What `durableInvocation` makes of the attempt. -/
def reviewInvocation (input : String) : AdapterInvocation oneUrl :=
  { idempotencyKey := reviewRun.id ++ ":" ++ "review" ++ ":" ++ toString 1 ++ ":" ++ toString 1, agentName := "Reviewer"
    masterPrompt := "Review the change.", inputText := input, tools := none, authorizedMcpTools := none
    runtimeSecurity := some ⟨"adrian", endpoint, 5000, "adr-1"⟩, connection := openAIConnection
    credential := some "sk-1", providerOptions := none, conversationRef := none }

theorem reviewInvocation_eq (input : String) (h : byteLength input ≤ maxText) :
    nodeInvocation reviewRun (reviewAttempt input h) liveConnection .ok (fun _ _ => .ok "adr-1") =
      .ok (reviewInvocation input) := rfl

def reviewKey : WrappingKey := ⟨[], 256, by decide⟩

def reviewFields (input : String) : List (String × Option Json) :=
  [("model", some (.str "gpt-5")), ("options", some (.obj [])), ("executionTimeoutMs", none), ("tools", some (.arr [])),
    ("toolGateway", none), ("mcpTools", some (.arr [])),
    ("runtimeSecurity", (reviewInvocation input).runtimeSecurity.map
      (AuthorizedRuntimeSecurity.toJson zeros reviewKey (reviewInvocation input).idempotencyKey))]

def reviewRequest (input : String) : Json :=
  requestBody zeros .openaiAgents reviewKey (reviewInvocation input) (reviewFields input) (some "sk-1")

theorem review_sent (input : String) (hsize : (reviewRequest input).sizeBound ≤ maxBodyBytes) :
    start zeros .openaiAgents runtimeConfiguration (.ok reviewCapabilities) false (reviewInvocation input) =
      .ok (.sent true (reviewRequest input)) := by
  have hbase : providerFields oneUrl .openaiAgents (reviewInvocation input) = .ok ⟨some "sk-1", []⟩ := rfl
  have hfields : executionFields zeros runtimeConfiguration .openaiAgents ⟨some "sk-1", []⟩ reviewKey reviewCapabilities
      (reviewInvocation input) = .ok (reviewFields input) := rfl
  exact start_sends rfl rfl hbase rfl rfl rfl hfields hsize

theorem review_accepted : providerExecutionSchema oneUrl (reviewRequest "Hello.") = true :=
  (accepted_iff oneUrl_lawful (reviewInvocation_eq "Hello." (by decide)) (review_sent "Hello." (by decide +kernel))).mpr
    { input := fun _ => by decide
      credentials := by decide
      wrapping := fun _ k hk => by
        obtain rfl : reviewKey = k := Option.some.inj hk
        decide
      gateway := fun _ h => by cases h
      endpoint := fun _ s hs => by
        cases hs
        decide
      configuration := fun h => by cases h }

/-- An empty input is sent and refused. -/
theorem emptyInput_refused : providerExecutionSchema oneUrl (reviewRequest "") = false ∧
    nodeInvocation reviewRun (reviewAttempt "" (by decide)) liveConnection .ok (fun _ _ => .ok "adr-1") =
      .ok (reviewInvocation "") ∧
    start zeros .openaiAgents runtimeConfiguration (.ok reviewCapabilities) false (reviewInvocation "") =
      .ok (.sent true (reviewRequest "")) := by
  have hsent := review_sent "" (by decide +kernel)
  refine ⟨?_, reviewInvocation_eq "" (by decide), hsent⟩
  have hvalid := nodeInvocation_valid oneUrl_lawful (reviewInvocation_eq "" (by decide))
  obtain ⟨base, key, fields, h, hrequest⟩ := start_sent hsent
  rw [Bool.eq_false_iff, hrequest]
  intro haccepted
  exact ((openAI_accepted_iff hvalid h).mp haccepted).input rfl rfl

end Review

end ADT.Provider
