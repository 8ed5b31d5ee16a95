import ADT.Lib.Basics
import ADT.Lib.JsonSize
import ADT.Lib.Shape

/-!
# Provider.Policies — connection types, options and safe configurations

What `lib/provider-connection-types.ts` and `lib/workflow-adapter.ts` say of the four providers the ADT Runtime serves:
the endpoint and the model a connection must have, its configuration that is no secret, and the options of an agent.

* `parseOllamaConfiguration_of_parsed`: a configuration that was parsed parses to itself.
-/

namespace ADT.Provider

/-- The parts of a URL the program reads. -/
structure Url where
  protocol : String
  username : String
  password : String
  hostname : String
  port : String
  pathname : String
  search : String
  hash : String
  deriving DecidableEq

/-- What the program takes from its platform and from the schema library. -/
structure Platform where
  /-- `new URL(text)`; `none` where it throws. -/
  parseUrl : String → Option Url
  href : Url → String
  origin : Url → String
  /-- `z.string().url()`: the text the check passes on. -/
  url : String → Option String
  /-- A time zone `Intl.DateTimeFormat` knows. -/
  isTimeZone : String → Bool

inductive RuntimeProviderKind where
  | openaiAgents
  | anthropicMessages
  | workIqRest
  | ollamaChat
  deriving DecidableEq

def RuntimeProviderKind.label : RuntimeProviderKind → String
  | openaiAgents => "openai-agents"
  | anthropicMessages => "anthropic-messages"
  | workIqRest => "work-iq-rest"
  | ollamaChat => "ollama-chat"

/-- `z.string().min(1).max(max)`. -/
def bounded (max : ℕ) (s : String) : Bool := 1 ≤ utf16Length s && utf16Length s ≤ max

def isWordChar (c : Char) : Bool := c.isAlphanum || c == '_' || c == '-'

/-! ### Safe configurations -/

/-- The rule of a configuration field; a limit that is missing does not limit. -/
structure SafeField where
  required : Bool := false
  maxLength : Option ℕ
  pattern : Option (String → Bool)

def secretConfigurationFields : List String :=
  ["apikey", "clientsecret", "refreshtoken", "accesstoken", "authorizationcode", "pkceverifier", "oauthstate"]

/-- Names every object has a property for, its own or not. -/
def inheritedNames : List String :=
  ["constructor", "hasOwnProperty", "isPrototypeOf", "propertyIsEnumerable", "toLocaleString", "toString", "valueOf",
    "__proto__", "__defineGetter__", "__defineSetter__", "__lookupGetter__", "__lookupSetter__"]

/-- `fields[key]`: what is inherited has no limits. -/
def ruleOf (fields : List (String × SafeField)) (key : String) : Option SafeField :=
  match fields.lookup key with
  | some field => some field
  | none => if key ∈ inheritedNames then some { maxLength := none, pattern := none } else none

def isSecretField (key : String) : Bool :=
  secretConfigurationFields.contains (String.ofList ((key.toList.filter Char.isAlpha).map Char.toLower))

def normalizeField (fields : List (String × SafeField)) (entry : String × Json) : Except String (String × Json) :=
  match isSecretField entry.1, ruleOf fields entry.1, entry.2 with
  | false, some rule, .str item =>
    let normalized := trim item
    if normalized = "" || rule.maxLength.any (· < utf16Length normalized) ||
        rule.pattern.any (fun pattern => !pattern normalized) then .error "provider_configuration_invalid"
    else .ok (entry.1, .str normalized)
  | _, _, _ => .error "provider_configuration_invalid"

/-- The policy `createStringSafeConfigurationPolicy` makes of its fields. -/
def parseStringFields (fields : List (String × SafeField)) : Option Json → Except String Json
  | some (.obj input) => do
    let entries ← input.mapM (normalizeField fields)
    -- an assignment to the prototype leaves no property
    let output := entries.filter (·.1 ≠ "__proto__")
    if fields.any fun f => f.2.required && (output.lookup f.1).isNone then .error "provider_configuration_invalid"
    else .ok (.obj output)
  | _ => .error "provider_configuration_invalid"

def isWorkspaceId (s : String) : Bool :=
  let rest := s.toList.drop 7
  s.toList.take 7 == "wrkspc_".toList && !rest.isEmpty && rest.all isWordChar

def anthropicFields : List (String × SafeField) :=
  [("workspaceId", { maxLength := some 128, pattern := some isWorkspaceId })]

/-- A configuration without fields is left out. -/
def nonempty : Json → Option Json
  | .obj [] => none
  | parsed => some parsed

def parseAnthropicConfiguration : Option Json → Except String (Option Json)
  | none => .ok none
  | some value => (parseStringFields anthropicFields (some value)).map nonempty

inductive AuthMode where
  | none
  | bearer
  deriving DecidableEq

def AuthMode.label : AuthMode → String
  | none => "none"
  | bearer => "bearer"

structure OllamaConfiguration where
  baseUrl : String
  authMode : AuthMode

def OllamaConfiguration.toJson (c : OllamaConfiguration) : Json :=
  .obj [("baseUrl", .str c.baseUrl), ("authMode", .str c.authMode.label)]

/-- `/^https?:\/\/[^/]+\/?$/i`. -/
def isBareOrigin (s : String) : Bool :=
  let cs := s.toList
  let lower := cs.map Char.toLower
  let rest := if "https://".toList.isPrefixOf lower then cs.drop 8
    else if "http://".toList.isPrefixOf lower then cs.drop 7 else []
  let host := if rest.getLast? = some '/' then rest.dropLast else rest
  !host.isEmpty && !host.contains '/'

def normalizeOllamaBaseUrl (P : Platform) (value : String) : Except String String :=
  if value = "" || 2048 < utf16Length value || value ≠ trim value ||
      value.toList.any (fun c => isTrimmed c || ['\\', '?', '#', '@'].contains c) then
    .error "ollama_configuration_invalid"
  else
    match P.parseUrl value with
    | none => .error "ollama_configuration_invalid"
    | some url =>
      if !isBareOrigin value || !(["http:", "https:"].contains url.protocol) || url.username ≠ "" || url.password ≠ "" ||
          url.hostname = "" || url.pathname ≠ "/" || url.search ≠ "" || url.hash ≠ "" then
        .error "ollama_configuration_invalid"
      else .ok (P.origin url)

def AuthMode.ofLabel (label : String) : Option AuthMode :=
  if label = "none" then some none else if label = "bearer" then some bearer else Option.none

def parseOllamaConfiguration (P : Platform) (value : Option Json) : Except String OllamaConfiguration :=
  match value with
  | some (.obj fields) =>
    let v := Json.obj fields
    match v.strictKeys ["baseUrl", "authMode"], ((v.get? "authMode").bind Json.asStr?).bind AuthMode.ofLabel,
      (v.get? "baseUrl").bind Json.asStr? with
    | true, some authMode, some text => do
      let baseUrl ← normalizeOllamaBaseUrl P text
      if baseUrl = "https://ollama.com" ∧ authMode ≠ .bearer then .error "ollama_configuration_invalid"
      else .ok ⟨baseUrl, authMode⟩
    | _, _, _ => .error "ollama_configuration_invalid"
  | _ => .error "ollama_configuration_invalid"

/-- The pattern of a tenant or client identity. -/
def isGuid (s : String) : Bool :=
  match s.toList.splitOn '-' with
  | [a, b, c, d, e] =>
    a.length == 8 && b.length == 4 && c.length == 4 && d.length == 4 && e.length == 12 &&
      [a, b, c, d, e].all (·.all isHexDigit) && c.head?.any (fun x => '1' ≤ x && x ≤ '5') &&
      d.head?.any fun x => ['8', '9', 'a', 'b'].contains x.toLower
  | _ => false

def workIqFields : List (String × SafeField) :=
  [("tenantId", { required := true, maxLength := some 36, pattern := some isGuid }),
    ("clientId", { required := true, maxLength := some 36, pattern := some isGuid })]

/-- What the program knows of a type of connection. -/
structure ProviderConnectionTypePolicy where
  endpoint : Option String
  modelRequired : Bool
  parse : Option Json → Except String (Option Json)

def requireProviderConnectionType (P : Platform) : RuntimeProviderKind → ProviderConnectionTypePolicy
  | .openaiAgents =>
    { endpoint := some "https://api.openai.com/v1", modelRequired := true
      parse := fun value => if value.isSome then .error "provider_configuration_invalid" else .ok none }
  | .anthropicMessages =>
    { endpoint := some "https://api.anthropic.com", modelRequired := true, parse := parseAnthropicConfiguration }
  | .workIqRest =>
    { endpoint := some "https://workiq.svc.cloud.microsoft", modelRequired := false
      parse := fun value => (parseStringFields workIqFields value).map some }
  | .ollamaChat =>
    { endpoint := none, modelRequired := true
      parse := fun value => (parseOllamaConfiguration P value).map fun c => some c.toJson }

def normalizeProviderSafeConfiguration (policy : ProviderConnectionTypePolicy) (value : Option Json) :
    Except String (Option Json) := policy.parse value

def openAIResponsesOptionsSchema : Json.Shape :=
  [("reasoningEffort", Json.optional (Json.string (["none", "low", "medium", "high", "xhigh", "max"].contains ·))),
    ("verbosity", Json.optional (Json.string (["low", "medium", "high"].contains ·))),
    ("maxOutputTokens", Json.optional (Json.integer 1 262144))]

def agentExecutionTimeoutDefaultSeconds : ℤ := 30
def agentExecutionTimeoutMinSeconds : ℤ := 5
def agentExecutionTimeoutMaxSeconds : ℤ := 120

def openAIAgentsOptionsSchema : Json.Shape :=
  openAIResponsesOptionsSchema ++ [("executionTimeoutSeconds",
    Json.optional (Json.integer agentExecutionTimeoutMinSeconds agentExecutionTimeoutMaxSeconds))]

def agentExecutionTimeoutSeconds (options : Json) : ℤ :=
  match options.get? "executionTimeoutSeconds" with
  | some (.num seconds) => seconds
  | _ => agentExecutionTimeoutDefaultSeconds

def anthropicMaxOutputTokensMax : ℤ := 32768

def anthropicMessagesOptionsSchema : Json.Shape :=
  [("maxOutputTokens", Json.optional (Json.integer 1 anthropicMaxOutputTokensMax))]

def workIqRestOptionsSchema (P : Platform) : Json.Shape :=
  [("timeZone", Json.required (Json.string fun s => bounded 255 s && P.isTimeZone s)),
    ("webGroundingEnabled", Json.optional Json.boolean)]

def ollamaChatOptionsSchema : Json.Shape :=
  [("maxOutputTokens", Json.optional (Json.integer 1 32768)),
    ("executionTimeoutSeconds", Json.optional (Json.integer 5 900))]

/-- What the schema of Ollama passes on: the options with their defaults. -/
def ollamaDefaults (options : Json) : Json :=
  Json.record [("maxOutputTokens", some ((options.get? "maxOutputTokens").getD (.num 4096))),
    ("executionTimeoutSeconds", some ((options.get? "executionTimeoutSeconds").getD (.num 300)))]

/-! ### Endpoints of security profiles -/

/-- The parts of a URL after `canonicalAdrianEndpoint` set some of them anew. -/
def Url.canonical (url : Url) : Url :=
  { url with
    hash := ""
    hostname := String.ofList (url.hostname.toList.map Char.toLower)
    port := if url.port = "443" then "" else url.port }

def canonicalAdrianEndpoint (P : Platform) (value : String) : Except String String :=
  match P.parseUrl value with
  | none => .error "invalid_url"
  | some url =>
    if url.protocol ≠ "wss:" then .error "security_profile_endpoint_insecure"
    else if url.username ≠ "" || url.password ≠ "" then .error "security_profile_endpoint_userinfo"
    else if url.search ≠ "" then .error "security_profile_endpoint_query"
    else .ok (P.href url.canonical)

/-- Documented behaviour: a text the URL check passed on it passes on again; the origin of a URL is its own origin; a
canonical URL, once written, is read back as it was and passes the check. -/
structure Platform.Lawful (P : Platform) : Prop where
  url_url : ∀ {text out : String}, P.url text = some out → P.url out = some out
  origin_origin : ∀ {text : String} {url again : Url}, P.parseUrl text = some url →
    P.parseUrl (P.origin url) = some again → P.origin again = P.origin url
  parse_href : ∀ {text : String} {url : Url}, P.parseUrl text = some url → url.protocol = "wss:" →
    P.parseUrl (P.href url.canonical) = some url.canonical
  url_href : ∀ {text : String} {url : Url}, P.parseUrl text = some url → url.protocol = "wss:" →
    P.url (P.href url.canonical) = some (P.href url.canonical)

variable {P : Platform}

theorem canonicalAdrianEndpoint_ok (hP : P.Lawful) {value endpoint : String}
    (h : canonicalAdrianEndpoint P value = .ok endpoint) :
    P.url endpoint = some endpoint ∧ ∃ url, P.parseUrl endpoint = some url ∧ url.protocol = "wss:" ∧
      url.username = "" ∧ url.password = "" ∧ url.search = "" := by
  unfold canonicalAdrianEndpoint at h
  cases hurl : P.parseUrl value with
  | none =>
    rw [hurl] at h
    cases h
  | some url =>
    rw [hurl] at h
    dsimp only at h
    by_cases hprotocol : url.protocol = "wss:"
    · rw [if_neg (not_not_intro hprotocol)] at h
      by_cases huser : (decide (url.username ≠ "") || decide (url.password ≠ "")) = true
      · rw [if_pos huser] at h
        cases h
      · rw [if_neg huser] at h
        by_cases hsearch : url.search = ""
        · rw [if_neg (not_not_intro hsearch)] at h
          cases h
          rw [Bool.or_eq_true, decide_eq_true_eq, decide_eq_true_eq, not_or, not_ne_iff, not_ne_iff] at huser
          exact ⟨hP.url_href hurl hprotocol, url.canonical, hP.parse_href hurl hprotocol, hprotocol, huser.1, huser.2, hsearch⟩
        · rw [if_pos hsearch] at h
          cases h
    · rw [if_pos hprotocol] at h
      cases h

/-! ### Fields of a configuration -/

theorem normalizeField_ok {fields : List (String × SafeField)} {entry out : String × Json}
    (h : normalizeField fields entry = .ok out) : out.1 = entry.1 ∧ ∃ rule s, ruleOf fields entry.1 = some rule ∧
      out.2 = .str s ∧ s ≠ "" ∧ (∀ max ∈ rule.maxLength, utf16Length s ≤ max) ∧
      ∀ pattern ∈ rule.pattern, pattern s = true := by
  unfold normalizeField at h
  split at h
  · rename_i rule item _ hrule _
    dsimp only at h
    split at h
    · cases h
    · rename_i hgood
      cases h
      simp only [Bool.or_eq_true, decide_eq_true_eq, not_or, Option.any_eq_true, not_exists, not_and, not_lt,
        Bool.not_eq_true', Bool.not_eq_false] at hgood
      exact ⟨rfl, rule, trim item, hrule, rfl, hgood.1.1, hgood.1.2, hgood.2⟩
  · cases h

theorem parseStringFields_ok {fields : List (String × SafeField)} {value : Option Json} {out : Json}
    (h : parseStringFields fields value = .ok out) : ∃ input entries, value = some (.obj input) ∧
      List.Forall₂ (fun entry e => normalizeField fields entry = .ok e) input entries ∧
      out = .obj (entries.filter (·.1 ≠ "__proto__")) := by
  unfold parseStringFields at h
  split at h
  · rename_i input
    obtain ⟨entries, hentries, h⟩ := except_bind_ok.mp h
    dsimp only at h
    split at h
    · cases h
    · exact ⟨input, entries, rfl, mapM_ok hentries, (Except.ok.inj h).symm⟩
  · cases h

/-! ### Parsing twice -/

theorem normalizeOllamaBaseUrl_ok {value out : String} (h : normalizeOllamaBaseUrl P value = .ok out) :
    ∃ url, P.parseUrl value = some url ∧ out = P.origin url := by
  unfold normalizeOllamaBaseUrl at h
  split at h
  · cases h
  · cases hurl : P.parseUrl value with
    | none =>
      rw [hurl] at h
      cases h
    | some url =>
      rw [hurl] at h
      dsimp only at h
      split at h
      · cases h
      · exact ⟨url, rfl, (Except.ok.inj h).symm⟩

theorem normalizeOllamaBaseUrl_of_parsed (hP : P.Lawful) {value baseUrl out : String}
    (hparsed : normalizeOllamaBaseUrl P value = .ok baseUrl) (h : normalizeOllamaBaseUrl P baseUrl = .ok out) :
    out = baseUrl := by
  obtain ⟨url, hurl, rfl⟩ := normalizeOllamaBaseUrl_ok hparsed
  obtain ⟨again, hagain, rfl⟩ := normalizeOllamaBaseUrl_ok h
  exact hP.origin_origin hurl hagain

theorem parseOllamaConfiguration_ok {value : Option Json} {c : OllamaConfiguration}
    (h : parseOllamaConfiguration P value = .ok c) : ∃ text, normalizeOllamaBaseUrl P text = .ok c.baseUrl := by
  unfold parseOllamaConfiguration at h
  split at h
  · dsimp only at h
    split at h
    · rename_i text _ _ _
      obtain ⟨baseUrl, hbase, h⟩ := except_bind_ok.mp h
      split at h
      · cases h
      · cases h
        exact ⟨text, hbase⟩
    · cases h
  · cases h

theorem parseOllamaConfiguration_toJson (c : OllamaConfiguration) : parseOllamaConfiguration P (some c.toJson) =
    (normalizeOllamaBaseUrl P c.baseUrl >>= fun baseUrl =>
      if baseUrl = "https://ollama.com" ∧ c.authMode ≠ .bearer then .error "ollama_configuration_invalid"
      else .ok ⟨baseUrl, c.authMode⟩) := by
  obtain ⟨baseUrl, authMode⟩ := c
  cases authMode
  · rfl
  · rfl

/-- **Parsing twice**: a configuration that was parsed parses to itself, if it parses. -/
theorem parseOllamaConfiguration_of_parsed (hP : P.Lawful) {value : Option Json} {c c' : OllamaConfiguration}
    (hparsed : parseOllamaConfiguration P value = .ok c) (h : parseOllamaConfiguration P (some c.toJson) = .ok c') :
    c' = c := by
  obtain ⟨text, htext⟩ := parseOllamaConfiguration_ok hparsed
  rw [parseOllamaConfiguration_toJson] at h
  obtain ⟨out, hout, h⟩ := except_bind_ok.mp h
  obtain rfl := normalizeOllamaBaseUrl_of_parsed hP htext hout
  split at h
  · cases h
  · exact (Except.ok.inj h).symm

end ADT.Provider
