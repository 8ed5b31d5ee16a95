import ADT.Lib.Readings
import ADT.Runtime.ResultCodec

/-!
# Runtime.DurableResult — the validation of what a durable step returns

The parsers of `src/lib/workflow-durable-runtime-result.ts` in full, with the failures a step may return, and the types
they are declared to return.  A member of an enumeration is looked up by its text (`set.has(String(value))`), so that an
array with one member is taken for it.
-/

namespace ADT.DurableResult

open Json

def maxDurableRuntimeFailureBytes : ℕ := 4096

def failureCategories : List String :=
  ["configuration_invalid", "security_denied", "security_timeout", "security_unavailable", "connection_unavailable",
    "authentication_failed", "permission_denied", "provider_rejected", "provider_start_ambiguous",
    "provider_publish_ambiguous", "rate_limited", "provider_unavailable", "provider_timeout", "malformed_response",
    "output_too_large", "cancelled", "conversation_unavailable", "internal_error"]

def runtimeSafeErrorCodes : List String :=
  ["runtime_authentication_failed", "invalid_request", "credential_invalid", "unsupported_operation",
    "protocol_incompatible", "capability_unavailable", "runtime_unavailable", "execution_failed", "malformed_response"]

def outcomes : List String := ["response_received", "timeout", "network_error"]

def reasons : List String :=
  ["cross_request_io", "platform_subrequest_limit", "invalid_request_context", "network_connection_lost", "aborted",
    "fetch_type_error", "unknown"]

def errorNames : List String := ["AbortError", "TypeError", "Error"]

def gatewayStages : List String := ["checkpoint_gateway", "graph_node_gateway"]

def workflowOrchestrationCodes : List String :=
  ["capability_unavailable", "authentication_failed", "protocol_incompatible", "runtime_unavailable", "timeout",
    "network_error", "checkpoint_unavailable", "checkpoint_authority_invalid", "checkpoint_backend_unavailable",
    "checkpoint_state_conflicting", "checkpoint_state_invalid", "graph_node_unavailable", "graph_node_authority_invalid",
    "graph_node_backend_unavailable", "malformed_response", "execution_failed"]

def failureCodes : List String := ["output_too_large", "configuration_invalid"]

/-! ### Shapes

Each shape is over a way to look up the members of an enumeration.
-/

/-- `set.has(String(value))` -/
def has (members : List String) (value : Json) : Bool := members.contains (Runtime.text value)

def oneOf (members : List String) : Json → Bool := string members.contains

/-- The properties `parseTransport` checks. -/
def transportShape (member : List String → Json → Bool) : Shape :=
  [("clientRequestId", required (string Runtime.isIdentifier)),
    ("requestId", optional (string Runtime.isIdentifier)),
    ("httpStatus", optional (integer 100 599)),
    ("elapsedMs", required (integer 0 3600000)),
    ("processingMs", optional (integer 0 3600000)),
    ("outcome", required (member outcomes)),
    ("reason", optional (member reasons)),
    ("runtimeErrorName", optional (member errorNames))]

/-- The properties `parseRuntimeOrchestrationEvidence` checks. -/
def evidenceShape (member : List String → Json → Bool) : Shape :=
  [("stage", required (member gatewayStages)),
    ("code", required (member workflowOrchestrationCodes)),
    ("httpStatus", optional (integer 100 599)),
    ("transportOutcome", optional (member outcomes))]

def validGatewayStageCode (stage code : Option Json) : Bool :=
  match stage.bind asStr? with
  | some "checkpoint_gateway" => "checkpoint_".toList.isPrefixOf (Runtime.textOf code).toList
  | some "graph_node_gateway" => "graph_node_".toList.isPrefixOf (Runtime.textOf code).toList
  | _ => true

/-- `parseRuntimeOrchestrationEvidence(value) !== undefined` -/
def validEvidence (value : Json) : Bool :=
  value.fits (evidenceShape has) && validGatewayStageCode (value.get? "stage") (value.get? "code")

def safeMessage (s : String) : Bool := s ≠ "" && byteLength s ≤ Runtime.maxSafeMessageBytes

/-- The properties of a failure, with the checks of the nested records. -/
def failureShape (member : List String → Json → Bool) (transport evidence : Json → Bool) : Shape :=
  [("category", required (member failureCategories)),
    ("safeMessage", required (string safeMessage)),
    ("runtimeCode", optional (member runtimeSafeErrorCodes)),
    ("transportDiagnostics", optional transport),
    ("orchestration", optional evidence)]

def parseFailure (value : Json) : Option Json :=
  (parse? (failureShape has (·.fits (transportShape has)) validEvidence) value).filter
    fun parsed => byteLength parsed.stringify ≤ maxDurableRuntimeFailureBytes

def resultEnvelope (result requestCounts : Json) : Json :=
  .obj [("kind", .str "result"), ("result", result), ("requestCounts", requestCounts)]

def failureEnvelope (failure requestCounts : Json) : Json :=
  .obj [("kind", .str "runtime_failure"), ("failure", failure), ("requestCounts", requestCounts)]

def validatedEnvelope (requestCounts : Json) : Json :=
  .obj [("kind", .str "validated"), ("requestCounts", requestCounts)]

/-- The properties an envelope may have. -/
def stepKeys (kind : Option String) : List String :=
  if kind = some "result" then ["kind", "result", "requestCounts"]
  else if kind = some "runtime_failure" then ["kind", "failure", "requestCounts"]
  else []

def parseDurableLangGraphStepResult (envelope : Json) : Option Json :=
  let kind := (envelope.get? "kind").bind asStr?
  if envelope.strictKeys (stepKeys kind) then
    ((envelope.get? "requestCounts").bind Runtime.parseCounts).bind fun requestCounts =>
      if kind = some "result" then
        ((envelope.get? "result").bind Runtime.parseResult).map (resultEnvelope · requestCounts)
      else if kind = some "runtime_failure" then
        ((envelope.get? "failure").bind parseFailure).map (failureEnvelope · requestCounts)
      else none
  else none

def validationKeys (kind : Option String) : List String :=
  if kind = some "validated" then ["kind", "requestCounts"]
  else if kind = some "runtime_failure" then ["kind", "failure", "requestCounts"]
  else []

def parseDurableRuntimeValidationResult (envelope : Json) : Option Json :=
  let kind := (envelope.get? "kind").bind asStr?
  if envelope.strictKeys (validationKeys kind) then
    ((envelope.get? "requestCounts").bind Runtime.parseCounts).bind fun requestCounts =>
      if kind = some "validated" then some (validatedEnvelope requestCounts)
      else ((envelope.get? "failure").bind parseFailure).map (failureEnvelope · requestCounts)
  else none

/-! ### The declared types -/

/-- `LangGraphAdvanceResult` -/
def resultShape (member : List String → Json → Bool) : Shape :=
  [("state", required (member Runtime.states)),
    ("outputText", optional (string (byteLength · ≤ Runtime.maxOutputBytes))),
    ("frontier", optional (Runtime.isFrontier (fits
      [("nodeId", required (string Runtime.isIdentifier)), ("activationId", required (string Runtime.isIdentifier))]))),
    ("interruptId", optional Runtime.isString),
    ("nodeId", optional Runtime.isString),
    ("activationId", optional Runtime.isString),
    ("message", optional Runtime.isString),
    ("text", optional Runtime.isString),
    ("safeMessage", optional (string (byteLength · ≤ Runtime.maxSafeMessageBytes))),
    ("failureCode", optional (member failureCodes)),
    ("retryAfterMs", optional (integer 1000 900000))]

/-- `DurableRuntimeRequestCounts` -/
def countsShape : Shape := [("readiness", required (integer 0 1)), ("langgraphExecution", required (integer 0 2))]

/-- `ProviderTransportDiagnostics` -/
def isTransport : Json → Bool := fits (transportShape oneOf)

/-- `RuntimeOrchestrationEvidence` -/
def isEvidence : Json → Bool := fits (evidenceShape oneOf)

/-- `DurableRuntimeFailure` -/
def isFailure : Json → Bool := fits (failureShape oneOf isTransport isEvidence)

/-- A member of the declared union. -/
def isVariant (kind : String) (payload : Shape) : Json → Bool :=
  fits (("kind", required (oneOf [kind])) :: payload ++ [("requestCounts", required (fits countsShape))])

/-- `DurableLangGraphStepResult` -/
def isStepResult (value : Json) : Bool :=
  isVariant "result" [("result", required (fits (resultShape oneOf)))] value ||
    isVariant "runtime_failure" [("failure", required isFailure)] value

/-- `DurableRuntimeValidationResult` -/
def isValidationResult (value : Json) : Bool :=
  isVariant "validated" [] value || isVariant "runtime_failure" [("failure", required isFailure)] value

def isArray (value : Json) : Bool := value.asArr?.isSome

/-- A list of strings that only a string or an array can be printed as. -/
def Plain (members : List String) : Bool :=
  members.all fun s => s.toList.any Char.isAlpha && s ∉ ["null", "true", "false", "[object Object]"]

theorem isAlpha_toString (n : ℤ) : (toString n).toList.any Char.isAlpha = false := by
  have hrepr : ∀ m : ℕ, (Nat.repr m).toList.any Char.isAlpha = false := by
    intro m
    rw [List.any_eq_false]
    intro c hc
    rw [Nat.toList_repr] at hc
    obtain ⟨d, hd, rfl⟩ := digitChar_of_mem_toDigits (by decide) m c hc
    have hdigits : ∀ d < 10, ¬(Nat.digitChar d).isAlpha = true := by decide
    exact hdigits d hd
  rcases n with m | m
  · exact hrepr m
  · show ("-" ++ Nat.repr (m + 1)).toList.any Char.isAlpha = false
    rw [String.toList_append, List.any_append, hrepr]
    decide

theorem oneOf_iff {members : List String} (hplain : Plain members = true) (j : Json) (h : has members j = true) :
    oneOf members j = true ↔ isArray j = false := by
  have hmember : Runtime.text j ∈ members := List.contains_iff_mem.mp h
  have hlook := List.all_eq_true.mp hplain _ hmember
  rw [Bool.and_eq_true, decide_eq_true_eq] at hlook
  obtain ⟨halpha, hother⟩ := hlook
  cases j with
  | null => exact absurd (by decide) hother
  | bool b => cases b <;> exact absurd (by decide) hother
  | num n => exact absurd halpha (by rw [Runtime.text, isAlpha_toString]; decide)
  | str s => exact ⟨fun _ => rfl, fun _ => h⟩
  | arr items => exact ⟨fun hone => absurd hone (by simp [oneOf, string]), fun harr => absurd harr (by simp [isArray, asArr?])⟩
  | obj fields => exact absurd (by rw [Runtime.text]; decide) hother

theorem plain_lists :
    (∀ members ∈ [Runtime.states, failureCodes, failureCategories, runtimeSafeErrorCodes, outcomes, reasons, errorNames,
      gatewayStages, workflowOrchestrationCodes], Plain members = true) := by
  decide +kernel

/-! ### The records -/

theorem required_string (check : String → Bool) (value : Option Json) :
    required (string check) value = (value.bind asStr?).any check := by
  rcases value with _ | j
  · rfl
  · cases j <;> rfl

theorem bounded_iff (value : Json) (key : String) (n : ℕ) :
    (Runtime.optional value key Runtime.isString = true ∧
      ((value.get? key).bind asStr?).all (byteLength · ≤ n) = true) ↔
        optional (string (byteLength · ≤ n)) (value.get? key) = true := by
  unfold Runtime.optional
  rcases value.get? key with _ | j
  · simp
  · cases j <;> simp [Runtime.isString, string, asStr?]

theorem required_has (members : List String) (hmembers : "undefined" ∉ members) (value : Option Json) :
    members.contains (Runtime.textOf value) = required (has members) value := by
  cases value with
  | none =>
    show members.contains "undefined" = false
    rw [← Bool.not_eq_true, List.contains_iff_mem]
    exact hmembers
  | some j => rfl

theorem integer_eq (min max : ℤ) : (Runtime.integer · min max) = integer min max := by
  funext j
  cases j <;> rfl

theorem entry_eq : (fun item : Json => item.strictKeys ["nodeId", "activationId"] &&
    Runtime.identifier (item.get? "nodeId") && Runtime.identifier (item.get? "activationId")) =
      fits [("nodeId", required (string Runtime.isIdentifier)), ("activationId", required (string Runtime.isIdentifier))] := by
  funext item
  simp only [fits, List.map_cons, List.map_nil, List.all_cons, List.all_nil, Bool.and_true, required_string,
    Bool.and_assoc]
  rfl

theorem validResult_iff (value : Json) : Runtime.validResult value = true ↔ value.fits (resultShape has) = true := by
  have houtput := bounded_iff value "outputText" Runtime.maxOutputBytes
  have hmessage := bounded_iff value "safeMessage" Runtime.maxSafeMessageBytes
  have hstate := required_has Runtime.states (by decide) (value.get? "state")
  rw [fits_iff]
  simp only [Runtime.validResult, entry_eq, integer_eq, hstate, resultShape, List.all_cons, List.all_nil, Bool.and_eq_true,
    List.forall_mem_cons, List.map_cons, List.map_nil, ← houtput, ← hmessage]
  constructor
  · rintro ⟨⟨⟨⟨⟨⟨⟨hkeys, hst⟩, hout, hint, hnode, hact, hmsg, htext, hsafe, -⟩, hout'⟩, hsafe'⟩, hfront⟩, hcode⟩, hretry⟩
    exact ⟨hkeys, hst, ⟨hout, hout'⟩, hfront, hint, hnode, hact, hmsg, htext, ⟨hsafe, hsafe'⟩, hcode, hretry, by simp⟩
  · rintro ⟨hkeys, hst, ⟨hout, hout'⟩, hfront, hint, hnode, hact, hmsg, htext, ⟨hsafe, hsafe'⟩, hcode, hretry, -⟩
    exact ⟨⟨⟨⟨⟨⟨⟨hkeys, hst⟩, hout, hint, hnode, hact, hmsg, htext, hsafe, trivial⟩, hout'⟩, hsafe'⟩, hfront⟩, hcode⟩, hretry⟩

/-- The enumerated properties of a result. -/
def resultPaths : List (List String) := [["state"], ["failureCode"]]

def transportPaths : List (List String) := [["outcome"], ["reason"], ["runtimeErrorName"]]

def evidencePaths : List (List String) := [["stage"], ["code"], ["transportOutcome"]]

/-- The enumerated properties of a failure and of the records in it. -/
def failurePaths : List (List String) :=
  [["category"], ["runtimeCode"]] ++ transportPaths.map ("transportDiagnostics" :: ·) ++
    evidencePaths.map ("orchestration" :: ·)

variable {value : Json}

theorem result_iff (h : value.fits (resultShape has) = true) :
    value.fits (resultShape oneOf) = true ↔ Avoids isArray resultPaths value := by
  refine fits_iff_avoids ?_ (by simp [resultPaths, resultShape]) h
  have hstates := oneOf_iff (plain_lists Runtime.states (by simp))
  have hcodes := oneOf_iff (plain_lists failureCodes (by simp))
  refine .cons (reads_required (by simp [resultPaths]) hstates) ?_
  iterate 8 refine .cons (reads_same _ (by simp [resultPaths])) ?_
  refine .cons (reads_optional (by simp [resultPaths]) hcodes) ?_
  exact .cons (reads_same _ (by simp [resultPaths])) .nil

theorem transport_iff (value : Json) (h : value.fits (transportShape has) = true) :
    isTransport value = true ↔ Avoids isArray transportPaths value := by
  refine fits_iff_avoids ?_ (by simp [transportPaths, transportShape]) h
  have houtcomes := oneOf_iff (plain_lists outcomes (by simp))
  have hreasons := oneOf_iff (plain_lists reasons (by simp))
  have hnames := oneOf_iff (plain_lists errorNames (by simp))
  iterate 5 refine .cons (reads_same _ (by simp [transportPaths])) ?_
  refine .cons (reads_required (by simp [transportPaths]) houtcomes) ?_
  refine .cons (reads_optional (by simp [transportPaths]) hreasons) ?_
  exact .cons (reads_optional (by simp [transportPaths]) hnames) .nil

theorem evidence_iff (value : Json) (h : validEvidence value = true) :
    isEvidence value = true ↔ Avoids isArray evidencePaths value := by
  rw [validEvidence, Bool.and_eq_true] at h
  refine fits_iff_avoids ?_ (by simp [evidencePaths, evidenceShape]) h.1
  have hstages := oneOf_iff (plain_lists gatewayStages (by simp))
  have hcodes := oneOf_iff (plain_lists workflowOrchestrationCodes (by simp))
  have houtcomes := oneOf_iff (plain_lists outcomes (by simp))
  refine .cons (reads_required (by simp [evidencePaths]) hstages) ?_
  refine .cons (reads_required (by simp [evidencePaths]) hcodes) ?_
  refine .cons (reads_same _ (by simp [evidencePaths])) ?_
  exact .cons (reads_optional (by simp [evidencePaths]) houtcomes) .nil

theorem failure_iff (h : value.fits (failureShape has (·.fits (transportShape has)) validEvidence) = true) :
    isFailure value = true ↔ Avoids isArray failurePaths value := by
  refine fits_iff_avoids ?_ (by simp [failurePaths, failureShape, transportPaths, evidencePaths]) h
  have hcategories := oneOf_iff (plain_lists failureCategories (by simp))
  have hcodes := oneOf_iff (plain_lists runtimeSafeErrorCodes (by simp))
  refine .cons (reads_required (by simp [failurePaths]) hcategories) ?_
  refine .cons (reads_same _ (by simp [failurePaths])) ?_
  refine .cons (reads_optional (by simp [failurePaths]) hcodes) ?_
  refine .cons (reads_nested (by simp [failurePaths]) transport_iff) ?_
  exact .cons (reads_nested (by simp [failurePaths]) evidence_iff) .nil

theorem parseFailure_iff {out : Json} (h : parseFailure value = some out) :
    isFailure out = true ↔ Avoids isArray failurePaths value := by
  obtain ⟨hparse, -⟩ := Option.filter_eq_some_iff.mp h
  have hnodup : ((failureShape has (·.fits (transportShape has)) validEvidence).map (·.1)).Nodup := by
    simp [failureShape]
  rw [failure_iff (fits_parse hnodup hparse)]
  have hget : ∀ path ∈ failurePaths, out.at? path = value.at? path := by
    intro path hpath
    have hname : ∃ p ∈ failureShape has (·.fits (transportShape has)) validEvidence, ∃ names, path = p.1 :: names := by
      simp only [failurePaths, transportPaths, evidencePaths, List.map_cons, List.map_nil, List.cons_append, List.nil_append,
        List.mem_cons, List.not_mem_nil, or_false] at hpath
      rcases hpath with rfl | rfl | rfl | rfl | rfl | rfl | rfl | rfl <;> simp [failureShape]
    obtain ⟨p, hp, names, rfl⟩ := hname
    rw [at?, at?, get?_parse hnodup hparse hp]
  constructor
  · intro havoids path hpath
    rw [← hget path hpath]
    exact havoids path hpath
  · intro havoids path hpath
    rw [hget path hpath]
    exact havoids path hpath

/-! ### The envelopes -/

/-- The enumerated properties of an envelope. -/
def enumeratedPaths : List (List String) := resultPaths.map ("result" :: ·) ++ failurePaths.map ("failure" :: ·)

/-- No enumerated property of the envelope holds an array. -/
def NoArrays (envelope : Json) : Prop := Avoids isArray enumeratedPaths envelope

theorem noArrays_iff (envelope : Json) :
    NoArrays envelope ↔
      AvoidsIn isArray enumeratedPaths "result" (envelope.get? "result") ∧
        AvoidsIn isArray enumeratedPaths "failure" (envelope.get? "failure") := by
  constructor
  · intro h
    exact ⟨fun names hnames => h _ hnames, fun names hnames => h _ hnames⟩
  · rintro ⟨hresult, hfailure⟩ path hpath
    obtain ⟨names, rfl⟩ | ⟨names, rfl⟩ : (∃ names, path = "result" :: names) ∨ ∃ names, path = "failure" :: names := by
      rw [enumeratedPaths, List.mem_append, List.mem_map, List.mem_map] at hpath
      rcases hpath with ⟨names, -, rfl⟩ | ⟨names, -, rfl⟩
      · exact .inl ⟨names, rfl⟩
      · exact .inr ⟨names, rfl⟩
    · exact hresult names hpath
    · exact hfailure names hpath

theorem avoidsIn_result (value : Option Json) :
    AvoidsIn isArray enumeratedPaths "result" value ↔ ∀ j, value = some j → Avoids isArray resultPaths j :=
  avoidsIn_nested (by simp [enumeratedPaths]) value

theorem avoidsIn_failure (value : Option Json) :
    AvoidsIn isArray enumeratedPaths "failure" value ↔ ∀ j, value = some j → Avoids isArray failurePaths j :=
  avoidsIn_nested (by simp [enumeratedPaths]) value

theorem get?_of_strictKeys {keys : List String} (h : value.strictKeys keys = true) {name : String}
    (hname : name ∉ keys) : value.get? name = none := by
  cases value with
  | obj fields =>
    rw [get?_obj, Option.map_eq_none_iff, List.find?_eq_none]
    intro f hf hkey
    have hmem := List.contains_iff_mem.mp (List.all_eq_true.mp h f hf)
    rw [eq_of_beq hkey] at hmem
    exact hname hmem
  | _ => rfl

theorem counts_fit {counts : Json} (h : Runtime.parseCounts value = some counts) :
    counts = value ∧ counts.fits countsShape = true := by
  unfold Runtime.parseCounts at h
  split at h
  · next hcheck =>
    cases h
    refine ⟨rfl, ?_⟩
    rw [Bool.and_eq_true, Bool.and_eq_true, integer_eq, integer_eq] at hcheck
    rw [fits_iff]
    simp only [countsShape, List.forall_mem_cons, List.map_cons, List.map_nil]
    exact ⟨hcheck.1.1, hcheck.1.2, hcheck.2, by simp⟩
  · cases h

theorem isVariant_result (result counts : Json) (hcounts : counts.fits countsShape = true) :
    isStepResult (resultEnvelope result counts) = true ↔ result.fits (resultShape oneOf) = true := by
  simp [isStepResult, isVariant, resultEnvelope, fits_iff, strictKeys, get?, required, oneOf, string, hcounts]

theorem isVariant_failure (failure counts : Json) (hcounts : counts.fits countsShape = true) :
    isVariant "runtime_failure" [("failure", required isFailure)] (failureEnvelope failure counts) = true ↔
      isFailure failure = true := by
  simp [isVariant, failureEnvelope, fits_iff, strictKeys, get?, required, oneOf, string, hcounts]

theorem isStepResult_failure (failure counts : Json) (hcounts : counts.fits countsShape = true) :
    isStepResult (failureEnvelope failure counts) = true ↔ isFailure failure = true := by
  rw [← isVariant_failure failure counts hcounts, isStepResult, Bool.or_eq_true, or_iff_right]
  simp [isVariant, fits, failureEnvelope, strictKeys]

theorem isValidationResult_failure (failure counts : Json) (hcounts : counts.fits countsShape = true) :
    isValidationResult (failureEnvelope failure counts) = true ↔ isFailure failure = true := by
  rw [← isVariant_failure failure counts hcounts, isValidationResult, Bool.or_eq_true, or_iff_right]
  simp [isVariant, fits, failureEnvelope, strictKeys]

theorem isValidationResult_validated (counts : Json) (hcounts : counts.fits countsShape = true) :
    isValidationResult (validatedEnvelope counts) = true := by
  simp [isValidationResult, isVariant, validatedEnvelope, fits_iff, strictKeys, get?, required, oneOf, string, hcounts]

/-! ### What is accepted -/

section

variable {value r : Json}

/-- What is accepted as a failure of a step. -/
structure FailureParsed (value failure out counts : Json) : Prop where
  given : value.get? "failure" = some failure
  other : value.get? "result" = none
  parsed : parseFailure failure = some out
  counted : counts.fits countsShape = true

/-- What is accepted as a result of a step. -/
structure ResultParsed (value result counts : Json) : Prop where
  given : value.get? "result" = some result
  other : value.get? "failure" = none
  valid : result.fits (resultShape has) = true
  counted : counts.fits countsShape = true

theorem stepResult_cases (h : parseDurableLangGraphStepResult value = some r) :
    (∃ result counts, ResultParsed value result counts ∧ r = resultEnvelope result counts) ∨
      ∃ failure out counts, FailureParsed value failure out counts ∧ r = failureEnvelope out counts := by
  simp only [parseDurableLangGraphStepResult] at h
  split at h
  · next hkeys =>
    obtain ⟨counts, hcounts, h⟩ := Option.bind_eq_some_iff.mp h
    obtain ⟨sent, -, hparse⟩ := Option.bind_eq_some_iff.mp hcounts
    have hfit := (counts_fit hparse).2
    split at h
    · next hkind =>
      rw [hkind, stepKeys, if_pos rfl] at hkeys
      obtain ⟨result, hresult, rfl⟩ := Option.map_eq_some_iff.mp h
      obtain ⟨given, hgiven, hvalid⟩ := Option.bind_eq_some_iff.mp hresult
      rw [Runtime.parseResult] at hvalid
      split at hvalid
      · next hcheck =>
        cases hvalid
        exact .inl ⟨_, counts,
          ⟨hgiven, get?_of_strictKeys hkeys (by decide), (validResult_iff _).mp hcheck, hfit⟩, rfl⟩
      · cases hvalid
    · split at h
      · next hkind =>
        rw [hkind, stepKeys, if_neg (by decide), if_pos rfl] at hkeys
        obtain ⟨out, hout, rfl⟩ := Option.map_eq_some_iff.mp h
        obtain ⟨failure, hfailure, hparsed⟩ := Option.bind_eq_some_iff.mp hout
        exact .inr ⟨failure, out, counts,
          ⟨hfailure, get?_of_strictKeys hkeys (by decide), hparsed, hfit⟩, rfl⟩
      · cases h
  · cases h

theorem validation_cases (h : parseDurableRuntimeValidationResult value = some r) :
    (∃ counts, value.get? "result" = none ∧ value.get? "failure" = none ∧ counts.fits countsShape = true ∧
        r = validatedEnvelope counts) ∨
      ∃ failure out counts, FailureParsed value failure out counts ∧ r = failureEnvelope out counts := by
  simp only [parseDurableRuntimeValidationResult] at h
  split at h
  · next hkeys =>
    obtain ⟨counts, hcounts, h⟩ := Option.bind_eq_some_iff.mp h
    obtain ⟨sent, -, hparse⟩ := Option.bind_eq_some_iff.mp hcounts
    have hfit := (counts_fit hparse).2
    split at h
    · next hkind =>
      rw [hkind, validationKeys, if_pos rfl] at hkeys
      cases h
      exact .inl ⟨counts, get?_of_strictKeys hkeys (by decide), get?_of_strictKeys hkeys (by decide), hfit, rfl⟩
    · next hkind =>
      obtain ⟨out, hout, rfl⟩ := Option.map_eq_some_iff.mp h
      obtain ⟨failure, hfailure, hparsed⟩ := Option.bind_eq_some_iff.mp hout
      have hresult : value.get? "result" = none := by
        refine get?_of_strictKeys hkeys ?_
        rw [validationKeys, if_neg hkind]
        split <;> decide
      exact .inr ⟨failure, out, counts, ⟨hfailure, hresult, hparsed, hfit⟩, rfl⟩
  · cases h

theorem ResultParsed.noArrays_iff {result counts : Json} (h : ResultParsed value result counts) :
    NoArrays value ↔ result.fits (resultShape oneOf) = true := by
  rw [DurableResult.noArrays_iff, h.given, h.other, avoidsIn_result, avoidsIn_failure, result_iff h.valid]
  constructor
  · intro havoids
    exact havoids.1 result rfl
  · intro havoids
    refine ⟨fun j hj => ?_, fun j hj => (by cases hj)⟩
    cases hj
    exact havoids

theorem FailureParsed.noArrays_iff {failure out counts : Json} (h : FailureParsed value failure out counts) :
    NoArrays value ↔ isFailure out = true := by
  rw [DurableResult.noArrays_iff, h.other, h.given, avoidsIn_result, avoidsIn_failure, parseFailure_iff h.parsed]
  constructor
  · intro havoids
    exact havoids.2 failure rfl
  · intro havoids
    refine ⟨fun j hj => (by cases hj), fun j hj => ?_⟩
    cases hj
    exact havoids

theorem stepResult_typed (h : parseDurableLangGraphStepResult value = some r) :
    isStepResult r = true ↔ NoArrays value := by
  rcases stepResult_cases h with ⟨result, counts, hparsed, rfl⟩ | ⟨failure, out, counts, hparsed, rfl⟩
  · rw [isVariant_result result counts hparsed.counted, hparsed.noArrays_iff]
  · rw [isStepResult_failure out counts hparsed.counted, hparsed.noArrays_iff]

theorem validation_typed (h : parseDurableRuntimeValidationResult value = some r) :
    isValidationResult r = true ↔ NoArrays value := by
  rcases validation_cases h with ⟨counts, hresult, hfailure, hcounts, rfl⟩ | ⟨failure, out, counts, hparsed, rfl⟩
  · rw [DurableResult.noArrays_iff, hresult, hfailure, avoidsIn_result, avoidsIn_failure,
      isValidationResult_validated counts hcounts]
    simp
  · rw [isValidationResult_failure out counts hparsed.counted, hparsed.noArrays_iff]

end

/-- **Soundness of the validation**: what either parser accepts has its declared type if and only if no enumerated
property of the envelope holds an array. -/
theorem parsed_typed_iff (value r : Json) :
    (parseDurableLangGraphStepResult value = some r → (isStepResult r = true ↔ NoArrays value)) ∧
      (parseDurableRuntimeValidationResult value = some r → (isValidationResult r = true ↔ NoArrays value)) :=
  ⟨stepResult_typed, validation_typed⟩

def noRequests : Json := .obj [("readiness", .num 0), ("langgraphExecution", .num 0)]

def gatewayFailure : Json :=
  failureEnvelope
    (.obj [("category", .str "provider_unavailable"), ("safeMessage", .str "Safe."),
      ("transportDiagnostics", .obj [("clientRequestId", .str "request"), ("elapsedMs", .num 53),
        ("outcome", .str "response_received")]),
      ("orchestration", .obj [("stage", .str "checkpoint_gateway"), ("code", .str "checkpoint_backend_unavailable")])])
    noRequests

set_option maxRecDepth 8000 in
theorem parsed_typed_gatewayFailure : (parseDurableLangGraphStepResult gatewayFailure = some gatewayFailure ∧
        (isStepResult gatewayFailure = true ↔ NoArrays gatewayFailure)) ∧
      parseDurableRuntimeValidationResult gatewayFailure = some gatewayFailure ∧
        (isValidationResult gatewayFailure = true ↔ NoArrays gatewayFailure) := by
  have hstep : parseDurableLangGraphStepResult gatewayFailure = some gatewayFailure := by rfl
  have hvalidation : parseDurableRuntimeValidationResult gatewayFailure = some gatewayFailure := by rfl
  exact ⟨⟨hstep, (parsed_typed_iff gatewayFailure gatewayFailure).1 hstep⟩, hvalidation,
    (parsed_typed_iff gatewayFailure gatewayFailure).2 hvalidation⟩

/-- A result whose state is an array with the name of a state in it. -/
def arrayState : Json := resultEnvelope (.obj [("state", .arr [.str "failed"])]) noRequests

theorem arrayState_accepted :
    parseDurableLangGraphStepResult arrayState = some arrayState ∧ isStepResult arrayState = false :=
  ⟨rfl, rfl⟩

end ADT.DurableResult
