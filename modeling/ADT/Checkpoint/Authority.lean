import ADT.Lib.Base64Url
import ADT.Lib.Utf8
import ADT.Lib.JsonText

/-!
# Checkpoint.Authority — tokens for the gateways of the Runtime

A token is a payload and its signature, both base64 for URLs, around a full stop.  The payload names what the token
is for (`aud`), the run and, for a graph node, the visit of the node; the verifiers read it back from its JSON text.

* `authorityPayload_iff`: what `authorityPayload` accepts, in terms of the payload.
* `accepted_iff_issued`: a token is accepted for exactly the grants it was issued for.
-/

namespace ADT.Authority

/-- HMAC with SHA-256, on a key and a text in bytes. -/
structure Hmac where
  sign : List UInt8 → List UInt8 → List UInt8
  sign_ne_nil : ∀ key value, sign key value ≠ []

inductive Audience where
  | checkpoint
  | graphNode
  | runtimeDiagnostic

def Audience.label : Audience → String
  | checkpoint => "checkpoint"
  | graphNode => "graph-node"
  | runtimeDiagnostic => "runtime-diagnostic"

structure GraphNodeAuthorityScope where
  runId : String
  nodeId : String
  activationId : Option String
  workflowGeneration : ℤ
  iteration : ℤ
  attempt : ℤ

inductive RuntimeDiagnosticTarget where
  | checkpoint
  | graphNode
  | artifactSearch

def RuntimeDiagnosticTarget.label : RuntimeDiagnosticTarget → String
  | checkpoint => "checkpoint"
  | graphNode => "graph-node"
  | artifactSearch => "artifact-search"

def diagnosticRunId : String := "execution-path"

/-- `b64` of the bytes of a text. -/
def b64 (bytes : List UInt8) : List Char := Base64Url.encode bytes

def hmac (h : Hmac) (secret : String) (value : List Char) : List Char :=
  b64 (h.sign (Utf8.encode secret.toList) (Utf8.encode value))

def payloadRecord (aud : Audience) (runId : String) (expiresAt : ℤ) (nonce : String) (scope : List (String × Json)) :
    Json :=
  .obj ([("v", .num 1), ("aud", .str aud.label), ("runId", .str runId), ("expiresAt", .num expiresAt),
    ("nonce", .str nonce)] ++ scope)

def issueAuthority (h : Hmac) (aud : Audience) (runId secret : String) (expiresAt : ℤ) (nonce : String)
    (scope : List (String × Json)) : Except String (List Char) :=
  if utf16Length secret < 32 then .error (aud.label ++ "_authority_unavailable")
  else
    let payload := b64 (Utf8.encode (payloadRecord aud runId expiresAt nonce scope).stringify.toList)
    .ok (payload ++ '.' :: hmac h secret payload)

/-- The difference of two texts of one length, gathered over all places. -/
def mismatch (expected signature : List Char) : ℕ :=
  (expected.zip signature).foldl (fun n p => n ||| (p.1.toNat ^^^ p.2.toNat)) 0

/-- `===` with a number. -/
def isNumber (value : Option Json) (n : ℤ) : Bool :=
  match value with
  | some (.num m) => m == n
  | _ => false

/-- `===` with a text or with `undefined`. -/
def isText (value : Option Json) (text : Option String) : Bool :=
  match value, text with
  | none, none => true
  | some (.str s), some t => s == t
  | _, _ => false

/-- What every verifier asks of a record. -/
def admissible (aud : Audience) (runId : String) (now : ℤ) (value : Json) : Bool :=
  isNumber (value.get? "v") 1 && isText (value.get? "aud") (some aud.label) &&
    isText (value.get? "runId") (some runId) &&
    (match value.get? "expiresAt" with
      | some (.num expiresAt) => decide (expiresAt ≥ now)
      | _ => false) &&
    ((value.get? "nonce").bind Json.asStr?).isSome

/-- The record of a payload; `none` where reading it throws. -/
def readPayload (payload : List Char) : Option Json :=
  (Base64Url.decode payload).bind fun bytes => Json.parse (String.ofList (Utf8.decode bytes))

def authorityPayload (h : Hmac) (aud : Audience) (token : List Char) (runId secret : String) (now : ℤ) : Option Json :=
  match token.splitOn '.' with
  | [payload, signature] =>
    if payload = [] ∨ signature = [] ∨ utf16Length secret < 32 then none
    else
      -- every character of the expected text is one UTF-16 unit
      let expected := hmac h secret payload
      if expected.length ≠ signature.length then none
      else if mismatch expected signature ≠ 0 then none
      else (readPayload payload).bind fun value => if admissible aud runId now value then some value else none
  | _ => none

def issueCheckpointAuthority (h : Hmac) (runId secret : String) (expiresAt : ℤ) (nonce : String) :
    Except String (List Char) :=
  issueAuthority h .checkpoint runId secret expiresAt nonce []

def verifyCheckpointAuthority (h : Hmac) (token : List Char) (runId secret : String) (now : ℤ) : Bool :=
  (authorityPayload h .checkpoint token runId secret now).isSome

/-- The fields of a visit; an activation id is left out where it is falsy. -/
def scopeFields (scope : GraphNodeAuthorityScope) : List (String × Json) :=
  [("nodeId", .str scope.nodeId)] ++
    (match scope.activationId with
      | some activationId => if activationId = "" then [] else [("activationId", .str activationId)]
      | none => []) ++
    [("workflowGeneration", .num scope.workflowGeneration), ("iteration", .num scope.iteration),
      ("attempt", .num scope.attempt)]

def issueGraphNodeAuthority (h : Hmac) (scope : GraphNodeAuthorityScope) (secret : String) (expiresAt : ℤ)
    (nonce : String) : Except String (List Char) :=
  issueAuthority h .graphNode scope.runId secret expiresAt nonce (scopeFields scope)

/-- The comparison of a record with a visit. -/
def namesScope (scope : GraphNodeAuthorityScope) (value : Json) : Bool :=
  isText (value.get? "nodeId") (some scope.nodeId) && isText (value.get? "activationId") scope.activationId &&
    isNumber (value.get? "workflowGeneration") scope.workflowGeneration &&
    isNumber (value.get? "iteration") scope.iteration && isNumber (value.get? "attempt") scope.attempt

def verifyGraphNodeAuthority (h : Hmac) (token : List Char) (scope : GraphNodeAuthorityScope) (secret : String)
    (now : ℤ) : Bool :=
  (authorityPayload h .graphNode token scope.runId secret now).any (namesScope scope)

def issueRuntimeDiagnosticAuthority (h : Hmac) (target : RuntimeDiagnosticTarget) (secret : String) (expiresAt : ℤ)
    (nonce : String) : Except String (List Char) :=
  issueAuthority h .runtimeDiagnostic diagnosticRunId secret expiresAt nonce [("target", .str target.label)]

def verifyRuntimeDiagnosticAuthority (h : Hmac) (token : List Char) (target : RuntimeDiagnosticTarget)
    (secret : String) (now : ℤ) : Bool :=
  (authorityPayload h .runtimeDiagnostic token diagnosticRunId secret now).any fun value =>
    isText (value.get? "target") (some target.label)

/-- What a token is issued for. -/
inductive Grant where
  | checkpoint (runId : String)
  | graphNode (scope : GraphNodeAuthorityScope)
  | runtimeDiagnostic (target : RuntimeDiagnosticTarget)

def Grant.audience : Grant → Audience
  | checkpoint _ => .checkpoint
  | graphNode _ => .graphNode
  | runtimeDiagnostic _ => .runtimeDiagnostic

def Grant.runId : Grant → String
  | checkpoint runId => runId
  | graphNode scope => scope.runId
  | runtimeDiagnostic _ => diagnosticRunId

def Grant.fields : Grant → List (String × Json)
  | checkpoint _ => []
  | graphNode scope => scopeFields scope
  | runtimeDiagnostic target => [("target", .str target.label)]

/-- No activation id is the empty text. -/
def GraphNodeAuthorityScope.Named (scope : GraphNodeAuthorityScope) : Prop := scope.activationId ≠ some ""

def Grant.Named : Grant → Prop
  | graphNode scope => scope.Named
  | _ => True

/-- One call of an issuer. -/
structure Issue where
  grant : Grant
  secret : String
  expiresAt : ℤ
  nonce : String

def Issue.token (h : Hmac) (i : Issue) : Except String (List Char) :=
  match i.grant with
  | .checkpoint runId => issueCheckpointAuthority h runId i.secret i.expiresAt i.nonce
  | .graphNode scope => issueGraphNodeAuthority h scope i.secret i.expiresAt i.nonce
  | .runtimeDiagnostic target => issueRuntimeDiagnosticAuthority h target i.secret i.expiresAt i.nonce

def Issue.record (i : Issue) : Json :=
  payloadRecord i.grant.audience i.grant.runId i.expiresAt i.nonce i.grant.fields

def Issue.payload (i : Issue) : List Char := b64 (Utf8.encode i.record.stringify.toList)

/-! ### The parts of a token -/

variable (h : Hmac)

theorem Issue.token_eq (i : Issue) :
    i.token h = issueAuthority h i.grant.audience i.grant.runId i.secret i.expiresAt i.nonce i.grant.fields := by
  obtain ⟨grant, secret, expiresAt, nonce⟩ := i
  cases grant <;> rfl

variable {i : Issue} {token : List Char} {aud : Audience} {now : ℤ} {value : Json} (scope : GraphNodeAuthorityScope)
  {own : GraphNodeAuthorityScope} {issued : Set Issue}

theorem Issue.token_ok :
    i.token h = .ok token ↔ 32 ≤ utf16Length i.secret ∧ token = i.payload ++ '.' :: hmac h i.secret i.payload := by
  rw [i.token_eq, issueAuthority]
  by_cases hsecret : utf16Length i.secret < 32
  · rw [if_pos hsecret]
    constructor
    · intro heq
      cases heq
    · rintro ⟨hlong, -⟩
      omega
  · rw [if_neg hsecret]
    constructor
    · intro heq
      exact ⟨by omega, (Except.ok.inj heq).symm⟩
    · rintro ⟨-, rfl⟩
      rfl

theorem dot_not_mem_b64 (bytes : List UInt8) : '.' ∉ b64 bytes := fun hc => (Base64Url.mem_encode hc).2.2 rfl

theorem hmac_ne_nil (secret : String) (value : List Char) : hmac h secret value ≠ [] :=
  Base64Url.encode_ne_nil (h.sign_ne_nil _ _)

theorem utf8_injective {a b : List Char} (heq : Utf8.encode a = Utf8.encode b) : a = b := by
  have ha := Utf8.decodeChars_encode a (Nat.le_max_left a.length b.length)
  rw [heq, Utf8.decodeChars_encode b (Nat.le_max_right a.length b.length)] at ha
  exact ha.symm

theorem splitOn_dot {payload signature : List Char} (hpayload : '.' ∉ payload) (hsignature : '.' ∉ signature) :
    (payload ++ '.' :: signature).splitOn '.' = [payload, signature] := by
  have hjoin : ['.'].intercalate [payload, signature] = payload ++ '.' :: signature := by simp [List.intercalate]
  rw [← hjoin]
  refine List.splitOn_intercalate '.' ?_ (by simp)
  intro l hl
  simp only [List.mem_cons, List.not_mem_nil, or_false] at hl
  rcases hl with rfl | rfl
  · exact hpayload
  · exact hsignature

theorem xor_eq_zero (a b : ℕ) : a ^^^ b = 0 ↔ a = b := by
  constructor
  · intro hzero
    have hboth : a ^^^ b ^^^ b = b := by rw [hzero, Nat.zero_xor]
    rwa [Nat.xor_assoc, Nat.xor_self, Nat.xor_zero] at hboth
  · rintro rfl
    exact Nat.xor_self a

theorem foldl_mismatch (pairs : List (Char × Char)) (n : ℕ) :
    pairs.foldl (fun n p => n ||| (p.1.toNat ^^^ p.2.toNat)) n = 0 ↔ n = 0 ∧ ∀ p ∈ pairs, p.1 = p.2 := by
  induction pairs generalizing n with
  | nil => simp
  | cons p pairs ih =>
    have hchar : p.1.toNat = p.2.toNat ↔ p.1 = p.2 :=
      ⟨fun heq => Char.ext (UInt32.toNat_inj.mp heq), fun heq => by rw [heq]⟩
    rw [List.foldl_cons, ih, Nat.or_eq_zero_iff, xor_eq_zero, hchar, List.forall_mem_cons, and_assoc]

theorem mismatch_eq_zero {expected signature : List Char} (hlength : expected.length = signature.length) :
    mismatch expected signature = 0 ↔ expected = signature := by
  rw [mismatch, foldl_mismatch]
  constructor
  · rintro ⟨-, hall⟩
    refine List.ext_getElem hlength fun k hk hk' => ?_
    exact hall _ (List.mem_iff_getElem.mpr ⟨k, by rw [List.length_zip]; omega, List.getElem_zip⟩)
  · rintro rfl
    refine ⟨rfl, ?_⟩
    intro p hp
    obtain ⟨k, hk, rfl⟩ := List.mem_iff_getElem.mp hp
    rw [List.getElem_zip]

/-- **What is accepted**: a payload under its own signature, whose record is admissible. -/
theorem authorityPayload_iff {runId secret : String} : authorityPayload h aud token runId secret now = some value ↔
      ∃ payload, token.splitOn '.' = [payload, hmac h secret payload] ∧ payload ≠ [] ∧ 32 ≤ utf16Length secret ∧
        readPayload payload = some value ∧ admissible aud runId now value = true := by
  constructor
  · intro heq
    unfold authorityPayload at heq
    split at heq
    · next payload signature hsplit =>
      dsimp only at heq
      split_ifs at heq with hempty hlength hmismatch
      simp only [not_or, not_lt] at hempty
      simp only [ne_eq, not_not] at hlength hmismatch
      have hsignature := (mismatch_eq_zero hlength).mp hmismatch
      obtain ⟨record, hread, hrecord⟩ := Option.bind_eq_some_iff.mp heq
      split_ifs at hrecord with hadmissible
      cases hrecord
      exact ⟨payload, by rw [hsplit, hsignature], hempty.1, hempty.2.2, hread, hadmissible⟩
    · cases heq
  · rintro ⟨payload, hsplit, hpayload, hsecret, hread, hadmissible⟩
    have hempty : ¬(payload = [] ∨ hmac h secret payload = [] ∨ utf16Length secret < 32) := by
      rintro (hnil | hnil | hshort)
      · exact hpayload hnil
      · exact hmac_ne_nil h secret payload hnil
      · omega
    have hmismatch : mismatch (hmac h secret payload) (hmac h secret payload) = 0 := (mismatch_eq_zero rfl).mpr rfl
    unfold authorityPayload
    rw [hsplit]
    dsimp only
    rw [if_neg hempty, if_neg (by simp), if_neg (by simp [hmismatch]), hread, Option.bind_some, if_pos hadmissible]

/-! ### The record of an issuer -/

theorem scopeFields_names : (scopeFields scope).map (·.1) = ["nodeId", "workflowGeneration", "iteration", "attempt"] ∨
      (scopeFields scope).map (·.1) = ["nodeId", "activationId", "workflowGeneration", "iteration", "attempt"] := by
  unfold scopeFields
  cases scope.activationId with
  | none => exact Or.inl rfl
  | some activationId =>
    dsimp only
    by_cases hempty : activationId = ""
    · rw [if_pos hempty]
      exact Or.inl rfl
    · rw [if_neg hempty]
      exact Or.inr rfl

theorem scopeFields_distinct : ∀ f ∈ scopeFields scope, f.2.distinct = true := by
  unfold scopeFields
  intro f hf
  simp only [List.mem_append, List.mem_cons, List.not_mem_nil, or_false] at hf
  rcases hf with (rfl | hf) | rfl | rfl | rfl
  · rfl
  · split at hf
    · split_ifs at hf
      · cases hf
      · rw [List.mem_singleton.mp hf]
        rfl
    · cases hf
  · rfl
  · rfl
  · rfl

theorem record_distinct (i : Issue) : i.record.distinct = true := by
  rw [Issue.record, payloadRecord, Json.distinct_obj, List.map_append]
  have hfields : ∀ f ∈ i.grant.fields, f.2.distinct = true := by
    cases i.grant with
    | checkpoint runId => simp [Grant.fields]
    | graphNode scope => exact scopeFields_distinct scope
    | runtimeDiagnostic target => simp [Grant.fields, Json.distinct]
  constructor
  · show (["v", "aud", "runId", "expiresAt", "nonce"] ++ i.grant.fields.map (·.1)).Nodup
    cases i.grant with
    | checkpoint runId => exact (by decide : (["v", "aud", "runId", "expiresAt", "nonce"] ++ []).Nodup)
    | graphNode scope =>
      rw [Grant.fields]
      rcases scopeFields_names scope with hnames | hnames
      · rw [hnames]
        decide
      · rw [hnames]
        decide
    | runtimeDiagnostic target =>
      exact (by decide : (["v", "aud", "runId", "expiresAt", "nonce"] ++ ["target"]).Nodup)
  · intro f hf
    rcases List.mem_append.mp hf with hf | hf
    · simp only [List.mem_cons, List.not_mem_nil, or_false] at hf
      rcases hf with rfl | rfl | rfl | rfl | rfl
      · rfl
      · rfl
      · rfl
      · rfl
      · rfl
    · exact hfields f hf

theorem readPayload_payload (i : Issue) : readPayload i.payload = some i.record := by
  have hfront : i.record.stringify.toList.head? ≠ some (Char.ofNat 0xFEFF) := by
    have htext := Json.text_obj ([("v", .num 1), ("aud", .str i.grant.audience.label), ("runId", .str i.grant.runId),
      ("expiresAt", .num i.expiresAt), ("nonce", .str i.nonce)] ++ i.grant.fields)
    unfold Json.text at htext
    rw [Issue.record, payloadRecord, htext, List.head?_cons]
    decide
  rw [readPayload, Issue.payload, b64, Base64Url.decode_encode, Option.bind_some, Utf8.decode_encode hfront,
    String.ofList_toList, Json.parse_stringify _ (record_distinct i)]

theorem isNumber_iff (value : Option Json) (n : ℤ) : isNumber value n = true ↔ value = some (.num n) := by
  unfold isNumber
  split
  · next m =>
    rw [beq_iff_eq]
    constructor
    · rintro rfl
      rfl
    · intro heq
      cases heq
      rfl
  · next hother =>
    constructor
    · intro hfalse
      cases hfalse
    · intro heq
      exact absurd heq (hother n)

theorem isText_iff (value : Option Json) (text : Option String) : isText value text = true ↔ value = text.map .str := by
  cases text with
  | none => cases value <;> simp [isText]
  | some t =>
    cases value with
    | none => simp [isText]
    | some j => cases j <;> simp [isText]

theorem label_injective : Function.Injective Audience.label := by
  intro a b heq
  cases a <;> cases b <;> first | rfl | exact absurd heq (by decide)

theorem admissible_record (i : Issue) (aud : Audience) (runId : String) (now : ℤ) :
    admissible aud runId now i.record = true ↔ i.grant.audience = aud ∧ i.grant.runId = runId ∧ now ≤ i.expiresAt := by
  have hv : i.record.get? "v" = some (.num 1) := rfl
  have haud : i.record.get? "aud" = some (.str i.grant.audience.label) := rfl
  have hrunId : i.record.get? "runId" = some (.str i.grant.runId) := rfl
  have hexpiresAt : i.record.get? "expiresAt" = some (.num i.expiresAt) := rfl
  have hnonce : i.record.get? "nonce" = some (.str i.nonce) := rfl
  unfold admissible
  simp only [hv, haud, hrunId, hexpiresAt, hnonce, Bool.and_eq_true, isNumber_iff, isText_iff, Option.map_some,
    Option.some.injEq, Json.str.injEq, decide_eq_true_eq, Option.bind_some, Json.asStr?, Option.isSome_some, true_and,
    and_true, label_injective.eq_iff, ge_iff_le, and_assoc]

theorem record_activationId (hgrant : i.grant = .graphNode own) :
    i.record.get? "activationId" = (own.activationId.filter (· ≠ "")).map .str := by
  rw [Issue.record, hgrant, Grant.fields, scopeFields]
  cases own.activationId with
  | none => rfl
  | some activationId =>
    dsimp only
    by_cases hempty : activationId = ""
    · rw [if_pos hempty, hempty]
      rfl
    · rw [if_neg hempty, Option.filter_some_pos (by simpa using hempty)]
      rfl

theorem record_fields (hgrant : i.grant = .graphNode own) : i.record.get? "nodeId" = some (.str own.nodeId) ∧
      i.record.get? "workflowGeneration" = some (.num own.workflowGeneration) ∧
      i.record.get? "iteration" = some (.num own.iteration) ∧ i.record.get? "attempt" = some (.num own.attempt) := by
  rw [Issue.record, hgrant, Grant.fields, scopeFields]
  cases own.activationId with
  | none => exact ⟨rfl, rfl, rfl, rfl⟩
  | some activationId =>
    dsimp only
    by_cases hempty : activationId = ""
    · rw [if_pos hempty]
      exact ⟨rfl, rfl, rfl, rfl⟩
    · rw [if_neg hempty]
      exact ⟨rfl, rfl, rfl, rfl⟩

theorem namesScope_record (hgrant : i.grant = .graphNode own) (hnamed : own.Named) (scope : GraphNodeAuthorityScope) :
    i.grant.runId = scope.runId ∧ namesScope scope i.record = true ↔ i.grant = .graphNode scope := by
  obtain ⟨hnodeId, hgeneration, hiteration, hattempt⟩ := record_fields hgrant
  have hactivation : own.activationId.filter (· ≠ "") = own.activationId := by
    cases hown : own.activationId with
    | none => rfl
    | some activationId =>
      have hne : activationId ≠ "" := by
        rintro rfl
        exact hnamed hown
      exact Option.filter_some_pos (by simpa using hne)
  have hactivationId := record_activationId hgrant
  rw [hactivation] at hactivationId
  unfold namesScope
  simp only [hnodeId, hgeneration, hiteration, hattempt, hactivationId, Bool.and_eq_true, isNumber_iff, isText_iff,
    Option.map_some, Option.some.injEq, Json.str.injEq, Json.num.injEq]
  rw [hgrant]
  obtain ⟨runId, nodeId, activationId, workflowGeneration, iteration, attempt⟩ := own
  obtain ⟨runId', nodeId', activationId', workflowGeneration', iteration', attempt'⟩ := scope
  have hmap : activationId.map Json.str = activationId'.map Json.str ↔ activationId = activationId' :=
    (Option.map_injective fun a b hab => Json.str.inj hab).eq_iff
  simp only [Grant.runId, hmap, Grant.graphNode.injEq, GraphNodeAuthorityScope.mk.injEq, and_assoc]

/-! ### Issued and accepted -/

/-- A right signature on the token under the secret is one that an issuer made with this secret. -/
def Authentic (issued : Set Issue) (token : List Char) (secret : String) : Prop :=
  ∀ payload, token = payload ++ '.' :: hmac h secret payload →
    ∃ i ∈ issued, i.secret = secret ∧ i.token h = .ok (i.payload ++ '.' :: hmac h secret payload)

/-- Under one secret no two texts have the same signature. -/
theorem hmac_injective (hinjective : ∀ key, Function.Injective (h.sign key)) (secret : String) :
    Function.Injective (hmac h secret) := fun _ _ heq =>
  utf8_injective (hinjective _ (Base64Url.encode_injective heq))

theorem splitOn_token (htoken : i.token h = .ok token) :
    token.splitOn '.' = [i.payload, hmac h i.secret i.payload] := by
  rw [((i.token_ok h).mp htoken).2]
  exact splitOn_dot (dot_not_mem_b64 _) (dot_not_mem_b64 _)

theorem payload_ne_nil (i : Issue) : i.payload ≠ [] := by
  intro hnil
  have hnone : readPayload [] = none := rfl
  have hread := readPayload_payload i
  rw [hnil, hnone] at hread
  cases hread

theorem authorityPayload_token (htoken : i.token h = .ok token) (hnow : now ≤ i.expiresAt) :
    authorityPayload h i.grant.audience token i.grant.runId i.secret now = some i.record :=
  (authorityPayload_iff h).mpr ⟨i.payload, splitOn_token h htoken, payload_ne_nil i, ((i.token_ok h).mp htoken).1,
    readPayload_payload i, (admissible_record i _ _ _).mpr ⟨rfl, rfl, hnow⟩⟩

theorem authorityPayload_of_token (htoken : i.token h = .ok token)
    {runId secret : String} (hvalue : authorityPayload h aud token runId secret now = some value) :
    value = i.record ∧ i.grant.audience = aud ∧ i.grant.runId = runId ∧ now ≤ i.expiresAt := by
  obtain ⟨payload, hsplit, -, -, hread, hadmissible⟩ := (authorityPayload_iff h).mp hvalue
  rw [splitOn_token h htoken] at hsplit
  obtain ⟨rfl, -⟩ := List.cons_eq_cons.mp hsplit
  rw [readPayload_payload] at hread
  cases hread
  exact ⟨rfl, (admissible_record i aud runId now).mp hadmissible⟩

theorem issued_of_accepted (hinjective : ∀ key, Function.Injective (h.sign key)) {runId secret : String}
    (hauthentic : Authentic h issued token secret)
    (hvalue : authorityPayload h aud token runId secret now = some value) :
    ∃ i ∈ issued, i.token h = .ok token ∧ i.secret = secret := by
  obtain ⟨payload, hsplit, -, -, -, -⟩ := (authorityPayload_iff h).mp hvalue
  have htoken : token = payload ++ '.' :: hmac h secret payload := by
    have hwhole : ['.'].intercalate (token.splitOn '.') = token := List.intercalate_splitOn '.'
    rw [hsplit] at hwhole
    simpa [List.intercalate] using hwhole.symm
  obtain ⟨i, hi, rfl, hown⟩ := hauthentic payload htoken
  have hsame := ((i.token_ok h).mp hown).2
  obtain ⟨-, hsignature⟩ := List.cons_eq_cons.mp (List.append_cancel_left hsame)
  obtain rfl := hmac_injective h hinjective i.secret hsignature
  exact ⟨i, hi, by rw [hown, htoken], rfl⟩

theorem authentic_of_mem (hi : i ∈ issued) (htoken : i.token h = .ok token) : Authentic h issued token i.secret := by
  rintro payload rfl
  have hsplit := splitOn_token h htoken
  have hsignature : (hmac h i.secret payload).splitOn '.' = [hmac h i.secret payload] :=
    List.splitOn_eq_singleton (dot_not_mem_b64 _)
  rw [List.splitOn_append_cons_self, hsignature] at hsplit
  have hpayload : payload.splitOn '.' = [i.payload] := List.append_inj_left' hsplit rfl
  have hwhole : ['.'].intercalate (payload.splitOn '.') = payload := List.intercalate_splitOn '.'
  rw [hpayload, List.intercalate_singleton] at hwhole
  exact ⟨i, hi, rfl, by rw [htoken, hwhole]⟩

/-- **Tokens are exact**: with the secret it was issued under, and until it expires, a token is accepted for the grant
it was issued for and for no other; no verifier takes a token of another audience. -/
theorem accepted_iff_issued (hinjective : ∀ key, Function.Injective (h.sign key)) {issued : Set Issue}
    (hnamed : ∀ i ∈ issued, i.grant.Named) {token : List Char} {secret : String}
    (hauthentic : Authentic h issued token secret) (now : ℤ) :
    (∀ runId, verifyCheckpointAuthority h token runId secret now = true ↔
      ∃ i ∈ issued, i.token h = .ok token ∧ i.secret = secret ∧ i.grant = .checkpoint runId ∧ now ≤ i.expiresAt) ∧
    (∀ scope, verifyGraphNodeAuthority h token scope secret now = true ↔
      ∃ i ∈ issued, i.token h = .ok token ∧ i.secret = secret ∧ i.grant = .graphNode scope ∧ now ≤ i.expiresAt) ∧
    ∀ i : Issue, i.token h = .ok token → ∀ (secret' : String) (now' : ℤ),
      (i.grant.audience ≠ .checkpoint → ∀ runId, verifyCheckpointAuthority h token runId secret' now' = false) ∧
      (i.grant.audience ≠ .graphNode → ∀ scope, verifyGraphNodeAuthority h token scope secret' now' = false) := by
  refine ⟨fun runId => ?_, fun scope => ?_, fun i htoken secret' now' => ⟨fun haud runId => ?_, fun haud scope => ?_⟩⟩
  · constructor
    · intro haccepted
      obtain ⟨value, hvalue⟩ := Option.isSome_iff_exists.mp haccepted
      obtain ⟨i, hi, htoken, hsecret⟩ := issued_of_accepted h hinjective hauthentic hvalue
      obtain ⟨-, haud, hrunId, hnow⟩ := authorityPayload_of_token h htoken hvalue
      refine ⟨i, hi, htoken, hsecret, ?_, hnow⟩
      cases hgrant : i.grant with
      | checkpoint own =>
        rw [hgrant] at hrunId
        exact congrArg Grant.checkpoint hrunId
      | graphNode own => simp [hgrant, Grant.audience] at haud
      | runtimeDiagnostic target => simp [hgrant, Grant.audience] at haud
    · rintro ⟨i, -, htoken, rfl, hgrant, hnow⟩
      have hrecord := authorityPayload_token h htoken hnow
      rw [hgrant] at hrecord
      exact Option.isSome_iff_exists.mpr ⟨_, hrecord⟩
  · constructor
    · intro haccepted
      obtain ⟨value, hvalue, hscope⟩ := (Option.any_eq_true _ _).mp haccepted
      obtain ⟨i, hi, htoken, hsecret⟩ := issued_of_accepted h hinjective hauthentic hvalue
      obtain ⟨rfl, haud, hrunId, hnow⟩ := authorityPayload_of_token h htoken hvalue
      refine ⟨i, hi, htoken, hsecret, ?_, hnow⟩
      cases hgrant : i.grant with
      | checkpoint own => simp [hgrant, Grant.audience] at haud
      | graphNode own =>
        have hown := hnamed i hi
        rw [hgrant] at hown
        rw [← hgrant]
        exact (namesScope_record hgrant hown scope).mp ⟨hrunId, hscope⟩
      | runtimeDiagnostic target => simp [hgrant, Grant.audience] at haud
    · rintro ⟨i, hi, htoken, rfl, hgrant, hnow⟩
      have hown := hnamed i hi
      have hrecord := authorityPayload_token h htoken hnow
      rw [hgrant] at hown hrecord
      exact (Option.any_eq_true _ _).mpr ⟨_, hrecord, ((namesScope_record hgrant hown scope).mpr hgrant).2⟩
  · rw [Bool.eq_false_iff]
    intro haccepted
    obtain ⟨value, hvalue⟩ := Option.isSome_iff_exists.mp haccepted
    exact haud (authorityPayload_of_token h htoken hvalue).2.1
  · rw [Bool.eq_false_iff]
    intro haccepted
    obtain ⟨value, hvalue, -⟩ := (Option.any_eq_true _ _).mp haccepted
    exact haud (authorityPayload_of_token h htoken hvalue).2.1

/-- A signature that spells out the key and the text. -/
def spelledOut : Hmac where
  sign key value := key.flatMap (fun b => [1, b]) ++ 0 :: value
  sign_ne_nil _ _ := List.append_ne_nil_of_right_ne_nil _ (by simp)

theorem spelledOut_injective (key : List UInt8) : Function.Injective (spelledOut.sign key) := fun _ _ heq =>
  (List.cons.inj (List.append_cancel_left heq)).2

def visit : GraphNodeAuthorityScope :=
  { runId := "run-a", nodeId := "node-a", activationId := some "node-a:2", workflowGeneration := 2, iteration := 3,
    attempt := 4 }

def visitIssue : Issue :=
  { grant := .graphNode visit, secret := "graph-node-authority-secret-0000", expiresAt := 1000, nonce := "n" }

theorem visit_accepted : ∃ token, visitIssue.token spelledOut = .ok token ∧
    verifyGraphNodeAuthority spelledOut token visit visitIssue.secret 1000 = true := by
  have htoken := (visitIssue.token_ok spelledOut).mpr ⟨by decide, rfl⟩
  have hnamed : ∀ i ∈ ({visitIssue} : Set Issue), i.grant.Named := by
    rintro i rfl
    exact (by decide : (some "node-a:2" : Option String) ≠ some "")
  have hexact := accepted_iff_issued spelledOut spelledOut_injective hnamed
    (authentic_of_mem spelledOut (Set.mem_singleton visitIssue) htoken) 1000
  exact ⟨_, htoken, (hexact.2.1 visit).mpr ⟨visitIssue, rfl, htoken, rfl, rfl, le_refl _⟩⟩

/-- A visit whose activation id is the empty text. -/
def unnamedIssue : Issue := { visitIssue with grant := .graphNode { visit with activationId := some "" } }

/-- Its token is refused for the visit it was issued for, and accepted for a visit without activation id. -/
theorem unnamed_refused : (∀ key, Function.Injective (spelledOut.sign key)) ∧
    ∃ token, unnamedIssue.token spelledOut = .ok token ∧
    verifyGraphNodeAuthority spelledOut token { visit with activationId := some "" } visitIssue.secret 1000 = false ∧
    verifyGraphNodeAuthority spelledOut token { visit with activationId := none } visitIssue.secret 1000 = true := by
  have htoken := (unnamedIssue.token_ok spelledOut).mpr ⟨by decide, rfl⟩
  have hrecord := authorityPayload_token spelledOut htoken (le_refl (1000 : ℤ))
  refine ⟨spelledOut_injective, _, htoken, ?_, ?_⟩
  · exact (congrArg (Option.any (namesScope { visit with activationId := some "" })) hrecord).trans rfl
  · exact (congrArg (Option.any (namesScope { visit with activationId := none })) hrecord).trans rfl

end ADT.Authority
