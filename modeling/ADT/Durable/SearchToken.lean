import ADT.Lib.Base64Url
import ADT.Lib.JsonText
import ADT.Lib.Utf8
import ADT.Protocol.SingleUse
import Mathlib.Data.List.TakeWhile

/-!
# Durable.SearchToken — the authority of an artifact search

`issueArtifactSearchAuthority` and `verifyArtifactSearchAuthority` of `lib/artifact-search-tool.ts`: the authority is a
JSON record, encrypted under a key that is derived from the internal secret.  What was issued is verified until it
expires (`verify_issued`).
-/

namespace ADT.Durable

/-- `createHash("sha256")` and `aes-256-gcm` of `node:crypto`: what was encrypted is decrypted under its key, its nonce
and its tag; the ciphertext is as long as the text, and a tag has 16 bytes. -/
structure Aead where
  sha256 : List UInt8 → List UInt8
  encrypt : List UInt8 → List UInt8 → List UInt8 → List UInt8 × List UInt8
  decrypt : List UInt8 → List UInt8 → List UInt8 → List UInt8 → Option (List UInt8)
  decrypt_encrypt : ∀ key nonce text,
    decrypt key nonce (encrypt key nonce text).1 (encrypt key nonce text).2 = some text
  length_ciphertext : ∀ key nonce text, (encrypt key nonce text).1.length = text.length
  length_tag : ∀ key nonce text, (encrypt key nonce text).2.length = 16

structure RunRepositoryContext where
  repositoryId : ℤ
  installationId : ℤ
  owner : String
  repository : String
  branch : String
  root : String

/-- `version` is always 1. -/
structure ArtifactSearchAuthority where
  runId : String
  stepId : String
  iteration : ℤ
  attempt : ℤ
  context : RunRepositoryContext
  expiresAt : ℤ
  nonce : String

namespace ArtifactSearchAuthority

/-! ### The schema -/

/-- `z.string().uuid()` -/
def isUuid (s : String) : Bool :=
  s == "00000000-0000-0000-0000-000000000000" || s == "ffffffff-ffff-ffff-ffff-ffffffffffff" ||
    match s.toList.splitOn '-' with
    | [a, b, c, d, e] =>
      a.length == 8 && b.length == 4 && c.length == 4 && d.length == 4 && e.length == 12 &&
        (a ++ b ++ c ++ d ++ e).all isHexDigit && c.head?.any (fun x => '1' ≤ x && x ≤ '8') &&
        d.head?.any (fun x => ['8', '9', 'a', 'b', 'A', 'B'].contains x)
    | _ => false

/-- `z.string().min(1).max(n)` -/
def within (n : ℕ) (s : String) : Bool := 1 ≤ utf16Length s && utf16Length s ≤ n

/-- What the schema asks of the values. -/
def valid (a : ArtifactSearchAuthority) : Bool :=
  isUuid a.runId && within 80 a.stepId && 0 < a.iteration && 0 < a.attempt && 0 < a.context.repositoryId &&
    0 < a.context.installationId && within 100 a.context.owner && within 100 a.context.repository &&
    within 255 a.context.branch && within 255 a.context.root && isUuid a.nonce

def record (a : ArtifactSearchAuthority) : Json :=
  .obj [("version", .num 1), ("runId", .str a.runId), ("stepId", .str a.stepId), ("iteration", .num a.iteration),
    ("attempt", .num a.attempt), ("repositoryId", .num a.context.repositoryId),
    ("installationId", .num a.context.installationId), ("owner", .str a.context.owner),
    ("repository", .str a.context.repository), ("branch", .str a.context.branch), ("root", .str a.context.root),
    ("expiresAt", .num a.expiresAt), ("nonce", .str a.nonce)]

def authorityKeys : List String :=
  ["version", "runId", "stepId", "iteration", "attempt", "repositoryId", "installationId", "owner", "repository",
    "branch", "root", "expiresAt", "nonce"]

def text (j : Json) (name : String) : Option String := (j.get? name).bind Json.asStr?

def number (j : Json) (name : String) : Option ℤ :=
  match j.get? name with
  | some (.num n) => some n
  | _ => none

def parse (j : Json) : Option ArtifactSearchAuthority := do
  guard (Json.strictKeys authorityKeys j && number j "version" == some 1)
  let a : ArtifactSearchAuthority :=
    ⟨← text j "runId", ← text j "stepId", ← number j "iteration", ← number j "attempt",
      ⟨← number j "repositoryId", ← number j "installationId", ← text j "owner", ← text j "repository",
        ← text j "branch", ← text j "root"⟩, ← number j "expiresAt", ← text j "nonce"⟩
  guard a.valid
  return a

variable (a : ArtifactSearchAuthority)

theorem parse_record : parse a.record = if a.valid then some a else none := by
  have hkeys : (Json.strictKeys authorityKeys a.record && number a.record "version" == some 1) = true := rfl
  unfold parse
  rw [hkeys]
  show (if a.valid = true then some () else none).bind (fun _ => some a) = _
  by_cases hvalid : a.valid = true
  · rw [if_pos hvalid]
    simp only [hvalid]
    rfl
  · rw [if_neg hvalid]
    simp only [hvalid]
    rfl

theorem record_distinct : a.record.distinct = true := by
  rw [record, Json.distinct_obj]
  refine ⟨show authorityKeys.Nodup by decide, fun f hf => ?_⟩
  simp only [List.mem_cons, List.not_mem_nil, or_false] at hf
  rcases hf with rfl | rfl | rfl | rfl | rfl | rfl | rfl | rfl | rfl | rfl | rfl | rfl | rfl <;> rfl

end ArtifactSearchAuthority

section Tokens

variable (A : Aead) (secret : String)

/-- `authorityKey`; `none` where the secret is too short. -/
def Aead.authorityKey : Option (List UInt8) :=
  if utf16Length secret < 32 then none
  else some (A.sha256 (Utf8.encode (("artifact-search-authority" ++ String.singleton (Char.ofNat 0)) ++ secret).toList))

/-- `nonce` are the twelve random bytes. -/
def issueArtifactSearchAuthority (value : ArtifactSearchAuthority) (nonce : List UInt8) : Option (List Char) := do
  let key ← A.authorityKey secret
  guard value.valid
  let crypted := A.encrypt key nonce (Utf8.encode value.record.stringify.toList)
  return Base64Url.encode nonce ++ '.' :: (Base64Url.encode crypted.1 ++ '.' :: Base64Url.encode crypted.2)

def verifyArtifactSearchAuthority (token : List Char) (expectedRunId : String) (now : ℤ) :
    Option ArtifactSearchAuthority :=
  match token.splitOn '.' with
  | [nonce, ciphertext, tag] => do
    guard (nonce ≠ [] ∧ ciphertext ≠ [] ∧ tag ≠ [])
    let key ← A.authorityKey secret
    let text ← A.decrypt key (Protocol.base64Bytes (String.ofList nonce)) (Protocol.base64Bytes (String.ofList ciphertext))
      (Protocol.base64Bytes (String.ofList tag))
    let value ← (Json.parse (String.ofList (Utf8.decodeChars text.length text))).bind ArtifactSearchAuthority.parse
    guard (value.runId = expectedRunId ∧ now < value.expiresAt)
    return value
  | _ => none

end Tokens

/-! ### What was issued -/

variable (bytes : List UInt8)

theorem base64Bytes_encode : Protocol.base64Bytes (String.ofList (Base64Url.encode bytes)) = bytes := by
  have hplain : (Base64Url.encode bytes).takeWhile (· != '=') = Base64Url.encode bytes := by
    refine List.takeWhile_eq_self_iff.2 fun c hc => ?_
    simpa using (Base64Url.mem_encode hc).2.1
  have hdigits : (Base64Url.encode bytes).filterMap Base64Url.value = Base64Url.group bytes := by
    have hlt := Base64Url.group_lt bytes
    rw [Base64Url.encode]
    generalize Base64Url.group bytes = ns at hlt
    induction ns with
    | nil => rfl
    | cons n ns ih =>
      rw [List.map_cons, List.filterMap_cons, Base64Url.value_digit n (hlt n (List.mem_cons_self ..))]
      dsimp only
      rw [ih fun m hm => hlt m (List.mem_cons_of_mem _ hm)]
  rw [Protocol.base64Bytes, String.toList_ofList, hplain, hdigits, Base64Url.ungroup_group]

theorem splitOn_dots {a b c : List Char} (ha : '.' ∉ a) (hb : '.' ∉ b) (hc : '.' ∉ c) :
    (a ++ '.' :: (b ++ '.' :: c)).splitOn '.' = [a, b, c] := by
  have hjoin : ['.'].intercalate [a, b, c] = a ++ '.' :: (b ++ '.' :: c) := by simp [List.intercalate]
  rw [← hjoin]
  refine List.splitOn_intercalate '.' ?_ (by simp)
  intro l hl
  simp only [List.mem_cons, List.not_mem_nil, or_false] at hl
  rcases hl with rfl | rfl | rfl
  · exact ha
  · exact hb
  · exact hc

theorem encode_ne_nil_of_length (h : 0 < bytes.length) : Base64Url.encode bytes ≠ [] :=
  Base64Url.encode_ne_nil (List.ne_nil_of_length_pos h)

/-- **An issued authority** is verified for its run until it expires. -/
theorem verify_issued (A : Aead) (secret : String) {value : ArtifactSearchAuthority} {nonce : List UInt8}
    {token : List Char} (hnonce : nonce.length = 12) (h : issueArtifactSearchAuthority A secret value nonce = some token)
    (now : ℤ) : verifyArtifactSearchAuthority A secret token value.runId now =
      if now < value.expiresAt then some value else none := by
  unfold issueArtifactSearchAuthority at h
  obtain ⟨key, hkey, h⟩ := Option.bind_eq_some_iff.1 h
  by_cases hvalid : value.valid = true
  case neg => exact absurd h (by simp [hvalid, guard])
  simp only [hvalid, guard, if_true] at h
  cases h
  have hdot : ∀ bytes : List UInt8, '.' ∉ Base64Url.encode bytes := fun bytes hc => (Base64Url.mem_encode hc).2.2 rfl
  have hpos : 0 < (Utf8.encode value.record.stringify.toList).length := by
    obtain ⟨c, cs, hc, -⟩ := Json.text_head value.record
    have htext : value.record.stringify.toList = c :: cs := hc
    have hle := Utf8.length_le_encode value.record.stringify.toList
    rw [htext, List.length_cons] at hle
    rw [htext]
    omega
  have hciphertext := encode_ne_nil_of_length (A.encrypt key nonce (Utf8.encode value.record.stringify.toList)).1
    (by rw [A.length_ciphertext]; exact hpos)
  have htag := encode_ne_nil_of_length (A.encrypt key nonce (Utf8.encode value.record.stringify.toList)).2
    (by rw [A.length_tag]; omega)
  have hlead := encode_ne_nil_of_length nonce (by omega)
  have hread : (Json.parse (String.ofList (Utf8.decodeChars (Utf8.encode value.record.stringify.toList).length
      (Utf8.encode value.record.stringify.toList)))).bind ArtifactSearchAuthority.parse = some value := by
    rw [Utf8.decodeChars_encode _ (Utf8.length_le_encode _), String.ofList_toList,
      Json.parse_stringify _ value.record_distinct, Option.bind_some, ArtifactSearchAuthority.parse_record, if_pos hvalid]
  unfold verifyArtifactSearchAuthority
  rw [splitOn_dots (hdot _) (hdot _) (hdot _)]
  show (guard (_ ∧ _ ∧ _) >>= fun _ => _) = _
  simp only [base64Bytes_encode, A.decrypt_encrypt, hkey, hread, hlead, hciphertext, htag, guard, ne_eq, not_false_eq_true,
    and_self, if_true, true_and, Option.bind_eq_bind, Option.bind_some, Option.pure_def]
  by_cases hnow : now < value.expiresAt
  · rw [if_pos hnow, if_pos hnow]
    rfl
  · rw [if_neg hnow, if_neg hnow]
    rfl

end ADT.Durable
