import ADT.Lib.Utf8Cut
import ADT.Lib.JsonSize
import ADT.Artifacts.Contract
import ADT.Runtime.Delivery

/-!
# Artifacts.SearchTool — the search an agent is given

`boundedArtifactSearch` of `lib/artifact-search-tool.ts` and `searchArtifacts` of `lib/search.ts`, with the request that
the tool `artifact_search` of `adt-runtime/src/openai-agents.ts` sends for it and the limits on both sides.
-/

namespace ADT.Artifacts

open Json ADT.Runtime

structure SearchLimits where
  queryCharacters : ℕ
  maxResults : ℕ
  bodyBytes : ℕ
  totalBytes : ℕ

def artifactSearchLimits : SearchLimits := ⟨500, 10, 32000, 128000⟩

def maxToolResultBytes : ℕ := 128000

/-! ### Arguments -/

structure SearchArguments where
  query : String
  limit : Option ℤ
  deriving DecidableEq

/-- `z.number().int().min(1).max(10).optional()` -/
def limitSchema : Option Json → Option (Option ℤ)
  | none => some none
  | some (.num n) => if 1 ≤ n ∧ n ≤ artifactSearchLimits.maxResults then some (some n) else none
  | some _ => none

/-- An object of a query, which is prepared before it is measured, and a limit. -/
def argumentsSchema (prepare : String → String) (value : Json) : Option SearchArguments :=
  if value.strictKeys ["query", "limit"] then do
    let query ← (value.get? "query").bind asStr?
    let limit ← limitSchema (value.get? "limit")
    if 1 ≤ utf16Length (prepare query) ∧ utf16Length (prepare query) ≤ artifactSearchLimits.queryCharacters then
      some ⟨prepare query, limit⟩
    else none
  else none

/-- The parameters of the tool in the Runtime. -/
def toolParameters (value : Json) : Option SearchArguments := argumentsSchema id value

def artifactSearchArgumentsSchema (value : Json) : Option SearchArguments := argumentsSchema trim value

def SearchArguments.json (args : SearchArguments) : Json :=
  .obj (("query", .str args.query) :: (args.limit.map fun n => ("limit", Json.num n)).toList)

/-- `request.idempotencyKey.split(":", 1)[0]` -/
def runIdOf (idempotencyKey : String) : String := String.ofList (idempotencyKey.toList.takeWhile (· ≠ ':'))

/-- The body that the tool posts to the gateway. -/
def searchRequest (idempotencyKey : String) (callId : Option String) (args : SearchArguments) : Json :=
  .obj [("runId", .str (runIdOf idempotencyKey)), ("tool", .str "artifact_search"),
    ("callId", .str (callId.getD "call-unknown")), ("arguments", args.json)]

/-! ### Searching -/

section Search

variable (toLowerCase : String → String)

/-- `split(/\\s+/)`; the flag says that a separator has begun. -/
def splitSpaces : Bool → List Char → List (List Char)
  | _, [] => [[]]
  | separated, c :: cs =>
    if isTrimmed c then if separated then splitSpaces true cs else [] :: splitSpaces true cs
    else (splitSpaces false cs).modifyHead (c :: ·)

def includes (text term : List Char) : Bool := text.tails.any fun rest => term.isPrefixOf rest

def haystack (artifact : Artifact) : String :=
  toLowerCase (" ".intercalate [artifact.title, artifact.description, artifact.type.text, " ".intercalate artifact.tags,
    " ".intercalate artifact.aliases, artifact.body])

def searchArtifacts (artifacts : List Artifact) (query : String) : List Artifact :=
  let normalized := toLowerCase (trim query)
  if normalized = "" then artifacts
  else artifacts.filter fun artifact =>
    (splitSpaces false normalized.toList).all fun term => includes (haystack toLowerCase artifact).toList term

/-- `truncateUtf8`: the text, and whether it was cut. -/
def truncateUtf8 (value : String) (max : ℕ) : String × Bool :=
  let bytes := Utf8.encode value.toList
  if bytes.length ≤ max then (value, false)
  else
    let cut := bytes.take (Utf8.cutEnd bytes max)
    (String.ofList (Utf8.decodeChars cut.length cut), true)

/-- What a result shows of an artifact. -/
structure SafeArtifact where
  id : String
  title : String
  description : String
  type : ArtifactType
  tags : List String
  aliases : List String
  body : String
  truncated : Bool

def SafeArtifact.json (safe : SafeArtifact) : Json :=
  .obj [("id", .str safe.id), ("title", .str safe.title), ("description", .str safe.description),
    ("type", .str safe.type.text), ("tags", .arr (safe.tags.map .str)), ("aliases", .arr (safe.aliases.map .str)),
    ("body", .str safe.body), ("truncated", .bool safe.truncated)]

def safeArtifact (artifact : Artifact) : SafeArtifact :=
  let body := truncateUtf8 artifact.body artifactSearchLimits.bodyBytes
  { artifact with body := body.1, truncated := body.2 }

/-- The loop over the matches, with the bytes used so far. -/
def collectResults : ℕ → List Artifact → List SafeArtifact
  | _, [] => []
  | used, artifact :: others =>
    let size := (safeArtifact artifact).json.size
    if used + size > artifactSearchLimits.totalBytes then []
    else safeArtifact artifact :: collectResults (used + size) others

structure SearchResult where
  results : List SafeArtifact
  truncated : Bool

def SearchResult.json (result : SearchResult) : Json :=
  .obj [("results", .arr (result.results.map (·.json))), ("truncated", .bool result.truncated)]

/-- `JSON.stringify({ results: [] })` in bytes. -/
def emptyResultBytes : ℕ := (Json.obj [("results", .arr [])]).size

def boundedArtifactSearch (artifacts : List Artifact) (input : Json) : Option SearchResult := do
  let args ← artifactSearchArgumentsSchema input
  let allMatches := searchArtifacts toLowerCase artifacts args.query
  let limited := allMatches.take (args.limit.getD artifactSearchLimits.maxResults).toNat
  let results := collectResults emptyResultBytes limited
  some ⟨results, decide (limited.length < allMatches.length) || decide (results.length < limited.length)⟩

end Search

/-! ### What the schemas accept -/

theorem utf16Length_trim_le (s : String) : utf16Length (trim s) ≤ utf16Length s := by
  have hsub : (trim s).toList.Sublist s.toList := by
    rw [trim, String.toList_ofList]
    have hback := (List.dropWhile_sublist isTrimmed).trans (List.reverse_sublist.mpr
      (List.dropWhile_sublist isTrimmed (l := s.toList)))
    rw [← List.reverse_sublist, List.reverse_reverse]
    exact hback
  rw [utf16Length_eq_sum, utf16Length_eq_sum]
  exact List.Sublist.sum_le_sum (hsub.map _) fun _ _ => Nat.zero_le _

variable {limit : Option ℤ} {args : SearchArguments}

theorem limitSchema_some {value : Option Json} (h : limitSchema value = some limit) {n : ℤ}
    (hn : limit = some n) : 1 ≤ n ∧ n ≤ 10 := by
  subst hn
  rcases value with _ | (_ | _ | m | _ | _ | _)
  case some.num =>
    rw [limitSchema] at h
    split at h
    · cases h
      assumption
    · cases h
  all_goals cases h

theorem toolParameters_some {value : Json} (h : toolParameters value = some args) :
    utf16Length args.query ≤ 500 ∧ ∀ n, args.limit = some n → 1 ≤ n ∧ n ≤ 10 := by
  unfold toolParameters argumentsSchema at h
  split at h
  · obtain ⟨query, -, h⟩ := Option.bind_eq_some_iff.mp h
    obtain ⟨limit, hlimit, h⟩ := Option.bind_eq_some_iff.mp h
    split at h
    · rename_i hquery
      cases h
      exact ⟨hquery.2, fun n hn => limitSchema_some hlimit hn⟩
    · cases h
  · cases h

theorem json_strictKeys (args : SearchArguments) : args.json.strictKeys ["query", "limit"] = true := by
  obtain ⟨query, _ | n⟩ := args <;> rfl

theorem json_query (args : SearchArguments) : args.json.get? "query" = some (.str args.query) := rfl

theorem json_limit (args : SearchArguments) : args.json.get? "limit" = args.limit.map .num := by
  obtain ⟨query, _ | n⟩ := args <;> rfl

theorem limitSchema_num (h : ∀ n, limit = some n → 1 ≤ n ∧ n ≤ 10) : limitSchema (limit.map .num) = some limit := by
  rcases limit with _ | n
  · rfl
  · have hn : 1 ≤ n ∧ n ≤ (artifactSearchLimits.maxResults : ℤ) := h n rfl
    rw [Option.map_some, limitSchema, if_pos hn]

theorem argumentsSchema_json {read : String → String}
    (hquery : 1 ≤ utf16Length (read args.query) ∧ utf16Length (read args.query) ≤ artifactSearchLimits.queryCharacters)
    (hlimit : ∀ n, args.limit = some n → 1 ≤ n ∧ n ≤ 10) :
    argumentsSchema read args.json = some ⟨read args.query, args.limit⟩ := by
  unfold argumentsSchema
  rw [if_pos (json_strictKeys args), json_query, json_limit, limitSchema_num hlimit]
  simp only [Option.bind_some, Option.bind_eq_bind, asStr?]
  rw [if_pos hquery]

theorem artifactSearchArgumentsSchema_json (hquery : utf16Length args.query ≤ 500)
    (hlimit : ∀ n, args.limit = some n → 1 ≤ n ∧ n ≤ 10) (hblank : trim args.query ≠ "") :
    artifactSearchArgumentsSchema args.json = some ⟨trim args.query, args.limit⟩ := by
  have hpos : utf16Length (trim args.query) ≠ 0 := fun h => hblank (utf16Length_eq_zero.mp h)
  have hle := utf16Length_trim_le args.query
  have hlength : 1 ≤ utf16Length (trim args.query) ∧
      utf16Length (trim args.query) ≤ artifactSearchLimits.queryCharacters := by
    have hmax : artifactSearchLimits.queryCharacters = 500 := rfl
    omega
  exact argumentsSchema_json hlength hlimit

theorem byteLength_eq_encode (s : String) : byteLength s = (Utf8.encode s.toList).length := by
  rw [byteLength_eq_sum, Utf8.encode, List.length_flatMap]
  congr 1
  exact List.map_congr_left fun c _ => (String.length_utf8EncodeChar c).symm

theorem truncateUtf8_spec (value : String) (max : ℕ) :
    (truncateUtf8 value max).1.toList <+: value.toList ∧ byteLength (truncateUtf8 value max).1 ≤ max ∧
      ((truncateUtf8 value max).2 = true ↔ (truncateUtf8 value max).1 ≠ value) := by
  unfold truncateUtf8
  dsimp only
  split
  · rename_i hle
    refine ⟨List.prefix_refl _, by rw [byteLength_eq_encode]; exact hle, by simp⟩
  · rename_i hlt
    obtain ⟨front, hfront, hbytes⟩ := @Utf8.prefix_of_cutEnd value.toList max (by omega)
    have hlength : (Utf8.encode front).length ≤ max := by
      have hend := Utf8.cutEnd_le (Utf8.encode value.toList) max
      rw [hbytes, List.length_take]
      omega
    rw [Utf8.decodeChars_of_encode hbytes]
    refine ⟨by rw [String.toList_ofList]; exact hfront, ?_, ?_⟩
    · rw [byteLength_eq_encode, String.toList_ofList]
      exact hlength
    · refine iff_of_true rfl ?_
      rintro rfl
      rw [String.toList_ofList] at hlt
      omega

/-! ### Where the loop stops -/

/-- The loop stops after `k` texts of these sizes: they fit, and the next one would not. -/
def StopsAfter (used : ℕ) (sizes : List ℕ) (k : ℕ) : Prop :=
  k ≤ sizes.length ∧ used + (sizes.take k).sum ≤ artifactSearchLimits.totalBytes ∧
    ∀ size, sizes[k]? = some size → artifactSearchLimits.totalBytes < used + (sizes.take k).sum + size

def safeSize (artifact : Artifact) : ℕ := (safeArtifact artifact).json.size

theorem collectResults_cons (used : ℕ) (artifact : Artifact) (others : List Artifact) :
    collectResults used (artifact :: others) =
      if used + safeSize artifact > artifactSearchLimits.totalBytes then []
      else safeArtifact artifact :: collectResults (used + safeSize artifact) others := rfl

theorem collectResults_eq (used : ℕ) (artifacts : List Artifact) :
    collectResults used artifacts = (artifacts.take (collectResults used artifacts).length).map safeArtifact := by
  induction artifacts generalizing used with
  | nil => rfl
  | cons artifact others ih =>
    rw [collectResults_cons]
    split
    · rfl
    · rw [List.length_cons, List.take_succ_cons, List.map_cons, ← ih]

theorem collectResults_length {used k : ℕ} {artifacts : List Artifact}
    (h : used ≤ artifactSearchLimits.totalBytes) :
    StopsAfter used (artifacts.map safeSize) k ↔ (collectResults used artifacts).length = k := by
  induction artifacts generalizing used k with
  | nil =>
    constructor
    · rintro ⟨hk, -, -⟩
      exact (Nat.le_zero.mp hk).symm
    · rintro rfl
      exact ⟨le_rfl, h, fun size hsize => by cases hsize⟩
  | cons artifact others ih =>
    rw [collectResults_cons, List.map_cons]
    by_cases hfits : used + safeSize artifact > artifactSearchLimits.totalBytes
    · rw [if_pos hfits]
      constructor
      · rintro ⟨-, hsum, -⟩
        rcases k with _ | k
        · rfl
        · rw [List.take_succ_cons, List.sum_cons] at hsum
          omega
      · rintro rfl
        refine ⟨Nat.zero_le _, h, fun size hsize => ?_⟩
        cases hsize
        exact hfits
    · rw [if_neg hfits, List.length_cons]
      rcases k with _ | k
      · refine iff_of_false ?_ (by omega)
        rintro ⟨-, -, hnext⟩
        exact hfits (hnext _ rfl)
      · rw [Nat.add_right_cancel_iff, ← ih (by omega)]
        unfold StopsAfter
        rw [List.length_cons, List.take_succ_cons, List.sum_cons, List.getElem?_cons_succ, Nat.add_le_add_iff_right,
          Nat.add_assoc]

/-! ### Sizes -/

theorem size_arr_items (items : List Json) : (arr items).size = 2 + (items.map size).sum + (items.length - 1) := by
  rcases items with _ | ⟨j, js⟩
  · rfl
  · rw [size_arr, List.sum_map_add, List.map_const', List.sum_replicate, smul_eq_mul, List.length_cons]
    omega

theorem result_size (result : SearchResult) : result.json.size =
    14 + (result.results.map (·.json.size)).sum + (result.results.length - 1) + if result.truncated then 17 else 18 := by
  have hkeys : escapedLength "results" = 7 ∧ escapedLength "truncated" = 9 := by decide
  have htrue : (Json.bool true).size = 4 := rfl
  have hfalse : (Json.bool false).size = 5 := rfl
  rw [SearchResult.json, size_obj]
  simp only [List.map_cons, List.map_nil, List.sum_cons, List.sum_nil, hkeys, size_arr_items, List.map_map, List.length_map]
  have hsizes : (size ∘ fun safe : SafeArtifact => safe.json) = fun safe => safe.json.size := rfl
  rw [hsizes]
  cases result.truncated
  · rw [hfalse, if_neg (by decide)]
    omega
  · rw [htrue, if_pos rfl]
    omega

/-- The bytes of a limit in the arguments. -/
def limitBytes : Option ℤ → ℕ
  | none => 0
  | some n => if n < 10 then 10 else 11

theorem arguments_size (h : ∀ n, args.limit = some n → 1 ≤ n ∧ n ≤ 10) :
    args.json.size = 12 + escapedLength args.query + limitBytes args.limit := by
  have hkeys : escapedLength "query" = 5 ∧ escapedLength "limit" = 5 := by decide
  obtain ⟨query, _ | n⟩ := args
  · show (obj [("query", .str query)]).size = _
    rw [size_obj]
    simp only [List.map_cons, List.map_nil, List.sum_cons, List.sum_nil, hkeys, size_str, limitBytes]
    omega
  · have hdigits : (Json.num n).size + 9 = limitBytes (some n) := by
      obtain ⟨hlow, hhigh⟩ := h n rfl
      interval_cases n <;> decide
    show (obj [("query", .str query), ("limit", .num n)]).size = _
    rw [size_obj]
    simp only [List.map_cons, List.map_nil, List.sum_cons, List.sum_nil, hkeys, size_str]
    omega

theorem request_size {idempotencyKey : String} {callId : Option String}
    (h : ∀ n, args.limit = some n → 1 ≤ n ∧ n ≤ 10) :
    (searchRequest idempotencyKey callId args).size = 74 + escapedLength (runIdOf idempotencyKey) +
      escapedLength (callId.getD "call-unknown") + escapedLength args.query + limitBytes args.limit := by
  have hkeys : escapedLength "runId" = 5 ∧ escapedLength "tool" = 4 ∧ escapedLength "callId" = 6 ∧
    escapedLength "arguments" = 9 ∧ escapedLength "artifact_search" = 15 := by decide
  rw [searchRequest, size_obj]
  simp only [List.map_cons, List.map_nil, List.sum_cons, List.sum_nil, hkeys, size_str, arguments_size h]
  omega

/-! ### Requests and results that fit -/

section Fits

variable (toLowerCase : String → String)

/-- A result shows an artifact with its body cut to a prefix. -/
structure Shows (safe : SafeArtifact) (artifact : Artifact) : Prop where
  fields : safe.id = artifact.id ∧ safe.title = artifact.title ∧ safe.description = artifact.description ∧
    safe.type = artifact.type ∧ safe.tags = artifact.tags ∧ safe.aliases = artifact.aliases
  body : safe.body.toList <+: artifact.body.toList
  bodyBytes : byteLength safe.body ≤ artifactSearchLimits.bodyBytes
  truncated : safe.truncated = true ↔ safe.body ≠ artifact.body

/-- The results show the first of the matches, and the flag says that some are missing. -/
structure ShowsMatches (result : SearchResult) (found : List Artifact) : Prop where
  results : List.Forall₂ Shows result.results (found.take result.results.length)
  truncated : result.truncated = true ↔ result.results.length < found.length

/-- The request is not larger than the gateway reads. -/
def RequestFits (idempotencyKey : String) (callId : Option String) (args : SearchArguments) : Prop :=
  escapedLength (runIdOf idempotencyKey) + escapedLength (callId.getD "call-unknown") + escapedLength args.query +
    limitBytes args.limit ≤ 1974

instance (idempotencyKey : String) (callId : Option String) (args : SearchArguments) :
    Decidable (RequestFits idempotencyKey callId args) := inferInstanceAs (Decidable (_ ≤ _))

/-- The matches that may be shown. -/
def limitedMatches (artifacts : List Artifact) (args : SearchArguments) : List Artifact :=
  (searchArtifacts toLowerCase artifacts args.query).take (args.limit.getD artifactSearchLimits.maxResults).toNat

def matchSizes (artifacts : List Artifact) (args : SearchArguments) : List ℕ :=
  (limitedMatches toLowerCase artifacts args).map safeSize

/-- Where the matches fill the budget, they leave room for their commas and for the flag. -/
def ResultFits (artifacts : List Artifact) (args : SearchArguments) : Prop :=
  ∀ k, StopsAfter 14 (matchSizes toLowerCase artifacts args) k →
    14 + ((matchSizes toLowerCase artifacts args).take k).sum + (k - 1) +
      (if k < (searchArtifacts toLowerCase artifacts args.query).length then 17 else 18) ≤ maxToolResultBytes

theorem safeArtifact_shows (artifact : Artifact) : Shows (safeArtifact artifact) artifact :=
  have hbody := truncateUtf8_spec artifact.body artifactSearchLimits.bodyBytes
  { fields := ⟨rfl, rfl, rfl, rfl, rfl, rfl⟩
    body := hbody.1
    bodyBytes := hbody.2.1
    truncated := hbody.2.2 }

theorem shows_of_map {results : List SafeArtifact} {artifacts : List Artifact} (h : results = artifacts.map safeArtifact) :
    List.Forall₂ Shows results artifacts := by
  rw [h, List.forall₂_map_left_iff, List.forall₂_same]
  exact fun artifact _ => safeArtifact_shows artifact

variable (artifacts : List Artifact) (args : SearchArguments)

theorem searchArtifacts_trim (query : String) :
    searchArtifacts toLowerCase artifacts (trim query) = searchArtifacts toLowerCase artifacts query := by
  rw [searchArtifacts, trim_trim, searchArtifacts]

/-- What the search returns for arguments that the gateway accepts. -/
def searchResult (artifacts : List Artifact) (args : SearchArguments) : SearchResult :=
  let found := searchArtifacts toLowerCase artifacts args.query
  let limited := limitedMatches toLowerCase artifacts args
  let results := collectResults emptyResultBytes limited
  ⟨results, decide (limited.length < found.length) || decide (results.length < limited.length)⟩

theorem boundedArtifactSearch_json {args : SearchArguments}
    (hquery : utf16Length args.query ≤ 500) (hlimit : ∀ n, args.limit = some n → 1 ≤ n ∧ n ≤ 10)
    (hblank : trim args.query ≠ "") :
    boundedArtifactSearch toLowerCase artifacts args.json = some (searchResult toLowerCase artifacts args) := by
  rw [boundedArtifactSearch, artifactSearchArgumentsSchema_json hquery hlimit hblank, searchResult, limitedMatches,
    ← searchArtifacts_trim]
  rfl

theorem searchResult_stops (k : ℕ) : StopsAfter 14 (matchSizes toLowerCase artifacts args) k ↔
      (searchResult toLowerCase artifacts args).results.length = k :=
  collectResults_length (by decide)

theorem searchResult_results : (searchResult toLowerCase artifacts args).results =
      ((limitedMatches toLowerCase artifacts args).take (searchResult toLowerCase artifacts args).results.length).map
        safeArtifact :=
  collectResults_eq emptyResultBytes _

theorem searchResult_shows :
    ShowsMatches (searchResult toLowerCase artifacts args) (searchArtifacts toLowerCase artifacts args.query) := by
  have hresults := searchResult_results toLowerCase artifacts args
  have hlength : (searchResult toLowerCase artifacts args).results.length ≤
      (limitedMatches toLowerCase artifacts args).length := by
    rw [hresults, List.length_map, List.length_take]
    exact Nat.min_le_right _ _
  have hlimited : (limitedMatches toLowerCase artifacts args).length ≤
      (searchArtifacts toLowerCase artifacts args.query).length := (List.take_sublist _ _).length_le
  constructor
  · have htake : (limitedMatches toLowerCase artifacts args).take (searchResult toLowerCase artifacts args).results.length =
        (searchArtifacts toLowerCase artifacts args.query).take (searchResult toLowerCase artifacts args).results.length := by
      rw [limitedMatches, List.length_take] at hlength
      rw [limitedMatches, List.take_take]
      congr 1
      omega
    rw [htake] at hresults
    exact shows_of_map hresults
  · have hflag : (searchResult toLowerCase artifacts args).truncated = true ↔
        (limitedMatches toLowerCase artifacts args).length < (searchArtifacts toLowerCase artifacts args.query).length ∨
          (searchResult toLowerCase artifacts args).results.length < (limitedMatches toLowerCase artifacts args).length := by
      rw [searchResult, Bool.or_eq_true, decide_eq_true_eq, decide_eq_true_eq]
    rw [hflag]
    omega

theorem searchResult_size : (searchResult toLowerCase artifacts args).json.size =
      14 + ((matchSizes toLowerCase artifacts args).take (searchResult toLowerCase artifacts args).results.length).sum +
        ((searchResult toLowerCase artifacts args).results.length - 1) +
        if (searchResult toLowerCase artifacts args).results.length <
          (searchArtifacts toLowerCase artifacts args.query).length then 17 else 18 := by
  have hsizes : (searchResult toLowerCase artifacts args).results.map (·.json.size) =
      (matchSizes toLowerCase artifacts args).take (searchResult toLowerCase artifacts args).results.length := by
    have hresults := congrArg (List.map fun safe : SafeArtifact => safe.json.size)
      (searchResult_results toLowerCase artifacts args)
    rw [hresults, List.map_map, matchSizes, ← List.map_take]
    rfl
  rw [result_size, hsizes, if_congr (searchResult_shows toLowerCase artifacts args).truncated rfl rfl]

/-- **A search fits the limits and shows the first matches** exactly where the texts of its request, written in JSON, and
the matches that fill the budget leave room for the rest of the body. -/
theorem search_fits_iff (artifacts : List Artifact) (idempotencyKey : String) (callId : Option String)
    {value : Json} {args : SearchArguments} (hvalue : toolParameters value = some args) (hblank : trim args.query ≠ "") :
    ((searchRequest idempotencyKey callId args).size ≤ runtimeGatewayRequestLimits .artifactSearch ∧
        ∃ result, boundedArtifactSearch toLowerCase artifacts args.json = some result ∧
          result.json.size ≤ maxToolResultBytes ∧
          ShowsMatches result (searchArtifacts toLowerCase artifacts args.query)) ↔
      RequestFits idempotencyKey callId args ∧ ResultFits toLowerCase artifacts args := by
  obtain ⟨hquery, hlimit⟩ := toolParameters_some hvalue
  have hrequest : (searchRequest idempotencyKey callId args).size ≤ runtimeGatewayRequestLimits .artifactSearch ↔
      RequestFits idempotencyKey callId args := by
    rw [request_size hlimit, RequestFits, runtimeGatewayRequestLimits]
    omega
  have hresult : (searchResult toLowerCase artifacts args).json.size ≤ maxToolResultBytes ↔
      ResultFits toLowerCase artifacts args := by
    rw [searchResult_size]
    constructor
    · intro h k hk
      rw [← (searchResult_stops toLowerCase artifacts args k).mp hk]
      exact h
    · intro h
      exact h _ ((searchResult_stops toLowerCase artifacts args _).mpr rfl)
  have hrun := boundedArtifactSearch_json toLowerCase artifacts hquery hlimit hblank
  rw [hrequest, ← hresult]
  refine and_congr_right fun _ => ?_
  constructor
  · rintro ⟨result, hresult, hle, -⟩
    rw [hrun, Option.some.injEq] at hresult
    rw [hresult]
    exact hle
  · intro hle
    exact ⟨_, hrun, hle, searchResult_shows toLowerCase artifacts args⟩

end Fits

def loginSearch : SearchArguments := ⟨"login form", some 3⟩

/-- Two artifacts, of which the first one matches. -/
def loginArtifacts : List Artifact := [("login", "login form"), ("logout", "logout")].map fun p =>
  ⟨⟨p.1, p.1, "", .snippet, [], [], none, none⟩, p.2, "snippets/" ++ p.1 ++ ".md"⟩

theorem loginSearch_fits :
    (searchRequest "run:step" (some "call_1") loginSearch).size ≤ runtimeGatewayRequestLimits .artifactSearch ∧
      ∃ result, boundedArtifactSearch id loginArtifacts loginSearch.json = some result ∧
        result.json.size ≤ maxToolResultBytes ∧ ShowsMatches result
        (searchArtifacts id loginArtifacts loginSearch.query) := by
  have haccepted : toolParameters loginSearch.json = some loginSearch := by decide +kernel
  have hmatch : (matchSizes id loginArtifacts loginSearch).length = 1 := by decide +kernel
  refine (search_fits_iff id loginArtifacts "run:step" (some "call_1") haccepted (by decide +kernel)).mpr
    ⟨by decide +kernel, ?_⟩
  rintro k ⟨hk, -, -⟩
  rw [hmatch] at hk
  interval_cases k <;> decide +kernel

/-- 500 characters that are written as six. -/
def controlSearch : SearchArguments := ⟨String.ofList (List.replicate 500 '\x01'), none⟩

theorem controlSearch_chars : controlSearch.query.toList = List.replicate 500 '\x01' := String.toList_ofList

theorem controlSearch_length : utf16Length controlSearch.query = 500 := by
  have hplain : ∀ c ∈ List.replicate 500 '\x01', c.toNat < 0x10000 := fun c hc => by
    rw [List.eq_of_mem_replicate hc]
    decide
  exact (utf16Length_ofList hplain).trans List.length_replicate

theorem controlSearch_trim : trim controlSearch.query = controlSearch.query := by
  have hkept : ¬ isTrimmed '\x01' = true := by decide
  rw [trim, controlSearch_chars, List.dropWhile_replicate, if_neg hkept, List.reverse_replicate, List.dropWhile_replicate,
    if_neg hkept, List.reverse_replicate]
  rfl

theorem controlSearch_escaped : escapedLength controlSearch.query = 3000 := by
  have hsix : escapedSize '\x01' = 6 := by decide
  rw [escapedLength, controlSearch_chars, List.map_replicate, List.sum_replicate, hsix]
  rfl

theorem controlSearch_too_large : toolParameters controlSearch.json = some controlSearch ∧ trim controlSearch.query ≠ "" ∧
    ¬ (searchRequest "00000000-0000-4000-8000-000000000000:step" (some "call_1") controlSearch).size ≤
      runtimeGatewayRequestLimits .artifactSearch := by
  have hlimit : ∀ n : ℤ, controlSearch.limit = some n → 1 ≤ n ∧ n ≤ 10 := fun n h => by cases h
  have hquery : 1 ≤ utf16Length (id controlSearch.query) ∧
      utf16Length (id controlSearch.query) ≤ artifactSearchLimits.queryCharacters := by
    rw [id, controlSearch_length]
    decide
  refine ⟨argumentsSchema_json hquery hlimit, fun hblank => ?_, ?_⟩
  · rw [controlSearch_trim] at hblank
    have hlength := controlSearch_length
    rw [hblank] at hlength
    cases hlength
  · rw [request_size hlimit, controlSearch_escaped, runtimeGatewayRequestLimits]
    omega

end ADT.Artifacts
