import ADT.Lib.Base64Url
import ADT.Lib.Basics
import ADT.Lib.Utf8
import ADT.Artifacts.Repository

/-!
# Artifacts.Diagnosis — a catalogue loaded and a catalogue diagnosed

`loadCatalogue` and `diagnoseCatalogue` of `lib/artifact-repository.ts` over what GitHub answers for a revision: the
entries of its tree and the blobs.  Both read every Markdown file below the directories of artifacts; one throws at the
first file that is no artifact, the other counts them.
-/

namespace ADT.Artifacts.GitHub

/-- An entry of a tree. -/
structure TreeEntry where
  path : Option String
  type : Option String
  sha : Option String
  size : Option ℕ

structure BlobResponse where
  content : Option String
  encoding : Option String
  size : Option ℕ

/-- The answer to a request for a blob, where GitHub is reached: a document, no blob of that name, or a refusal. -/
inductive BlobAnswer
  | found (blob : BlobResponse)
  | notFound
  | refused

/-- `Buffer.from(text, "base64")`: what is no digit is passed over. -/
def bufferFromBase64 (text : String) : List UInt8 := Base64Url.ungroup (text.toList.filterMap Base64Url.value)

def TreeEntry.isBlob (entry : TreeEntry) : Bool := entry.type == some "blob"

/-- The entries and the blobs of a revision.  The files of a tree have different paths, and the size of an entry is that
of its blob. -/
structure Revision where
  name : String
  tree : List TreeEntry
  blobs : String → BlobAnswer
  paths_nodup : ((tree.filter TreeEntry.isBlob).filterMap (·.path)).Nodup
  size_eq : ∀ entry ∈ tree, ∀ size sha blob content, entry.size = some size → entry.sha = some sha →
    blobs sha = .found blob → blob.encoding = some "base64" → blob.content = some content →
      (bufferFromBase64 content).length = size

/-! ### Reading a blob -/

inductive BlobError
  | unsupportedEncoding | blobTooLarge | blobUnavailable | content

def fetchBlob (blobs : String → BlobAnswer) (sha : String) : Except BlobError String :=
  match blobs sha with
  | .notFound => .error .blobUnavailable
  | .refused => .error .content
  | .found blob =>
    if blob.size.any (maxSerializedArtifactBytes < ·) then .error .blobTooLarge
    else
      match blob.content with
      | none => .error .unsupportedEncoding
      | some content =>
        if blob.encoding ≠ some "base64" then .error .unsupportedEncoding
        else
          let decoded := bufferFromBase64 content
          if maxSerializedArtifactBytes < decoded.length then .error .blobTooLarge
          else .ok (String.ofList (Utf8.decodeChars decoded.length decoded))

/-- `/^[a-f0-9]{7,64}$/i` -/
def isRevisionSha (sha : String) : Bool :=
  7 ≤ sha.toList.length && sha.toList.length ≤ 64 &&
    sha.toList.all fun c => ('0' ≤ c && c ≤ '9') || ('a' ≤ c && c ≤ 'f') || ('A' ≤ c && c ≤ 'F')

section

variable (M : Matter) (collate : String → String → Bool) (revision : Revision)

/-- The Markdown files that both functions read. -/
def candidates : List TreeEntry := revision.tree.filter fun entry => entry.isBlob && entry.path.any isArtifactMarkdownCandidate

def artifactOf (entry : TreeEntry) : Option Artifact := do
  let path ← entry.path
  let sha ← entry.sha
  if path = "" ∨ sha = "" then none
  else if !classifyArtifactPath path then none
  else do
    let text ← (fetchBlob revision.blobs sha).toOption
    parseArtifactMarkdown M text path

def artifactsFromTree : Option (List Artifact) := do
  let artifacts ← (candidates revision).mapM (artifactOf M revision)
  if validateUniqueArtifactIds artifacts then return artifacts else none

structure Catalogue where
  artifacts : List Artifact
  revision : String
  fileShas : List (String × String)

/-- The blob revision of an artifact's file. -/
def fileSha (artifact : Artifact) : Option String := do
  let entry ← revision.tree.find? fun entry => entry.isBlob && entry.path == some artifact.path
  let sha ← entry.sha
  if isRevisionSha sha then some sha else none

/-- `loadCatalogue`; `none` where it throws. -/
def loadCatalogue : Option Catalogue := do
  let artifacts ← artifactsFromTree M revision
  let fileShas ← artifacts.mapM fun artifact => (fileSha revision artifact).map fun sha => (artifact.id, sha)
  return ⟨artifacts.mergeSort fun a b => collate a.title b.title, revision.name, fileShas⟩

/-! ### Diagnosing -/

inductive DiagnosticCode
  | invalidPath | unsupportedEncoding | blobTooLarge | missingBlobSha | blobUnavailable | invalidFrontMatter
  | invalidMetadata | invalidBody | duplicateId
  deriving DecidableEq

structure ValidationDiagnostic where
  path : String
  code : DiagnosticCode
  message : String

/-- The code of the error that `parseArtifactMarkdown` throws. -/
def parseErrorCode (raw : String) : DiagnosticCode :=
  match M.read raw with
  | none => .invalidFrontMatter
  | some parsed => if trim parsed.matter = "" then .invalidFrontMatter else .invalidMetadata

def blobErrorDiagnostic (path : String) : BlobError → ValidationDiagnostic
  | .unsupportedEncoding => ⟨path, .unsupportedEncoding, "Artifact blob encoding is unsupported."⟩
  | .blobUnavailable => ⟨path, .blobUnavailable, "Artifact blob is unavailable."⟩
  | .blobTooLarge => ⟨path, .blobTooLarge, "Artifact exceeds the maximum allowed size."⟩
  | .content => ⟨path, .invalidMetadata, "Artifact metadata is invalid."⟩

def parseErrorDiagnostic (path : String) (code : DiagnosticCode) : ValidationDiagnostic :=
  ⟨path, code, if code = .invalidBody then "Artifact body is invalid."
    else if code = .invalidFrontMatter then "Artifact front matter is invalid." else "Artifact metadata is invalid."⟩

def unsafePath : String := "[unsafe repository path]"

def safePath (entry : TreeEntry) : String := (entry.path.filter (isSupportedArtifactPath ·)).getD unsafePath

def diagnoseEntry (entry : TreeEntry) : Except ValidationDiagnostic Artifact :=
  let path := safePath entry
  if "[".toList.isPrefixOf path.toList then
    .error ⟨path, .invalidPath, "Artifact path is not a safe repository-relative path under the configured root."⟩
  else
    match entry.sha.filter (isRevisionSha ·) with
    | none => .error ⟨path, .missingBlobSha, "GitHub did not provide a valid blob revision."⟩
    | some sha =>
      if entry.size.any (maxSerializedArtifactBytes < ·) then
        .error ⟨path, .blobTooLarge, "Artifact exceeds the maximum allowed size."⟩
      else
        match fetchBlob revision.blobs sha with
        | .error e => .error (blobErrorDiagnostic path e)
        | .ok text =>
          match parseArtifactMarkdown M text path with
          | none => .error (parseErrorDiagnostic path (parseErrorCode M text))
          | some artifact => .ok artifact

/-- What is found of a file, by its place among the candidates. -/
abbrev EntryResult := Except ValidationDiagnostic Artifact × ℕ

def entryResults : List EntryResult := ((candidates revision).map (diagnoseEntry M revision)).zipIdx

def EntryResult.error? (result : EntryResult) : Option (ℕ × ValidationDiagnostic) :=
  match result.1 with
  | .error diagnostic => some (result.2, diagnostic)
  | .ok _ => none

def EntryResult.artifact? (result : EntryResult) : Option Artifact := result.1.toOption

/-- The diagnostics of the artifacts with an id that several have. -/
def duplicateDiagnostics (results : List EntryResult) (id : String) : List (ℕ × ValidationDiagnostic) :=
  let duplicates := results.filter fun result => result.artifact?.any (·.id == id)
  if 1 < duplicates.length then
    duplicates.filterMap fun result => result.artifact?.map fun artifact =>
      (result.2, ⟨artifact.path, .duplicateId, "Artifact ID is duplicated by another valid file."⟩)
  else []

structure ValidationReport where
  revision : String
  validCount : ℕ
  invalidCount : ℕ
  errors : List ValidationDiagnostic
  omittedErrorCount : ℕ

def diagnostics (results : List EntryResult) : List (ℕ × ValidationDiagnostic) :=
  results.filterMap EntryResult.error? ++
    ((results.filterMap EntryResult.artifact?).map (·.id)).eraseDups.flatMap (duplicateDiagnostics results)

def invalidEntries (results : List EntryResult) : List ℕ := ((diagnostics results).map (·.1)).eraseDups

def diagnoseCatalogue : ValidationReport :=
  let results := entryResults M revision
  let errors := ((diagnostics results).take 50).map (·.2)
  { revision := revision.name
    validCount := (results.filterMap EntryResult.artifact?).length -
      (results.filter fun result => result.artifact?.isSome && (invalidEntries results).contains result.2).length
    invalidCount := (invalidEntries results).length
    errors := errors
    omittedErrorCount := (diagnostics results).length - errors.length }

end

/-! ### One file -/

theorem exists_of_any {α : Type} {p : α → Bool} {x : Option α} (h : x.any p = true) : ∃ y, x = some y ∧ p y = true := by
  rcases x with _ | y
  · cases h
  · exact ⟨y, rfl, h⟩

section

variable {M : Matter} {revision : Revision}
variable {path : String} {entry : TreeEntry} {artifact : Artifact} {results : List EntryResult}
  {artifacts : List Artifact} (collate : String → String → Bool)

theorem isSupportedArtifactPath_eq (h : isArtifactMarkdownCandidate path) :
    isSupportedArtifactPath path = classifyArtifactPath path := by
  unfold isArtifactMarkdownCandidate at h
  rw [Bool.and_eq_true] at h
  have hsuffix := List.isSuffixOf_iff_suffix.mp h.1
  have hend : ".md".toList.isSuffixOf (path.toList.map fun c => if c = '\\' then '/' else c) = true := by
    rw [List.isSuffixOf_iff_suffix]
    exact hsuffix.trans (List.dropWhile_suffix _)
  rw [isSupportedArtifactPath, hend, Bool.and_true]

theorem not_bracket_of_candidate (h : isArtifactMarkdownCandidate path) :
    ¬ "[".toList.isPrefixOf path.toList = true := by
  intro hbracket
  obtain ⟨rest, hrest⟩ := List.isPrefixOf_iff_prefix.mp hbracket
  have hnormalized : normalizedPath path = '[' :: rest.map fun c => if c = '\\' then '/' else c := by
    rw [normalizedPath, ← hrest]
    rfl
  unfold isArtifactMarkdownCandidate at h
  rw [Bool.and_eq_true, hnormalized] at h
  have hdirectory := h.2
  revert hdirectory
  simp [artifactDirectories, List.isPrefixOf]

theorem fetchBlob_error_of_size (hentry : entry ∈ revision.tree) {sha : String}
    (hsha : entry.sha = some sha) (hsize : entry.size.any (maxSerializedArtifactBytes < ·) = true) (text : String) :
    fetchBlob revision.blobs sha ≠ .ok text := by
  intro h
  obtain ⟨size, hsome, hlarge⟩ := exists_of_any hsize
  unfold fetchBlob at h
  split at h
  · cases h
  · cases h
  · rename_i blob hblob
    split at h
    · cases h
    · split at h
      · cases h
      · rename_i content hcontent
        split at h
        · cases h
        · rename_i hencoding
          rw [not_not] at hencoding
          have hlength := revision.size_eq entry hentry size sha blob content hsome hsha hblob hencoding hcontent
          rw [decide_eq_true_eq] at hlarge
          dsimp only at h
          rw [hlength, if_pos hlarge] at h
          cases h

theorem artifactOf_eq {sha : String} (type : Option String) (size : Option ℕ) (hpath : path ≠ "") (hsha : sha ≠ "")
    (hclass : classifyArtifactPath path = true) : artifactOf M revision ⟨some path, type, some sha, size⟩ =
      (fetchBlob revision.blobs sha).toOption.bind (parseArtifactMarkdown M · path) := by
  have hnamed : ¬ (path = "" ∨ sha = "") := by simp [hpath, hsha]
  show (if path = "" ∨ sha = "" then none else if (!classifyArtifactPath path) = true then none else _) = _
  rw [if_neg hnamed, if_neg (by rw [hclass]; decide)]
  rfl

theorem artifactOf_unsafe (type sha : Option String) (size : Option ℕ)
    (hclass : ¬ classifyArtifactPath path = true) : artifactOf M revision ⟨some path, type, sha, size⟩ = none := by
  rcases sha with _ | sha
  · rfl
  · show (if path = "" ∨ sha = "" then none else if (!classifyArtifactPath path) = true then none else _) = _
    split
    · rfl
    · exact if_pos (by rw [Bool.not_eq_true] at hclass; rw [hclass]; rfl)

/-- The diagnosis takes what the loader takes. -/
theorem diagnoseEntry_ok (hentry : entry ∈ candidates revision) : diagnoseEntry M revision entry = .ok artifact ↔
      artifactOf M revision entry = some artifact ∧ entry.sha.any isRevisionSha = true := by
  obtain ⟨htree, hcandidate⟩ := List.mem_filter.mp hentry
  rw [Bool.and_eq_true] at hcandidate
  obtain ⟨path, hpath, hmarkdown⟩ := exists_of_any hcandidate.2
  have hpathNe : path ≠ "" := by
    rintro rfl
    exact absurd hmarkdown (by decide)
  have hsupported := isSupportedArtifactPath_eq hmarkdown
  have hlarge : ∀ sha, entry.sha = some sha → entry.size.any (maxSerializedArtifactBytes < ·) = true →
      ∀ text, fetchBlob revision.blobs sha ≠ .ok text := fun _ hsha hsize => fetchBlob_error_of_size htree hsha hsize
  obtain ⟨entryPath, type, entrySha, size⟩ := entry
  obtain rfl : entryPath = some path := hpath
  unfold diagnoseEntry
  by_cases hclass : classifyArtifactPath path = true
  · have hsafe : safePath ⟨some path, type, entrySha, size⟩ = path := by
      rw [safePath, Option.filter_some, hsupported, if_pos hclass, Option.getD_some]
    dsimp only
    rw [hsafe, if_neg (not_bracket_of_candidate hmarkdown)]
    rcases entrySha with _ | sha
    · exact iff_of_false (fun h => by cases h) fun h => by cases h.2
    · by_cases hsha : isRevisionSha sha = true
      · have hshaNe : sha ≠ "" := by
          rintro rfl
          exact absurd hsha (by decide)
        rw [Option.filter_some, if_pos hsha, artifactOf_eq type size hpathNe hshaNe hclass, Option.any_some,
          and_iff_left hsha]
        dsimp only
        by_cases hsize : size.any (maxSerializedArtifactBytes < ·) = true
        · rw [if_pos hsize]
          refine iff_of_false (fun h => by cases h) fun h => ?_
          obtain ⟨text, htext, -⟩ := Option.bind_eq_some_iff.mp h
          rcases hblob : fetchBlob revision.blobs sha with e | found
          · rw [hblob] at htext
            cases htext
          · exact hlarge sha rfl hsize found hblob
        · rw [if_neg hsize]
          rcases fetchBlob revision.blobs sha with e | text
          · exact iff_of_false (fun h => by cases h) fun h => by cases h
          · show _ ↔ parseArtifactMarkdown M text path = some artifact
            dsimp only
            rcases parseArtifactMarkdown M text path with _ | found
            · exact iff_of_false (fun h => by cases h) fun h => by cases h
            · dsimp only
              rw [Except.ok.injEq, Option.some.injEq]
      · rw [Option.filter_some, if_neg hsha]
        exact iff_of_false (fun h => by cases h) fun h => hsha h.2
  · have hsafe : safePath ⟨some path, type, entrySha, size⟩ = unsafePath := by
      rw [safePath, Option.filter_some, hsupported, if_neg hclass]
      rfl
    dsimp only
    rw [hsafe, if_pos (by decide), artifactOf_unsafe type entrySha size hclass]
    exact iff_of_false (fun h => by cases h) fun h => by cases h.1

/-! ### Counting -/

theorem length_filter_add {α : Type} (p q : α → Bool) {l : List α} (h : ∀ x ∈ l, q x = false → p x = true) :
    (l.filter p).length + (l.filter q).length = l.length + (l.filter fun x => q x && p x).length := by
  induction l with
  | nil => rfl
  | cons x l ih =>
    have ih := ih fun y hy => h y (List.mem_cons_of_mem _ hy)
    have hx := h x List.mem_cons_self
    simp only [List.filter_cons, List.length_cons]
    cases hq : q x <;> cases hp : p x <;> simp [hq, hp] at hx ⊢ <;> omega

section Counting

variable {results : List EntryResult} (hindices : (results.map (·.2)).Nodup)

theorem mem_duplicateDiagnostics {id : String} {index : ℕ} {diagnostic : ValidationDiagnostic}
    (h : (index, diagnostic) ∈ duplicateDiagnostics results id) : index ∈ results.map (·.2) := by
  unfold duplicateDiagnostics at h
  dsimp only at h
  split at h
  · obtain ⟨result, hresult, h⟩ := List.mem_filterMap.mp h
    obtain ⟨artifact, -, h⟩ := Option.map_eq_some_iff.mp h
    cases h
    exact List.mem_map_of_mem (List.mem_filter.mp hresult).1
  · cases h

theorem mem_of_mem_invalidEntries {index : ℕ} (h : index ∈ invalidEntries results) : index ∈ results.map (·.2) := by
  rw [invalidEntries, List.mem_eraseDups] at h
  obtain ⟨⟨index, diagnostic⟩, hmem, rfl⟩ := List.mem_map.mp h
  rcases List.mem_append.mp hmem with hmem | hmem
  · obtain ⟨⟨outcome, place⟩, hresult, herror⟩ := List.mem_filterMap.mp hmem
    rcases outcome with e | artifact
    · cases herror
      exact List.mem_map_of_mem hresult
    · cases herror
  · obtain ⟨id, -, hmem⟩ := List.mem_flatMap.mp hmem
    exact mem_duplicateDiagnostics hmem

theorem invalid_of_error {result : EntryResult} (hresult : result ∈ results) (h : result.artifact?.isSome = false) :
    (invalidEntries results).contains result.2 = true := by
  obtain ⟨outcome, place⟩ := result
  rcases outcome with e | artifact
  · rw [List.contains_iff_mem, invalidEntries, List.mem_eraseDups]
    refine List.mem_map.mpr ⟨(place, e), List.mem_append_left _ ?_, rfl⟩
    exact List.mem_filterMap.mpr ⟨_, hresult, rfl⟩
  · cases h

include hindices in
theorem length_invalidEntries :
    (invalidEntries results).length = (results.filter fun result => (invalidEntries results).contains result.2).length := by
  have hsame : ∀ index, index ∈ invalidEntries results ↔
      index ∈ (results.filter fun result => (invalidEntries results).contains result.2).map (·.2) := by
    intro index
    constructor
    · intro h
      obtain ⟨result, hresult, rfl⟩ := List.mem_map.mp (mem_of_mem_invalidEntries h)
      exact List.mem_map.mpr ⟨result, List.mem_filter.mpr ⟨hresult, List.contains_iff_mem.mpr h⟩, rfl⟩
    · intro h
      obtain ⟨result, hresult, rfl⟩ := List.mem_map.mp h
      exact List.contains_iff_mem.mp (List.mem_filter.mp hresult).2
  have hinvalid : (invalidEntries results).Nodup := nodup_eraseDups _
  have hfiltered : ((results.filter fun result => (invalidEntries results).contains result.2).map (·.2)).Nodup :=
    hindices.sublist (List.filter_sublist.map _)
  have hperm := (List.perm_ext_iff_of_nodup hinvalid hfiltered).mpr hsame
  rw [hperm.length_eq, List.length_map]

include hindices in
theorem valid_add_invalid : (results.filterMap EntryResult.artifact?).length -
    (results.filter fun result => result.artifact?.isSome && (invalidEntries results).contains result.2).length +
      (invalidEntries results).length = results.length := by
  have hcount := length_filter_add (fun result => (invalidEntries results).contains result.2)
    (fun result => result.artifact?.isSome) fun result hresult => invalid_of_error hresult
  have hvalid : (results.filterMap EntryResult.artifact?).length =
      (results.filter fun result => result.artifact?.isSome).length := by
    rw [List.length_filterMap_eq_countP, List.countP_eq_length_filter]
  have hle : (results.filter fun result => result.artifact?.isSome && (invalidEntries results).contains result.2).length ≤
      (results.filter fun result => result.artifact?.isSome).length := by
    rw [← List.countP_eq_length_filter, ← List.countP_eq_length_filter]
    exact List.countP_mono_left fun result _ h => (Bool.and_eq_true _ _ ▸ h).1
  rw [length_invalidEntries hindices, hvalid]
  omega

end Counting

/-! ### Both together -/

theorem mapM_eq_some {α β : Type} {f : α → Option β} {l : List α} {ys : List β} :
    l.mapM f = some ys ↔ l.map f = ys.map some := by
  induction l generalizing ys with
  | nil => cases ys <;> simp
  | cons a l ih =>
    rw [List.mapM_cons]
    rcases ys with _ | ⟨y, ys⟩
    · simp [Option.bind_eq_some_iff]
    · simp [Option.bind_eq_some_iff, ih]

theorem count_ids (results : List EntryResult) (id : String) :
    ((results.filterMap EntryResult.artifact?).map (·.id)).count id =
      (results.filter fun result => result.artifact?.any (·.id == id)).length := by
  induction results with
  | nil => rfl
  | cons result results ih =>
    rcases hartifact : EntryResult.artifact? result with _ | artifact
    · rw [List.filterMap_cons_none hartifact, List.filter_cons_of_neg (by rw [hartifact]; exact Bool.false_ne_true), ih]
    · rw [List.filterMap_cons_some hartifact, List.map_cons, List.count_cons, ih]
      by_cases hid : (artifact.id == id) = true
      · rw [if_pos hid, List.filter_cons_of_pos (by rw [hartifact]; exact hid), List.length_cons]
      · rw [if_neg hid, List.filter_cons_of_neg (by rw [hartifact]; exact hid), Nat.add_zero]

theorem duplicateDiagnostics_eq_nil {id : String} :
    duplicateDiagnostics results id = [] ↔ ((results.filterMap EntryResult.artifact?).map (·.id)).count id ≤ 1 := by
  rw [count_ids, duplicateDiagnostics]
  by_cases hmany : 1 < (results.filter fun result => result.artifact?.any (·.id == id)).length
  · rw [if_pos hmany, List.filterMap_eq_nil_iff]
    refine iff_of_false (fun h => ?_) (by omega)
    obtain ⟨result, hresult⟩ := List.exists_mem_of_length_pos (by omega : 0 < (results.filter fun result =>
      result.artifact?.any (·.id == id)).length)
    obtain ⟨artifact, hartifact, -⟩ := exists_of_any (List.mem_filter.mp hresult).2
    have hnone := h result hresult
    rw [hartifact] at hnone
    cases hnone
  · rw [if_neg hmany]
    exact iff_of_true rfl (by omega)

theorem diagnostics_eq_nil : diagnostics results = [] ↔ (∀ result ∈ results, result.artifact?.isSome = true) ∧
      ((results.filterMap EntryResult.artifact?).map (·.id)).Nodup := by
  rw [diagnostics, List.append_eq_nil_iff]
  refine and_congr ?_ ?_
  · rw [List.filterMap_eq_nil_iff]
    refine forall₂_congr fun result _ => ?_
    obtain ⟨outcome, place⟩ := result
    rcases outcome with e | artifact
    · exact iff_of_false (fun h => by cases h) fun h => by cases h
    · exact iff_of_true rfl rfl
  · rw [List.nodup_iff_count_le_one, List.flatMap_eq_nil_iff]
    constructor
    · intro h id
      by_cases hid : id ∈ (results.filterMap EntryResult.artifact?).map (·.id)
      · exact duplicateDiagnostics_eq_nil.mp (h id (List.mem_eraseDups.mpr hid))
      · rw [List.count_eq_zero.mpr hid]
        omega
    · intro h id _
      exact duplicateDiagnostics_eq_nil.mpr (h id)

theorem entryResults_indices (M : Matter) (revision : Revision) : ((entryResults M revision).map (·.2)).Nodup := by
  have hplaces : (entryResults M revision).map Prod.snd = _ := List.zipIdx_map_snd _ _
  rw [hplaces]
  exact List.nodup_range'

theorem entryResults_outcomes (M : Matter) (revision : Revision) :
    (entryResults M revision).map (·.1) = (candidates revision).map (diagnoseEntry M revision) := by
  exact List.zipIdx_map_fst _ _

/-- What is found of the candidates, an artifact or nothing. -/
def outcomes (M : Matter) (revision : Revision) : List (Option Artifact) :=
  (candidates revision).map fun entry => (diagnoseEntry M revision entry).toOption

theorem entryResults_artifacts (M : Matter) (revision : Revision) :
    (entryResults M revision).map EntryResult.artifact? = outcomes M revision := by
  have houtcomes := congrArg (List.map Except.toOption) (entryResults_outcomes M revision)
  rw [List.map_map, List.map_map] at houtcomes
  exact houtcomes

theorem forall_isSome_iff {α : Type} {l : List (Option α)} :
    (∀ x ∈ l, x.isSome = true) ↔ l = (l.filterMap id).map some := by
  induction l with
  | nil => exact iff_of_true (by simp) rfl
  | cons x l ih =>
    rcases x with _ | a
    · refine iff_of_false (fun h => Bool.false_ne_true (h none List.mem_cons_self)) fun h => ?_
      have hmem : none ∈ (List.filterMap id (none :: l)).map some := h ▸ List.mem_cons_self
      obtain ⟨a, -, ha⟩ := List.mem_map.mp hmem
      cases ha
    · rw [List.forall_mem_cons, ih]
      show _ ↔ some a :: l = some a :: (l.filterMap id).map some
      rw [List.cons.injEq]
      exact and_congr_left' (iff_of_true rfl rfl)

theorem invalidCount_eq_zero : (diagnoseCatalogue M revision).invalidCount = 0 ↔
    ∃ artifacts : List Artifact, outcomes M revision = artifacts.map some ∧ (artifacts.map (·.id)).Nodup := by
  have hlength : (diagnoseCatalogue M revision).invalidCount = (invalidEntries (entryResults M revision)).length := rfl
  have hempty : invalidEntries (entryResults M revision) = [] ↔ diagnostics (entryResults M revision) = [] := by
    constructor
    · intro h
      refine List.eq_nil_iff_forall_not_mem.mpr fun diagnostic hdiagnostic => ?_
      have hmem : diagnostic.1 ∈ invalidEntries (entryResults M revision) :=
        List.mem_eraseDups.mpr (List.mem_map.mpr ⟨diagnostic, hdiagnostic, rfl⟩)
      rw [h] at hmem
      cases hmem
    · intro h
      rw [invalidEntries, h]
      rfl
  have hartifacts : (entryResults M revision).filterMap EntryResult.artifact? = (outcomes M revision).filterMap id := by
    rw [← entryResults_artifacts, List.filterMap_map]
    rfl
  have hall : (∀ result ∈ entryResults M revision, result.artifact?.isSome = true) ↔
      ∀ x ∈ outcomes M revision, x.isSome = true := by
    rw [← entryResults_artifacts, List.forall_mem_map]
  rw [hlength, List.length_eq_zero_iff, hempty, diagnostics_eq_nil, hall, hartifacts, forall_isSome_iff]
  constructor
  · exact fun h => ⟨_, h⟩
  · rintro ⟨artifacts, houtcomes, hids⟩
    have hsame : (artifacts.map some).filterMap id = artifacts := by
      rw [List.filterMap_map]
      exact List.filterMap_some
    rw [houtcomes, hsame]
    exact ⟨rfl, hids⟩

theorem parse_path {raw : String} (h : parseArtifactMarkdown M raw path = some artifact) : artifact.path = path := by
  obtain ⟨parsed, data, -, -, -, rfl⟩ := parsed_markdown h
  rfl

theorem artifactOf_path (h : artifactOf M revision entry = some artifact) : entry.path = some artifact.path := by
  obtain ⟨path, type, sha, size⟩ := entry
  obtain ⟨name, hname, h⟩ := Option.bind_eq_some_iff.mp h
  obtain ⟨blob, -, h⟩ := Option.bind_eq_some_iff.mp h
  split_ifs at h
  obtain ⟨text, -, h⟩ := Option.bind_eq_some_iff.mp h
  rw [parse_path h]
  exact hname

theorem find?_of_nodup {α β : Type} [DecidableEq β] {p : α → Bool} {key : α → Option β} {l : List α}
    (hnodup : ((l.filter p).filterMap key).Nodup) {a : α} (ha : a ∈ l) (hp : p a = true) {k : β} (hk : key a = some k) :
    l.find? (fun x => p x && key x == some k) = some a := by
  induction l with
  | nil => cases ha
  | cons x l ih =>
    rcases List.mem_cons.mp ha with rfl | ha
    · exact List.find?_cons_of_pos (by rw [hp, hk, Bool.true_and]; exact beq_self_eq_true _)
    · have hmem : k ∈ (l.filter p).filterMap key := List.mem_filterMap.mpr ⟨a, List.mem_filter.mpr ⟨ha, hp⟩, hk⟩
      by_cases hx : p x = true
      · rw [List.filter_cons_of_pos hx] at hnodup
        rcases hkey : key x with _ | j
        · rw [List.filterMap_cons_none hkey] at hnodup
          rw [List.find?_cons_of_neg (by rw [hkey, hx]; exact Bool.false_ne_true), ih hnodup ha]
        · rw [List.filterMap_cons_some hkey, List.nodup_cons] at hnodup
          have hne : ¬ (some j == some k) = true := by
            intro h
            obtain rfl := Option.some.inj (eq_of_beq h)
            exact hnodup.1 hmem
          rw [List.find?_cons_of_neg (by rw [hkey, hx, Bool.true_and]; exact hne), ih hnodup.2 ha]
      · rw [List.filter_cons_of_neg hx] at hnodup
        rw [List.find?_cons_of_neg (by rw [Bool.and_eq_true]; exact fun h => hx h.1), ih hnodup ha]

theorem fileSha_eq (hentry : entry ∈ candidates revision)
    (h : artifactOf M revision entry = some artifact) : fileSha revision artifact = entry.sha.filter isRevisionSha := by
  obtain ⟨htree, hcandidate⟩ := List.mem_filter.mp hentry
  rw [Bool.and_eq_true] at hcandidate
  have hfound := find?_of_nodup revision.paths_nodup htree hcandidate.1 (artifactOf_path h)
  rw [fileSha, hfound, Option.bind_eq_bind, Option.bind_some]
  rcases hsha : entry.sha with _ | sha
  · rfl
  · rw [Option.filter_some, Option.bind_eq_bind, Option.bind_some]

theorem diagnoseEntry_toOption (hentry : entry ∈ candidates revision) :
    (diagnoseEntry M revision entry).toOption = some artifact ↔
      artifactOf M revision entry = some artifact ∧ (fileSha revision artifact).isSome = true := by
  have hoption : (diagnoseEntry M revision entry).toOption = some artifact ↔
      diagnoseEntry M revision entry = .ok artifact := by
    rcases diagnoseEntry M revision entry with e | found
    · exact iff_of_false (fun h => by cases h) fun h => by cases h
    · show some found = some artifact ↔ _
      rw [Option.some.injEq, Except.ok.injEq]
  rw [hoption, diagnoseEntry_ok hentry]
  refine and_congr_right fun h => ?_
  rw [fileSha_eq hentry h]
  rcases entry.sha with _ | sha
  · exact Iff.rfl
  · rw [Option.any_some, Option.isSome_filter, Option.any_some]

theorem outcomes_eq : outcomes M revision = artifacts.map some ↔
    (candidates revision).map (artifactOf M revision) = artifacts.map some ∧
      ∀ artifact ∈ artifacts, (fileSha revision artifact).isSome = true := by
  have hentries : ∀ {entries : List TreeEntry} {artifacts : List Artifact}, (∀ entry ∈ entries, entry ∈ candidates revision) →
      (entries.map (fun entry => (diagnoseEntry M revision entry).toOption) = artifacts.map some ↔
        entries.map (artifactOf M revision) = artifacts.map some ∧
          ∀ artifact ∈ artifacts, (fileSha revision artifact).isSome = true) := by
    intro entries
    induction entries with
    | nil =>
      rintro (_ | ⟨artifact, artifacts⟩) -
      · exact iff_of_true rfl ⟨rfl, fun artifact h => by cases h⟩
      · exact iff_of_false (fun h => by cases h) fun h => by cases h.1
    | cons entry entries ih =>
      rintro (_ | ⟨artifact, artifacts⟩) hcandidates
      · exact iff_of_false (fun h => by cases h) fun h => by cases h.1
      · have hrest := @ih artifacts fun e he => hcandidates e (List.mem_cons_of_mem _ he)
        rw [List.map_cons, List.map_cons, List.map_cons, List.cons.injEq, List.cons.injEq, List.forall_mem_cons, hrest,
          diagnoseEntry_toOption (hcandidates entry List.mem_cons_self)]
        tauto
  exact hentries fun entry h => h

theorem loadCatalogue_eq {catalogue : Catalogue} (h : loadCatalogue M collate revision = some catalogue) :
    ∃ artifacts : List Artifact, outcomes M revision = artifacts.map some ∧ (artifacts.map (·.id)).Nodup ∧
      catalogue.artifacts.Perm artifacts := by
  obtain ⟨artifacts, hartifacts, h⟩ := Option.bind_eq_some_iff.mp h
  obtain ⟨fileShas, hfileShas, h⟩ := Option.bind_eq_some_iff.mp h
  cases h
  obtain ⟨found, hfound, hunique⟩ := Option.bind_eq_some_iff.mp hartifacts
  split_ifs at hunique with hids
  obtain rfl := Option.some.inj hunique
  refine ⟨found, outcomes_eq.mpr ⟨mapM_eq_some.mp hfound, fun artifact hartifact => ?_⟩, of_decide_eq_true hids,
    List.mergeSort_perm _ _⟩
  have hmem : (fileSha revision artifact).map (fun sha => (artifact.id, sha)) ∈ fileShas.map some :=
    mapM_eq_some.mp hfileShas ▸ List.mem_map.mpr ⟨artifact, hartifact, rfl⟩
  obtain ⟨pair, -, hpair⟩ := List.mem_map.mp hmem
  rw [← Option.isSome_map, ← hpair]
  rfl

theorem loadCatalogue_isSome
    (houtcomes : outcomes M revision = artifacts.map some) (hids : (artifacts.map (·.id)).Nodup) :
    (loadCatalogue M collate revision).isSome = true := by
  obtain ⟨hloaded, hshas⟩ := outcomes_eq.mp houtcomes
  have hartifacts : artifactsFromTree M revision = some artifacts := by
    rw [artifactsFromTree, mapM_eq_some.mpr hloaded, Option.bind_eq_bind, Option.bind_some, validateUniqueArtifactIds,
      if_pos (decide_eq_true hids)]
    rfl
  have hpairs : ∀ x ∈ artifacts.map fun artifact => (fileSha revision artifact).map fun sha => (artifact.id, sha),
      x.isSome = true := by
    rw [List.forall_mem_map]
    intro artifact hartifact
    rw [Option.isSome_map]
    exact hshas artifact hartifact
  have hfileShas := mapM_eq_some.mpr (forall_isSome_iff.mp hpairs)
  rw [loadCatalogue, hartifacts, Option.bind_eq_bind, Option.bind_some, hfileShas]
  rfl

/-- A diagnosis says of a revision what loading it says: nothing is invalid where the catalogue is loaded, the valid files
are then its artifacts, and every candidate is counted once. -/
theorem diagnosis_agrees (M : Matter) (collate : String → String → Bool) (revision : Revision) :
    ((diagnoseCatalogue M revision).invalidCount = 0 ↔ (loadCatalogue M collate revision).isSome = true) ∧
      (∀ catalogue, loadCatalogue M collate revision = some catalogue →
        (diagnoseCatalogue M revision).validCount = catalogue.artifacts.length) ∧
      (diagnoseCatalogue M revision).validCount + (diagnoseCatalogue M revision).invalidCount =
        (candidates revision).length := by
  have hsum : (diagnoseCatalogue M revision).validCount + (diagnoseCatalogue M revision).invalidCount =
      (candidates revision).length := by
    have hcount := valid_add_invalid (entryResults_indices M revision)
    have hlength : (entryResults M revision).length = (candidates revision).length := by
      rw [entryResults, List.length_zipIdx, List.length_map]
    rw [hlength] at hcount
    exact hcount
  have hloads : (diagnoseCatalogue M revision).invalidCount = 0 ↔ (loadCatalogue M collate revision).isSome = true := by
    rw [invalidCount_eq_zero]
    constructor
    · rintro ⟨artifacts, houtcomes, hids⟩
      exact loadCatalogue_isSome collate houtcomes hids
    · intro h
      obtain ⟨catalogue, hcatalogue⟩ := Option.isSome_iff_exists.mp h
      obtain ⟨artifacts, houtcomes, hids, -⟩ := loadCatalogue_eq collate hcatalogue
      exact ⟨artifacts, houtcomes, hids⟩
  refine ⟨hloads, fun catalogue hcatalogue => ?_, hsum⟩
  obtain ⟨artifacts, houtcomes, -, hperm⟩ := loadCatalogue_eq collate hcatalogue
  have hlength := congrArg List.length houtcomes
  rw [outcomes, List.length_map, List.length_map] at hlength
  rw [hperm.length_eq, ← hlength, ← hsum, hloads.mpr (by rw [hcatalogue]; rfl), Nat.add_zero]

end

namespace Sample

/-- The metadata of every file with a body. -/
def noteData : ArtifactMetadata := ⟨"note", "Note", "", .prompt, [], [], none, none⟩

def noteMatter : Matter where
  read raw := if raw = "" then none else some ⟨"id: note", noteData.data, raw⟩
  stringify _ _ := none
  isDateTime _ := false
  read_stringify := fun h => by cases h

/-- Two files at a revision, of which the second is empty. -/
def draft : Revision where
  name := "0123abc"
  tree := [⟨some "prompts/note.md", some "blob", some "1234567", some 2⟩, ⟨some "prompts", some "tree", some "89abcde", none⟩,
    ⟨some "prompts/empty.md", some "blob", some "fedcba9", some 0⟩]
  blobs sha := if sha = "1234567" then .found ⟨some "b2s=", some "base64", some 2⟩
    else if sha = "fedcba9" then .found ⟨some "", some "base64", some 0⟩ else .notFound
  paths_nodup := by decide
  size_eq := by
    intro entry hentry size sha blob content hsize hsha hblob hencoding hcontent
    rcases List.mem_cons.mp hentry with rfl | hentry
    · cases hsize
      cases hsha
      rw [if_pos rfl] at hblob
      obtain rfl := BlobAnswer.found.inj hblob
      cases hcontent
      decide
    rcases List.mem_cons.mp hentry with rfl | hentry
    · cases hsize
    · obtain rfl := List.mem_singleton.mp hentry
      cases hsize
      cases hsha
      rw [if_neg (by decide), if_pos rfl] at hblob
      obtain rfl := BlobAnswer.found.inj hblob
      cases hcontent
      decide

end Sample

open GitHub.Sample in
/-- A draft is not loaded, and one of its two files is reported. -/
theorem draft_diagnosed : loadCatalogue noteMatter (fun a b => a ≤ b) draft = none ∧
    (diagnoseCatalogue noteMatter draft).validCount = 1 := by
  obtain ⟨hloads, -, hsum⟩ := diagnosis_agrees noteMatter (fun a b => a ≤ b) draft
  have hinvalid : (diagnoseCatalogue noteMatter draft).invalidCount = 1 := by decide +kernel
  have htwo : (candidates draft).length = 2 := by decide +kernel
  rw [hinvalid] at hloads hsum
  refine ⟨?_, by omega⟩
  by_contra h
  have hone := hloads.mpr (Option.isSome_iff_ne_none.mpr h)
  omega

end ADT.Artifacts.GitHub
