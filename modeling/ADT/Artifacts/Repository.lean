import ADT.Artifacts.Contract
import ADT.Lib.IsoDate

/-!
# Artifacts.Repository — the artifacts of a branch

`GitHubArtifactRepository` of `lib/artifact-repository.ts` beside the branch it reads and writes.  Every operation
validates one whole tree of the branch and then writes a single file, which GitHub takes where that file is still what the
operation has seen.
-/

namespace ADT.Artifacts

/-- The files of a commit, each path once. -/
structure Tree where
  entries : List (String × String)
  nodup : (entries.map (·.1)).Nodup

inductive RepositoryError
  | writeValidation | writeTooLarge | secretRejected | duplicate | notFound | writeConflict | content | writeResponse

def maxSerializedArtifactBytes : ℕ := 1024 * 1024

/-- What the operations use beside the branch: the front matter, the blob revisions of GitHub, the patterns of secrets and
the order of titles. -/
structure Services where
  matter : Matter
  sha : String → String
  hasSecrets : String → Bool
  collate : String → String → Bool

/-- `/^[A-Za-z0-9-]+$/` -/
def isActorLogin (s : String) : Bool := s ≠ "" && s.toList.all fun c => c.isAlphanum || c == '-'

/-! ### Identifiers of variations -/

/-- The lower case of a character, as far as it has letters of `a-z`. -/
def lowerCase (c : Char) : List Char :=
  if c.toNat = 0x212A then ['k'] else if c.toNat = 0x130 then ['i', Char.ofNat 0x307] else [c.toLower]

def isSlugChar (c : Char) : Bool := ('a' ≤ c && c ≤ 'z') || ('0' ≤ c && c ≤ '9')

/-- `replace(/[^a-z0-9]+/g, "-")` -/
def collapse : List Char → List Char
  | [] => []
  | c :: cs =>
    if isSlugChar c then c :: collapse cs
    else match cs with
      | d :: _ => if isSlugChar d then '-' :: collapse cs else collapse cs
      | [] => ['-']

def slugify (value : String) : String :=
  let text := (collapse (value.toList.flatMap lowerCase)).dropWhile (· == '-')
  String.ofList ((text.reverse.dropWhile (· == '-')).reverse.take 80)

def hexByte (b : UInt8) : List Char :=
  let digit (n : ℕ) : Char := Char.ofNat (if n < 10 then 48 + n else 87 + n)
  [digit (b.toNat / 16), digit (b.toNat % 16)]

/-- The time and the random bytes of a variation. -/
structure VariationGeneration where
  now : Instant
  bytes : UInt8 × UInt8 × UInt8 × UInt8

def prepareVariation (source : Artifact) (title : Option String) (generation : VariationGeneration) :
    Except RepositoryError ArtifactMetadata :=
  let timestamp := generation.now.toISOString
  let given := trim (title.getD "")
  let variationTitle := if given = "" then source.title ++ " Variation" else given
  let slug := slugify variationTitle
  let idBase := if slug = "" then slugify (source.id ++ " variation") else slug
  if idBase = "" then .error .writeValidation
  else
    let day := String.ofList (timestamp.toList.take 10)
    let time := String.ofList (((timestamp.toList.drop 11).take 8).filter (· ≠ ':'))
    let (a, b, c, d) := generation.bytes
    let suffix := String.ofList ([a, b, c, d].flatMap hexByte)
    .ok { id := idBase ++ "-" ++ day ++ "-" ++ time ++ "-" ++ suffix, title := variationTitle
          description := source.description, type := source.type, tags := (source.tags ++ ["variation"]).eraseDups
          aliases := source.aliases, sourceId := some source.id, createdAt := some timestamp }

/-! ### The operations -/

section

variable (S : Services)

def prepareArtifactWrite (metadataInput : ArtifactMetadata) (body : String) :
    Except RepositoryError (ArtifactMetadata × String) :=
  match normalizeArtifactMetadata S.matter metadataInput with
  | none => .error .writeValidation
  | some metadata =>
    if !isArtifactId metadata.id then .error .writeValidation
    else if trim body = "" then .error .writeValidation
    else match serializeArtifactMarkdown S.matter metadata body with
      | none => .error .writeValidation
      | some markdown =>
        if byteLength markdown > maxSerializedArtifactBytes then .error .writeTooLarge
        else if S.hasSecrets markdown then .error .secretRejected
        else .ok (metadata, markdown)

def artifactOf (file : String × String) : Option Artifact :=
  if classifyArtifactPath file.1 ∧ byteLength file.2 ≤ maxSerializedArtifactBytes then
    parseArtifactMarkdown S.matter file.2 file.1
  else none

/-- The files that are taken for artifacts. -/
def Tree.candidates (tree : Tree) : List (String × String) := tree.entries.filter (isArtifactMarkdownCandidate ·.1)

def artifactsFromTree (tree : Tree) : Option (List Artifact) := do
  let artifacts ← tree.candidates.mapM (artifactOf S)
  if validateUniqueArtifactIds artifacts then return artifacts else none

structure RepositoryCatalogue where
  artifacts : List Artifact
  fileShas : List (String × String)

/-- `loadCatalogue` at a revision; `none` where it throws. -/
def loadCatalogue (tree : Tree) : Option RepositoryCatalogue := do
  let artifacts ← artifactsFromTree S tree
  let fileShas ← artifacts.mapM fun artifact =>
    (tree.entries.find? (·.1 == artifact.path)).map fun entry => (artifact.id, S.sha entry.2)
  return ⟨artifacts.mergeSort fun a b => S.collate a.title b.title, fileShas⟩

/-- A request to the contents of the branch: a file is created where there is no blob revision, else replaced, or deleted
where there is no content. -/
structure WriteRequest where
  path : String
  artifactId : String
  content : Option String
  sha : Option String

inductive Operation
  | create (metadata : ArtifactMetadata) (body actorLogin : String)
  | update (id : String) (metadata : ArtifactMetadata) (body currentFileSha actorLogin : String)
  | delete (id currentFileSha actorLogin : String)
  | createVariation (source : Artifact) (title : Option String) (body actorLogin : String)
      (generation : VariationGeneration)

def createValidatedArtifactAtPath (tree : Tree) (metadata : ArtifactMetadata) (path markdown : String) :
    Except RepositoryError WriteRequest :=
  if canonicalArtifactWritePath metadata.type metadata.id ≠ some path then .error .writeValidation
  else if tree.entries.any (·.1 == path) then .error .duplicate
  else match artifactsFromTree S tree with
    | none => .error .content
    | some artifacts =>
      if artifacts.any (·.id == metadata.id) then .error .duplicate
      else .ok ⟨path, metadata.id, some markdown, none⟩

/-- The artifact that an operation is about, and its file. -/
def locate (tree : Tree) (id : String) (missing : RepositoryError) :
    Except RepositoryError (Artifact × (String × String)) :=
  match artifactsFromTree S tree with
  | none => .error .content
  | some artifacts =>
    match artifacts.find? (·.id == id) with
    | none => .error .notFound
    | some artifact =>
      match tree.entries.find? (·.1 == artifact.path) with
      | none => .error missing
      | some entry => .ok (artifact, entry)

def validateImmutableArtifactMetadata (stored : Artifact) (submitted : ArtifactMetadata) : Bool :=
  submitted.id == stored.id && submitted.type == stored.type && submitted.sourceId == stored.sourceId &&
    submitted.createdAt.getD "" == stored.createdAt.getD ""

/-- What an operation asks GitHub to write, once it has read a tree. -/
def Operation.request (op : Operation) (tree : Tree) : Except RepositoryError WriteRequest :=
  match op with
  | .create input body actorLogin =>
    if !isActorLogin actorLogin then .error .writeValidation
    else do
      let (metadata, markdown) ← prepareArtifactWrite S input body
      match canonicalArtifactWritePath metadata.type metadata.id with
      | none => .error .writeValidation
      | some path => createValidatedArtifactAtPath S tree metadata path markdown
  | .update id input body currentFileSha actorLogin =>
    if !isActorLogin actorLogin then .error .writeValidation
    else do
      let (metadata, markdown) ← prepareArtifactWrite S input body
      if metadata.id ≠ id ∨ trim currentFileSha = "" then .error .writeValidation
      else do
        let (artifact, entry) ← locate S tree id .writeResponse
        if S.sha entry.2 ≠ currentFileSha then .error .writeConflict
        else if !isSupportedArtifactPath artifact.path then .error .content
        else if !validateImmutableArtifactMetadata artifact metadata then .error .writeValidation
        else return ⟨artifact.path, metadata.id, some markdown, some currentFileSha⟩
  | .delete id currentFileSha actorLogin =>
    if !isActorLogin actorLogin ∨ trim currentFileSha = "" then .error .writeValidation
    else do
      let (artifact, entry) ← locate S tree id .content
      if !isSupportedArtifactPath artifact.path then .error .content
      else if S.sha entry.2 ≠ currentFileSha then .error .writeConflict
      else return ⟨artifact.path, id, none, some currentFileSha⟩
  | .createVariation source title body actorLogin generation =>
    if !isActorLogin actorLogin then .error .writeValidation
    else do
      let variation ← prepareVariation source title generation
      match canonicalArtifactWritePath variation.type variation.id with
      | none => .error .writeValidation
      | some path => do
        let (metadata, markdown) ← prepareArtifactWrite S variation (trim body)
        createValidatedArtifactAtPath S tree metadata path markdown

end

/-! ### The branch -/

namespace Tree

def insert (tree : Tree) (path content : String) (hnew : path ∉ tree.entries.map (·.1)) : Tree where
  entries := tree.entries ++ [(path, content)]
  nodup := by
    rw [List.map_append]
    refine tree.nodup.append (List.nodup_singleton path) fun p hp hq => ?_
    rw [List.mem_singleton.mp hq] at hp
    exact hnew hp

def replace (tree : Tree) (path content : String) : Tree where
  entries := tree.entries.map fun entry => if entry.1 = path then (entry.1, content) else entry
  nodup := by
    have hpaths : (Prod.fst ∘ fun entry : String × String => if entry.1 = path then (entry.1, content) else entry) =
        Prod.fst := by
      funext entry
      show (if entry.1 = path then (entry.1, content) else entry).1 = entry.1
      split <;> rfl
    rw [List.map_map, hpaths]
    exact tree.nodup

def remove (tree : Tree) (path : String) : Tree where
  entries := tree.entries.filter (·.1 ≠ path)
  nodup := tree.nodup.sublist (List.filter_sublist.map _)

/-- What GitHub makes of a request: it compares the blob revision, and creates only where there is no file. -/
def commit (tree : Tree) (sha : String → String) (request : WriteRequest) : Option Tree :=
  match request.sha, request.content with
  | none, some content =>
    if h : request.path ∈ tree.entries.map (·.1) then none else some (tree.insert request.path content h)
  | some revision, content =>
    match tree.entries.find? (·.1 == request.path) with
    | none => none
    | some entry =>
      if sha entry.2 ≠ revision then none
      else match content with
        | some content => some (tree.replace request.path content)
        | none => some (tree.remove request.path)
  | none, none => none

end Tree

/-- The head of a branch, and the requests that clients are about to send. -/
structure Branch where
  head : Tree
  requests : ℕ → Option WriteRequest

inductive BranchMove
  /-- A client reads the tree and validates it. -/
  | read (client : ℕ) (operation : Operation)
  /-- Its request reaches GitHub, which takes it or refuses it. -/
  | write (client : ℕ)
  /-- Its request is lost. -/
  | lose (client : ℕ)

def Branch.step (S : Services) (b : Branch) : BranchMove → Option Branch
  | .read client operation =>
    match operation.request S b.head with
    | .error _ => some b
    | .ok request => some { b with requests := Function.update b.requests client (some request) }
  | .write client =>
    (b.requests client).map fun request =>
      ⟨(b.head.commit S.sha request).getD b.head, Function.update b.requests client none⟩
  | .lose client => some { b with requests := Function.update b.requests client none }

end ADT.Artifacts
