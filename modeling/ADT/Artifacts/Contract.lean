import ADT.Lib.JsonText

/-!
# Artifacts.Contract — artifacts as Markdown files

The paths of `lib/repository-layout.ts` and the files of `lib/artifact-contract.ts`: where an artifact may lie, what its
front matter must hold, and how it is read and written.  The reader and the writer of front matter are the parameter
`Matter`.
-/

namespace ADT.Artifacts

inductive ArtifactType
  | prompt | snippet | template | appIdea
  deriving DecidableEq

namespace ArtifactType

def text : ArtifactType → String
  | prompt => "prompt"
  | snippet => "snippet"
  | template => "template"
  | appIdea => "app-idea"

def ofText (s : String) : Option ArtifactType := [prompt, snippet, template, appIdea].find? (·.text == s)

/-- `artifactTypeDirectories` -/
def directory : ArtifactType → String
  | prompt => "prompts"
  | snippet => "snippets"
  | template => "templates"
  | appIdea => "app-ideas"

end ArtifactType

def artifactDirectories : List String := ["prompts", "snippets", "templates", "app-ideas"]

/-- Slashes as they are written in a repository, none of them in front. -/
def normalizedPath (filePath : String) : List Char :=
  (filePath.toList.map fun c => if c = '\\' then '/' else c).dropWhile (· == '/')

def safeSegments (value : String) : Option (List (List Char)) :=
  let segments := (normalizedPath value).splitOn '/'
  if segments.length > 1 ∧ segments.all (fun segment => segment ≠ [] ∧ segment ≠ ['.'] ∧ segment ≠ ['.', '.']) then
    some segments
  else none

/-- Whether `classifyArtifactPath` is `"canonical"`. -/
def classifyArtifactPath (filePath : String) : Bool :=
  match safeSegments filePath with
  | some (segment :: _) => artifactDirectories.any (·.toList == segment)
  | _ => false

def isSupportedArtifactPath (filePath : String) : Bool :=
  classifyArtifactPath filePath &&
    ".md".toList.isSuffixOf (filePath.toList.map fun c => if c = '\\' then '/' else c)

/-- `/^[a-z0-9]+(?:-[a-z0-9]+)*$/` -/
def isArtifactId (s : String) : Bool :=
  (s.toList.splitOn '-').all fun part =>
    !part.isEmpty && part.all fun c => ('a' ≤ c && c ≤ 'z') || ('0' ≤ c && c ≤ '9')

def canonicalArtifactWritePath (type : ArtifactType) (id : String) : Option String :=
  if isArtifactId id then some (type.directory ++ "/" ++ id ++ ".md") else none

def isArtifactMarkdownCandidate (filePath : String) : Bool :=
  let normalized := normalizedPath filePath
  ".md".toList.isSuffixOf normalized &&
    artifactDirectories.any fun directory => (directory ++ "/").toList.isPrefixOf normalized

/-! ### Front matter -/

/-- A value of front matter. -/
inductive Value
  | str (s : String)
  | date (iso : String)
  | list (items : List Value)
  | other

def Value.asStr? : Value → Option String
  | str s => some s
  | _ => none

structure ArtifactMetadata where
  id : String
  title : String
  description : String
  type : ArtifactType
  tags : List String
  aliases : List String
  sourceId : Option String
  createdAt : Option String
  deriving DecidableEq

structure Artifact extends ArtifactMetadata where
  body : String
  path : String
  deriving DecidableEq

/-- What the reader of front matter finds in a file. -/
structure FrontMatter where
  matter : String
  data : String → Option Value
  content : String

/-- `gray-matter`, which reads and writes front matter, and the date format of `zod`.  A file that is written is read with
the id that it was given. -/
structure Matter where
  read : String → Option FrontMatter
  stringify : ArtifactMetadata → String → Option String
  isDateTime : String → Bool
  read_stringify : ∀ {data content markdown parsed}, stringify data content = some markdown →
    read markdown = some parsed → parsed.data "id" = some (.str data.id)

/-- Trimmed, without empty values, each once. -/
def normalizeList (values : List String) : List String := ((values.map trim).filter (· ≠ "")).eraseDups

/-- `z.string().trim().min(1)` -/
def trimmed (value : Value) : Option String := (value.asStr?.map trim).filter (· ≠ "")

def optional {α : Type} (value : Option Value) (read : Value → Option α) : Option (Option α) :=
  match value with
  | none => some none
  | some v => (read v).map some

/-- `z.array(z.string())` -/
def strings : Value → Option (List String)
  | .list items => items.mapM Value.asStr?
  | _ => none

section

variable (M : Matter)

/-- `z.union([z.string().datetime({ offset: true }), z.date()])`, in the format of ISO 8601. -/
def dateTime : Value → Option String
  | .str s => if M.isDateTime s then some s else none
  | .date iso => some iso
  | _ => none

/-- `artifactFrontMatterSchema.parse`, with the lists normalized. -/
def parseMetadata (data : String → Option Value) : Option ArtifactMetadata := do
  let id ← (data "id").bind trimmed
  let title ← (data "title").bind trimmed
  let description ← optional (data "description") fun v => v.asStr?.filter (utf16Length · ≤ 2000)
  let type ← (data "type").bind fun v => v.asStr?.bind ArtifactType.ofText
  let tags ← optional (data "tags") strings
  let aliases ← optional (data "aliases") strings
  let sourceId ← optional (data "sourceId") trimmed
  let createdAt ← optional (data "createdAt") (dateTime M)
  if (data "status").isSome then none
  else return ⟨id, title, description.getD "", type, normalizeList (tags.getD []), normalizeList (aliases.getD []),
    sourceId, createdAt⟩

/-- What metadata that is parsed has of its properties. -/
structure ParsedFrom (data : String → Option Value) (metadata : ArtifactMetadata) : Prop where
  id : (data "id").bind trimmed = some metadata.id
  title : (data "title").bind trimmed = some metadata.title
  description : ∃ text, optional (data "description") (fun v => v.asStr?.filter (utf16Length · ≤ 2000)) = some text ∧
    metadata.description = text.getD ""
  type : ((data "type").bind fun v => v.asStr?.bind ArtifactType.ofText) = some metadata.type
  tags : ∃ texts, optional (data "tags") strings = some texts ∧ metadata.tags = normalizeList (texts.getD [])
  aliases : ∃ texts, optional (data "aliases") strings = some texts ∧ metadata.aliases = normalizeList (texts.getD [])
  sourceId : optional (data "sourceId") trimmed = some metadata.sourceId
  createdAt : optional (data "createdAt") (dateTime M) = some metadata.createdAt

theorem parsedFrom {M : Matter} {data : String → Option Value} {metadata : ArtifactMetadata}
    (h : parseMetadata M data = some metadata) : ParsedFrom M data metadata := by
  unfold parseMetadata at h
  obtain ⟨id, hid, h⟩ := Option.bind_eq_some_iff.mp h
  obtain ⟨title, htitle, h⟩ := Option.bind_eq_some_iff.mp h
  obtain ⟨description, hdescription, h⟩ := Option.bind_eq_some_iff.mp h
  obtain ⟨type, htype, h⟩ := Option.bind_eq_some_iff.mp h
  obtain ⟨tags, htags, h⟩ := Option.bind_eq_some_iff.mp h
  obtain ⟨aliases, haliases, h⟩ := Option.bind_eq_some_iff.mp h
  obtain ⟨sourceId, hsourceId, h⟩ := Option.bind_eq_some_iff.mp h
  obtain ⟨createdAt, hcreatedAt, h⟩ := Option.bind_eq_some_iff.mp h
  split_ifs at h
  cases h
  exact ⟨hid, htitle, ⟨description, hdescription, rfl⟩, htype, ⟨tags, htags, rfl⟩, ⟨aliases, haliases, rfl⟩, hsourceId,
    hcreatedAt⟩

def ArtifactMetadata.data (metadata : ArtifactMetadata) : String → Option Value
  | "id" => some (.str metadata.id)
  | "title" => some (.str metadata.title)
  | "description" => some (.str metadata.description)
  | "type" => some (.str metadata.type.text)
  | "tags" => some (.list (metadata.tags.map .str))
  | "aliases" => some (.list (metadata.aliases.map .str))
  | "sourceId" => metadata.sourceId.map .str
  | "createdAt" => metadata.createdAt.map .str
  | _ => none

def normalizeArtifactMetadata (metadata : ArtifactMetadata) : Option ArtifactMetadata := parseMetadata M metadata.data

def parseArtifactMarkdown (raw filePath : String) : Option Artifact := do
  let parsed ← M.read raw
  if trim parsed.matter = "" then none
  else if filePath ≠ "artifact.md" ∧ !classifyArtifactPath filePath then none
  else do
    let data ← parseMetadata M parsed.data
    return { data with body := trim parsed.content, path := filePath }

theorem parsed_markdown {M : Matter} {raw path : String} {a : Artifact} (h : parseArtifactMarkdown M raw path = some a) :
    ∃ parsed data, M.read raw = some parsed ∧ trim parsed.matter ≠ "" ∧ parseMetadata M parsed.data = some data ∧
      a = { data with body := trim parsed.content, path := path } := by
  unfold parseArtifactMarkdown at h
  obtain ⟨parsed, hparsed, h⟩ := Option.bind_eq_some_iff.mp h
  split_ifs at h with hmatter
  obtain ⟨data, hdata, h⟩ := Option.bind_eq_some_iff.mp h
  exact ⟨parsed, data, hparsed, hmatter, hdata, (Option.some.inj h).symm⟩

/-- What is written is read once, before it is returned. -/
def serializeArtifactMarkdown (metadata : ArtifactMetadata) (body : String) : Option String := do
  let data ← normalizeArtifactMetadata M metadata
  let markdown ← M.stringify data (trim body ++ "\n")
  let _ ← parseArtifactMarkdown M markdown "artifact.md"
  return markdown

end

def validateUniqueArtifactIds (artifacts : List Artifact) : Bool := (artifacts.map (·.id)).Nodup

end ADT.Artifacts
