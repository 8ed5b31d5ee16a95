import ADT.Artifacts.Repository
import ADT.Lib.Basics

/-!
# Artifacts.RoundTrip — an artifact that is written is read

What `prepareArtifactWrite` makes of metadata and a body, and what `parseArtifactMarkdown` reads of it.  Of `gray-matter`
is assumed that a text is taken apart at a leading block between `---` lines, that `stringify` takes its text apart first
and writes the data of that text under the data that it is given, and that YAML is loaded as it was dumped.
-/

namespace ADT.Artifacts

/-! ### Front matter as YAML -/

inductive Yaml
  | null
  | bool (b : Bool)
  | number (text : String)
  | str (s : String)
  | date (iso : String)
  | list (items : List Yaml)
  | map (entries : List (String × Yaml))

mutual

def Yaml.value : Yaml → Value
  | .str s => .str s
  | .date iso => .date iso
  | .list items => .list (Yaml.values items)
  | .null => .other
  | .bool _ => .other
  | .number _ => .other
  | .map _ => .other

def Yaml.values : List Yaml → List Value
  | [] => []
  | item :: items => item.value :: Yaml.values items

end

abbrev Properties := List (String × Yaml)

def Properties.data (properties : Properties) (key : String) : Option Value := (properties.lookup key).map Yaml.value

/-- `Object.assign({}, first, second)` -/
def assign (first second : Properties) : Properties :=
  (first.map fun entry => (entry.1, (second.lookup entry.1).getD entry.2)) ++
    second.filter fun entry => (first.lookup entry.1).isNone

/-- A text ends with a line break. -/
def newline (text : String) : String := if text.toList.getLast? = some '\n' then text else text ++ "\n"

/-- What `gray-matter` does with the block in front of a text, and the date format of `zod`: `fenced` is the block and the
rest of the text, `load` has the properties of the data in a block. -/
structure GrayMatter where
  fenced : String → Option (String × String)
  load : String → Option Properties
  dump : Properties → Option String
  isDateTime : String → Bool
  fenced_eq : ∀ {text block rest}, fenced text = some (block, rest) → ∃ front, text = "---" ++ front ++ rest
  fenced_emit : ∀ {properties yaml} content, dump properties = some yaml →
    fenced ("---\n" ++ yaml ++ "\n---\n" ++ content) = some ("\n" ++ yaml, content)
  load_dump : ∀ {properties yaml}, dump properties = some yaml →
    trim ("\n" ++ yaml) ≠ "" ∧ ∃ loaded, load ("\n" ++ yaml) = some loaded ∧ loaded.data = properties.data
  isDateTime_empty : isDateTime "" = false

structure MatterFile where
  matter : String
  properties : Properties
  content : String

namespace GrayMatter

variable (G : GrayMatter)

/-- `matter(text)`; `none` where it throws. -/
def file (text : String) : Option MatterFile :=
  match G.fenced text with
  | none => some ⟨"", [], text⟩
  | some (block, rest) => (G.load block).map fun properties => ⟨block, properties, rest⟩

/-- `matter.stringify(text, data)` -/
def stringify (text : String) (data : Properties) : Option String := do
  let file ← G.file text
  let yaml ← G.dump (assign file.properties data)
  return "---\n" ++ yaml ++ "\n---\n" ++ newline file.content

end GrayMatter

/-- The properties that `serializeArtifactMarkdown` writes. -/
def ArtifactMetadata.properties (metadata : ArtifactMetadata) : Properties :=
  [("id", .str metadata.id), ("title", .str metadata.title), ("description", .str metadata.description),
    ("type", .str metadata.type.text), ("tags", .list (metadata.tags.map .str)),
    ("aliases", .list (metadata.aliases.map .str))] ++
    ((metadata.sourceId.filter (· ≠ "")).map fun s => ("sourceId", Yaml.str s)).toList ++
    ((metadata.createdAt.filter (· ≠ "")).map fun s => ("createdAt", Yaml.str s)).toList

/-! ### Properties -/

theorem lookup_map_getD (second : Properties) (key : String) (first : Properties) :
    (first.map fun entry => (entry.1, (second.lookup entry.1).getD entry.2)).lookup key =
      (first.lookup key).map fun value => (second.lookup key).getD value := by
  induction first with
  | nil => rfl
  | cons entry first ih =>
    rw [List.map_cons, List.lookup_cons, List.lookup_cons, ih]
    by_cases hkey : (key == entry.1) = true
    · obtain rfl := eq_of_beq hkey
      rw [beq_self_eq_true]
      rfl
    · rw [Bool.not_eq_true] at hkey
      rw [hkey]

theorem lookup_filter (keep : String → Bool) (key : String) (properties : Properties) :
    (properties.filter fun entry => keep entry.1).lookup key = if keep key = true then properties.lookup key else none := by
  induction properties with
  | nil => exact (ite_self none).symm
  | cons entry properties ih =>
    rw [List.filter_cons]
    by_cases hkey : (key == entry.1) = true
    · obtain rfl := eq_of_beq hkey
      by_cases hkeep : keep entry.1 = true
      · rw [if_pos hkeep, if_pos hkeep, List.lookup_cons_self, List.lookup_cons_self]
      · rw [if_neg hkeep, ih, if_neg hkeep, if_neg hkeep]
    · rw [Bool.not_eq_true] at hkey
      have hskip : (entry :: properties).lookup key = properties.lookup key := by rw [List.lookup_cons, hkey]
      rw [hskip, ← ih]
      by_cases hkeep : keep entry.1 = true
      · rw [if_pos hkeep, List.lookup_cons, hkey]
      · rw [if_neg hkeep]

theorem lookup_assign (first second : Properties) (key : String) :
    (assign first second).lookup key = (second.lookup key).or (first.lookup key) := by
  rw [assign, List.lookup_append, lookup_map_getD,
    lookup_filter fun name => (first.lookup name).isNone]
  rcases first.lookup key with _ | value
  · rw [Option.or_none]
    rfl
  · rcases second.lookup key with _ | given
    · rfl
    · rfl

variable (texts : List String) (s : String)

theorem values_str : Yaml.values (texts.map .str) = texts.map .str := by
  induction texts with
  | nil => rfl
  | cons text texts ih =>
    rw [List.map_cons, List.map_cons, Yaml.values, ih]
    rfl

theorem lookup_toList {name key : String} (value : Option Yaml) :
    ((value.map fun v => (name, v)).toList).lookup key = if key = name then value else none := by
  rcases value with _ | v
  · exact (ite_self none).symm
  · show [(name, v)].lookup key = _
    by_cases hkey : key = name
    · rw [hkey, List.lookup_cons_self, if_pos rfl]
    · rw [List.lookup_cons, beq_false_of_ne hkey, if_neg hkey]
      rfl

theorem data_properties {metadata : ArtifactMetadata} (hsource : metadata.sourceId ≠ some "")
    (hcreated : metadata.createdAt ≠ some "") : metadata.properties.data = metadata.data := by
  have hkept : ∀ {text : Option String}, text ≠ some "" → text.filter (· ≠ "") = text := by
    intro text htext
    rcases text with _ | s
    · rfl
    · have hne : s ≠ "" := fun h => htext (congrArg some h)
      rw [Option.filter_some, if_pos (decide_eq_true hne)]
  have hoptional : ∀ (name : String) (text : Option String), (text.map fun s => (name, Yaml.str s)) =
      (text.map Yaml.str).map fun v => (name, v) := fun name text => by rw [Option.map_map]; rfl
  funext key
  rw [Properties.data, ArtifactMetadata.properties, hkept hsource, hkept hcreated, List.lookup_append,
    List.lookup_append, hoptional, hoptional, lookup_toList, lookup_toList]
  by_cases hid : key = "id"
  · rw [hid]
    rfl
  by_cases htitle : key = "title"
  · rw [htitle]
    rfl
  by_cases hdescription : key = "description"
  · rw [hdescription]
    rfl
  by_cases htype : key = "type"
  · rw [htype]
    rfl
  by_cases htags : key = "tags"
  · rw [htags]
    exact congrArg (some ∘ Value.list) (values_str _)
  by_cases haliases : key = "aliases"
  · rw [haliases]
    exact congrArg (some ∘ Value.list) (values_str _)
  have hothers : List.lookup key [("id", Yaml.str metadata.id), ("title", .str metadata.title),
      ("description", .str metadata.description), ("type", .str metadata.type.text),
      ("tags", .list (metadata.tags.map .str)), ("aliases", .list (metadata.aliases.map .str))] = none := by
    rw [List.lookup_cons, beq_false_of_ne hid, List.lookup_cons, beq_false_of_ne htitle, List.lookup_cons,
      beq_false_of_ne hdescription, List.lookup_cons, beq_false_of_ne htype, List.lookup_cons, beq_false_of_ne htags,
      List.lookup_cons, beq_false_of_ne haliases]
    rfl
  rw [hothers, Option.none_or]
  by_cases hsourceId : key = "sourceId"
  · rw [hsourceId, if_pos rfl, if_neg (by decide), Option.or_none, Option.map_map]
    rfl
  by_cases hcreatedAt : key = "createdAt"
  · rw [hcreatedAt, if_neg (by decide), if_pos rfl, Option.none_or, Option.map_map]
    rfl
  rw [if_neg hsourceId, if_neg hcreatedAt]
  unfold ArtifactMetadata.data
  split <;> first | contradiction | rfl

/-! ### Reading what is written -/

namespace GrayMatter

variable {G : GrayMatter}

theorem file_stringify {text markdown : String} {data : Properties} (h : G.stringify text data = some markdown) :
    ∃ source written, G.file text = some source ∧ G.file markdown = some written ∧ trim written.matter ≠ "" ∧
      written.properties.data = (assign source.properties data).data ∧ written.content = newline source.content := by
  obtain ⟨source, hsource, h⟩ := Option.bind_eq_some_iff.mp h
  obtain ⟨yaml, hyaml, h⟩ := Option.bind_eq_some_iff.mp h
  cases h
  obtain ⟨htrim, loaded, hloaded, hdata⟩ := G.load_dump hyaml
  refine ⟨source, ⟨"\n" ++ yaml, loaded, newline source.content⟩, hsource, ?_, htrim, hdata, rfl⟩
  rw [file, G.fenced_emit _ hyaml]
  show (G.load ("\n" ++ yaml)).map _ = _
  rw [hloaded]
  rfl

theorem data_assign (first : Properties) (metadata : ArtifactMetadata) :
    (assign first metadata.properties).data "id" = some (.str metadata.id) := by
  rw [Properties.data, lookup_assign]
  rfl

end GrayMatter

/-- The reader and the writer of front matter that `gray-matter` is. -/
def GrayMatter.toMatter (G : GrayMatter) : Matter where
  read text := (G.file text).map fun file => ⟨file.matter, file.properties.data, file.content⟩
  stringify metadata content := G.stringify content metadata.properties
  isDateTime := G.isDateTime
  read_stringify := by
    intro metadata content markdown parsed hwrite hread
    obtain ⟨source, written, -, hwritten, -, hdata, -⟩ := file_stringify hwrite
    rw [hwritten] at hread
    cases hread
    show written.properties.data "id" = _
    rw [hdata, data_assign]

def GrayMatter.services (G : GrayMatter) (S : Services) : Services := { S with matter := G.toMatter }

/-- `prepareArtifactWrite` of an input that is not yet known to be metadata. -/
def prepareWriteOf (S : Services) (input : String → Option Value) (body : String) :
    Except RepositoryError (ArtifactMetadata × String) :=
  match parseMetadata S.matter input with
  | none => .error .writeValidation
  | some metadata =>
    if !isArtifactId metadata.id then .error .writeValidation
    else if trim body = "" then .error .writeValidation
    else match serializeArtifactMarkdown S.matter metadata body with
      | none => .error .writeValidation
      | some markdown =>
        if byteLength markdown > maxSerializedArtifactBytes then .error .writeTooLarge
        else if S.hasSecrets markdown then .error .secretRejected
        else .ok (metadata, markdown)

/-! ### Normalized metadata -/

theorem normalizeList_idem (values : List String) : normalizeList (normalizeList values) = normalizeList values := by
  have hmem : ∀ text ∈ normalizeList values, trim text = text ∧ text ≠ "" := by
    intro text htext
    obtain ⟨hmap, hkept⟩ := List.mem_filter.mp (List.mem_eraseDups.mp htext)
    obtain ⟨value, -, rfl⟩ := List.mem_map.mp hmap
    exact ⟨trim_trim value, of_decide_eq_true hkept⟩
  have htrim : (normalizeList values).map trim = normalizeList values := by
    conv_rhs => rw [← List.map_id (normalizeList values)]
    exact List.map_congr_left fun text htext => (hmem text htext).1
  have hkeep : (normalizeList values).filter (· ≠ "") = normalizeList values :=
    List.filter_eq_self.mpr fun text htext => decide_eq_true (hmem text htext).2
  show (((normalizeList values).map trim).filter (· ≠ "")).eraseDups = _
  rw [htrim, hkeep]
  exact eraseDups_of_nodup (nodup_eraseDups _)

theorem trimmed_eq_some {value : Value} {text : String} (h : trimmed value = some text) : trim text = text ∧ text ≠ "" := by
  obtain ⟨hmap, hkept⟩ := Option.filter_eq_some_iff.mp h
  obtain ⟨s, -, rfl⟩ := Option.map_eq_some_iff.mp hmap
  exact ⟨trim_trim s, of_decide_eq_true hkept⟩

theorem optional_eq_some {α : Type} {value : Option Value} {read : Value → Option α} {a : α}
    (h : optional value read = some (some a)) : ∃ v, read v = some a := by
  rcases value with _ | v
  · cases h
  · obtain ⟨b, hb, hsame⟩ := Option.map_eq_some_iff.mp h
    exact ⟨v, by rw [hb, hsame]⟩

theorem strings_str : strings (.list (texts.map .str)) = some texts := by
  show (texts.map Value.str).mapM Value.asStr? = some texts
  induction texts with
  | nil => rfl
  | cons text texts ih =>
    rw [List.map_cons, List.mapM_cons, ih]
    rfl

/-- Metadata as it is after `normalizeArtifactMetadata`. -/
structure Normalized (metadata : ArtifactMetadata) : Prop where
  id : trim metadata.id = metadata.id ∧ metadata.id ≠ ""
  title : trim metadata.title = metadata.title ∧ metadata.title ≠ ""
  tags : normalizeList metadata.tags = metadata.tags
  aliases : normalizeList metadata.aliases = metadata.aliases
  sourceId : ∀ s, metadata.sourceId = some s → trim s = s ∧ s ≠ ""

section

variable {M : Matter}

theorem dateTime_str (s : String) : dateTime M (.str s) = if M.isDateTime s = true then some s else none := rfl

theorem normalized_of_parse {data : String → Option Value} {metadata : ArtifactMetadata}
    (h : parseMetadata M data = some metadata) : Normalized metadata := by
  have hparsed := parsedFrom h
  obtain ⟨idValue, -, hid⟩ := Option.bind_eq_some_iff.mp hparsed.id
  obtain ⟨titleValue, -, htitle⟩ := Option.bind_eq_some_iff.mp hparsed.title
  obtain ⟨tags, -, htags⟩ := hparsed.tags
  obtain ⟨aliases, -, haliases⟩ := hparsed.aliases
  refine ⟨trimmed_eq_some hid, trimmed_eq_some htitle, ?_, ?_, fun s hs => ?_⟩
  · rw [htags, normalizeList_idem]
  · rw [haliases, normalizeList_idem]
  · have hsourceId := hparsed.sourceId
    rw [hs] at hsourceId
    obtain ⟨value, hvalue⟩ := optional_eq_some hsourceId
    exact trimmed_eq_some hvalue

theorem trimmed_str {s : String} (h : trim s = s ∧ s ≠ "") : trimmed (.str s) = some s := by
  show (some (trim s)).filter (· ≠ "") = some s
  rw [h.1, Option.filter_some, if_pos (decide_eq_true h.2)]

theorem optional_strings {values : List String} {texts : Option (List String)}
    (h : optional (some (.list (values.map .str))) strings = some texts) : texts = some values := by
  obtain ⟨read, hread, rfl⟩ := Option.map_eq_some_iff.mp h
  rw [← hread, strings_str]

/-- What is normalized stays as it is. -/
theorem normalize_of_normalized {metadata normal : ArtifactMetadata} (hmetadata : Normalized metadata)
    (h : normalizeArtifactMetadata M metadata = some normal) : normal = metadata := by
  have hparsed := parsedFrom h
  have hid : normal.id = metadata.id := by
    have hid := hparsed.id
    simp only [ArtifactMetadata.data, Option.bind_some, trimmed_str hmetadata.id] at hid
    exact (Option.some.inj hid).symm
  have htitle : normal.title = metadata.title := by
    have htitle := hparsed.title
    simp only [ArtifactMetadata.data, Option.bind_some, trimmed_str hmetadata.title] at htitle
    exact (Option.some.inj htitle).symm
  have hdescription : normal.description = metadata.description := by
    obtain ⟨text, hread, htext⟩ := hparsed.description
    simp only [ArtifactMetadata.data] at hread
    obtain ⟨given, hgiven, rfl⟩ := Option.map_eq_some_iff.mp hread
    rw [htext, Option.getD_some]
    exact (Option.some.inj (Option.filter_eq_some_iff.mp hgiven).1).symm
  have htype : normal.type = metadata.type := by
    have hread : ArtifactType.ofText metadata.type.text = some metadata.type := by
      cases metadata.type <;> rfl
    have htype := hparsed.type
    simp only [ArtifactMetadata.data, Option.bind_some] at htype
    exact Option.some.inj (htype.symm.trans hread)
  have htags : normal.tags = metadata.tags := by
    obtain ⟨texts, hread, htexts⟩ := hparsed.tags
    simp only [ArtifactMetadata.data] at hread
    rw [htexts, optional_strings hread, Option.getD_some, hmetadata.tags]
  have haliases : normal.aliases = metadata.aliases := by
    obtain ⟨texts, hread, htexts⟩ := hparsed.aliases
    simp only [ArtifactMetadata.data] at hread
    rw [htexts, optional_strings hread, Option.getD_some, hmetadata.aliases]
  have hsourceId : normal.sourceId = metadata.sourceId := by
    have hread := hparsed.sourceId
    simp only [ArtifactMetadata.data] at hread
    rcases hsource : metadata.sourceId with _ | s
    · rw [hsource] at hread
      exact (Option.some.inj hread).symm
    · rw [hsource, Option.map_some, optional, trimmed_str (hmetadata.sourceId s hsource)] at hread
      exact (Option.some.inj hread).symm
  have hcreatedAt : normal.createdAt = metadata.createdAt := by
    have hread := hparsed.createdAt
    simp only [ArtifactMetadata.data] at hread
    rcases hcreated : metadata.createdAt with _ | s
    · rw [hcreated] at hread
      exact (Option.some.inj hread).symm
    · rw [hcreated] at hread
      obtain ⟨text, htext, hnormal⟩ := Option.map_eq_some_iff.mp hread
      rw [dateTime_str] at htext
      split_ifs at htext
      rw [← hnormal]
      exact htext.symm
  cases normal
  cases metadata
  exact ArtifactMetadata.mk.injEq .. ▸ ⟨hid, htitle, hdescription, htype, htags, haliases, hsourceId, hcreatedAt⟩

theorem createdAt_ne_empty {metadata normal : ArtifactMetadata} (hempty : M.isDateTime "" = false)
    (h : normalizeArtifactMetadata M metadata = some normal) : metadata.createdAt ≠ some "" := by
  intro hcreated
  have hread := (parsedFrom h).createdAt
  simp only [ArtifactMetadata.data] at hread
  rw [hcreated, Option.map_some, optional, dateTime_str, hempty] at hread
  cases hread

end

/-! ### The round trip -/

theorem trim_newline : trim (s ++ "\n") = trim s := by
  have htext : (s ++ "\n").toList = s.toList ++ ['\n'] := String.toList_append
  unfold trim
  rw [htext, List.dropWhile_append]
  by_cases hempty : (s.toList.dropWhile isTrimmed).isEmpty = true
  · rw [if_pos hempty, List.isEmpty_iff.mp hempty]
    rfl
  · rw [if_neg hempty, List.reverse_append, List.reverse_singleton, List.singleton_append,
      List.dropWhile_cons_of_pos (by decide)]

theorem trim_newline_text : trim (newline s) = trim s := by
  unfold newline
  split
  · rfl
  · exact trim_newline s

theorem length_trim_le : (trim s).toList.length ≤ s.toList.length := by
  unfold trim
  rw [String.toList_ofList, List.length_reverse]
  have hend := (List.dropWhile_sublist isTrimmed (l := (s.toList.dropWhile isTrimmed).reverse)).length_le
  have hstart := (List.dropWhile_sublist isTrimmed (l := s.toList)).length_le
  rw [List.length_reverse] at hend
  omega

section

variable {G : GrayMatter} {S : Services}

theorem prepared_eq {input : String → Option Value} {body markdown : String} {metadata : ArtifactMetadata}
    (h : prepareWriteOf (G.services S) input body = .ok (metadata, markdown)) :
    normalizeArtifactMetadata G.toMatter metadata = some metadata ∧ Normalized metadata ∧
      G.stringify (trim body ++ "\n") metadata.properties = some markdown := by
  unfold prepareWriteOf at h
  split at h
  · cases h
  · rename_i normal hnormal
    split_ifs at h
    split at h
    · cases h
    · rename_i text htext
      split_ifs at h
      cases h
      have hnormalized := normalized_of_parse hnormal
      obtain ⟨data, hdata, htext⟩ := Option.bind_eq_some_iff.mp htext
      obtain ⟨written, hwritten, htext⟩ := Option.bind_eq_some_iff.mp htext
      obtain ⟨a, -, htext⟩ := Option.bind_eq_some_iff.mp htext
      cases htext
      obtain rfl := normalize_of_normalized hnormalized hdata
      exact ⟨hdata, hnormalized, hwritten⟩

theorem parse_written {markdown path : String} {written : MatterFile} (hwritten : G.file markdown = some written)
    (hmatter : trim written.matter ≠ "") (hpath : path = "artifact.md" ∨ classifyArtifactPath path = true) :
    parseArtifactMarkdown G.toMatter markdown path = (parseMetadata G.toMatter written.properties.data).map fun data =>
      { data with body := trim written.content, path := path } := by
  have hread : G.toMatter.read markdown = some ⟨written.matter, written.properties.data, written.content⟩ := by
    show (G.file markdown).map _ = _
    rw [hwritten]
    rfl
  have hplace : ¬ (path ≠ "artifact.md" ∧ (!classifyArtifactPath path) = true) := by
    rintro ⟨hname, hclass⟩
    rcases hpath with h | h
    · exact hname h
    · rw [h] at hclass
      cases hclass
  rw [parseArtifactMarkdown, hread, Option.bind_eq_bind, Option.bind_some, if_neg hmatter, if_neg hplace]
  rcases parseMetadata G.toMatter written.properties.data with _ | data
  · rfl
  · rfl

/-- An artifact that is accepted is read as it was given exactly where no block stands in front of its body. -/
theorem artifact_round_trips_iff {input : String → Option Value} {body markdown path : String}
    {metadata : ArtifactMetadata} (h : prepareWriteOf (G.services S) input body = .ok (metadata, markdown))
    (hpath : path = "artifact.md" ∨ classifyArtifactPath path = true) :
    (∃ artifact, parseArtifactMarkdown G.toMatter markdown path = some artifact ∧
        artifact.toArtifactMetadata = metadata ∧ artifact.body = trim body) ↔
      G.fenced (trim body ++ "\n") = none := by
  obtain ⟨hnormal, hnormalized, hmarkdown⟩ := prepared_eq h
  obtain ⟨source, written, hsource, hwritten, hmatter, hdata, hcontent⟩ := GrayMatter.file_stringify hmarkdown
  rw [parse_written hwritten hmatter hpath, hcontent, hdata, trim_newline_text]
  rcases hfenced : G.fenced (trim body ++ "\n") with _ | ⟨block, rest⟩
  · refine iff_of_true ?_ rfl
    rw [GrayMatter.file, hfenced] at hsource
    cases hsource
    have hgiven : (assign [] metadata.properties).data = metadata.data := by
      have hassign : assign [] metadata.properties = metadata.properties := List.filter_eq_self.mpr fun _ _ => rfl
      rw [hassign]
      exact data_properties (fun hempty => (hnormalized.sourceId "" hempty).2 rfl)
        (createdAt_ne_empty G.isDateTime_empty hnormal)
    rw [hgiven]
    refine ⟨{ metadata with body := trim (trim body ++ "\n"), path := path }, ?_, rfl, ?_⟩
    · exact congrArg (Option.map _) hnormal
    · rw [trim_newline, trim_trim]
  · -- the rest of the body is shorter
    refine iff_of_false ?_ (fun hnone => by cases hnone)
    rintro ⟨artifact, hartifact, -, hbody⟩
    obtain ⟨data, -, rfl⟩ := Option.map_eq_some_iff.mp hartifact
    rw [GrayMatter.file, hfenced] at hsource
    obtain ⟨properties, -, rfl⟩ := Option.map_eq_some_iff.mp hsource
    obtain ⟨front, htext⟩ := G.fenced_eq hfenced
    have hlength := congrArg (fun s : String => s.toList.length) htext
    have hrest := length_trim_le rest
    have hsame : trim rest = trim body := hbody
    rw [hsame] at hrest
    simp only [String.toList_append, List.length_append] at hlength
    have hfence : "---".toList.length = 3 := by decide
    have hbreak : "\n".toList.length = 1 := by decide
    omega

end

namespace RoundTripSample

/-- A block up to its closing line, and the text after that line. -/
def closing : List Char → List Char × List Char
  | [] => ([], [])
  | c :: cs =>
    if "\n---".toList.isPrefixOf (c :: cs) then
      ([], if (cs.drop 3).head? = some '\n' then cs.drop 4 else cs.drop 3)
    else (c :: (closing cs).1, (closing cs).2)

theorem closing_suffix (cs : List Char) : (closing cs).2 <:+ cs := by
  induction cs with
  | nil => exact List.suffix_refl _
  | cons c cs ih =>
    rw [closing]
    split
    · show (if _ then cs.drop 4 else cs.drop 3) <:+ c :: cs
      split
      · exact (List.drop_suffix 4 cs).trans (List.suffix_cons c cs)
      · exact (List.drop_suffix 3 cs).trans (List.suffix_cons c cs)
    · exact ih.trans (List.suffix_cons c cs)

/-- The block between a first line `---` and the next one. -/
def fenced (text : String) : Option (String × String) :=
  if "---".toList.isPrefixOf text.toList && (text.toList.drop 3).head? != some '-' then
    some (String.ofList (closing (text.toList.drop 3)).1, String.ofList (closing (text.toList.drop 3)).2)
  else none

theorem fenced_of {text block rest : String}
    (hopen : ("---".toList.isPrefixOf text.toList && (text.toList.drop 3).head? != some '-') = true)
    (hclosing : closing (text.toList.drop 3) = (block.toList, rest.toList)) : fenced text = some (block, rest) := by
  rw [fenced, if_pos hopen, hclosing]
  show some (String.ofList block.toList, String.ofList rest.toList) = _
  rw [String.ofList_toList, String.ofList_toList]

theorem fenced_front {text block rest : String} (h : fenced text = some (block, rest)) :
    ∃ front, text = "---" ++ front ++ rest := by
  unfold fenced at h
  split_ifs at h with hopen
  rw [Bool.and_eq_true] at hopen
  obtain ⟨tail, htail⟩ := List.isPrefixOf_iff_prefix.mp hopen.1
  cases h
  obtain ⟨front, hfront⟩ := closing_suffix (text.toList.drop 3)
  refine ⟨String.ofList front, String.toList_injective ?_⟩
  rw [String.toList_append, String.toList_append, String.toList_ofList, String.toList_ofList, String.toList_ofList,
    List.append_assoc, hfront, ← htail]
  rfl

def note : ArtifactMetadata := ⟨"note", "Note", "", .prompt, [], [], none, none⟩

def noteYaml : String := "id: note\ntitle: Note\ndescription: ''\ntype: prompt\ntags: []\naliases: []"

/-- The YAML of a note, with the source that a block names or without one. -/
def dump : Properties → Option String
  | [("id", .str "note"), ("title", .str "Note"), ("description", .str ""), ("type", .str "prompt"), ("tags", .list []),
      ("aliases", .list [])] => some noteYaml
  | [("sourceId", .str "other"), ("id", .str "note"), ("title", .str "Note"), ("description", .str ""),
      ("type", .str "prompt"), ("tags", .list []), ("aliases", .list [])] => some ("sourceId: other\n" ++ noteYaml)
  | _ => none

def load (block : String) : Option Properties :=
  if block = "\n" ++ noteYaml then some note.properties
  else if block = "\nsourceId: other\n" ++ noteYaml then some (("sourceId", .str "other") :: note.properties)
  else if block = "\nsourceId: other" then some [("sourceId", .str "other")]
  else none

theorem dump_cases {properties : Properties} {yaml : String} (h : dump properties = some yaml) :
    (yaml = noteYaml ∧ properties = note.properties) ∨
      (yaml = "sourceId: other\n" ++ noteYaml ∧ properties = ("sourceId", .str "other") :: note.properties) := by
  unfold dump at h
  split at h
  · exact .inl ⟨(Option.some.inj h).symm, rfl⟩
  · exact .inr ⟨(Option.some.inj h).symm, rfl⟩
  · cases h

def grayMatter : GrayMatter where
  fenced := fenced
  load := load
  dump := dump
  isDateTime _ := false
  fenced_eq := fenced_front
  fenced_emit := by
    intro properties yaml content h
    have htext : ("---\n" ++ yaml ++ "\n---\n" ++ content).toList =
        ("---\n" ++ yaml ++ "\n---\n").toList ++ content.toList := String.toList_append
    rcases dump_cases h with ⟨rfl, -⟩ | ⟨rfl, -⟩
    · refine fenced_of ?_ ?_
      · rw [htext]
        rfl
      · rw [htext]
        rfl
    · refine fenced_of ?_ ?_
      · rw [htext]
        rfl
      · rw [htext]
        rfl
  load_dump := by
    intro properties yaml h
    rcases dump_cases h with ⟨rfl, rfl⟩ | ⟨rfl, rfl⟩
    · exact ⟨by decide, _, if_pos rfl, rfl⟩
    · refine ⟨by decide, _, ?_, rfl⟩
      rw [load, if_neg (by decide), ← String.append_assoc, if_pos (by decide)]
  isDateTime_empty := rfl

def services : Services := grayMatter.services ⟨grayMatter.toMatter, id, fun _ => false, fun a b => a ≤ b⟩

/-- A body with a block in front. -/
def headed : String := "---\nsourceId: other\n---\nText"

end RoundTripSample

open RoundTripSample in
/-- A note without a block in front of its body comes back. -/
theorem note_round_trips : ∃ artifact,
    parseArtifactMarkdown grayMatter.toMatter ("---\n" ++ noteYaml ++ "\n---\nText\n") "prompts/note.md" = some artifact ∧
      artifact.toArtifactMetadata = note ∧ artifact.body = "Text" := by
  have hprepared : prepareWriteOf services note.data " Text" =
      .ok (note, "---\n" ++ noteYaml ++ "\n---\nText\n") := by rfl
  exact (artifact_round_trips_iff hprepared (.inr (by decide))).mpr (by decide)

set_option maxRecDepth 2000 in
open RoundTripSample in
/-- The block in front of a body is taken for metadata. -/
theorem block_taken_for_metadata :
    ¬ ∀ (G : GrayMatter) (S : Services) (input : String → Option Value) (body markdown path : String)
      (metadata : ArtifactMetadata), prepareWriteOf (G.services S) input body = .ok (metadata, markdown) →
        path = "artifact.md" ∨ classifyArtifactPath path = true →
        ∃ artifact, parseArtifactMarkdown G.toMatter markdown path = some artifact ∧
          artifact.toArtifactMetadata = metadata ∧ artifact.body = trim body := by
  intro h
  have hprepared : prepareWriteOf services note.data headed =
      .ok (note, "---\nsourceId: other\n" ++ noteYaml ++ "\n---\nText\n") := by rfl
  obtain ⟨artifact, hartifact, -, hbody⟩ := h grayMatter _ _ _ _ "prompts/note.md" _ hprepared (.inr (by decide))
  have hread : (parseArtifactMarkdown grayMatter.toMatter ("---\nsourceId: other\n" ++ noteYaml ++ "\n---\nText\n")
      "prompts/note.md").map (fun found => (found.sourceId, found.body)) = some (some "other", "Text") := by decide +kernel
  rw [hartifact] at hread
  have htext : artifact.body = "Text" := congrArg Prod.snd (Option.some.inj hread)
  rw [htext] at hbody
  exact absurd hbody (by decide)

end ADT.Artifacts
