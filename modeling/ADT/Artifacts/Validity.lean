import ADT.Artifacts.Repository
import ADT.Lib.Basics
import ADT.Lib.Guarded

/-!
# Artifacts.Validity — whether the catalogue of a branch stays loadable

A file that is replaced keeps its id, since GitHub compares its blob revision; a file that is created brings the id that
its tree did not have.  Two files of one id can lie in two directories, which no comparison of one file excludes: the
catalogue stays valid in the runs in which no file is created while its id has come to be at another path.
-/

namespace ADT.Artifacts

open Guarded

/-! ### Paths of new files -/

theorem isSlugChar_of_mem {s : String} (h : isArtifactId s = true) {c : Char} (hc : c ∈ s.toList) :
    isSlugChar c = true ∨ c = '-' := by
  have hjoin : ['-'].intercalate (s.toList.splitOn '-') = s.toList := List.intercalate_splitOn '-'
  rw [← hjoin] at hc
  simp only [isArtifactId, List.all_eq_true, Bool.and_eq_true] at h
  generalize s.toList.splitOn '-' = parts at h hc
  induction parts with
  | nil => simp [List.intercalate] at hc
  | cons part parts ih =>
    cases parts with
    | nil =>
      rw [List.intercalate_singleton] at hc
      exact .inl ((h part (List.mem_cons_self ..)).2 c hc)
    | cons next parts =>
      rw [List.intercalate_cons_cons] at hc
      simp only [List.mem_append, List.mem_singleton] at hc
      rcases hc with (hc | hc) | hc
      · exact .inl ((h part (List.mem_cons_self ..)).2 c hc)
      · exact .inr hc
      · exact ih (fun p hp => h p (List.mem_cons_of_mem _ hp)) hc

variable {type : ArtifactType}

/-- A canonical write path is its own normal form. -/
theorem canonical_normalized {id path : String} (h : canonicalArtifactWritePath type id = some path) :
    normalizedPath path = type.directory.toList ++ '/' :: (id.toList ++ ".md".toList) ∧
      safeSegments path = some [type.directory.toList, id.toList ++ ".md".toList] := by
  unfold canonicalArtifactWritePath at h
  split_ifs at h with hid
  cases h
  have hplain : ∀ c ∈ id.toList, c ≠ '\\' ∧ c ≠ '/' := by
    intro c hc
    rcases isSlugChar_of_mem hid hc with hslug | rfl
    · constructor
      · rintro rfl
        exact absurd hslug (by decide)
      · rintro rfl
        exact absurd hslug (by decide)
    · decide
  have hname : ∀ c ∈ id.toList ++ ".md".toList, c ≠ '\\' ∧ c ≠ '/' := by
    intro c hc
    rcases List.mem_append.mp hc with hc | hc
    · exact hplain c hc
    · have hall : ∀ c ∈ ['.', 'm', 'd'], c ≠ '\\' ∧ c ≠ '/' := by simp
      exact hall c hc
  have hdirectory : ∀ c ∈ type.directory.toList, c ≠ '\\' ∧ c ≠ '/' := by
    cases type <;> simp [ArtifactType.directory]
  have hkept : ∀ l : List Char, (∀ c ∈ l, c ≠ '\\' ∧ c ≠ '/') → l.map (fun c => if c = '\\' then '/' else c) = l := by
    intro l hl
    exact (List.map_congr_left fun c hc => if_neg (hl c hc).1).trans (List.map_id l)
  have hnormalized : normalizedPath (type.directory ++ "/" ++ id ++ ".md") =
      type.directory.toList ++ '/' :: (id.toList ++ ".md".toList) := by
    have htext : (type.directory ++ "/" ++ id ++ ".md").toList =
        type.directory.toList ++ '/' :: (id.toList ++ ".md".toList) := by
      simp [String.toList_append]
    rw [normalizedPath, htext, List.map_append, List.map_cons, hkept _ hdirectory, hkept _ hname]
    cases type <;> rfl
  refine ⟨hnormalized, ?_⟩
  have hsplit : (type.directory.toList ++ '/' :: (id.toList ++ ".md".toList)).splitOn '/' =
      [type.directory.toList, id.toList ++ ".md".toList] := by
    have hjoin : ['/'].intercalate [type.directory.toList, id.toList ++ ".md".toList] =
        type.directory.toList ++ '/' :: (id.toList ++ ".md".toList) := by simp [List.intercalate]
    rw [← hjoin]
    refine List.splitOn_intercalate '/' ?_ (by simp)
    intro l hl
    simp only [List.mem_cons, List.not_mem_nil, or_false] at hl
    rcases hl with rfl | rfl
    · exact fun hc => (hdirectory '/' hc).2 rfl
    · exact fun hc => (hname '/' hc).2 rfl
  have hlength : 3 ≤ (id.toList ++ ".md".toList).length := by
    rw [List.length_append]
    exact Nat.le_add_left _ _
  have hsafe : (id.toList ++ ".md".toList ≠ [] ∧ id.toList ++ ".md".toList ≠ ['.']) ∧
      id.toList ++ ".md".toList ≠ ['.', '.'] := by
    refine ⟨⟨fun h => ?_, fun h => ?_⟩, fun h => ?_⟩ <;>
    · rw [h] at hlength
      exact absurd hlength (by decide)
  have hfirst : (type.directory.toList ≠ [] ∧ type.directory.toList ≠ ['.']) ∧ type.directory.toList ≠ ['.', '.'] := by
    cases type <;> decide
  rw [safeSegments, hnormalized, hsplit, if_pos]
  refine ⟨by simp, ?_⟩
  simp only [List.all_cons, List.all_nil, Bool.and_true, Bool.and_eq_true, decide_eq_true_eq]
  exact ⟨⟨hfirst.1.1, hfirst.1.2, hfirst.2⟩, hsafe.1.1, hsafe.1.2, hsafe.2⟩

theorem canonical_path {id path : String} (h : canonicalArtifactWritePath type id = some path) :
    classifyArtifactPath path = true ∧ isArtifactMarkdownCandidate path = true := by
  obtain ⟨hnormalized, hsegments⟩ := canonical_normalized h
  have hdirectory : artifactDirectories.any (·.toList == type.directory.toList) = true := by
    cases type <;> decide
  refine ⟨by rw [classifyArtifactPath, hsegments]; exact hdirectory, ?_⟩
  have hsuffix : ".md".toList.isSuffixOf (type.directory.toList ++ '/' :: (id.toList ++ ".md".toList)) = true := by
    rw [List.isSuffixOf_iff_suffix]
    exact ⟨type.directory.toList ++ '/' :: id.toList, by simp⟩
  have hstarts : (artifactDirectories.any fun directory =>
      (directory ++ "/").toList.isPrefixOf (type.directory.toList ++ '/' :: (id.toList ++ ".md".toList))) = true := by
    refine List.any_eq_true.mpr ⟨type.directory, by cases type <;> decide, ?_⟩
    exact List.isPrefixOf_iff_prefix.mpr ⟨id.toList ++ ".md".toList, by simp [String.toList_append]⟩
  rw [isArtifactMarkdownCandidate, hnormalized]
  exact Bool.and_eq_true_iff.mpr ⟨hsuffix, hstarts⟩

/-! ### Valid trees -/

section

variable {S : Services} {tree tree' : Tree}

/-- Every candidate is an artifact, and the ids are distinct. -/
structure Tree.Valid (S : Services) (tree : Tree) : Prop where
  parses : ∀ file ∈ tree.candidates, (artifactOf S file).isSome = true
  distinct : ((tree.candidates.filterMap (artifactOf S)).map (·.id)).Nodup

theorem mapM_eq_filterMap {α β : Type} {f : α → Option β} {l : List α} {l' : List β} (h : l.mapM f = some l') :
    l.filterMap f = l' ∧ ∀ a ∈ l, (f a).isSome = true := by
  induction l generalizing l' with
  | nil =>
    cases h
    exact ⟨rfl, fun a ha => absurd ha List.not_mem_nil⟩
  | cons a l ih =>
    rw [List.mapM_cons] at h
    obtain ⟨b, hb, h⟩ := Option.bind_eq_some_iff.mp h
    obtain ⟨bs, hbs, h⟩ := Option.bind_eq_some_iff.mp h
    cases h
    obtain ⟨hrest, hall⟩ := ih hbs
    refine ⟨by rw [List.filterMap_cons_some hb, hrest], fun x hx => ?_⟩
    rcases List.mem_cons.mp hx with rfl | hx
    · rw [hb]
      rfl
    · exact hall x hx

theorem mapM_of_isSome {α β : Type} {f : α → Option β} {l : List α} (h : ∀ a ∈ l, (f a).isSome = true) :
    l.mapM f = some (l.filterMap f) := by
  induction l with
  | nil => rfl
  | cons a l ih =>
    obtain ⟨b, hb⟩ := Option.isSome_iff_exists.mp (h a (List.mem_cons_self ..))
    rw [List.mapM_cons, hb, ih fun x hx => h x (List.mem_cons_of_mem _ hx), List.filterMap_cons_some hb]
    rfl

theorem artifactsFromTree_eq_some {artifacts : List Artifact} (h : artifactsFromTree S tree = some artifacts) :
    tree.Valid S ∧ artifacts = tree.candidates.filterMap (artifactOf S) := by
  unfold artifactsFromTree at h
  obtain ⟨found, hfound, h⟩ := Option.bind_eq_some_iff.mp h
  split_ifs at h with hdistinct
  cases h
  obtain ⟨hmap, hall⟩ := mapM_eq_filterMap hfound
  refine ⟨⟨hall, ?_⟩, hmap.symm⟩
  rw [hmap]
  exact of_decide_eq_true hdistinct

theorem Tree.Valid.artifacts (h : tree.Valid S) :
    artifactsFromTree S tree = some (tree.candidates.filterMap (artifactOf S)) := by
  rw [artifactsFromTree, mapM_of_isSome h.parses]
  exact if_pos (decide_eq_true h.distinct)

variable {file : String × String} {a : Artifact} {M : Matter} {metadata : ArtifactMetadata} {request : WriteRequest}

theorem path_of_artifactOf (h : artifactOf S file = some a) : a.path = file.1 := by
  unfold artifactOf at h
  split_ifs at h
  obtain ⟨parsed, data, -, -, -, rfl⟩ := parsed_markdown h
  rfl

theorem find_of_artifactOf (hfile : file ∈ tree.entries)
    (h : artifactOf S file = some a) : tree.entries.find? (·.1 == a.path) = some file := by
  rw [path_of_artifactOf h]
  obtain ⟨found, hfound⟩ := Option.isSome_iff_exists.mp
    (List.find?_isSome (p := (·.1 == file.1)).mpr ⟨file, hfile, beq_self_eq_true _⟩)
  have hsame : found.1 = file.1 := by simpa using List.find?_some hfound
  rw [hfound, List.inj_on_of_nodup_map tree.nodup (List.mem_of_find?_eq_some hfound) hfile hsame]

/-- **A valid tree** is one whose catalogue can be loaded. -/
theorem loadCatalogue_isSome_iff : (loadCatalogue S tree).isSome = true ↔ tree.Valid S := by
  constructor
  · intro h
    obtain ⟨catalogue, h⟩ := Option.isSome_iff_exists.mp h
    obtain ⟨artifacts, hartifacts, -⟩ := Option.bind_eq_some_iff.mp h
    exact (artifactsFromTree_eq_some hartifacts).1
  · intro h
    have hshas : ∀ a ∈ tree.candidates.filterMap (artifactOf S),
        ((tree.entries.find? (·.1 == a.path)).map fun entry => (a.id, S.sha entry.2)).isSome = true := by
      intro a ha
      obtain ⟨file, hfile, ha⟩ := List.mem_filterMap.mp ha
      rw [find_of_artifactOf (List.mem_of_mem_filter hfile) ha]
      rfl
    rw [loadCatalogue, h.artifacts, Option.bind_eq_bind, Option.bind_some, mapM_of_isSome hshas]
    rfl

/-! ### What is about to be written -/

theorem parseMetadata_id {data : String → Option Value}
    (h : parseMetadata M data = some metadata) : ∃ s, data "id" = some (.str s) ∧ metadata.id = trim s := by
  obtain ⟨value, hvalue, htrimmed⟩ := Option.bind_eq_some_iff.mp (parsedFrom h).id
  cases value with
  | str s =>
    obtain ⟨hsome, -⟩ := Option.filter_eq_some_iff.mp htrimmed
    exact ⟨s, hvalue, (Option.some.inj hsome).symm⟩
  | date iso => cases htrimmed
  | list items => cases htrimmed
  | other => cases htrimmed

theorem parse_at {raw path : String} (h : parseArtifactMarkdown M raw "artifact.md" = some a)
    (hpath : classifyArtifactPath path = true) : ∃ a', parseArtifactMarkdown M raw path = some a' ∧ a'.id = a.id := by
  obtain ⟨parsed, data, hparsed, hmatter, hdata, rfl⟩ := parsed_markdown h
  refine ⟨{ data with body := trim parsed.content, path := path }, ?_, rfl⟩
  rw [parseArtifactMarkdown, hparsed, Option.bind_eq_bind, Option.bind_some, if_neg hmatter, if_neg fun hnot => ?_, hdata]
  · rfl
  · rw [hpath] at hnot
    exact absurd hnot.2 (by decide)

theorem parse_serialized {body markdown : String} (h : serializeArtifactMarkdown M metadata body = some markdown) :
    ∃ a, parseArtifactMarkdown M markdown "artifact.md" = some a ∧ a.id = trim metadata.id := by
  unfold serializeArtifactMarkdown at h
  obtain ⟨data, hdata, h⟩ := Option.bind_eq_some_iff.mp h
  obtain ⟨text, htext, h⟩ := Option.bind_eq_some_iff.mp h
  obtain ⟨a, ha, h⟩ := Option.bind_eq_some_iff.mp h
  cases h
  refine ⟨a, ha, ?_⟩
  obtain ⟨s, hs, hid⟩ := parseMetadata_id hdata
  obtain rfl : metadata.id = s := by
    have hgiven : metadata.data "id" = some (.str metadata.id) := rfl
    exact Value.str.inj (Option.some.inj (hgiven.symm.trans hs))
  obtain ⟨parsed, read, hparsed, -, hread, rfl⟩ := parsed_markdown ha
  obtain ⟨s', hs', hid'⟩ := parseMetadata_id hread
  have hlaw := M.read_stringify htext hparsed
  rw [hs'] at hlaw
  have hsame : s' = data.id := Value.str.inj (Option.some.inj hlaw)
  show read.id = _
  rw [hid', hsame, hid, trim_trim]

theorem artifactOf_prepared {input : ArtifactMetadata} {body markdown : String}
    (h : prepareArtifactWrite S input body = .ok (metadata, markdown)) {path : String}
    (hpath : classifyArtifactPath path = true) : ∃ a, artifactOf S (path, markdown) = some a ∧ a.id = metadata.id := by
  unfold prepareArtifactWrite at h
  split at h
  · cases h
  · next normal hnormal =>
    split_ifs at h
    split at h
    · cases h
    · next text htext =>
      split_ifs at h with hsize hsecret
      cases h
      obtain ⟨s, -, hid⟩ := parseMetadata_id hnormal
      obtain ⟨a, ha, hsame⟩ := parse_serialized htext
      obtain ⟨a', ha', hsame'⟩ := parse_at ha hpath
      refine ⟨a', ?_, ?_⟩
      · rw [artifactOf, if_pos ⟨hpath, Nat.le_of_not_lt hsize⟩]
        exact ha'
      · rw [hsame', hsame, hid, trim_trim]

/-- What a request writes: a new artifact, or one in the place of an artifact of the same id. -/
def Prepared (S : Services) (request : WriteRequest) : Prop :=
  ∀ content, request.content = some content →
    (∃ a, artifactOf S (request.path, content) = some a ∧ a.id = request.artifactId) ∧
      (request.sha = none → isArtifactMarkdownCandidate request.path = true) ∧
      ∀ revision, request.sha = some revision → ∀ old, S.sha old = revision →
        ∃ a, artifactOf S (request.path, old) = some a ∧ a.id = request.artifactId

theorem prepared_created {path markdown : String}
    {input : ArtifactMetadata} {body : String} (hprepared : prepareArtifactWrite S input body = .ok (metadata, markdown))
    (h : createValidatedArtifactAtPath S tree metadata path markdown = .ok request) : Prepared S request := by
  unfold createValidatedArtifactAtPath at h
  split_ifs at h with hcanonical hpresent
  split at h
  · cases h
  · split_ifs at h
    cases h
    obtain ⟨hclassified, hcandidate⟩ := canonical_path (not_not.mp hcanonical)
    rintro content hcontent
    cases hcontent
    exact ⟨artifactOf_prepared hprepared hclassified, fun _ => hcandidate, fun _ hsha => by cases hsha⟩

theorem locate_ok {id : String} {missing : RepositoryError} {entry : String × String}
    (h : locate S tree id missing = .ok (a, entry)) : artifactOf S entry = some a ∧ a.id = id ∧ entry.1 = a.path := by
  unfold locate at h
  split at h
  · cases h
  · next artifacts hartifacts =>
    split at h
    · cases h
    · next found hfound =>
      split at h
      · cases h
      · next file hfile =>
        cases h
        obtain ⟨-, rfl⟩ := artifactsFromTree_eq_some hartifacts
        obtain ⟨origin, horigin, hparsed⟩ := List.mem_filterMap.mp (List.mem_of_find?_eq_some hfound)
        have hsame := find_of_artifactOf (List.mem_of_mem_filter horigin) hparsed
        obtain rfl := Option.some.inj (hsame.symm.trans hfile)
        exact ⟨hparsed, by simpa using List.find?_some hfound, (path_of_artifactOf hparsed).symm⟩

/-- **What an operation asks for.** -/
theorem prepared_of_request (hsha : Function.Injective S.sha) {op : Operation}
    (h : op.request S tree = .ok request) : Prepared S request := by
  cases op with
  | create input body actorLogin =>
    rw [Operation.request] at h
    split_ifs at h
    obtain ⟨⟨metadata, markdown⟩, hprepared, h⟩ := except_bind_ok.mp h
    dsimp only at h
    split at h
    · cases h
    · exact prepared_created hprepared h
  | update id input body currentFileSha actorLogin =>
    rw [Operation.request] at h
    split_ifs at h
    obtain ⟨⟨metadata, markdown⟩, hprepared, h⟩ := except_bind_ok.mp h
    dsimp only at h
    split_ifs at h with hid
    obtain ⟨⟨a, entry⟩, hlocated, h⟩ := except_bind_ok.mp h
    dsimp only at h
    split_ifs at h with hrevision hpath himmutable
    cases h
    obtain ⟨hparsed, hsame, hentry⟩ := locate_ok hlocated
    have hclassified : classifyArtifactPath a.path = true := by
      rw [← hentry]
      unfold artifactOf at hparsed
      split_ifs at hparsed with hsafe
      exact hsafe.1
    have hmetadata : metadata.id = id := by
      by_contra hnot
      exact hid (.inl hnot)
    rintro content hcontent
    cases hcontent
    refine ⟨artifactOf_prepared hprepared hclassified, fun hnone => (by cases hnone), fun revision hrev old hold => ?_⟩
    cases hrev
    -- the blob revision tells the content
    obtain rfl : old = entry.2 := hsha (hold.trans (not_not.mp hrevision).symm)
    refine ⟨a, ?_, hsame.trans hmetadata.symm⟩
    show artifactOf S (a.path, entry.2) = some a
    rw [← hentry]
    exact hparsed
  | delete id currentFileSha actorLogin =>
    rw [Operation.request] at h
    split_ifs at h
    obtain ⟨⟨a, entry⟩, hlocated, h⟩ := except_bind_ok.mp h
    dsimp only at h
    split_ifs at h
    cases h
    rintro content hcontent
    cases hcontent
  | createVariation source title body actorLogin generation =>
    rw [Operation.request] at h
    split_ifs at h
    obtain ⟨variation, -, h⟩ := except_bind_ok.mp h
    split at h
    · cases h
    · obtain ⟨⟨metadata, markdown⟩, hprepared, h⟩ := except_bind_ok.mp h
      exact prepared_created hprepared h

/-! ### What GitHub takes -/

def Tree.ids (S : Services) (tree : Tree) : List String := (tree.candidates.filterMap (artifactOf S)).map (·.id)

theorem ids_eq : tree.ids S = tree.candidates.filterMap fun file => (artifactOf S file).map (·.id) := by
  rw [Tree.ids, List.map_filterMap]

theorem Tree.Valid.insert (h : tree.Valid S) {path content : String} {a : Artifact}
    (hnew : path ∉ tree.entries.map (·.1)) (hcandidate : isArtifactMarkdownCandidate path = true)
    (hparsed : artifactOf S (path, content) = some a) (hfresh : a.id ∉ tree.ids S) :
    (tree.insert path content hnew).Valid S := by
  have hcandidates : (tree.insert path content hnew).candidates = tree.candidates ++ [(path, content)] := by
    rw [Tree.candidates, Tree.insert, List.filter_append, List.filter_singleton, hcandidate]
    rfl
  refine ⟨fun file hfile => ?_, ?_⟩
  · rw [hcandidates] at hfile
    rcases List.mem_append.mp hfile with hfile | hfile
    · exact h.parses file hfile
    · rw [List.mem_singleton.mp hfile, hparsed]
      rfl
  · rw [hcandidates, List.filterMap_append, List.filterMap_cons_some hparsed, List.map_append]
    exact h.distinct.append (List.nodup_singleton _) fun id hid hid' => by
      rw [List.mem_singleton.mp hid'] at hid
      exact hfresh hid

theorem Tree.Valid.replace (h : tree.Valid S) {path content : String}
    (hparsed : (artifactOf S (path, content)).isSome = true)
    (hsame : ∀ file ∈ tree.entries, file.1 = path →
      (artifactOf S (path, content)).map (·.id) = (artifactOf S file).map (·.id)) :
    (tree.replace path content).Valid S := by
  have hcandidates : (tree.replace path content).candidates =
      tree.candidates.map fun file => if file.1 = path then (file.1, content) else file := by
    rw [Tree.candidates, Tree.replace, List.filter_map]
    congr 1
    refine List.filter_congr fun file _ => ?_
    show isArtifactMarkdownCandidate (if file.1 = path then (file.1, content) else file).1 = _
    split <;> rfl
  refine ⟨fun file hfile => ?_, ?_⟩
  · rw [hcandidates] at hfile
    obtain ⟨old, hold, rfl⟩ := List.mem_map.mp hfile
    split
    · next hpath =>
      rw [hpath]
      exact hparsed
    · exact h.parses old hold
  · have hids : (tree.replace path content).ids S = tree.ids S := by
      rw [ids_eq, ids_eq, hcandidates, List.filterMap_map]
      refine List.filterMap_congr fun file hfile => ?_
      show (artifactOf S (if file.1 = path then (file.1, content) else file)).map (·.id) = _
      split
      · next hpath =>
        rw [hpath]
        exact hsame file (List.mem_of_mem_filter hfile) hpath
      · rfl
    show ((tree.replace path content).ids S).Nodup
    rw [hids]
    exact h.distinct

theorem Tree.Valid.remove (h : tree.Valid S) (path : String) : (tree.remove path).Valid S := by
  have hcandidates : (tree.remove path).candidates.Sublist tree.candidates := by
    rw [Tree.candidates, Tree.candidates, Tree.remove]
    exact List.filter_sublist.filter _
  exact ⟨fun file hfile => h.parses file (hcandidates.subset hfile),
    h.distinct.sublist ((hcandidates.filterMap _).map _)⟩

/-- **A request that GitHub takes** keeps the tree valid, unless it creates a file with an id that the tree has. -/
theorem Tree.Valid.commit (h : tree.Valid S) (hprepared : Prepared S request)
    (hfresh : request.sha = none → request.path ∉ tree.entries.map (·.1) → request.artifactId ∉ tree.ids S)
    (hcommit : tree.commit S.sha request = some tree') : tree'.Valid S := by
  obtain ⟨path, artifactId, content, sha⟩ := request
  cases sha with
  | none =>
    cases content with
    | none => cases hcommit
    | some content =>
      simp only [Tree.commit] at hcommit
      split_ifs at hcommit with hnew
      cases hcommit
      obtain ⟨⟨a, hparsed, hid⟩, hcandidate, -⟩ := hprepared content rfl
      exact h.insert hnew (hcandidate rfl) hparsed (hid ▸ hfresh rfl hnew)
  | some revision =>
    simp only [Tree.commit] at hcommit
    split at hcommit
    · cases hcommit
    · next entry hentry =>
      split_ifs at hcommit with hrevision
      have hat : entry.1 = path := by simpa using List.find?_some hentry
      have hmem := List.mem_of_find?_eq_some hentry
      cases content with
      | none =>
        cases hcommit
        exact h.remove path
      | some content =>
        cases hcommit
        obtain ⟨⟨a, hparsed, hid⟩, -, hsame⟩ := hprepared content rfl
        obtain ⟨old, hold, hidOld⟩ := hsame revision rfl entry.2 (not_not.mp hrevision)
        refine h.replace (by rw [hparsed]; rfl) fun file hfile hpath => ?_
        obtain rfl : file = entry := List.inj_on_of_nodup_map tree.nodup hfile hmem (hpath.trans hat.symm)
        have hread : artifactOf S file = some old := by
          rw [← hold, ← hat]
        rw [hparsed, hread]
        exact congrArg some (hid.trans hidOld.symm)

/-! ### Runs -/

/-- Whether a move creates a file while its id has come to be at another path. -/
def Branch.collides (S : Services) (b : Branch) : BranchMove → Bool
  | .write client => (b.requests client).any fun request =>
      request.sha.isNone && !(b.head.entries.map (·.1)).contains request.path && (b.head.ids S).contains request.artifactId
  | _ => false

/-- The tree is valid, and so is what is about to be written. -/
structure Branch.Valid (S : Services) (b : Branch) : Prop where
  head : b.head.Valid S
  requests : ∀ client request, b.requests client = some request → Prepared S request

/-- **One move** of the branch keeps it valid. -/
theorem Branch.Valid.step {b b' : Branch} {m : BranchMove} (hsha : Function.Injective S.sha) (h : b.Valid S)
    (hgood : b.collides S m = false) (hstep : b.step S m = some b') : b'.Valid S := by
  have hcleared : ∀ client other request, Function.update b.requests client none other = some request →
      Prepared S request := by
    intro client other request hrequest
    by_cases hother : other = client
    · rw [hother, Function.update_self] at hrequest
      cases hrequest
    · rw [Function.update_of_ne hother] at hrequest
      exact h.requests other request hrequest
  cases m with
  | read client operation =>
    simp only [Branch.step] at hstep
    split at hstep
    · cases hstep
      exact h
    · next request hrequest =>
      cases hstep
      refine ⟨h.head, fun other found hfound => ?_⟩
      by_cases hother : other = client
      · simp only [hother, Function.update_self] at hfound
        cases hfound
        exact prepared_of_request hsha hrequest
      · simp only [Function.update_of_ne hother] at hfound
        exact h.requests other found hfound
  | write client =>
    obtain ⟨request, hrequest, rfl⟩ := Option.map_eq_some_iff.mp hstep
    refine ⟨?_, hcleared client⟩
    show ((b.head.commit S.sha request).getD b.head).Valid S
    cases hcommit : b.head.commit S.sha request with
    | none => exact h.head
    | some tree =>
      refine h.head.commit (h.requests client request hrequest) (fun hnone hnew hid => ?_) hcommit
      have hnew' : (b.head.entries.map (·.1)).contains request.path = false :=
        Bool.eq_false_iff.mpr fun hmem => hnew (List.contains_iff_mem.mp hmem)
      have hid' : (b.head.ids S).contains request.artifactId = true := List.contains_iff_mem.mpr hid
      rw [Branch.collides, hrequest, Option.any_some, hnone, hnew', hid'] at hgood
      cases hgood
  | lose client =>
    cases hstep
    exact ⟨h.head, hcleared client⟩

/-- **Validity of the catalogue.**  Where the catalogue can be loaded before any client has read, it can be loaded in
every state of every run in which no file is created while its id has come to be at another path. -/
theorem catalogue_valid {b b' : Branch} (hsha : Function.Injective S.sha) (hloads : (loadCatalogue S b.head).isSome = true)
    (hidle : ∀ client, b.requests client = none)
    (h : Reaches (Branch.step S) (fun c m => c.collides S m = false) b b') :
    (loadCatalogue S b'.head).isSome = true := by
  have hinit : b.Valid S := ⟨loadCatalogue_isSome_iff.mp hloads, fun client request hrequest => by
    rw [hidle client] at hrequest
    cases hrequest⟩
  have hvalid := h.invariant (I := Branch.Valid S) hinit fun hv hgood hmove => hv.step hsha hgood hmove
  exact loadCatalogue_isSome_iff.mpr hvalid.head

end

/-! ### Two directories -/

namespace Sample

def metadata (type : ArtifactType) : ArtifactMetadata := ⟨"x", "X", "", type, [], [], none, none⟩

def frontMatter (type : ArtifactType) : String :=
  "\nid: x\ntitle: X\ndescription: ''\ntype: " ++ type.text ++ "\ntags: []\naliases: []"

def markdown (type : ArtifactType) : String := "---" ++ frontMatter type ++ "\n---\nbody\n"

/-- Front matter, as it is written and read of two artifacts. -/
def matter : Matter where
  read raw :=
    if raw = markdown .prompt then some ⟨frontMatter .prompt, (metadata .prompt).data, "body\n"⟩
    else if raw = markdown .snippet then some ⟨frontMatter .snippet, (metadata .snippet).data, "body\n"⟩
    else none
  stringify data content :=
    if content ≠ "body\n" then none
    else if data = metadata .prompt then some (markdown .prompt)
    else if data = metadata .snippet then some (markdown .snippet)
    else none
  isDateTime _ := false
  read_stringify := by
    intro data content text parsed hwrite hread
    split_ifs at hwrite with hbody hprompt hsnippet
    · cases hwrite
      rw [if_pos rfl] at hread
      cases hread
      rw [hprompt]
      rfl
    · cases hwrite
      rw [if_neg (by decide), if_pos rfl] at hread
      cases hread
      rw [hsnippet]
      rfl

def services : Services := ⟨matter, id, fun _ => false, fun a b => a ≤ b⟩

def empty : Branch := ⟨⟨[], List.nodup_nil⟩, fun _ => none⟩

def creating (type : ArtifactType) : Operation := .create (metadata type) "body" "octocat"

theorem empty_loads : (loadCatalogue services empty.head).isSome = true :=
  loadCatalogue_isSome_iff.mpr ⟨fun _ h => absurd h List.not_mem_nil, List.nodup_nil⟩

end Sample

open Sample in
/-- One artifact is created, and another client does not create it again. -/
theorem catalogue_valid_created :
    ∃ b : Branch, b.head.entries.length = 1 ∧ (loadCatalogue services b.head).isSome = true := by
  obtain ⟨b, hreach, hlength⟩ : ∃ b, Reaches (Branch.step services) _ empty b ∧
      decide (b.head.entries.length = 1) = true :=
    reaches_of_any (fun (c : Branch) m => !c.collides services m)
      [.read 1 (creating .prompt), .write 1, .read 2 (creating .snippet), .lose 2] _ (by decide +kernel)
  exact ⟨b, of_decide_eq_true hlength, catalogue_valid Function.injective_id empty_loads (fun _ => rfl)
    (hreach.mono fun _ _ hgood => by simpa using hgood)⟩

open Sample in
/-- Two clients create one id in two directories. -/
theorem catalogue_duplicated :
    ¬∀ b b' : Branch, (loadCatalogue services b.head).isSome = true → (∀ client, b.requests client = none) →
      Reaches (Branch.step services) (fun _ _ => True) b b' → (loadCatalogue services b'.head).isSome = true := by
  intro hall
  obtain ⟨b, hreach, hfails⟩ : ∃ b, Reaches (Branch.step services) _ empty b ∧
      (artifactsFromTree services b.head).isNone = true :=
    reaches_of_any (fun _ _ => true)
      [.read 1 (creating .prompt), .read 2 (creating .snippet), .write 1, .write 2] _ (by decide +kernel)
  have hloads := hall empty b empty_loads (fun _ => rfl) (hreach.mono fun _ _ _ => trivial)
  rw [loadCatalogue, Option.isNone_iff_eq_none.mp hfails] at hloads
  cases hloads

end ADT.Artifacts
