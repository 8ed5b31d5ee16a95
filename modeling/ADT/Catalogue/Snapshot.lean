import ADT.Artifacts.Validity
import ADT.Catalogue.Service

/-!
# Catalogue.Snapshot — what the chunks of a revision say

The chunks of a revision depend on nothing but the revision, so that they can be written by anyone, and again, and late.
-/

namespace ADT.Catalogue

open Interleave Artifacts

variable {S : Setting}

theorem groupFrom_flatten (groups : List (List StoredArtifact)) (current entries : List StoredArtifact) :
    (groupFrom S groups current entries).flatten = groups.flatten ++ current ++ entries := by
  induction entries generalizing groups current with
  | nil => simp [groupFrom]
  | cons entry entries ih =>
    unfold groupFrom
    dsimp only
    split
    · rw [ih]
      simp
    · rw [ih]
      simp

theorem groups_flatten (entries : List StoredArtifact) : (groups S entries).flatten = entries := by
  rw [groups, groupFrom_flatten, List.flatten_nil, List.nil_append, List.nil_append]

/-! ### Artifacts that were parsed -/

theorem trimmed_trim {value : Value} {s : String} (h : trimmed value = some s) : trim s = s := by
  obtain ⟨hsome, -⟩ := Option.filter_eq_some_iff.mp h
  obtain ⟨text, -, rfl⟩ := Option.map_eq_some_iff.mp hsome
  exact trim_trim text

theorem trimmed_str {s s' : String} (h : trimmed (.str s) = some s') : s' = trim s := by
  obtain ⟨hsome, -⟩ := Option.filter_eq_some_iff.mp h
  exact (Option.some.inj hsome).symm

/-- Parsing the artifact changes nothing. -/
def Parsed (M : Matter) (a : Artifact) : Prop := ∀ a', parseStored M a = some a' → a' = a

theorem parsed_of_trimmed {M : Matter} {a : Artifact} (hid : trim a.id = a.id) (htitle : trim a.title = a.title)
    (hsource : ∀ s, a.sourceId = some s → trim s = s) : Parsed M a := by
  intro a' h
  unfold parseStored at h
  obtain ⟨id, hid', h⟩ := Option.bind_eq_some_iff.mp h
  obtain ⟨title, htitle', h⟩ := Option.bind_eq_some_iff.mp h
  obtain ⟨sourceId, hsource', h⟩ := Option.bind_eq_some_iff.mp h
  obtain ⟨createdAt, hcreated', h⟩ := Option.bind_eq_some_iff.mp h
  obtain rfl : id = a.id := (trimmed_str hid').trans hid
  obtain rfl : title = a.title := (trimmed_str htitle').trans htitle
  obtain rfl : sourceId = a.sourceId := by
    cases hs : a.sourceId with
    | none =>
      rw [hs] at hsource'
      exact (Option.some.inj hsource').symm
    | some s =>
      rw [hs] at hsource'
      obtain ⟨s', hs', rfl⟩ := Option.map_eq_some_iff.mp hsource'
      rw [trimmed_str hs', hsource s hs]
  obtain rfl : createdAt = a.createdAt := by
    cases hc : a.createdAt with
    | none =>
      rw [hc] at hcreated'
      exact (Option.some.inj hcreated').symm
    | some s =>
      rw [hc] at hcreated'
      obtain ⟨s', hs', rfl⟩ := Option.map_eq_some_iff.mp hcreated'
      have hdate : (if M.isDateTime s then some s else none) = some s' := hs'
      split at hdate
      · exact congrArg some (Option.some.inj hdate).symm
      · cases hdate
  split at h
  · exact (Option.some.inj h).symm
  · cases h

theorem parsed_of_read {M : Matter} {raw path : String} {a : Artifact} (h : parseArtifactMarkdown M raw path = some a) :
    Parsed M a := by
  obtain ⟨parsed, data, -, -, hdata, rfl⟩ := parsed_markdown h
  have hparsed := parsedFrom hdata
  obtain ⟨idValue, -, hid⟩ := Option.bind_eq_some_iff.mp hparsed.id
  obtain ⟨titleValue, -, htitle⟩ := Option.bind_eq_some_iff.mp hparsed.title
  refine parsed_of_trimmed (trimmed_trim hid) (trimmed_trim htitle) ?_
  intro s hs
  have hs' : data.sourceId = some s := hs
  have hsource := hparsed.sourceId
  rw [hs'] at hsource
  unfold Artifacts.optional at hsource
  split at hsource
  · cases hsource
  · obtain ⟨s', hs'', hsame⟩ := Option.map_eq_some_iff.mp hsource
    rw [← Option.some.inj hsame]
    exact trimmed_trim hs''

theorem parsed_of_loaded {services : Services} {tree : Tree} {catalogue : RepositoryCatalogue}
    (h : loadCatalogue services tree = some catalogue) {a : Artifact} (ha : a ∈ catalogue.artifacts) :
    Parsed services.matter a := by
  unfold loadCatalogue at h
  obtain ⟨artifacts, hartifacts, h⟩ := Option.bind_eq_some_iff.mp h
  obtain ⟨fileShas, -, h⟩ := Option.bind_eq_some_iff.mp h
  cases h
  have hmem : a ∈ artifacts := List.mem_mergeSort.mp ha
  unfold artifactsFromTree at hartifacts
  obtain ⟨read, hread, hartifacts⟩ := Option.bind_eq_some_iff.mp hartifacts
  split_ifs at hartifacts
  cases hartifacts
  rw [← (mapM_eq_filterMap hread).1] at hmem
  obtain ⟨file, -, hfile⟩ := List.mem_filterMap.mp hmem
  unfold artifactOf at hfile
  split_ifs at hfile
  exact parsed_of_read hfile

/-- What `loadCatalogue` gives at a revision, as it is stored. -/
def entriesAt (S : Setting) (revision : String) : Option (List StoredArtifact) :=
  ((S.tree revision).bind (loadCatalogue S.services)).map storedArtifacts

/-- The snapshot holds what `loadCatalogue` gives at its revision, in the same order. -/
def Faithful (S : Setting) (snapshot : Snapshot) : Prop := entriesAt S snapshot.revision = some snapshot.entries

/-- What a key says is right: a chunk holds its group of the entries, a pointer all the keys. -/
def Sound (S : Setting) : (key : Key) → key.Value → Prop
  | .current, pointer => ∃ entries, entriesAt S pointer.revision = some entries ∧
    pointer.chunks = chunkKeys pointer.revision (groups S entries).length
  | .generation, _ => True
  | .chunk key, chunk => ∃ entries, entriesAt S key.revision = some entries ∧
    (groups S entries)[key.index]? = some chunk.entries

theorem parseEntries_eq {revision : String} {entries part parsed : List StoredArtifact}
    (hentries : entriesAt S revision = some entries) (hpart : part ∈ groups S entries)
    (h : parseEntries S part = some parsed) : parsed = part := by
  obtain ⟨catalogue, hcatalogue, rfl⟩ := Option.map_eq_some_iff.mp hentries
  obtain ⟨tree, -, hload⟩ := Option.bind_eq_some_iff.mp hcatalogue
  have hall : ∀ entry ∈ part, Parsed S.services.matter entry.1 := by
    intro entry hentry
    have hmem : entry ∈ storedArtifacts catalogue := by
      rw [← groups_flatten (S := S) (storedArtifacts catalogue)]
      exact List.mem_flatten.mpr ⟨part, hpart, hentry⟩
    obtain ⟨a, ha, rfl⟩ := List.mem_map.mp hmem
    exact parsed_of_loaded hload ha
  unfold parseEntries at h
  obtain ⟨hread, hsome⟩ := mapM_eq_filterMap h
  rw [← hread]
  -- an entry that is parsed at all is read as it is
  refine (List.filterMap_congr fun entry hentry => ?_).trans List.filterMap_some
  obtain ⟨entry', hentry'⟩ := Option.isSome_iff_exists.mp (hsome entry hentry)
  rw [hentry']
  obtain ⟨a, ha, hentry'⟩ := Option.bind_eq_some_iff.mp hentry'
  split_ifs at hentry'
  rw [← Option.some.inj hentry', hall entry hentry a ha]

end ADT.Catalogue
