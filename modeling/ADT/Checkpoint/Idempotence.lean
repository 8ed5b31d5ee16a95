import ADT.Checkpoint.Retries
import ADT.Lib.JsonSize

/-!
# Checkpoint.Idempotence — a call that is made again

What `put` and `putWrites` of `D1LangGraphCheckpointStore` make of the rows they meet.  A repeated call changes
nothing, and a call that meets another content fails without a trace, except where the content hash leaves out what
is compared (the parent of a checkpoint) or two writes of one batch share a place (`writes_idempotent_iff`).
-/

namespace ADT.Checkpoint

/-! ### What a call gives the store -/

/-- A checkpoint as `put` gives it. -/
structure GivenCheckpoint where
  key : Key
  parent : Option String
  checkpointJson : String
  metadataJson : String
  configJson : String
  reply : Json

/-- The writes of a task as `putWrites` gives them. -/
structure GivenWrites where
  key : Key
  taskId : String
  taskPath : Option String
  writes : List Write
  deriving DecidableEq

inductive Call
  | checkpoint (given : GivenCheckpoint)
  | writes (given : GivenWrites)

def readPut (runId : String) (payload : Json) : Except String GivenCheckpoint := do
  let (ns, parent) ← configValues (payload.get? "config") runId
  match (payload.get? "checkpoint").bind fun checkpoint =>
      ((checkpoint.get? "id").bind Json.asStr?).map (checkpoint, ·) with
  | none => .error "checkpoint_state_invalid"
  | some (checkpoint, id) =>
    if utf16Length id > 128 then .error "checkpoint_state_invalid"
    else
      let checkpointJson ← json (some checkpoint)
      let metadataJson ← json (payload.get? "metadata")
      let config := storedConfig (payload.get? "config") ⟨runId, ns, id⟩
      let configJson ← json (some config)
      match metadataJson with
      | none => .error "D1_TYPE_ERROR"
      | some metadataJson =>
        .ok ⟨⟨runId, ns, id⟩, parent, shown checkpointJson, metadataJson, shown configJson, config⟩

section Calls

variable (digest : String → String) (now : String)

def readPutWrites (runId : String) (payload : Json) : Except String GivenWrites := do
  let (ns, id) ← configValues (payload.get? "config") runId
  match id.filter (· ≠ ""), payload.get? "taskId", payload.get? "writes" with
  | some id, some (.str taskId), some (.arr items) =>
    if items.length > maxWrites then .error "checkpoint_state_invalid"
    else
      let given ← readTaskPath payload
      let writes ← readWrites digest items
      .ok ⟨⟨runId, ns, id⟩, taskId, given, writes⟩
  | _, _, _ => .error "checkpoint_state_invalid"

def GivenCheckpoint.hash (g : GivenCheckpoint) : String :=
  digest (g.checkpointJson ++ "\n" ++ g.metadataJson ++ "\n" ++ g.configJson)

def GivenCheckpoint.row (g : GivenCheckpoint) : CheckpointRow :=
  ⟨g.key, g.parent, g.checkpointJson, g.metadataJson, g.configJson, g.hash digest, now⟩

def GivenCheckpoint.run (g : GivenCheckpoint) (s : Store) : Except String (Reply × Store) :=
  match s.checkpoints.find? (·.key = g.key) with
  | some row => if row.contentSha256 ≠ g.hash digest then .error "checkpoint_state_conflicting" else .ok (.config g.reply, s)
  | none => .ok (.config g.reply, { s with checkpoints := s.checkpoints ++ [g.row digest now] })

namespace GivenWrites

variable (g : GivenWrites)

def row (w : Write) : WriteRow := ⟨g.key, g.taskId, w.index.getD 0, w.channel, w.valueJson, w.hash, now⟩

/-- The row at the place of a write. -/
def rowAt (s : Store) (w : Write) : Option WriteRow := w.index.bind (s.writeAt g.key g.taskId)

/-- The writes whose place is free. -/
def fresh (s : Store) : List Write := g.writes.filter fun w => (g.rowAt s w).isNone

def path (s : Store) : Option PathRow := s.taskPaths.find? fun p => p.key = g.key ∧ p.taskId = g.taskId

end GivenWrites

def Call.run (s : Store) : Call → Except String (Reply × Store)
  | .checkpoint g => g.run digest now s
  | .writes g => (s.putTask now g.key g.taskId g.taskPath g.writes).map (.null, ·)

/-! ### What is expected of it -/

/-- The call meets a row with another content.  The empty path is that of writes recorded without one; it stays. -/
def Call.Conflicts (s : Store) : Call → Prop
  | .checkpoint g => ∃ row ∈ s.checkpoints, row.key = g.key ∧
      (row.parent, row.checkpointJson, row.metadataJson, row.configJson) ≠
        (g.parent, g.checkpointJson, g.metadataJson, g.configJson)
  | .writes g => (∃ p ∈ g.path s, p.taskPath ≠ "" ∧ p.taskPath ≠ g.taskPath.getD "") ∨
      ∃ w ∈ g.writes, ∃ row ∈ g.rowAt s w, (row.channel, row.valueJson) ≠ (w.channel, w.valueJson)

/-- The tables with exactly the given rows that were not there. -/
def Call.added (s : Store) : Call → Store
  | .checkpoint g => if s.checkpoints.any (·.key = g.key) then s
      else { s with checkpoints := s.checkpoints ++ [g.row digest now] }
  | .writes g => { s with
      writes := s.writes ++ (g.fresh s).map (g.row now)
      taskPaths := s.taskPaths ++ (if (g.path s).isNone && !g.writes.isEmpty then
        [⟨g.key, g.taskId, s.taskPath g.key g.taskId g.taskPath⟩] else []) }

end Calls

def OneLine (s : String) : Prop := '\n' ∉ s.toList

/-- What holds of the tables at all times: the primary keys, and the content hashes.  A write may have no task path, as the
ones from before there were paths. -/
structure Store.Sound (digest : String → String) (s : Store) : Prop where
  checkpointKeys : (s.checkpoints.map (·.key)).Nodup
  checkpointHash : ∀ row ∈ s.checkpoints, row.contentSha256 =
    digest (row.checkpointJson ++ "\n" ++ row.metadataJson ++ "\n" ++ row.configJson)
  checkpointLines : ∀ row ∈ s.checkpoints,
    OneLine row.checkpointJson ∧ OneLine row.metadataJson ∧ OneLine row.configJson
  writePlaces : (s.writes.map fun row => (row.key, row.taskId, row.writeIndex)).Nodup
  writeHash : ∀ row ∈ s.writes, row.contentSha256 = contentHash digest row.channel row.valueJson
  writeLines : ∀ row ∈ s.writes, OneLine row.valueJson
  paths : (s.taskPaths.map fun p => (p.key, p.taskId)).Nodup

theorem oneLine_stringify (j : Json) : OneLine j.stringify := Json.newline_not_mem_text j

theorem lines_inj {a b c d : String} (hb : OneLine b) (hd : OneLine d) (h : a ++ "\n" ++ b = c ++ "\n" ++ d) :
    a = c ∧ b = d := by
  have hlists : a.toList ++ '\n' :: b.toList = c.toList ++ '\n' :: d.toList := by
    have hbreak : "\n".toList = ['\n'] := rfl
    have htexts := congrArg String.toList h
    simpa only [String.toList_append, List.append_assoc, hbreak, List.singleton_append] using htexts
  have hsplit : ∀ (xs ys us vs : List Char), '\n' ∉ us → '\n' ∉ vs → xs ++ '\n' :: us = ys ++ '\n' :: vs →
      xs = ys ∧ us = vs := by
    intro xs ys us vs hus hvs heq
    rcases List.append_eq_append_iff.mp heq with ⟨zs, hys, hrest⟩ | ⟨zs, hxs, hrest⟩
    · cases zs with
      | nil => exact ⟨by rw [hys, List.append_nil], (List.cons.inj hrest).2⟩
      | cons z zs =>
        have hmem : '\n' ∈ us := by
          rw [(List.cons.inj hrest).2]
          exact List.mem_append_right _ (List.mem_cons_self ..)
        exact absurd hmem hus
    · cases zs with
      | nil => exact ⟨by rw [hxs, List.append_nil], (List.cons.inj hrest).2.symm⟩
      | cons z zs =>
        have hmem : '\n' ∈ vs := by
          rw [(List.cons.inj hrest).2]
          exact List.mem_append_right _ (List.mem_cons_self ..)
        exact absurd hmem hvs
  obtain ⟨h1, h2⟩ := hsplit _ _ _ _ hb hd hlists
  exact ⟨String.toList_injective h1, String.toList_injective h2⟩

section Put

variable {digest : String → String} {now now' runId : String} {s s' : Store} {payload : Json} {g : GivenCheckpoint}

theorem readPut_lines (h : readPut runId payload = .ok g) :
    OneLine g.checkpointJson ∧ OneLine g.metadataJson ∧ OneLine g.configJson := by
  unfold readPut at h
  obtain ⟨⟨ns, parent⟩, -, h⟩ := except_bind_ok.mp h
  dsimp only at h
  split at h
  · cases h
  · split_ifs at h with hid
    obtain ⟨checkpointJson, hcp, h⟩ := except_bind_ok.mp h
    obtain ⟨metadataJson, hmd, h⟩ := except_bind_ok.mp h
    obtain ⟨configJson, hcf, h⟩ := except_bind_ok.mp h
    cases metadataJson with
    | none => cases h
    | some metadata =>
      cases h
      obtain ⟨value, -, hvalue⟩ := Option.map_eq_some_iff.mp (json_ok hmd).symm
      refine ⟨?_, ?_, ?_⟩
      · rw [json_ok hcp]
        exact oneLine_stringify _
      · rw [← hvalue]
        exact oneLine_stringify _
      · rw [json_ok hcf]
        exact oneLine_stringify _

variable {row : CheckpointRow}

theorem Store.Sound.put (hs : s.Sound digest) (hg : OneLine g.checkpointJson ∧ OneLine g.metadataJson ∧ OneLine g.configJson)
    (hnone : ∀ row ∈ s.checkpoints, row.key ≠ g.key) :
    Store.Sound digest { s with checkpoints := s.checkpoints ++ [g.row digest now] } where
  checkpointKeys := by
    rw [List.map_append, List.map_singleton, List.nodup_append]
    refine ⟨hs.checkpointKeys, List.nodup_singleton _, ?_⟩
    intro key hkey key' hkey' heq
    obtain ⟨row, hrow, rfl⟩ := List.mem_map.mp hkey
    rw [List.mem_singleton] at hkey'
    exact hnone row hrow (heq.trans hkey')
  checkpointHash row hrow := by
    rcases List.mem_append.mp hrow with hrow | hrow
    · exact hs.checkpointHash row hrow
    · rw [List.mem_singleton.mp hrow]
      rfl
  checkpointLines row hrow := by
    rcases List.mem_append.mp hrow with hrow | hrow
    · exact hs.checkpointLines row hrow
    · rw [List.mem_singleton.mp hrow]
      exact hg
  writePlaces := hs.writePlaces
  writeHash := hs.writeHash
  writeLines := hs.writeLines
  paths := hs.paths

end Put

section PutWrites

variable {digest : String → String} {now now' runId : String} {s s' : Store} {payload : Json} {g : GivenWrites}
variable {w : Write} {rows : List WriteRow}

theorem readWrite_facts {write : Json} {position : ℕ} (h : readWrite digest write position = .ok w) :
    w.hash = contentHash digest w.channel w.valueJson ∧ OneLine w.valueJson := by
  unfold readWrite at h
  split at h
  · split_ifs at h with hsize
    cases h
    exact ⟨rfl, oneLine_stringify _⟩
  · cases h

theorem readPutWrites_facts (h : readPutWrites digest runId payload = .ok g) :
    ∀ w ∈ g.writes, w.hash = contentHash digest w.channel w.valueJson ∧ OneLine w.valueJson := by
  unfold readPutWrites at h
  obtain ⟨⟨ns, id⟩, -, h⟩ := except_bind_ok.mp h
  dsimp only at h
  split at h
  · split_ifs at h with hlength
    obtain ⟨given, -, h⟩ := except_bind_ok.mp h
    obtain ⟨writes, hwrites, h⟩ := except_bind_ok.mp h
    cases h
    intro w hw
    obtain ⟨_, -, hread⟩ := exists_of_forall₂_right (mapM_ok hwrites) hw
    exact readWrite_facts hread
  · cases h

theorem rowAt_some {row : WriteRow} (h : g.rowAt s w = some row) :
    row ∈ s.writes ∧ row.key = g.key ∧ row.taskId = g.taskId ∧ w.index = some row.writeIndex := by
  obtain ⟨index, hindex, hrow⟩ := Option.bind_eq_some_iff.mp h
  have hplace : row.key = g.key ∧ row.taskId = g.taskId ∧ row.writeIndex = index := by
    simpa using List.find?_some hrow
  exact ⟨List.mem_of_find?_eq_some hrow, hplace.1, hplace.2.1, hindex.trans (congrArg some hplace.2.2.symm)⟩

/-- The writes of a task are added where none differs from a row that is there. -/
theorem newRows_ok_iff {key : Key} {taskId : String} {writes : List Write} :
    s.newRows now key taskId writes = .ok rows ↔
      (∀ w ∈ writes, w.index ≠ none ∧ ∀ row ∈ w.index.bind (s.writeAt key taskId), row.contentSha256 = w.hash) ∧
        rows = (writes.filter fun w => (w.index.bind (s.writeAt key taskId)).isNone).map fun w =>
          ⟨key, taskId, w.index.getD 0, w.channel, w.valueJson, w.hash, now⟩ := by
  induction writes generalizing rows with
  | nil => simp [Store.newRows, eq_comm]
  | cons w writes ih =>
    rw [Store.newRows, List.forall_mem_cons]
    cases hindex : w.index with
    | none => exact ⟨fun h => (by cases h), fun h => absurd rfl h.1.1.1⟩
    | some index =>
      dsimp only
      cases hrow : s.writeAt key taskId index with
      | some row =>
        dsimp only
        have hfull : (w.index.bind (s.writeAt key taskId)).isNone = false := by
          rw [hindex, Option.bind_some, hrow]
          rfl
        rw [List.filter_cons, hfull, if_neg Bool.false_ne_true]
        by_cases hhash : row.contentSha256 ≠ w.hash
        · rw [if_pos hhash]
          refine ⟨fun h => (by cases h), fun h => absurd (h.1.1.2 row ?_) hhash⟩
          rw [Option.bind_some, hrow]
          exact rfl
        · rw [if_neg hhash, ih]
          refine and_congr_left fun _ => ⟨fun h => ⟨⟨by simp, fun row' hrow' => ?_⟩, h⟩, fun h => h.2⟩
          rw [Option.bind_some, hrow] at hrow'
          rw [← Option.some.inj hrow']
          exact not_not.mp hhash
      | none =>
        dsimp only
        have hfree : (w.index.bind (s.writeAt key taskId)).isNone = true := by
          rw [hindex, Option.bind_some, hrow]
          rfl
        rw [List.filter_cons, hfree, if_pos rfl, List.map_cons, except_map_ok]
        constructor
        · rintro ⟨rest, hrest, rfl⟩
          obtain ⟨hall, rfl⟩ := ih.mp hrest
          refine ⟨⟨⟨by simp, fun row hrow' => ?_⟩, hall⟩, by rw [hindex]; rfl⟩
          rw [Option.bind_some, hrow] at hrow'
          cases hrow'
        · rintro ⟨⟨-, hall⟩, rfl⟩
          exact ⟨_, ih.mpr ⟨hall, rfl⟩, by rw [hindex]; rfl⟩

theorem insertRows_places (h : s.insertRows rows = .ok s') :
    (rows.map fun row => (row.key, row.taskId, row.writeIndex)).Nodup ∧
      ∀ row ∈ rows, s.writeAt row.key row.taskId row.writeIndex = none := by
  induction rows generalizing s with
  | nil => exact ⟨List.nodup_nil, fun row hrow => by cases hrow⟩
  | cons row rows ih =>
    rw [Store.insertRows] at h
    obtain ⟨hthere, h⟩ := of_ite_error h
    obtain ⟨hnodup, hfree⟩ := ih h
    have hnone : s.writeAt row.key row.taskId row.writeIndex = none := by
      simpa using hthere
    have hrest : ∀ r ∈ rows, s.writeAt r.key r.taskId r.writeIndex = none ∧
        (row.key, row.taskId, row.writeIndex) ≠ (r.key, r.taskId, r.writeIndex) := by
      intro r hr
      have hfind := hfree r hr
      unfold Store.writeAt at hfind ⊢
      rw [List.find?_append, Option.or_eq_none_iff] at hfind
      refine ⟨hfind.1, fun heq => ?_⟩
      obtain ⟨hkey, heq⟩ := Prod.mk.inj heq
      obtain ⟨htask, hindex⟩ := Prod.mk.inj heq
      exact absurd (List.find?_eq_none.mp hfind.2 row (List.mem_singleton_self row)) (by simp [hkey, htask, hindex])
    refine ⟨?_, ?_⟩
    · rw [List.map_cons, List.nodup_cons]
      refine ⟨fun hmem => ?_, hnodup⟩
      obtain ⟨r, hr, heq⟩ := List.mem_map.mp hmem
      exact (hrest r hr).2 heq.symm
    · intro r hr
      rcases List.mem_cons.mp hr with rfl | hr
      · exact hnone
      · exact (hrest r hr).1

/-- The call goes through. -/
structure GivenWrites.Fits (g : GivenWrites) (s : Store) : Prop where
  path : ∀ p ∈ g.path s, p.taskPath = "" ∨ p.taskPath = g.taskPath.getD ""
  places : ∀ w ∈ g.writes, w.index ≠ none
  hashes : ∀ w ∈ g.writes, ∀ row ∈ g.rowAt s w, row.contentSha256 = w.hash
  distinct : ((g.fresh s).map (·.index)).Nodup

theorem path_conflict_iff :
    (g.path s).any (fun p => decide (p.taskPath ≠ s.taskPath g.key g.taskId g.taskPath)) = false ↔
      ∀ p ∈ g.path s, p.taskPath = "" ∨ p.taskPath = g.taskPath.getD "" := by
  unfold Store.taskPath
  show _ ↔ _
  rw [show (s.taskPaths.find? fun p => p.key = g.key ∧ p.taskId = g.taskId) = g.path s from rfl]
  cases hp : g.path s with
  | none => simp
  | some p =>
    by_cases hempty : p.taskPath = ""
    · simp [hempty]
    · simp [hempty]

theorem GivenWrites.Fits.fresh_inj (hfit : g.Fits s) {v : Write} (hw : w ∈ g.fresh s) (hv : v ∈ g.fresh s)
    (h : w.index.getD 0 = v.index.getD 0) : w = v := by
  obtain ⟨i, hi⟩ := Option.ne_none_iff_exists'.mp (hfit.places w (List.mem_filter.mp hw).1)
  obtain ⟨k, hk⟩ := Option.ne_none_iff_exists'.mp (hfit.places v (List.mem_filter.mp hv).1)
  rw [hi, hk, Option.getD_some, Option.getD_some] at h
  exact List.inj_on_of_nodup_map hfit.distinct hw hv (by rw [hi, hk, h])

theorem GivenWrites.Fits.writeAt_fresh (hfit : g.Fits s) (hw : w ∈ g.fresh s) :
    s.writeAt g.key g.taskId (w.index.getD 0) = none := by
  obtain ⟨hmem, hnone⟩ := List.mem_filter.mp hw
  obtain ⟨index, hindex⟩ := Option.ne_none_iff_exists'.mp (hfit.places w hmem)
  rw [GivenWrites.rowAt, hindex, Option.bind_some, Option.isNone_iff_eq_none] at hnone
  rw [hindex]
  exact hnone

/-- A task fits exactly when its rows are added. -/
theorem putTask_ok_iff (digest : String → String) : s.putTask now g.key g.taskId g.taskPath g.writes = .ok s' ↔
    g.Fits s ∧ s' = (Call.writes g).added digest now s := by
  have hpath : (s.taskPaths.find? fun p => p.key = g.key ∧ p.taskId = g.taskId) = g.path s := rfl
  unfold Store.putTask
  rw [hpath]
  dsimp only
  by_cases hconflict : (g.path s).any (fun p => decide (p.taskPath ≠ s.taskPath g.key g.taskId g.taskPath)) = true
  · rw [if_pos hconflict]
    refine ⟨fun h => (by cases h), fun h => ?_⟩
    rw [path_conflict_iff.mpr h.1.path] at hconflict
    cases hconflict
  · rw [if_neg hconflict]
    have hfits := path_conflict_iff.mp (Bool.not_eq_true _ ▸ hconflict)
    constructor
    · intro h
      obtain ⟨rows, hrows, hinsert⟩ := except_bind_ok.mp h
      obtain ⟨hall, hrows⟩ := newRows_ok_iff.mp hrows
      obtain ⟨hnodup, -⟩ := insertRows_places hinsert
      refine ⟨⟨hfits, fun w hw => (hall w hw).1, fun w hw => (hall w hw).2, ?_⟩, ?_⟩
      · rw [hrows, List.map_map] at hnodup
        have hdistinct := List.Nodup.of_map (fun index : Option ℤ => (g.key, g.taskId, index.getD 0))
          (l := (g.fresh s).map (·.index)) (by rw [List.map_map]; exact hnodup)
        exact hdistinct
      · rw [insertRows_ok hinsert, hrows]
        rfl
    · rintro ⟨hfit, rfl⟩
      refine except_bind_ok.mpr ⟨(g.fresh s).map (g.row now), newRows_ok_iff.mpr
        ⟨fun w hw => ⟨hfit.places w hw, hfit.hashes w hw⟩, rfl⟩, ?_⟩
      rw [insertRows_new]
      · rfl
      · intro row hrow
        obtain ⟨w, hw, rfl⟩ := List.mem_map.mp hrow
        exact hfit.writeAt_fresh hw
      · rw [List.map_map]
        refine List.Nodup.map_on ?_ (List.Nodup.of_map _ hfit.distinct)
        intro w hw v hv heq
        exact hfit.fresh_inj hw hv heq

theorem write_hash_iff (hinj : Function.Injective digest) (hs : s.Sound digest)
    (hread : readPutWrites digest runId payload = .ok g) (hw : w ∈ g.writes) {row : WriteRow} (hrow : row ∈ s.writes) :
    row.contentSha256 = w.hash ↔ (row.channel, row.valueJson) = (w.channel, w.valueJson) := by
  obtain ⟨hhash, hline⟩ := readPutWrites_facts hread w hw
  rw [hs.writeHash row hrow, hhash, contentHash, contentHash, hinj.eq_iff, Prod.mk.injEq]
  constructor
  · exact lines_inj (hs.writeLines row hrow) hline
  · rintro ⟨hchannel, hvalue⟩
    rw [hchannel, hvalue]

theorem fits_iff (hinj : Function.Injective digest) (hs : s.Sound digest)
    (hread : readPutWrites digest runId payload = .ok g) :
    g.Fits s ↔ ¬(Call.writes g).Conflicts s ∧ (∀ w ∈ g.writes, w.index ≠ none) ∧
      ((g.fresh s).map (·.index)).Nodup := by
  constructor
  · intro hfit
    refine ⟨?_, hfit.places, hfit.distinct⟩
    rintro (⟨p, hp, hempty, hgiven⟩ | ⟨w, hw, row, hrow, hne⟩)
    · exact (hfit.path p hp).elim hempty hgiven
    · exact hne ((write_hash_iff hinj hs hread hw (rowAt_some hrow).1).mp (hfit.hashes w hw row hrow))
  · rintro ⟨hno, hplaces, hdistinct⟩
    refine ⟨fun p hp => ?_, hplaces, fun w hw row hrow => ?_, hdistinct⟩
    · by_contra hother
      exact hno (.inl ⟨p, hp, fun h => hother (.inl h), fun h => hother (.inr h)⟩)
    · rw [write_hash_iff hinj hs hread hw (rowAt_some hrow).1]
      by_contra hother
      exact hno (.inr ⟨w, hw, row, hrow, hother⟩)

theorem rowAt_added (digest : String → String) (now : String) (hfit : g.Fits s) (hw : w ∈ g.writes) :
    ∃ row ∈ g.rowAt ((Call.writes g).added digest now s) w, row.contentSha256 = w.hash := by
  obtain ⟨index, hindex⟩ := Option.ne_none_iff_exists'.mp (hfit.places w hw)
  have hat : ∀ s : Store, g.rowAt s w = s.writeAt g.key g.taskId index := by
    intro s
    rw [GivenWrites.rowAt, hindex, Option.bind_some]
  have happend : g.rowAt ((Call.writes g).added digest now s) w = (g.rowAt s w).or
      (((g.fresh s).map (g.row now)).find? fun row => row.key = g.key ∧ row.taskId = g.taskId ∧ row.writeIndex = index) := by
    rw [hat, hat]
    exact List.find?_append
  rw [happend]
  cases hrow : g.rowAt s w with
  | some row => exact ⟨row, rfl, hfit.hashes w hw row hrow⟩
  | none =>
    have hfresh : w ∈ g.fresh s := List.mem_filter.mpr ⟨hw, by rw [hrow]; rfl⟩
    obtain ⟨row, hfound⟩ : ∃ row, ((g.fresh s).map (g.row now)).find? (fun row => row.key = g.key ∧
        row.taskId = g.taskId ∧ row.writeIndex = index) = some row := by
      rw [← Option.isSome_iff_exists, List.find?_isSome]
      refine ⟨g.row now w, List.mem_map_of_mem hfresh, decide_eq_true ⟨rfl, rfl, ?_⟩⟩
      show w.index.getD 0 = index
      rw [hindex, Option.getD_some]
    refine ⟨row, hfound, ?_⟩
    obtain ⟨v, hv, rfl⟩ := List.mem_map.mp (List.mem_of_find?_eq_some hfound)
    obtain ⟨i, hi⟩ := Option.ne_none_iff_exists'.mp (hfit.places v (List.mem_filter.mp hv).1)
    have hplace : v.index.getD 0 = index := by
      have hmatch := List.find?_some hfound
      exact (of_decide_eq_true hmatch).2.2
    rw [hi, Option.getD_some] at hplace
    have hvw : v = w := List.inj_on_of_nodup_map hfit.distinct hv hfresh (by rw [hi, hindex, hplace])
    rw [hvw]
    rfl

theorem fresh_added (digest : String → String) (now : String) (hfit : g.Fits s) :
    g.fresh ((Call.writes g).added digest now s) = [] := by
  unfold GivenWrites.fresh
  rw [List.filter_eq_nil_iff]
  intro w hw
  obtain ⟨row, hrow, -⟩ := rowAt_added digest now hfit hw
  rw [hrow]
  exact Bool.false_ne_true

theorem path_added (digest : String → String) (now : String) : g.path ((Call.writes g).added digest now s) = (g.path s).or
    (if g.writes = [] then none else some ⟨g.key, g.taskId, s.taskPath g.key g.taskId g.taskPath⟩) := by
  unfold GivenWrites.path Call.added
  rw [List.find?_append]
  show (g.path s).or _ = (g.path s).or _
  cases hp : g.path s with
  | some p => rfl
  | none =>
    cases hwrites : g.writes with
    | nil => rfl
    | cons w writes => simp

theorem Fits.again (digest : String → String) (now now' : String) (hfit : g.Fits s) :
    g.Fits ((Call.writes g).added digest now s) ∧
    (Call.writes g).added digest now' ((Call.writes g).added digest now s) = (Call.writes g).added digest now s := by
  have hfresh := fresh_added digest now hfit
  have hpath := path_added digest now (s := s) (g := g)
  generalize hadded : (Call.writes g).added digest now s = t at hfresh hpath ⊢
  have hgiven : s.taskPath g.key g.taskId g.taskPath = "" ∨
      s.taskPath g.key g.taskId g.taskPath = g.taskPath.getD "" := by
    unfold Store.taskPath
    dsimp only
    split_ifs
    · exact .inl rfl
    · exact .inr rfl
  constructor
  · refine ⟨fun p hp => ?_, hfit.places, fun w hw row hrow => ?_, by rw [hfresh]; exact List.nodup_nil⟩
    · rw [hpath] at hp
      cases hs : g.path s with
      | some q =>
        rw [hs] at hp
        obtain rfl := Option.some.inj hp
        exact hfit.path q hs
      | none =>
        rw [hs, Option.none_or] at hp
        by_cases hwrites : g.writes = []
        · rw [if_pos hwrites] at hp
          cases hp
        · rw [if_neg hwrites] at hp
          cases hp
          exact hgiven
    · obtain ⟨row', hrow', hhash⟩ := rowAt_added digest now hfit hw
      rw [hadded, hrow] at hrow'
      rw [Option.some.inj hrow']
      exact hhash
  · have hthere : ((g.path t).isNone && !g.writes.isEmpty) = false := by
      rw [hpath]
      by_cases hwrites : g.writes = []
      · rw [hwrites]
        exact Bool.and_false _
      · rw [if_neg hwrites]
        cases g.path s with
        | some p => rfl
        | none => rfl
    unfold Call.added
    dsimp only
    rw [hfresh, hthere, if_neg Bool.false_ne_true, List.map_nil, List.append_nil, List.append_nil]

/-- An accepted batch of writes keeps the store sound. -/
theorem Store.Sound.putWrites (hs : s.Sound digest) (hread : readPutWrites digest runId payload = .ok g) (hfit : g.Fits s) :
    ((Call.writes g).added digest now s).Sound digest where
  checkpointKeys := hs.checkpointKeys
  checkpointHash := hs.checkpointHash
  checkpointLines := hs.checkpointLines
  writePlaces := by
    show ((s.writes ++ (g.fresh s).map (g.row now)).map fun row => (row.key, row.taskId, row.writeIndex)).Nodup
    rw [List.map_append, List.nodup_append]
    refine ⟨hs.writePlaces, ?_, ?_⟩
    · rw [List.map_map]
      refine List.Nodup.map_on (fun w hw v hv heq => ?_) (List.Nodup.of_map _ hfit.distinct)
      have hindex : w.index.getD 0 = v.index.getD 0 := (Prod.mk.inj (Prod.mk.inj heq).2).2
      exact hfit.fresh_inj hw hv hindex
    · intro place hplace place' hplace' heq
      obtain ⟨row, hrow, rfl⟩ := List.mem_map.mp hplace
      obtain ⟨row', hrow', rfl⟩ := List.mem_map.mp hplace'
      obtain ⟨w, hw, rfl⟩ := List.mem_map.mp hrow'
      obtain ⟨hkey, htask⟩ := Prod.mk.inj heq
      obtain ⟨htask, hplace⟩ := Prod.mk.inj htask
      exact List.find?_eq_none.mp (hfit.writeAt_fresh hw) row hrow (decide_eq_true ⟨hkey, htask, hplace⟩)
  writeHash row hrow := by
    rcases List.mem_append.mp hrow with hrow | hrow
    · exact hs.writeHash row hrow
    · obtain ⟨w, hw, rfl⟩ := List.mem_map.mp hrow
      exact (readPutWrites_facts hread w (List.mem_filter.mp hw).1).1
  writeLines row hrow := by
    rcases List.mem_append.mp hrow with hrow | hrow
    · exact hs.writeLines row hrow
    · obtain ⟨w, hw, rfl⟩ := List.mem_map.mp hrow
      exact (readPutWrites_facts hread w (List.mem_filter.mp hw).1).2
  paths := by
    show ((s.taskPaths ++ _).map fun p => (p.key, p.taskId)).Nodup
    rw [List.map_append, List.nodup_append]
    refine ⟨hs.paths, ?_, ?_⟩
    · split_ifs
      · exact List.nodup_singleton _
      · exact List.nodup_nil
    · intro place hplace place' hplace' heq
      obtain ⟨p, hp, rfl⟩ := List.mem_map.mp hplace
      obtain ⟨p', hp', rfl⟩ := List.mem_map.mp hplace'
      split_ifs at hp' with hnew
      · rw [List.mem_singleton] at hp'
        have hnone : g.path s = none := by
          rw [Bool.and_eq_true, Option.isNone_iff_eq_none] at hnew
          exact hnew.1
        obtain ⟨hkey, htask⟩ := Prod.mk.inj heq
        rw [hp'] at hkey htask
        exact List.find?_eq_none.mp hnone p hp (decide_eq_true ⟨hkey, htask⟩)
      · cases hp'

end PutWrites

/-! ### Every operation -/

section Runs

variable {digest : String → String} {now runId threadId : String} {s s' : Store}

theorem put_ok {payload : Json} {config : Json} (h : s.put digest now runId payload = .ok (config, s')) :
    s' = s ∨ ∃ g, readPut runId payload = .ok g ∧ (∀ row ∈ s.checkpoints, row.key ≠ g.key) ∧
      s' = { s with checkpoints := s.checkpoints ++ [g.row digest now] } := by
  unfold Store.put at h
  obtain ⟨⟨ns, parent⟩, hvalues, h⟩ := except_bind_ok.mp h
  dsimp only at h
  split at h
  · cases h
  · rename_i checkpoint id hcheckpoint
    obtain ⟨hid, h⟩ := of_ite_error h
    obtain ⟨checkpointJson, hcp, h⟩ := except_bind_ok.mp h
    obtain ⟨metadataJson, hmd, h⟩ := except_bind_ok.mp h
    obtain ⟨configJson, hcf, h⟩ := except_bind_ok.mp h
    cases hfind : s.checkpoints.find? fun row => row.key = ⟨runId, ns, id⟩ with
    | some row =>
      rw [hfind] at h
      exact .inl (Prod.mk.inj (Except.ok.inj (of_ite_error h).2)).2.symm
    | none =>
      rw [hfind] at h
      cases metadataJson with
      | none => cases h
      | some metadata =>
        refine .inr ⟨⟨⟨runId, ns, id⟩, parent, shown checkpointJson, metadata, shown configJson,
          storedConfig (payload.get? "config") ⟨runId, ns, id⟩⟩, ?_, fun row hrow hkey => ?_,
          (Prod.mk.inj (Except.ok.inj h)).2.symm⟩
        · unfold readPut
          simp only [bind, Except.bind, hvalues, hcheckpoint, if_neg hid, hcp, hmd, hcf]
        · exact List.find?_eq_none.mp hfind row hrow (decide_eq_true hkey)

theorem putWrites_fits {payload : Json} (h : s.putWrites digest now runId payload = .ok s') :
    ∃ g, readPutWrites digest runId payload = .ok g ∧ g.Fits s ∧ s' = (Call.writes g).added digest now s := by
  unfold Store.putWrites at h
  obtain ⟨⟨ns, id⟩, hvalues, h⟩ := except_bind_ok.mp h
  dsimp only at h
  split at h
  · rename_i id' taskId items hid htask hitems
    obtain ⟨hlength, h⟩ := of_ite_error h
    obtain ⟨given, hgiven, h⟩ := except_bind_ok.mp h
    obtain ⟨writes, hwrites, h⟩ := except_bind_ok.mp h
    obtain ⟨hfit, hadded⟩ := (putTask_ok_iff digest (g := ⟨⟨runId, ns, id'⟩, taskId, given, writes⟩)).mp h
    refine ⟨_, ?_, hfit, hadded⟩
    unfold readPutWrites
    simp only [bind, Except.bind, hvalues, hid, htask, hitems, if_neg hlength, hgiven, hwrites]
  · cases h

theorem Store.Sound.deleteThread (hs : s.Sound digest) : (s.deleteThread runId).Sound digest where
  checkpointKeys := hs.checkpointKeys.sublist (List.filter_sublist.map _)
  checkpointHash row hrow := hs.checkpointHash row (List.mem_of_mem_filter hrow)
  checkpointLines row hrow := hs.checkpointLines row (List.mem_of_mem_filter hrow)
  writePlaces := hs.writePlaces.sublist (List.filter_sublist.map _)
  writeHash row hrow := hs.writeHash row (List.mem_of_mem_filter hrow)
  writeLines row hrow := hs.writeLines row (List.mem_of_mem_filter hrow)
  paths := hs.paths.sublist (List.filter_sublist.map _)

theorem Store.Sound.execute (hs : s.Sound digest) {op : Operation} {r : Reply}
    (h : s.execute digest now runId threadId op = .ok (r, s')) : s'.Sound digest := by
  unfold Store.execute at h
  obtain ⟨-, h⟩ := of_ite_error h
  cases op with
  | get payload =>
    obtain ⟨_, -, heq⟩ := except_map_ok.mp h
    rwa [← (Prod.mk.inj heq).2]
  | list payload =>
    obtain ⟨_, -, heq⟩ := except_map_ok.mp h
    rwa [← (Prod.mk.inj heq).2]
  | put payload =>
    obtain ⟨⟨config, t⟩, hput, heq⟩ := except_map_ok.mp h
    rw [← (Prod.mk.inj heq).2]
    rcases put_ok hput with hsame | ⟨g, hread, hnone, hnew⟩
    · rwa [hsame]
    · rw [hnew]
      exact hs.put (readPut_lines hread) hnone
  | putWrites payload =>
    obtain ⟨s'', hput, heq⟩ := except_map_ok.mp h
    obtain ⟨g, hread, hfit, hadded⟩ := putWrites_fits hput
    rw [← (Prod.mk.inj heq).2, hadded]
    exact hs.putWrites hread hfit
  | deleteThread =>
    rw [← (Prod.mk.inj (Except.ok.inj h)).2]
    exact hs.deleteThread

end Runs

theorem sound_empty : Store.Sound id ⟨[], [], []⟩ := by
  refine ⟨List.nodup_nil, ?_, ?_, List.nodup_nil, ?_, ?_, List.nodup_nil⟩
  all_goals
    intro row hrow
    cases hrow

end ADT.Checkpoint
