import ADT.Lib.Basics
import ADT.Lib.Json

/-!
# Sqlite.Backups — database files and the metadata of a backup set

The file names and the manifest of `codex-runner/src/sqlite-storage.ts`: which files of a directory are databases, and
what `parseBackupMetadata` takes of a manifest.
-/

namespace ADT.Sqlite

def isFilenameChar (c : Char) : Bool := c.isAlphanum || c = '.' || c = '_' || c = '-'

/-- A name without `.sqlite` or `.db`, in either case. -/
def stem (cs : List Char) : Option (List Char) :=
  let lower := cs.map Char.toLower
  if ".sqlite".toList.isSuffixOf lower then some (cs.take (cs.length - 7))
  else if ".db".toList.isSuffixOf lower then some (cs.take (cs.length - 3))
  else none

/-- `DATABASE_FILENAME` -/
def isDatabaseFilename (name : String) : Bool :=
  match stem name.toList with
  | some (c :: rest) => c.isAlphanum && rest.length ≤ 127 && rest.all isFilenameChar
  | _ => false

/-- What a restore moves: databases, write-ahead logs and their shared memory. -/
def isLive (name : String) : Bool :=
  isDatabaseFilename name || "-wal".toList.isSuffixOf name.toList || "-shm".toList.isSuffixOf name.toList

/-! ### Metadata -/

/-- A text of as many characters as there are classes, each in its class. -/
def matchesEach : List (Char → Bool) → List Char → Bool
  | [], [] => true
  | p :: ps, c :: cs => p c && matchesEach ps cs
  | _, _ => false

/-- `BACKUP_ID` -/
def isBackupId (s : String) : Bool :=
  matchesEach ([(· == 'b'), (· == '-')] ++ List.replicate 8 Char.isDigit ++ [(· == 'T')] ++
    List.replicate 6 Char.isDigit ++ [(· == 'Z'), (· == '-')] ++ List.replicate 12 isLowerHex) s.toList

example : isBackupId "b-20260102T030405Z-0123456789ab" = true := by decide

/-- `/^\d+\.\d+\.\d+$/` -/
def isVersion (s : String) : Bool :=
  let parts := s.toList.splitOn '.'
  parts.length = 3 && parts.all fun part => !part.isEmpty && part.all Char.isDigit

mutual

/-- `String(value)` -/
def textOf : Json → String
  | .null => "null"
  | .bool b => if b then "true" else "false"
  | .num n => toString n
  | .str s => s
  | .arr items => ",".intercalate (textsOf items)
  | .obj _ => "[object Object]"

def textsOf : List Json → List String
  | [] => []
  | .null :: rest => "" :: textsOf rest
  | item :: rest => textOf item :: textsOf rest

end

def exactKeys (fields : List (String × Json)) (required optional : List String) : Bool :=
  required.all (fun key => fields.any (·.1 == key)) &&
    fields.all fun f => required.contains f.1 || optional.contains f.1

structure DatabaseRecord where
  filename : String
  size : ℕ
  sha256 : String

def maxDatabases : ℕ := 64

def maxDatabaseSize : ℕ := 16 * 1024 * 1024 * 1024

/-- One entry of `databases`; `seen` has the names before it. -/
def parseDatabase (seen : List String) : Json → Option DatabaseRecord
  | .obj fields =>
    let value k := (Json.obj fields).get? k
    match value "filename", value "size", value "sha256" with
    | some filename, some (.num size), some (.str sha256) =>
      if exactKeys fields ["filename", "size", "sha256"] [] && isDatabaseFilename (textOf filename) &&
          !seen.contains (textOf filename) && decide (0 ≤ size) && decide (size ≤ maxDatabaseSize) &&
          decide (sha256.toList.length = 64) && sha256.toList.all isLowerHex
      then some ⟨textOf filename, size.toNat, sha256⟩
      else none
    | _, _, _ => none
  | _ => none

def parseDatabases (seen : List String) : List Json → Option (List DatabaseRecord)
  | [] => some []
  | raw :: rest => (parseDatabase seen raw).bind fun d =>
      (parseDatabases (d.filename :: seen) rest).map (d :: ·)

structure BackupMetadata where
  backupId : String
  createdAt : String
  runnerVersion : String
  codexVersion : String
  databases : List DatabaseRecord
  named : ∀ d ∈ databases, isDatabaseFilename d.filename = true
  distinct : (databases.map (·.filename)).Nodup
  some_database : databases ≠ []

theorem parseDatabase_spec {seen : List String} {raw : Json} {d : DatabaseRecord}
    (h : parseDatabase seen raw = some d) : isDatabaseFilename d.filename = true ∧ d.filename ∉ seen := by
  unfold parseDatabase at h
  split at h
  · dsimp only at h
    split at h
    · split at h
      next hc =>
        cases h
        simp only [Bool.and_eq_true, Bool.not_eq_true', List.contains_eq_mem, decide_eq_false_iff_not] at hc
        exact ⟨hc.1.1.1.1.1.2, hc.1.1.1.1.2⟩
      · cases h
    · cases h
  · cases h

theorem parseDatabases_spec : ∀ {items : List Json} {seen : List String} {ds : List DatabaseRecord},
    parseDatabases seen items = some ds → (∀ d ∈ ds, isDatabaseFilename d.filename = true ∧ d.filename ∉ seen) ∧
      (ds.map (·.filename)).Nodup ∧ ds.length = items.length
  | [], seen, ds, h => by
    cases h
    exact ⟨by simp, List.nodup_nil, rfl⟩
  | raw :: rest, seen, ds, h => by
    rw [parseDatabases] at h
    obtain ⟨d, hd, h⟩ := Option.bind_eq_some_iff.mp h
    obtain ⟨more, hmore, rfl⟩ := Option.map_eq_some_iff.mp h
    have hfirst := parseDatabase_spec hd
    obtain ⟨hall, hnodup, hlength⟩ := parseDatabases_spec hmore
    refine ⟨fun e he => ?_, ?_, by rw [List.length_cons, List.length_cons, hlength]⟩
    · rcases List.mem_cons.mp he with rfl | he
      · exact hfirst
      · exact ⟨(hall e he).1, fun hseen => (hall e he).2 (List.mem_cons_of_mem _ hseen)⟩
    · rw [List.map_cons, List.nodup_cons]
      refine ⟨fun hmem => ?_, hnodup⟩
      obtain ⟨e, he, hname⟩ := List.mem_map.mp hmem
      exact (hall e he).2 (by rw [hname]; exact List.mem_cons_self)

/-- `validTimestamp`; `parsesDate` says what `Date.parse` takes. -/
def validTimestamp (parsesDate : String → Bool) (value : String) : Bool :=
  decide (utf16Length value ≤ 32) && parsesDate value

/-- `parseBackupMetadata(value, expectedId)` -/
def parseBackupMetadata (parsesDate : String → Bool) (expectedId : String) : Json → Option BackupMetadata
  | .obj fields =>
    let value k := (Json.obj fields).get? k
    match value "backupId", value "createdAt", value "runnerVersion", value "codexVersion", value "databases" with
    | some (.str backupId), some (.str createdAt), some (.str runnerVersion), some (.str codexVersion),
        some (.arr items) =>
      if exactKeys fields ["backupId", "createdAt", "runnerVersion", "codexVersion", "databases"] ["schemaVersion"] &&
          isBackupId backupId && backupId == expectedId && validTimestamp parsesDate createdAt &&
          decide (utf16Length runnerVersion ≤ 64) && isVersion codexVersion && decide (items.length ≤ maxDatabases)
      then if hitems : items = [] then none
        else match hparse : parseDatabases [] items with
          | some databases => some
            { backupId, createdAt, runnerVersion, codexVersion, databases
              named := fun d hd => ((parseDatabases_spec hparse).1 d hd).1
              distinct := (parseDatabases_spec hparse).2.1
              some_database := fun hnil => hitems (by
                have hlength := (parseDatabases_spec hparse).2.2
                rw [hnil] at hlength
                exact List.length_eq_zero_iff.mp hlength.symm) }
          | none => none
      else none
    | _, _, _, _, _ => none
  | _ => none

namespace BackupMetadata

def names (m : BackupMetadata) : List String := m.databases.map (·.filename)

theorem live_of_mem {m : BackupMetadata} {n : String} (h : n ∈ m.names) : isLive n = true := by
  obtain ⟨d, hd, rfl⟩ := List.mem_map.mp h
  rw [isLive, m.named d hd]
  rfl

end BackupMetadata

end ADT.Sqlite
