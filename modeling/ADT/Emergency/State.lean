import ADT.Runner.Record

/-!
# Emergency.State — the durable state of the emergency stop

`EmergencyState` of `codex-runner/src/emergency-stop.ts` and its file `control.json`: what `persist` writes, and what
`create` takes after a restart.  A date is read in the format in which the controller writes it.
-/

namespace ADT.Emergency

inductive RestartReason
  | notConfigured | requestFailed
  deriving DecidableEq

def RestartReason.text : RestartReason → String
  | notConfigured => "not_configured"
  | requestFailed => "request_failed"

def RestartReason.ofText (s : String) : Option RestartReason :=
  if s = "not_configured" then some .notConfigured else if s = "request_failed" then some .requestFailed else none

/-- The combinations of the fields of `hardRestart` that `parseState` takes. -/
def consistent (attempted succeeded : Bool) (reason : Option RestartReason) : Bool :=
  (!attempted && !succeeded && (reason == none || reason == some .notConfigured)) ||
    (attempted && succeeded && reason == none) || (attempted && !succeeded && reason == some .requestFailed)

structure HardRestart where
  attempted : Bool
  succeeded : Bool
  reason : Option RestartReason
  sound : consistent attempted succeeded reason = true

/-- `{attempted:false,succeeded:false}` -/
def HardRestart.pending : HardRestart := ⟨false, false, none, rfl⟩

structure EmergencyState where
  emergencyStopped : Bool
  stoppedGeneration : Option String
  updatedAt : Instant
  hardRestart : HardRestart

namespace EmergencyState

/-- The state of a controller that has no file. -/
def initial : EmergencyState := ⟨false, none, .unixEpoch, .pending⟩

def restartPhaseComplete (s : EmergencyState) : Bool :=
  s.hardRestart.attempted || s.hardRestart.reason == some .notConfigured

end EmergencyState

/-! ### The file -/

namespace HardRestart

def fields (h : HardRestart) : List (String × Json) :=
  [("attempted", .bool h.attempted), ("succeeded", .bool h.succeeded)] ++
    Runner.JobRecord.field "reason" (h.reason.map RestartReason.text)

/-- The fields of `hardRestart` that `parseState` takes. -/
def parse (v : Json) : Option HardRestart :=
  if v.strictKeys ["attempted", "succeeded", "reason"] then do
    let attempted ← (v.get? "attempted").bind Json.asBool?
    let succeeded ← (v.get? "succeeded").bind Json.asBool?
    let reason ← Runner.optional (v.get? "reason") fun j => j.asStr?.bind RestartReason.ofText
    if h : consistent attempted succeeded reason = true then return ⟨attempted, succeeded, reason, h⟩ else none
  else none

end HardRestart

/-- A character of `/^[A-Za-z0-9._:-]+$/` -/
def isGenerationChar (c : Char) : Bool :=
  c.isDigit || c.isUpper || c.isLower || c == '.' || c == '_' || c == ':' || c == '-'

/-- What `parseState` demands of a generation. -/
def isGeneration (s : String) : Bool := 1 ≤ utf16Length s && utf16Length s ≤ 256 && s.toList.all isGenerationChar

namespace EmergencyState

def fields (s : EmergencyState) : List (String × Json) :=
  [("emergencyStopped", .bool s.emergencyStopped)] ++ Runner.JobRecord.field "stoppedGeneration" s.stoppedGeneration ++
    [("updatedAt", .str s.updatedAt.toISOString), ("hardRestart", .obj s.hardRestart.fields)]

/-- `JSON.stringify(next)` -/
def text (s : EmergencyState) : String := (Json.obj s.fields).stringify

def parseState (v : Json) : Option EmergencyState :=
  if v.strictKeys ["emergencyStopped", "stoppedGeneration", "updatedAt", "hardRestart"] then do
    let emergencyStopped ← (v.get? "emergencyStopped").bind Json.asBool?
    let updatedAt ← (v.get? "updatedAt").bind fun j => (j.asStr?.filter (utf16Length · ≤ 40)).bind Instant.parse
    let stoppedGeneration ← Runner.optional (v.get? "stoppedGeneration") fun j => j.asStr?.filter isGeneration
    if !emergencyStopped && stoppedGeneration.isSome then none
    else do
      let hardRestart ← (v.get? "hardRestart").bind HardRestart.parse
      return ⟨emergencyStopped, stoppedGeneration, updatedAt, hardRestart⟩
  else none

/-- What `create` takes for the state; `none` where `control.json` is not trusted. -/
def create (file : Option String) : Option EmergencyState :=
  match file with
  | none => some initial
  | some raw => if byteLength raw ≤ 4096 then (Json.parse raw).bind parseState else none

end EmergencyState

theorem toNat_digit_lt (n : ℕ) : (Instant.digit n).toNat < 0x10000 := by
  have hall : ∀ m < 10, (Char.ofNat (48 + m)).toNat < 0x10000 := by decide
  exact hall (n % 10) (Nat.mod_lt n (by omega))

theorem length_toISOString (t : Instant) : t.toISOString.toList.length = 24 := by
  rw [Instant.toISOString, String.toList_ofList]
  simp [Instant.four, Instant.three, Instant.two]

theorem utf16Length_toISOString (t : Instant) : utf16Length t.toISOString = 24 := by
  have hplain : ∀ c ∈ t.toISOString.toList, c.toNat < 0x10000 := by
    rw [Instant.toISOString, String.toList_ofList]
    simp only [Instant.four, Instant.three, Instant.two, List.cons_append, List.nil_append, List.forall_mem_cons,
      toNat_digit_lt, true_and, List.not_mem_nil, false_implies, implies_true, and_true]
    decide
  have hunits := utf16Length_ofList hplain
  rw [String.ofList_toList] at hunits
  rw [hunits, length_toISOString]

/-! ### What is written is read again -/

theorem RestartReason.ofText_text (r : RestartReason) : ofText r.text = some r := by
  cases r <;> rfl

namespace HardRestart

variable (h : HardRestart)

theorem get_fields : (Json.obj h.fields).get? "attempted" = some (.bool h.attempted) ∧
      (Json.obj h.fields).get? "succeeded" = some (.bool h.succeeded) ∧
      (Json.obj h.fields).get? "reason" = h.reason.map (fun reason => .str reason.text) := by
  refine ⟨rfl, rfl, ?_⟩
  simp [fields, Json.get?, Runner.JobRecord.find_field, Option.map_map, Function.comp_def]

theorem keys_fields : (h.fields.map (·.1)).Sublist ["attempted", "succeeded", "reason"] := by
  have hreason := Runner.JobRecord.field_keys "reason" (h.reason.map RestartReason.text)
  simp only [fields, List.map_append]
  exact (List.Sublist.refl ["attempted", "succeeded"]).append hreason

theorem parse_fields : parse (.obj h.fields) = some h := by
  obtain ⟨hattempted, hsucceeded, hreason⟩ := h.get_fields
  have hkeys : (Json.obj h.fields).strictKeys ["attempted", "succeeded", "reason"] = true :=
    List.all_eq_true.mpr fun f hf => List.contains_iff_mem.mpr (h.keys_fields.subset (List.mem_map_of_mem hf))
  have hread : Runner.optional (h.reason.map fun reason => Json.str reason.text)
      (fun j => j.asStr?.bind RestartReason.ofText) = some h.reason := by
    cases h.reason with
    | none => rfl
    | some reason => exact congrArg (Option.map some) (RestartReason.ofText_text reason)
  rw [parse, if_pos hkeys, hattempted, hsucceeded, hreason, hread]
  simp [Json.asBool?, h.sound]

theorem distinct_fields : (Json.obj h.fields).distinct = true := by
  rw [Json.distinct_obj]
  refine ⟨h.keys_fields.nodup (by decide), fun f hf => ?_⟩
  simp only [fields, Runner.JobRecord.field, List.mem_append, List.mem_cons, List.not_mem_nil, or_false,
    List.mem_map] at hf
  rcases hf with (rfl | rfl) | ⟨_, _, rfl⟩ <;> rfl

end HardRestart

namespace EmergencyState

variable (s : EmergencyState)

def json : Json := .obj s.fields

theorem get_json : s.json.get? "emergencyStopped" = some (.bool s.emergencyStopped) ∧
      s.json.get? "stoppedGeneration" = s.stoppedGeneration.map .str ∧
      s.json.get? "updatedAt" = some (.str s.updatedAt.toISOString) ∧
      s.json.get? "hardRestart" = some (.obj s.hardRestart.fields) := by
  cases hgeneration : s.stoppedGeneration <;>
    simp [json, fields, Json.get?, Runner.JobRecord.field, hgeneration]

theorem keys_fields :
    (s.fields.map (·.1)).Sublist ["emergencyStopped", "stoppedGeneration", "updatedAt", "hardRestart"] := by
  have hgeneration := Runner.JobRecord.field_keys "stoppedGeneration" s.stoppedGeneration
  simp only [fields, List.map_append]
  exact ((List.Sublist.refl ["emergencyStopped"]).append hgeneration).append
    (List.Sublist.refl ["updatedAt", "hardRestart"])

theorem distinct_json : s.json.distinct = true := by
  rw [json, Json.distinct_obj]
  refine ⟨s.keys_fields.nodup (by decide), fun f hf => ?_⟩
  simp only [fields, Runner.JobRecord.field, List.mem_append, List.mem_cons, List.not_mem_nil, or_false,
    List.mem_map] at hf
  rcases hf with (rfl | ⟨_, _, rfl⟩) | rfl | rfl
  · rfl
  · rfl
  · rfl
  · exact s.hardRestart.distinct_fields

/-- What `parseState` demands of a state. -/
def sound : Bool := s.stoppedGeneration.all isGeneration && (s.emergencyStopped || s.stoppedGeneration.isNone)

theorem parseState_json : parseState s.json = if s.sound then some s else none := by
  obtain ⟨hstopped, hgeneration, hupdated, hrestart⟩ := s.get_json
  have hkeys : s.json.strictKeys ["emergencyStopped", "stoppedGeneration", "updatedAt", "hardRestart"] = true :=
    List.all_eq_true.mpr fun f hf => List.contains_iff_mem.mpr (s.keys_fields.subset (List.mem_map_of_mem hf))
  have hdate : ((Json.str s.updatedAt.toISOString).asStr?.filter (utf16Length · ≤ 40)).bind Instant.parse =
      some s.updatedAt := by
    have hshort : decide (utf16Length s.updatedAt.toISOString ≤ 40) = true := by
      rw [utf16Length_toISOString]
      rfl
    rw [Json.asStr?, Option.filter_some, if_pos hshort, Option.bind_some]
    exact Instant.parse_toISOString s.updatedAt
  rw [parseState, if_pos hkeys, hstopped, hgeneration, hupdated, hrestart]
  simp only [Option.bind_some, hdate, Json.asBool?, s.hardRestart.parse_fields, Option.bind_eq_bind, Option.pure_def,
    sound]
  obtain ⟨stopped, generation, updatedAt, hardRestart⟩ := s
  cases generation with
  | none => simp [Runner.optional]
  | some g =>
    by_cases hg : isGeneration g = true
    · cases stopped <;> simp [Runner.optional, Json.asStr?, Option.filter_some, hg]
    · simp [Runner.optional, Json.asStr?, Option.filter_some, hg]

theorem size_hardRestart (h : HardRestart) : (Json.obj h.fields).size ≤ 100 := by
  have hall : ∀ attempted succeeded : Bool, ∀ reason ∈ [none, some RestartReason.notConfigured, some .requestFailed],
      (Json.obj ([("attempted", .bool attempted), ("succeeded", .bool succeeded)] ++
        Runner.JobRecord.field "reason" (reason.map RestartReason.text))).size ≤ 100 := by decide +kernel
  refine hall h.attempted h.succeeded h.reason ?_
  rcases h.reason with _ | _ | _ <;> simp

theorem byteLength_text (hsound : s.sound = true) : byteLength s.text ≤ 4096 := by
  have hdate := escapedLength_le s.updatedAt.toISOString
  rw [length_toISOString] at hdate
  have hrestart := size_hardRestart s.hardRestart
  have hstopped : (Json.bool s.emergencyStopped).size ≤ 5 := by cases s.emergencyStopped <;> decide
  have hkeys : escapedLength "emergencyStopped" = 16 ∧ escapedLength "stoppedGeneration" = 17 ∧
      escapedLength "updatedAt" = 9 ∧ escapedLength "hardRestart" = 11 := by decide +kernel
  obtain ⟨hkey₁, hkey₂, hkey₃, hkey₄⟩ := hkeys
  show (Json.obj s.fields).size ≤ 4096
  cases hgeneration : s.stoppedGeneration with
  | none =>
    rw [fields, hgeneration, List.cons_append, List.cons_append, Json.size_obj]
    simp only [Runner.JobRecord.field, Option.toList_none, List.map_nil, List.nil_append, List.map_cons, List.sum_cons,
      List.sum_nil, Json.size_str, hkey₁, hkey₃, hkey₄]
    omega
  | some g =>
    have hg : isGeneration g = true := by
      have hall := (Bool.and_eq_true_iff.mp hsound).1
      rwa [hgeneration, Option.all_some] at hall
    have hlength := escapedLength_le g
    have hshort : g.toList.length ≤ 256 := by
      have hunits := length_le_utf16Length g
      simp only [isGeneration, Bool.and_eq_true, decide_eq_true_eq] at hg
      omega
    rw [fields, hgeneration, List.cons_append, List.cons_append, Json.size_obj]
    simp only [Runner.JobRecord.field, Option.toList_some, List.map_nil, List.nil_append, List.cons_append, List.map_cons,
      List.sum_cons, List.sum_nil, Json.size_str, hkey₁, hkey₂, hkey₃, hkey₄]
    omega

theorem create_text : create (some s.text) = if s.sound then some s else none := by
  have hparse : Json.parse s.text = some s.json := Json.parse_stringify _ s.distinct_json
  rw [create, hparse, Option.bind_some, parseState_json]
  by_cases hsound : s.sound = true
  · rw [if_pos (s.byteLength_text hsound), if_pos hsound]
  · rw [if_neg hsound, ite_self]

end EmergencyState

end ADT.Emergency
