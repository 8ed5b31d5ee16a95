import ADT.Lib.JsonValue

/-!
# Lib.JsonOrder — JSON values up to the order of members

Two values are the same when they differ in the order only in which the members of their objects stand.  A reader that looks
members up by their keys does not tell such values apart; one that lists the members of an object gives them in another order.
-/

namespace ADT.JsonValue

/-- The first value is the second one, with the members of its objects in any order; no key of an object comes twice. -/
inductive Same : JsonValue → JsonValue → Prop
  | null : Same .null .null
  | bool (b : Bool) : Same (.bool b) (.bool b)
  | num (q : ℚ) : Same (.num q) (.num q)
  | infinite : Same .infinite .infinite
  | str (s : String) : Same (.str s) (.str s)
  | arr {vs us : List JsonValue} (hlength : vs.length = us.length) (hitems : ∀ p ∈ vs.zip us, Same p.1 p.2) :
      Same (.arr vs) (.arr us)
  | obj {fs gs : List (String × JsonValue)} (ms : List (String × JsonValue)) (horder : fs.Perm ms)
      (hdistinct : (fs.map (·.1)).Nodup) (hkeys : ms.map (·.1) = gs.map (·.1))
      (hmembers : ∀ p ∈ ms.zip gs, Same p.1.2 p.2.2) : Same (.obj fs) (.obj gs)

/-- The same member. -/
def SameMember (f g : String × JsonValue) : Prop := f.1 = g.1 ∧ f.2.Same g.2

theorem ofItems_eq_map (js : List Json) : ofItemsWith (fun n => .num n) js = js.map ofJson := by
  induction js with
  | nil => rfl
  | cons j js ih =>
    rw [ofItemsWith, ih]
    rfl

theorem ofFields_eq_map (fields : List (String × Json)) :
    ofFieldsWith (fun n => .num n) fields = fields.map (Prod.map id ofJson) :=
  ofFieldsWith_eq_map _ fields

theorem members_of_zip {ms gs : List (String × JsonValue)} (hkeys : ms.map (·.1) = gs.map (·.1))
    (hmembers : ∀ p ∈ ms.zip gs, p.1.2.Same p.2.2) : List.Forall₂ SameMember ms gs := by
  induction ms generalizing gs with
  | nil =>
    obtain rfl := List.map_eq_nil_iff.mp hkeys.symm
    exact .nil
  | cons m ms ih =>
    cases gs with
    | nil => cases hkeys
    | cons g gs =>
      obtain ⟨hkey, hrest⟩ := List.cons.inj hkeys
      have hzip : (m :: ms).zip (g :: gs) = (m, g) :: ms.zip gs := rfl
      rw [hzip, List.forall_mem_cons] at hmembers
      exact .cons ⟨hkey, hmembers.1⟩ (ih hrest hmembers.2)

namespace Same

variable {v u : JsonValue}

theorem of_arr {us : List JsonValue} (h : v.Same (.arr us)) : ∃ vs, v = .arr vs ∧ List.Forall₂ Same vs us := by
  cases h with
  | arr hlength hitems => exact ⟨_, rfl, List.forall₂_iff_zip.mpr ⟨hlength, fun hab => hitems _ hab⟩⟩

theorem of_obj {gs : List (String × JsonValue)} (h : v.Same (.obj gs)) :
    ∃ fs ms, v = .obj fs ∧ (fs.map (·.1)).Nodup ∧ fs.Perm ms ∧ List.Forall₂ SameMember ms gs := by
  cases h with
  | obj ms horder hdistinct hkeys hmembers =>
    exact ⟨_, ms, rfl, hdistinct, horder, members_of_zip hkeys hmembers⟩

/-! ### Members -/

theorem find_of_members {ms gs : List (String × JsonValue)} (h : List.Forall₂ SameMember ms gs) (k : String) :
    Option.Rel Same ((ms.find? (·.1 == k)).map (·.2)) ((gs.find? (·.1 == k)).map (·.2)) := by
  induction h with
  | nil => exact .none
  | @cons m g ms gs hmember _ ih =>
    obtain ⟨hkey, hvalue⟩ := hmember
    rw [List.find?_cons, List.find?_cons, hkey]
    cases g.1 == k with
    | true => exact .some hvalue
    | false => exact ih

/-- Where no key comes twice, the order does not matter to a look-up. -/
theorem find_of_perm {fs ms : List (String × JsonValue)} (horder : fs.Perm ms) (hdistinct : (fs.map (·.1)).Nodup)
    (k : String) : fs.find? (·.1 == k) = ms.find? (·.1 == k) := by
  induction horder with
  | nil => rfl
  | cons f _ ih =>
    rw [List.find?_cons, List.find?_cons, ih (List.nodup_cons.mp hdistinct).2]
  | swap f g fs =>
    have hne : g.1 ≠ f.1 := fun heq => (List.nodup_cons.mp hdistinct).1 (List.mem_cons.mpr (.inl heq))
    rw [List.find?_cons, List.find?_cons, List.find?_cons, List.find?_cons]
    by_cases hg : g.1 = k
    · have hf : (f.1 == k) = false := beq_eq_false_iff_ne.mpr fun hf => hne (hg.trans hf.symm)
      rw [hf]
    · rw [beq_eq_false_iff_ne.mpr hg]
  | trans hfirst _ ih₁ ih₂ =>
    exact (ih₁ hdistinct).trans (ih₂ ((hfirst.map _).nodup_iff.mp hdistinct))

theorem get? (h : v.Same u) (k : String) : Option.Rel Same (v.get? k) (u.get? k) := by
  cases h with
  | @obj fs gs ms horder hdistinct hkeys hmembers =>
    show Option.Rel Same ((fs.find? (·.1 == k)).map (·.2)) ((gs.find? (·.1 == k)).map (·.2))
    rw [find_of_perm horder hdistinct]
    exact find_of_members (members_of_zip hkeys hmembers) k
  | _ => exact .none

theorem strictKeys (h : v.Same u) (keys : List String) : v.strictKeys keys = u.strictKeys keys := by
  cases h with
  | @obj fs gs ms horder hdistinct hkeys hmembers =>
    have hall : ∀ l : List (String × JsonValue), (l.all fun f => keys.contains f.1) = (l.map (·.1)).all (keys.contains ·) :=
      fun l => by rw [List.all_map]; rfl
    show (fs.all fun f => keys.contains f.1) = gs.all fun f => keys.contains f.1
    rw [horder.all_eq, hall, hall, hkeys]
  | _ => rfl

/-! ### Readers -/

/-- A reader that does not tell the same values apart. -/
def Blind {α : Type} (read : JsonValue → Option α) : Prop := ∀ v u : JsonValue, v.Same u → read v = read u

theorem blind_asStr : Blind asStr? := fun _ _ h => by cases h <;> rfl

theorem blind_asBool : Blind asBool? := fun _ _ h => by cases h <;> rfl

theorem blind_asNum : Blind asNum? := fun _ _ h => by cases h <;> rfl

theorem blind_asNat : Blind asNat? := fun v u h => by rw [asNat?, asNat?, blind_asNum v u h]

theorem isObj (h : v.Same u) : v.asObj?.isNone = u.asObj?.isNone := by cases h <;> rfl

theorem field {α : Type} {read : JsonValue → Option α} (h : v.Same u) (k : String) (hread : Blind read) :
    v.field k read = u.field k read := by
  have hrel := h.get? k
  rw [JsonValue.field, JsonValue.field]
  generalize v.get? k = x, u.get? k = y at hrel
  cases hrel with
  | none => rfl
  | some hxy => exact hread _ _ hxy

theorem optional {α : Type} {read : JsonValue → Option α} (h : v.Same u) (k : String) (hread : Blind read) :
    v.optional k read = u.optional k read := by
  have hrel := h.get? k
  rw [JsonValue.optional, JsonValue.optional]
  generalize v.get? k = x, u.get? k = y at hrel
  cases hrel with
  | none => rfl
  | some hxy => exact congrArg (Option.map some) (hread _ _ hxy)

/-- The member that stands for a known one. -/
theorem get?_some (h : v.Same u) {k : String} {y : JsonValue} (hy : u.get? k = some y) : ∃ x, v.get? k = some x ∧
    x.Same y := by
  have hrel := h.get? k
  rw [hy] at hrel
  cases hx : v.get? k with
  | none =>
    rw [hx] at hrel
    cases hrel
  | some x =>
    rw [hx] at hrel
    cases hrel with
    | some hxy => exact ⟨x, rfl, hxy⟩

theorem get?_none (h : v.Same u) {k : String} (hy : u.get? k = none) : v.get? k = none := by
  have hrel := h.get? k
  rw [hy] at hrel
  cases hx : v.get? k with
  | none => rfl
  | some x =>
    rw [hx] at hrel
    cases hrel

/-! ### Integers -/

/-- What is the same as a value of integers is one. -/
theorem exists_ofJson (h : v.Same u) (hu : u ∈ Set.range ofJson) : v ∈ Set.range ofJson := by
  induction h with
  | @arr vs us hlength hitems ih =>
    obtain ⟨j, hj⟩ := hu
    cases j with
    | arr js =>
      have hus : js.map ofJson = us := (ofItems_eq_map js).symm.trans (JsonValue.arr.inj hj)
      have hvs : vs ∈ Set.range (List.map ofJson) := by
        rw [Set.range_list_map]
        intro v hv
        rw [← List.map_fst_zip hlength.le, List.mem_map] at hv
        obtain ⟨p, hp, rfl⟩ := hv
        obtain ⟨j, -, hj⟩ := List.mem_map.mp (hus ▸ (List.of_mem_zip hp).2)
        exact ih p hp ⟨j, hj⟩
      obtain ⟨js', rfl⟩ := hvs
      exact ⟨.arr js', congrArg JsonValue.arr (ofItems_eq_map js')⟩
    | _ => cases hj
  | @obj fs gs ms horder hdistinct hkeys hmembers ih =>
    obtain ⟨j, hj⟩ := hu
    cases j with
    | obj fields =>
      have hgs : fields.map (Prod.map id ofJson) = gs := (ofFields_eq_map fields).symm.trans (JsonValue.obj.inj hj)
      have hfs : fs ∈ Set.range (List.map (Prod.map id ofJson)) := by
        rw [Set.range_list_map]
        intro f hf
        have hlength : ms.length ≤ gs.length := by
          have hlengths := congrArg List.length hkeys
          rw [List.length_map, List.length_map] at hlengths
          exact hlengths.le
        have hm : f ∈ ms := horder.mem_iff.mp hf
        rw [← List.map_fst_zip hlength, List.mem_map] at hm
        obtain ⟨p, hp, rfl⟩ := hm
        obtain ⟨g, -, hg⟩ := List.mem_map.mp (hgs ▸ (List.of_mem_zip hp).2)
        obtain ⟨j, hj⟩ := ih p hp ⟨g.2, congrArg Prod.snd hg⟩
        exact ⟨(p.1.1, j), Prod.ext rfl hj⟩
      obtain ⟨fields', rfl⟩ := hfs
      exact ⟨.obj fields', congrArg JsonValue.obj (ofFields_eq_map fields')⟩
    | _ => cases hj
  | _ => exact hu

end Same

/-! ### Sorting -/

mutual

/-- No key comes twice in an object. -/
def distinct : JsonValue → Bool
  | .arr items => distinctItems items
  | .obj fields => decide (fields.map (·.1)).Nodup && distinctFields fields
  | _ => true

def distinctItems : List JsonValue → Bool
  | [] => true
  | v :: vs => distinct v && distinctItems vs

def distinctFields : List (String × JsonValue) → Bool
  | [] => true
  | (_, v) :: fields => distinct v && distinctFields fields

end

section

variable (le : String → String → Bool)

mutual

/-- The members of every object sorted by their keys. -/
def sort : JsonValue → JsonValue
  | .arr items => .arr (sortItems items)
  | .obj fields => .obj ((sortFields fields).insertionSort fun f g => le f.1 g.1)
  | v => v

def sortItems : List JsonValue → List JsonValue
  | [] => []
  | v :: vs => sort v :: sortItems vs

def sortFields : List (String × JsonValue) → List (String × JsonValue)
  | [] => []
  | (k, v) :: fields => (k, sort v) :: sortFields fields

end

theorem sortFields_keys (fields : List (String × JsonValue)) : (sortFields le fields).map (·.1) = fields.map (·.1) := by
  induction fields with
  | nil => rfl
  | cons f fields ih =>
    obtain ⟨k, v⟩ := f
    rw [sortFields, List.map_cons, List.map_cons, ih]

mutual

theorem sort_same (v : JsonValue) (h : distinct v = true) : (sort le v).Same v := by
  cases v with
  | null => exact .null
  | bool b => exact .bool b
  | num q => exact .num q
  | infinite => exact .infinite
  | str s => exact .str s
  | arr items =>
    obtain ⟨hlength, hitems⟩ := List.forall₂_iff_zip.mp (sortItems_same items (by rwa [distinct] at h))
    rw [sort]
    exact .arr hlength fun p hp => hitems hp
  | obj fields =>
    rw [distinct, Bool.and_eq_true, decide_eq_true_eq] at h
    obtain ⟨-, hfields⟩ := List.forall₂_iff_zip.mp (sortFields_same fields h.2)
    have horder := List.perm_insertionSort (fun f g => le f.1 g.1) (sortFields le fields)
    have hkeys := sortFields_keys le fields
    rw [sort]
    exact .obj (sortFields le fields) horder ((horder.map _).nodup_iff.mpr (hkeys ▸ h.1)) hkeys fun p hp => hfields hp

theorem sortItems_same (items : List JsonValue) (h : distinctItems items = true) :
    List.Forall₂ Same (sortItems le items) items := by
  cases items with
  | nil => exact .nil
  | cons v vs =>
    rw [distinctItems, Bool.and_eq_true] at h
    rw [sortItems]
    exact .cons (sort_same v h.1) (sortItems_same vs h.2)

theorem sortFields_same (fields : List (String × JsonValue)) (h : distinctFields fields = true) :
    List.Forall₂ (fun f g : String × JsonValue => f.2.Same g.2) (sortFields le fields) fields := by
  cases fields with
  | nil => exact .nil
  | cons f fields =>
    obtain ⟨k, v⟩ := f
    rw [distinctFields, Bool.and_eq_true] at h
    rw [sortFields]
    exact .cons (sort_same v h.1) (sortFields_same fields h.2)

end

end

end ADT.JsonValue

namespace ADT.Json

open JsonValue (ofJson ofFieldsWith ofItems_eq_map ofFields_eq_map)

/-- The same value, of integers. -/
def Same (i j : Json) : Prop := (ofJson i).Same (ofJson j)

theorem get?_ofJson (j : Json) (k : String) : (ofJson j).get? k = (j.get? k).map ofJson := by
  cases j with
  | obj fields =>
    show ((ofFieldsWith (fun n => .num n) fields).find? (·.1 == k)).map (·.2) =
      ((fields.find? (·.1 == k)).map (·.2)).map ofJson
    rw [ofFields_eq_map, List.find?_map, Option.map_map, Option.map_map]
    rfl
  | _ => rfl

namespace Same

variable {i j : Json}

theorem get? (h : i.Same j) (k : String) : Option.Rel Same (i.get? k) (j.get? k) := by
  have hrel := JsonValue.Same.get? h k
  rw [get?_ofJson, get?_ofJson] at hrel
  generalize i.get? k = x, j.get? k = y at hrel
  cases x with
  | none =>
    cases y with
    | none => exact .none
    | some y => cases hrel
  | some x =>
    cases y with
    | none => cases hrel
    | some y =>
      cases hrel with
      | some hxy => exact .some hxy

theorem strictKeys (h : i.Same j) (keys : List String) : i.strictKeys keys = j.strictKeys keys := by
  have hkeys : ∀ j : Json, (ofJson j).strictKeys keys = j.strictKeys keys := by
    intro j
    cases j with
    | obj fields =>
      show (ofFieldsWith (fun n => .num n) fields).all (fun f => keys.contains f.1) = fields.all fun f => keys.contains f.1
      rw [ofFields_eq_map, List.all_map]
      rfl
    | _ => rfl
  rw [← hkeys, ← hkeys]
  exact JsonValue.Same.strictKeys h keys

/-! ### Readers -/

/-- A reader that does not tell the same values apart. -/
def Blind {α : Type} (read : Json → Option α) : Prop := ∀ i j : Json, i.Same j → read i = read j

theorem blind_asStr : Blind asStr? := by
  have hread : ∀ j : Json, (ofJson j).asStr? = j.asStr? := fun j => by cases j <;> rfl
  intro i j h
  rw [← hread, ← hread]
  exact JsonValue.Same.blind_asStr _ _ h

theorem blind_asBool : Blind asBool? := by
  have hread : ∀ j : Json, (ofJson j).asBool? = j.asBool? := fun j => by cases j <;> rfl
  intro i j h
  rw [← hread, ← hread]
  exact JsonValue.Same.blind_asBool _ _ h

theorem asArr (h : i.Same j) : Option.Rel (List.Forall₂ Same) i.asArr? j.asArr? := by
  cases j with
  | arr js =>
    obtain ⟨vs, hi, hitems⟩ := JsonValue.Same.of_arr h
    cases i with
    | arr is =>
      obtain rfl := JsonValue.arr.inj hi
      rw [ofItems_eq_map, ofItems_eq_map, List.forall₂_map_left_iff, List.forall₂_map_right_iff] at hitems
      exact .some hitems
    | _ => cases hi
  | _ => cases i <;> first | exact .none | cases h

theorem blind_asStrs : Blind asStrs? := by
  intro i j h
  have hrel := h.asArr
  rw [asStrs?, asStrs?]
  generalize i.asArr? = x, j.asArr? = y at hrel
  cases hrel with
  | none => rfl
  | @some is js hitems =>
    rw [Option.bind_some, Option.bind_some]
    induction hitems with
    | nil => rfl
    | cons hij _ ih => rw [List.mapM_cons, List.mapM_cons, blind_asStr _ _ hij, ih]

/-- A member that a reader reads. -/
theorem member {α : Type} {read : Json → Option α} (h : i.Same j) (k : String) (hread : Blind read) :
    (i.get? k).bind read = (j.get? k).bind read := by
  have hrel := h.get? k
  generalize i.get? k = x, j.get? k = y at hrel
  cases hrel with
  | none => rfl
  | some hxy => exact hread _ _ hxy

end Same

end ADT.Json
