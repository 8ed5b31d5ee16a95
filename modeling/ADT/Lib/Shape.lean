import ADT.Lib.Json

/-!
# Lib.Shape — objects with a fixed set of properties

A shape names the properties an object may have and checks each, present or not.  A record is an object literal in which
a property without a value is left out.

* `fits_record`: a record fits a shape if and only if its values pass the checks.
* `fits_parse`: what a shape accepted it accepts again.
-/

namespace ADT.Json

/-- Properties and their checks; a check also says whether the property may be missing. -/
abbrev Shape := List (String × (Option Json → Bool))

def required (check : Json → Bool) (value : Option Json) : Bool := value.any check

def optional (check : Json → Bool) (value : Option Json) : Bool := value.all check

variable (check : Json → Bool) {fields : List (String × Option Json)} {p : String × (Option Json → Bool)}

@[simp] theorem required_some (value : Json) : required check (some value) = check value := rfl

@[simp] theorem optional_some (value : Json) : optional check (some value) = check value := rfl

@[simp] theorem optional_none : optional check none = true := rfl

def string (check : String → Bool) : Json → Bool
  | .str s => check s
  | _ => false

@[simp] theorem string_str (check : String → Bool) (s : String) : string check (.str s) = check s := rfl

def integer (min max : ℤ) : Json → Bool
  | .num n => min ≤ n && n ≤ max
  | _ => false

def boolean : Json → Bool
  | .bool _ => true
  | _ => false

/-- An object with properties of the shape only, each of which passes its check. -/
def fits (shape : Shape) (value : Json) : Bool :=
  value.strictKeys (shape.map (·.1)) && shape.all fun p => p.2 (value.get? p.1)

/-- An object literal; a property without a value is left out. -/
def record (fields : List (String × Option Json)) : Json :=
  .obj (fields.filterMap fun f => f.2.map fun value => (f.1, value))

/-- The properties of a value that fits, in the order of the shape. -/
def parse? (shape : Shape) (value : Json) : Option Json :=
  if value.fits shape then some (record (shape.map fun p => (p.1, value.get? p.1))) else none

/-- An object without one of its properties. -/
def without (name : String) : Json → Json
  | .obj fields => .obj (fields.filter (·.1 ≠ name))
  | value => value

/-! ### Records -/

theorem get?_obj (fields : List (String × Json)) (name : String) :
    (obj fields).get? name = (fields.find? (·.1 == name)).map (·.2) := rfl

theorem get?_record (hnodup : (fields.map (·.1)).Nodup) (name : String) :
    (record fields).get? name = (fields.lookup name).join := by
  induction fields with
  | nil => rfl
  | cons f fields ih =>
    obtain ⟨key, value⟩ := f
    rw [List.map_cons, List.nodup_cons] at hnodup
    obtain ⟨hfresh, hnodup⟩ := hnodup
    have hrest := ih hnodup
    rw [record, get?_obj] at hrest ⊢
    rw [List.lookup_cons]
    by_cases hname : name = key
    · subst hname
      have hmiss : fields.lookup name = none := by
        rw [List.lookup_eq_none_iff]
        intro f hf
        rw [bne_iff_ne]
        rintro rfl
        exact hfresh (List.mem_map.mpr ⟨f, hf, rfl⟩)
      rw [hmiss] at hrest
      cases value with
      | none => simpa using hrest
      | some value => simp
    · have hne : (name == key) = false := beq_eq_false_iff_ne.mpr hname
      have hne' : (key == name) = false := beq_eq_false_iff_ne.mpr (Ne.symm hname)
      rw [hne, ← hrest]
      cases value with
      | none => simp
      | some value => simp [hne']

theorem strictKeys_record {names : List String}
    (hnames : ∀ name ∈ fields.map (·.1), name ∈ names) : (record fields).strictKeys names = true := by
  unfold record strictKeys
  rw [List.all_eq_true]
  intro p hp
  obtain ⟨f, hf, hvalue⟩ := List.mem_filterMap.mp hp
  obtain ⟨value, -, rfl⟩ := Option.map_eq_some_iff.mp hvalue
  exact List.contains_iff_mem.mpr (hnames f.1 (List.mem_map_of_mem hf))

/-- **Records**: a record of properties of a shape fits it if and only if its values pass the checks. -/
theorem fits_record {shape : Shape} (hnodup : (fields.map (·.1)).Nodup)
    (hnames : ∀ name ∈ fields.map (·.1), name ∈ shape.map (·.1)) :
    (record fields).fits shape = shape.all fun p => p.2 (fields.lookup p.1).join := by
  rw [fits, strictKeys_record hnames, Bool.true_and]
  congr 1
  funext p
  rw [get?_record hnodup]

/-! ### Parsing -/

theorem lookup_map_of_mem {shape : Shape} (hp : p ∈ shape)
    (value : String → Option Json) : (shape.map fun p => (p.1, value p.1)).lookup p.1 = some (value p.1) := by
  induction shape with
  | nil => cases hp
  | cons q shape ih =>
    rw [List.map_cons, List.lookup_cons]
    by_cases hname : p.1 = q.1
    · simp [hname]
    · have hne : (p.1 == q.1) = false := beq_eq_false_iff_ne.mpr hname
      rw [hne]
      rcases List.mem_cons.mp hp with rfl | hp
      · exact absurd rfl hname
      · exact ih hp

variable {shape : Shape} {value out : Json}

theorem parse?_eq_some : parse? shape value = some out ↔
    value.fits shape = true ∧ out = record (shape.map fun p => (p.1, value.get? p.1)) := by
  unfold parse?
  by_cases h : value.fits shape = true
  · rw [if_pos h, Option.some.injEq]
    constructor
    · intro hout
      exact ⟨h, hout.symm⟩
    · intro hout
      exact hout.2.symm
  · rw [if_neg h]
    constructor
    · intro hout
      cases hout
    · intro hout
      exact absurd hout.1 h

section

variable (hnodup : (shape.map (·.1)).Nodup) (h : parse? shape value = some out)

include hnodup h

theorem get?_parse (hp : p ∈ shape) : out.get? p.1 = value.get? p.1 := by
  obtain ⟨-, rfl⟩ := parse?_eq_some.mp h
  rw [get?_record (by rw [List.map_map]; exact hnodup), lookup_map_of_mem hp]
  rfl

theorem check_parse (hp : p ∈ shape) : p.2 (out.get? p.1) = true := by
  rw [get?_parse hnodup h hp]
  have hfits := (parse?_eq_some.mp h).1
  rw [fits, Bool.and_eq_true] at hfits
  exact List.all_eq_true.mp hfits.2 p hp

/-- **Idempotence**: what a shape accepted it accepts again. -/
theorem fits_parse : out.fits shape = true := by
  have hall : (shape.all fun p => p.2 (out.get? p.1)) = true :=
    List.all_eq_true.mpr fun p hp => check_parse hnodup h hp
  obtain ⟨-, rfl⟩ := parse?_eq_some.mp h
  rw [fits, strictKeys_record, hall, Bool.and_self]
  intro name hname
  rw [List.map_map] at hname
  exact hname

end

theorem get?_without {name other : String} (hne : name ≠ other) : (value.without other).get? name = value.get? name := by
  cases value with
  | obj fields =>
    rw [without, get?_obj, get?_obj, List.find?_filter]
    congr 2
    funext f
    by_cases hf : f.1 = name
    · simp [hf, hne]
    · simp [hf]
  | _ => rfl

theorem fits_without (h : value.fits shape = true) (name : String) :
    (value.without name).fits (shape.filter (·.1 ≠ name)) = true := by
  rw [fits, Bool.and_eq_true] at h
  obtain ⟨hkeys, hchecks⟩ := h
  rw [fits, Bool.and_eq_true]
  constructor
  · cases value with
    | obj fields =>
      unfold without strictKeys at *
      rw [List.all_eq_true] at hkeys ⊢
      intro f hf
      obtain ⟨hf, hne⟩ := List.mem_filter.mp hf
      obtain ⟨p, hp, hname⟩ := List.mem_map.mp (List.contains_iff_mem.mp (hkeys f hf))
      refine List.contains_iff_mem.mpr (List.mem_map.mpr ⟨p, List.mem_filter.mpr ⟨hp, ?_⟩, hname⟩)
      rw [hname]
      exact hne
    | _ => exact hkeys
  · rw [List.all_eq_true] at hchecks ⊢
    intro p hp
    obtain ⟨hp, hne⟩ := List.mem_filter.mp hp
    rw [get?_without (of_decide_eq_true hne)]
    exact hchecks p hp

end ADT.Json
