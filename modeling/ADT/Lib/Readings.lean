import ADT.Lib.Shape

/-!
# Lib.Readings — two shapes over the same properties

A shape may be checked in a lax reading and meant in a strict one.  Where the readings of each property differ only on
values that hold something bad at known paths, so do the readings of the whole.

* `fits_iff_avoids`: a value that fits the lax shape fits the strict one if and only if it has nothing bad at the paths.
-/

namespace ADT.Json

/-- The value at the end of a path of properties. -/
def at? (value : Json) : List String → Option Json
  | [] => some value
  | name :: names => (value.get? name).bind (·.at? names)

/-- There is nothing bad at the ends of these paths. -/
def Avoids (bad : Json → Bool) (paths : List (List String)) (value : Json) : Prop :=
  ∀ path ∈ paths, (value.at? path).all (!bad ·) = true

/-- The same, for a property that may be missing and the paths through it. -/
def AvoidsIn (bad : Json → Bool) (paths : List (List String)) (name : String) (value : Option Json) : Prop :=
  ∀ names, name :: names ∈ paths → (value.bind (·.at? names)).all (!bad ·) = true

/-- Two checks of one property, which differ on what is bad. -/
structure Reads (bad : Json → Bool) (paths : List (List String)) (lax strict : String × (Option Json → Bool)) : Prop where
  name : strict.1 = lax.1
  check : ∀ value, lax.2 value = true → (strict.2 value = true ↔ AvoidsIn bad paths lax.1 value)

section

variable {bad : Json → Bool} {paths : List (List String)} {lax strict : Shape} {value : Json}

theorem fits_iff (shape : Shape) (value : Json) :
    value.fits shape = true ↔
      value.strictKeys (shape.map (·.1)) = true ∧ ∀ p ∈ shape, p.2 (value.get? p.1) = true := by
  rw [fits, Bool.and_eq_true, List.all_eq_true]

section

variable (h : List.Forall₂ (Reads bad paths) lax strict)

include h

theorem names_eq : strict.map (·.1) = lax.map (·.1) := by
  induction h with
  | nil => rfl
  | cons hread _ ih => rw [List.map_cons, List.map_cons, hread.name, ih]

theorem checks_iff (hlax : ∀ p ∈ lax, p.2 (value.get? p.1) = true) :
    (∀ p ∈ strict, p.2 (value.get? p.1) = true) ↔ ∀ p ∈ lax, AvoidsIn bad paths p.1 (value.get? p.1) := by
  induction h with
  | nil => simp
  | cons hread _ ih =>
    rw [List.forall_mem_cons, List.forall_mem_cons, hread.name,
      hread.check _ (hlax _ List.mem_cons_self), ih fun p hp => hlax p (List.mem_cons_of_mem _ hp)]

/-- **Two readings**: what fits the lax shape fits the strict one if and only if nothing bad is in it. -/
theorem fits_iff_avoids
    (hpaths : ∀ path ∈ paths, ∃ name ∈ lax.map (·.1), ∃ names, path = name :: names) (hfits : value.fits lax = true) :
    value.fits strict = true ↔ Avoids bad paths value := by
  obtain ⟨hkeys, hlax⟩ := (fits_iff lax value).mp hfits
  rw [fits_iff, names_eq h, checks_iff h hlax]
  constructor
  · intro hstrict path hpath
    obtain ⟨name, hname, names, rfl⟩ := hpaths path hpath
    obtain ⟨p, hp, rfl⟩ := List.mem_map.mp hname
    exact hstrict.2 p hp names hpath
  · intro havoids
    exact ⟨hkeys, fun p _ names hpath => havoids _ hpath⟩

end

/-! ### Properties -/

variable {name : String}

theorem reads_same (check : Option Json → Bool) (hname : ∀ names, name :: names ∉ paths) :
    Reads bad paths (name, check) (name, check) :=
  ⟨rfl, fun _ hcheck => ⟨fun _ names hpath => absurd hpath (hname names), fun _ => hcheck⟩⟩

theorem avoidsIn_last (hname : ∀ names, name :: names ∈ paths ↔ names = []) (value : Option Json) :
    AvoidsIn bad paths name value ↔ value.all (!bad ·) = true := by
  have hlast : value.bind (·.at? []) = value := by cases value <;> rfl
  constructor
  · intro havoids
    rw [← hlast]
    exact havoids [] ((hname []).mpr rfl)
  · intro hvalue names hpath
    obtain rfl := (hname names).mp hpath
    rw [hlast]
    exact hvalue

theorem avoidsIn_nested {inner : List (List String)} (hname : ∀ names, name :: names ∈ paths ↔ names ∈ inner)
    (value : Option Json) : AvoidsIn bad paths name value ↔ ∀ j, value = some j → Avoids bad inner j := by
  constructor
  · rintro havoids j rfl names hnames
    exact havoids names ((hname names).mpr hnames)
  · intro hvalue names hpath
    cases value with
    | none => rfl
    | some j => exact hvalue j rfl names ((hname names).mp hpath)

section

variable {loose tight : Json → Bool}

theorem reads_required (hname : ∀ names, name :: names ∈ paths ↔ names = [])
    (h : ∀ j, loose j = true → (tight j = true ↔ bad j = false)) :
    Reads bad paths (name, required loose) (name, required tight) := by
  refine ⟨rfl, fun value hvalue => ?_⟩
  rw [avoidsIn_last hname]
  cases value with
  | none => cases hvalue
  | some j =>
    show tight j = true ↔ (!bad j) = true
    rw [h j hvalue, Bool.not_eq_true']

theorem reads_optional (hname : ∀ names, name :: names ∈ paths ↔ names = [])
    (h : ∀ j, loose j = true → (tight j = true ↔ bad j = false)) :
    Reads bad paths (name, optional loose) (name, optional tight) := by
  refine ⟨rfl, fun value hvalue => ?_⟩
  rw [avoidsIn_last hname]
  cases value with
  | none => simp
  | some j =>
    show tight j = true ↔ (!bad j) = true
    rw [h j hvalue, Bool.not_eq_true']

theorem reads_nested {inner : List (List String)} (hname : ∀ names, name :: names ∈ paths ↔ names ∈ inner)
    (h : ∀ j, loose j = true → (tight j = true ↔ Avoids bad inner j)) :
    Reads bad paths (name, optional loose) (name, optional tight) := by
  refine ⟨rfl, fun value hvalue => ?_⟩
  rw [avoidsIn_nested hname]
  cases value with
  | none => simp
  | some j =>
    show tight j = true ↔ _
    rw [h j hvalue]
    constructor
    · rintro havoids k hk
      cases hk
      exact havoids
    · intro havoids
      exact havoids j rfl

end

end

end ADT.Json
