import Mathlib.Tactic

/-!
# Lib.IsoDate — points of time in the format of ISO 8601

`toISOString` of a point of time, to the millisecond and of the years that four digits write, and the reading of that
format.
-/

namespace ADT

/-- A point of time; months and days count from zero. -/
structure Instant where
  year : Fin 10000
  month : Fin 12
  day : Fin 31
  hour : Fin 24
  minute : Fin 60
  second : Fin 60
  millisecond : Fin 1000

namespace Instant

/-- The first millisecond of 1970. -/
def unixEpoch : Instant := ⟨1970, 0, 0, 0, 0, 0, 0⟩

/-- The first millisecond of 2026. -/
def newYear : Instant := ⟨2026, 0, 0, 0, 0, 0, 0⟩

/-- The last decimal digit of a number. -/
def digit (n : ℕ) : Char := Char.ofNat (48 + n % 10)

def value (c : Char) : Option ℕ := if 48 ≤ c.toNat ∧ c.toNat ≤ 57 then some (c.toNat - 48) else none

theorem value_digit (n : ℕ) : value (digit n) = some (n % 10) := by
  have hall : ∀ m < 10, value (Char.ofNat (48 + m)) = some m := by decide
  exact hall (n % 10) (Nat.mod_lt n (by omega))

def two (n : ℕ) : List Char := [digit (n / 10), digit n]
def three (n : ℕ) : List Char := digit (n / 100) :: two n
def four (n : ℕ) : List Char := digit (n / 1000) :: three n

/-- The number that some digits write. -/
def number (cs : List Char) : Option ℕ := cs.foldlM (fun n c => (value c).map (10 * n + ·)) 0

theorem number_two {n : ℕ} (h : n < 100) : number (two n) = some n := by
  simp only [number, two, List.foldlM_cons, List.foldlM_nil, value_digit, Option.map_some, Option.bind_eq_bind,
    Option.bind_some, Option.pure_def, Option.some.injEq]
  omega

theorem number_three {n : ℕ} (h : n < 1000) : number (three n) = some n := by
  simp only [number, three, two, List.foldlM_cons, List.foldlM_nil, value_digit, Option.map_some, Option.bind_eq_bind,
    Option.bind_some, Option.pure_def, Option.some.injEq]
  omega

theorem number_four {n : ℕ} (h : n < 10000) : number (four n) = some n := by
  simp only [number, four, three, two, List.foldlM_cons, List.foldlM_nil, value_digit, Option.map_some,
    Option.bind_eq_bind, Option.bind_some, Option.pure_def, Option.some.injEq]
  omega

def toISOString (t : Instant) : String :=
  String.ofList (four t.year ++ '-' :: two (t.month + 1) ++ '-' :: two (t.day + 1) ++ 'T' :: two t.hour ++ ':' ::
    two t.minute ++ ':' :: two t.second ++ '.' :: three t.millisecond ++ ['Z'])

def below (k : ℕ) (n : ℕ) : Option (Fin k) := if h : n < k then some ⟨n, h⟩ else none

/-- The date of `YYYY-MM-DDTHH:mm:ss.sssZ`. -/
def ofChars : List Char → Option Instant
  | [y₁, y₂, y₃, y₄, s₁, m₁, m₂, s₂, d₁, d₂, s₃, h₁, h₂, s₄, n₁, n₂, s₅, c₁, c₂, s₆, l₁, l₂, l₃, s₇] =>
    if [s₁, s₂, s₃, s₄, s₅, s₆, s₇] = ['-', '-', 'T', ':', ':', '.', 'Z'] then do
      let year ← (number [y₁, y₂, y₃, y₄]).bind (below 10000)
      let month ← (number [m₁, m₂]).bind fun m => if m = 0 then none else below 12 (m - 1)
      let day ← (number [d₁, d₂]).bind fun d => if d = 0 then none else below 31 (d - 1)
      let hour ← (number [h₁, h₂]).bind (below 24)
      let minute ← (number [n₁, n₂]).bind (below 60)
      let second ← (number [c₁, c₂]).bind (below 60)
      let millisecond ← (number [l₁, l₂, l₃]).bind (below 1000)
      return ⟨year, month, day, hour, minute, second, millisecond⟩
    else none
  | _ => none

/-- `Date.parse` of the format of `toISOString`. -/
def parse (s : String) : Option Instant := ofChars s.toList

theorem below_val {k : ℕ} (i : Fin k) : below k i = some i := by
  rw [below, dif_pos i.isLt]

theorem parse_toISOString (t : Instant) : parse t.toISOString = some t := by
  have hyear := number_four t.year.isLt
  have hmonth := number_two (n := t.month + 1) (by omega)
  have hday := number_two (n := t.day + 1) (by omega)
  have hhour := number_two (n := t.hour) (by omega)
  have hminute := number_two (n := t.minute) (by omega)
  have hsecond := number_two (n := t.second) (by omega)
  have hmilli := number_three t.millisecond.isLt
  simp only [four, three, two] at hyear hmonth hday hhour hminute hsecond hmilli
  have hchars : t.toISOString.toList = four t.year ++ '-' :: two (t.month + 1) ++ '-' :: two (t.day + 1) ++ 'T' ::
      two t.hour ++ ':' :: two t.minute ++ ':' :: two t.second ++ '.' :: three t.millisecond ++ ['Z'] := by
    rw [toISOString, String.toList_ofList]
  rw [parse, hchars]
  simp only [four, three, two, List.cons_append, List.nil_append, ofChars, if_true, hyear, hmonth, hday, hhour, hminute,
    hsecond, hmilli, Option.bind_some, below_val, Nat.add_eq_zero_iff, one_ne_zero, and_false, if_false,
    Nat.add_sub_cancel]
  rfl

end Instant

end ADT
