import ADT.Lib.JsonText
import Mathlib.Data.Rat.Floor

/-!
# Lib.JsonValue — JSON values with all numbers

`Json` has integers only.  Here a number is a double, as the rational that it stands for, and `JSON.parse` reads fractions
and exponents and rounds to the nearest double.  What `Json.parse` reads of a text is read here as well, with its integers
rounded.
-/

namespace ADT

/-- A JSON value; `infinite` is what a number is read as that is too large for a double. -/
inductive JsonValue where
  | null
  | bool (b : Bool)
  | num (q : ℚ)
  | infinite
  | str (s : String)
  | arr (items : List JsonValue)
  | obj (fields : List (String × JsonValue))

namespace JsonValue

def get? : JsonValue → String → Option JsonValue
  | obj fields, k => (fields.find? (·.1 == k)).map (·.2)
  | _, _ => none

def asStr? : JsonValue → Option String
  | str s => some s
  | _ => none

def asBool? : JsonValue → Option Bool
  | bool b => some b
  | _ => none

def asNum? : JsonValue → Option ℚ
  | num q => some q
  | _ => none

/-- An integer that is not negative. -/
def asNat? (v : JsonValue) : Option ℕ := v.asNum?.bind fun q => if q.den = 1 ∧ 0 ≤ q.num then some q.num.toNat else none

def asArr? : JsonValue → Option (List JsonValue)
  | arr items => some items
  | _ => none

def asObj? : JsonValue → Option (List (String × JsonValue))
  | obj fields => some fields
  | _ => none

/-- An object all of whose properties are among `keys`. -/
def strictKeys (keys : List String) : JsonValue → Bool
  | obj fields => fields.all (fun f => keys.contains f.1)
  | _ => false

/-- A property that `read` reads. -/
def field {α : Type} (v : JsonValue) (k : String) (read : JsonValue → Option α) : Option α := (v.get? k).bind read

/-- A property that is absent, or that `read` reads. -/
def optional {α : Type} (v : JsonValue) (k : String) (read : JsonValue → Option α) : Option (Option α) :=
  match v.get? k with
  | none => some none
  | some x => (read x).map some

/-! ### Numbers -/

/-- The nearest integer; an even one where there are two. -/
def roundEven (q : ℚ) : ℤ :=
  let n := ⌊q⌋
  if q - n < 1 / 2 then n
  else if 1 / 2 < q - n then n + 1
  else if n % 2 = 0 then n
  else n + 1

/-- The double nearest to a number, where it is finite: 53 bits, and no bit below `2 ^ -1074`. -/
def double (q : ℚ) : Option ℚ :=
  let k : ℤ := Nat.log2 q.num.natAbs - Nat.log2 q.den
  let k := if |q| < 2 ^ k then k - 1 else k
  let unit : ℚ := 2 ^ max (k - 52) (-1074)
  let r := unit * roundEven (q / unit)
  if |r| < 2 ^ 1024 then some r else none

def ofRat (q : ℚ) : JsonValue :=
  match double q with
  | some r => num r
  | none => infinite

theorem roundEven_intCast (n : ℤ) : roundEven n = n := by
  unfold roundEven
  dsimp only
  rw [Int.floor_intCast, sub_self, if_pos (by norm_num)]

theorem double_intCast {n : ℤ} (h : n.natAbs < 2 ^ 53) : double n = some (n : ℚ) := by
  have hlog : Nat.log2 n.natAbs ≤ 52 := by
    by_cases hzero : n.natAbs = 0
    · rw [hzero]
      decide
    · have hlt := (Nat.log2_lt hzero).mpr h
      omega
  -- the unit is the inverse of a power of two, so that no bit of the integer is lost
  have hunit : ∀ k : ℤ, k ≤ 52 → (2 : ℚ) ^ max (k - 52) (-1074) * roundEven (n / (2 : ℚ) ^ max (k - 52) (-1074)) = n := by
    intro k hk
    obtain ⟨j, hj⟩ : ∃ j : ℕ, max (k - 52) (-1074) = -(j : ℤ) :=
      ⟨(max (k - 52) (-1074)).natAbs, by omega⟩
    have hscaled : (n : ℚ) / (2 : ℚ) ^ (-(j : ℤ)) = ((n * 2 ^ j : ℤ) : ℚ) := by
      rw [zpow_neg, zpow_natCast, div_inv_eq_mul]
      push_cast
      rfl
    rw [hj, hscaled, roundEven_intCast, zpow_neg, zpow_natCast]
    push_cast
    field_simp
  have hsmall : |(n : ℚ)| < 2 ^ 1024 := by
    have hnat : |(n : ℚ)| = ((n.natAbs : ℕ) : ℚ) := by
      rw [← Int.cast_abs, Int.abs_eq_natAbs, Int.cast_natCast]
    have hpow : (2 : ℚ) ^ 53 ≤ 2 ^ 1024 := pow_le_pow_right₀ one_le_two (by decide)
    have hcast : ((n.natAbs : ℕ) : ℚ) < 2 ^ 53 := by exact_mod_cast h
    rw [hnat]
    exact hcast.trans_le hpow
  unfold double
  dsimp only
  rw [Rat.num_intCast, Rat.den_intCast, hunit]
  · rw [if_pos hsmall]
  · have hone : Nat.log2 1 = 0 := by decide
    rw [hone]
    split_ifs
    · omega
    · omega

theorem ofRat_intCast {n : ℤ} (h : n.natAbs < 2 ^ 53) : ofRat n = num n := by
  show (match double n with | some r => num r | none => infinite) = num n
  rw [double_intCast h]

/-- The fraction of a number, where there is one. -/
def fraction (whole : ℕ) : List Char → Option (ℚ × List Char)
  | '.' :: rest =>
    let digits := rest.takeWhile Char.isDigit
    if digits.isEmpty then none
    else some (whole + Nat.ofDigitChars 10 digits 0 / 10 ^ digits.length, rest.dropWhile Char.isDigit)
  | rest => some (whole, rest)

def signOf : List Char → Bool × List Char
  | '-' :: rest => (true, rest)
  | '+' :: rest => (false, rest)
  | rest => (false, rest)

/-- The exponent of a number, where there is one. -/
def exponent (q : ℚ) : List Char → Option (ℚ × List Char)
  | c :: rest =>
    if c = 'e' ∨ c = 'E' then
      let (negative, rest) := signOf rest
      let digits := rest.takeWhile Char.isDigit
      let n := Nat.ofDigitChars 10 digits 0
      if digits.isEmpty then none
      else some (if negative then q / 10 ^ n else q * 10 ^ n, rest.dropWhile Char.isDigit)
    else some (q, c :: rest)
  | [] => some (q, [])

/-- Digits without a leading zero, and what follows them. -/
def unsigned (cs : List Char) : Option (ℚ × List Char) :=
  let digits := cs.takeWhile Char.isDigit
  if digits.isEmpty || (digits.head? == some '0' && 1 < digits.length) then none
  else (fraction (Nat.ofDigitChars 10 digits 0) (cs.dropWhile Char.isDigit)).bind fun p => exponent p.1 p.2

def parseNumber : List Char → Option (JsonValue × List Char)
  | [] => none
  | c :: rest =>
    if c = '-' then (unsigned rest).map fun p => (ofRat (-p.1), p.2)
    else (unsigned (c :: rest)).map fun p => (ofRat p.1, p.2)

example : (parseNumber "-12.5e-1,".toList).bind (·.1.asNum?) = some (-5 / 4) := by decide +kernel

/-! ### Reading -/

open Json (skip parseString)

def keyword (word : List Char) (v : JsonValue) (cs : List Char) : Option (JsonValue × List Char) :=
  if word.isPrefixOf cs then some (v, cs.drop word.length) else none

/-- Set a property: a later value takes the place of an earlier one. -/
def assign (fields : List (String × JsonValue)) (field : String × JsonValue) : List (String × JsonValue) :=
  if fields.any (·.1 == field.1) then fields.map fun p => if p.1 == field.1 then field else p
  else fields ++ [field]

mutual

/-- A value; the first argument bounds how deep the text is read. -/
def parseValue : ℕ → List Char → Option (JsonValue × List Char)
  | 0, _ => none
  | n + 1, cs =>
    match skip cs with
    | [] => none
    | c :: rest =>
      if c = '"' then (parseString (rest.length + 1) rest).map fun p => (.str (String.ofList p.1), p.2)
      else if c = '[' then
        match skip rest with
        | [] => none
        | c :: rest =>
          if c = ']' then some (.arr [], rest)
          else (parseItems n (c :: rest)).map fun p => (.arr p.1, p.2)
      else if c = '\x7b' then
        match skip rest with
        | [] => none
        | c :: rest =>
          if c = '\x7d' then some (.obj [], rest)
          else (parseFields n (c :: rest)).map fun p => (.obj (p.1.foldl assign []), p.2)
      else if c = 'n' then keyword ['u', 'l', 'l'] .null rest
      else if c = 't' then keyword ['r', 'u', 'e'] (.bool true) rest
      else if c = 'f' then keyword ['a', 'l', 's', 'e'] (.bool false) rest
      else parseNumber (c :: rest)

/-- The items of an array up to its end. -/
def parseItems : ℕ → List Char → Option (List JsonValue × List Char)
  | 0, _ => none
  | n + 1, cs => do
    let (v, rest) ← parseValue n cs
    match skip rest with
    | [] => none
    | c :: rest =>
      if c = ']' then return ([v], rest)
      else if c = ',' then
        let (vs, rest) ← parseItems n rest
        return (v :: vs, rest)
      else none

/-- The properties of an object up to its end. -/
def parseFields : ℕ → List Char → Option (List (String × JsonValue) × List Char)
  | 0, _ => none
  | n + 1, cs =>
    match skip cs with
    | [] => none
    | c :: rest =>
      if c = '"' then do
        let (key, rest) ← parseString (rest.length + 1) rest
        match skip rest with
        | [] => none
        | c :: rest =>
          if c = ':' then
            let (v, rest) ← parseValue n rest
            match skip rest with
            | [] => none
            | c :: rest =>
              if c = '\x7d' then return ([(String.ofList key, v)], rest)
              else if c = ',' then
                let (fields, rest) ← parseFields n rest
                return ((String.ofList key, v) :: fields, rest)
              else none
          else none
      else none

end

def parse (s : String) : Option JsonValue :=
  match parseValue (s.toList.length + 1) s.toList with
  | some (v, rest) => if (skip rest).isEmpty then some v else none
  | none => none

/-! ### Integers -/

mutual

/-- A value of `Json`, with a value for each of its integers. -/
def ofJsonWith (number : ℤ → JsonValue) : Json → JsonValue
  | .null => null
  | .bool b => bool b
  | .num n => number n
  | .str s => str s
  | .arr items => arr (ofItemsWith number items)
  | .obj fields => obj (ofFieldsWith number fields)

def ofItemsWith (number : ℤ → JsonValue) : List Json → List JsonValue
  | [] => []
  | j :: js => ofJsonWith number j :: ofItemsWith number js

def ofFieldsWith (number : ℤ → JsonValue) : List (String × Json) → List (String × JsonValue)
  | [] => []
  | (k, j) :: fields => (k, ofJsonWith number j) :: ofFieldsWith number fields

end

/-- A value of `Json` as it is. -/
def ofJson : Json → JsonValue := ofJsonWith fun n => num n

/-- What is read of the text of a `Json`. -/
def readJson : Json → JsonValue := ofJsonWith fun n => ofRat n

mutual

/-- The value of `Json`, where every number is an integer. -/
def toJson? : JsonValue → Option Json
  | null => some .null
  | bool b => some (.bool b)
  | num q => if q.den = 1 then some (.num q.num) else none
  | infinite => none
  | str s => some (.str s)
  | arr items => (toItems? items).map .arr
  | obj fields => (toFields? fields).map .obj

def toItems? : List JsonValue → Option (List Json)
  | [] => some []
  | v :: vs => do
    let j ← toJson? v
    let js ← toItems? vs
    return j :: js

def toFields? : List (String × JsonValue) → Option (List (String × Json))
  | [] => some []
  | (k, v) :: fields => do
    let j ← toJson? v
    let js ← toFields? fields
    return (k, j) :: js

end

mutual

theorem toJson_ofJson (j : Json) : (ofJson j).toJson? = some j := by
  cases j with
  | null => rfl
  | bool b => rfl
  | num n =>
    rw [ofJson, ofJsonWith, toJson?, if_pos (Rat.den_intCast n), Rat.num_intCast]
  | str s => rfl
  | arr items =>
    rw [ofJson, ofJsonWith, toJson?, toItems_ofJson items]
    rfl
  | obj fields =>
    rw [ofJson, ofJsonWith, toJson?, toFields_ofJson fields]
    rfl

theorem toItems_ofJson (items : List Json) : toItems? (ofItemsWith (fun n => num n) items) = some items := by
  cases items with
  | nil => rfl
  | cons j js =>
    have hj : (ofJsonWith (fun n => num n) j).toJson? = some j := toJson_ofJson j
    rw [ofItemsWith, toItems?, hj, toItems_ofJson js]
    rfl

theorem toFields_ofJson (fields : List (String × Json)) :
    toFields? (ofFieldsWith (fun n => num n) fields) = some fields := by
  cases fields with
  | nil => rfl
  | cons f fields =>
    obtain ⟨k, j⟩ := f
    have hj : (ofJsonWith (fun n => num n) j).toJson? = some j := toJson_ofJson j
    rw [ofFieldsWith, toFields?, hj, toFields_ofJson fields]
    rfl

end

section

variable (number : ℤ → JsonValue)
variable (fields : List (String × Json))

theorem ofFieldsWith_eq_map : ofFieldsWith number fields = fields.map fun f => (f.1, ofJsonWith number f.2) := by
  induction fields with
  | nil => rfl
  | cons f fields ih =>
    obtain ⟨k, j⟩ := f
    rw [ofFieldsWith, ih]
    rfl

theorem ofFieldsWith_assign (f : String × Json) :
    ofFieldsWith number (Json.assign fields f) = assign (ofFieldsWith number fields) (f.1, ofJsonWith number f.2) := by
  rw [ofFieldsWith_eq_map, ofFieldsWith_eq_map, Json.assign, assign, List.any_map]
  have hany : ((fun p : String × JsonValue => p.1 == f.1) ∘ fun g : String × Json => (g.1, ofJsonWith number g.2)) =
      fun g => g.1 == f.1 := rfl
  rw [hany]
  split
  · rw [List.map_map, List.map_map]
    refine List.map_congr_left fun g _ => ?_
    show (if g.1 == f.1 then f else g).map id (ofJsonWith number) = _
    split
    · rename_i hsame
      exact (if_pos hsame).symm
    · rename_i hother
      exact (if_neg hother).symm
  · rw [List.map_append]
    rfl

theorem ofFieldsWith_foldl (acc : List (String × Json)) :
    ofFieldsWith number (fields.foldl Json.assign acc) = (ofFieldsWith number fields).foldl assign (ofFieldsWith number acc) := by
  induction fields generalizing acc with
  | nil => rfl
  | cons f fields ih =>
    obtain ⟨k, j⟩ := f
    rw [List.foldl_cons, ih, ofFieldsWith_assign, ofFieldsWith, List.foldl_cons]

end
/-! ### What `Json.parse` reads -/

theorem unsigned_of_parseDigits {cs rest : List Char} {m : ℕ} (h : Json.parseDigits cs = some (m, rest)) :
    unsigned cs = some ((m : ℚ), rest) := by
  unfold Json.parseDigits at h
  dsimp only at h
  split_ifs at h with hbad
  cases h
  rw [Bool.or_eq_true, not_or, Bool.not_eq_true, Bool.not_eq_true] at hbad
  obtain ⟨hdigits, hstops⟩ := hbad
  unfold unsigned
  dsimp only
  rw [if_neg (by rw [hdigits]; exact Bool.false_ne_true)]
  generalize cs.dropWhile Char.isDigit = rest at hstops ⊢
  cases rest with
  | nil => rfl
  | cons c rest =>
    rw [Json.continues, Bool.or_eq_false_iff, Bool.or_eq_false_iff] at hstops
    obtain ⟨⟨hpoint, hlower⟩, hupper⟩ := hstops
    have hfraction : ∀ m : ℕ, fraction m (c :: rest) = some ((m : ℚ), c :: rest) := by
      intro m
      unfold fraction
      split
      · rename_i heq
        obtain ⟨rfl, -⟩ := List.cons.inj heq
        cases hpoint
      · rfl
    have hexponent : ∀ q : ℚ, exponent q (c :: rest) = some (q, c :: rest) := by
      intro q
      unfold exponent
      refine if_neg ?_
      rintro (rfl | rfl)
      · cases hlower
      · cases hupper
    rw [hfraction, Option.bind_some, hexponent]

theorem parseNumber_of_json {cs rest : List Char} {k : ℤ} (h : Json.parseNumber cs = some (k, rest)) :
    parseNumber cs = some (ofRat k, rest) := by
  cases cs with
  | nil => cases h
  | cons c cs =>
    unfold Json.parseNumber at h
    unfold parseNumber
    dsimp only at h ⊢
    split_ifs at h ⊢
    · obtain ⟨p, hp, ⟨⟩⟩ := Option.map_eq_some_iff.mp h
      rw [unsigned_of_parseDigits hp, Option.map_some, Int.cast_neg, Int.cast_natCast]
    · obtain ⟨p, hp, ⟨⟩⟩ := Option.map_eq_some_iff.mp h
      rw [unsigned_of_parseDigits hp, Option.map_some, Int.cast_natCast]

theorem keyword_of_json {word cs rest : List Char} {j k : Json} {v : JsonValue} (hv : readJson j = v)
    (h : Json.keyword word j cs = some (k, rest)) : keyword word v cs = some (readJson k, rest) := by
  unfold Json.keyword at h
  unfold keyword
  split_ifs at h ⊢
  cases h
  rw [hv]

/-- What `Json` reads up to depth `n` is read here as well. -/
def ReadsValues (n : ℕ) : Prop :=
  ∀ cs j rest, Json.parseValue n cs = some (j, rest) → parseValue n cs = some (readJson j, rest)

def ReadsItems (n : ℕ) : Prop :=
  ∀ cs js rest, Json.parseItems n cs = some (js, rest) → parseItems n cs = some (ofItemsWith (fun n => ofRat n) js, rest)

def ReadsFields (n : ℕ) : Prop :=
  ∀ cs fields rest, Json.parseFields n cs = some (fields, rest) →
    parseFields n cs = some (ofFieldsWith (fun n => ofRat n) fields, rest)

variable {n : ℕ}

theorem readsValues_succ (ihItems : ReadsItems n) (ihFields : ReadsFields n) : ReadsValues (n + 1) := by
  intro cs j rest h
  rw [Json.parseValue] at h
  rw [parseValue]
  cases hcs : skip cs with
  | nil =>
    rw [hcs] at h
    cases h
  | cons c after =>
    rw [hcs] at h
    dsimp only at h ⊢
    by_cases hquote : c = '"'
    · rw [if_pos hquote] at h ⊢
      obtain ⟨p, hp, ⟨⟩⟩ := Option.map_eq_some_iff.mp h
      rw [hp]
      rfl
    rw [if_neg hquote] at h ⊢
    by_cases hopen : c = '['
    · rw [if_pos hopen] at h ⊢
      cases hafter : skip after with
      | nil =>
        rw [hafter] at h
        cases h
      | cons c' after' =>
        rw [hafter] at h
        dsimp only at h ⊢
        split_ifs at h ⊢
        · cases h
          rfl
        · obtain ⟨p, hp, ⟨⟩⟩ := Option.map_eq_some_iff.mp h
          rw [ihItems _ _ _ hp]
          rfl
    rw [if_neg hopen] at h ⊢
    by_cases hbrace : c = '\x7b'
    · rw [if_pos hbrace] at h ⊢
      cases hafter : skip after with
      | nil =>
        rw [hafter] at h
        cases h
      | cons c' after' =>
        rw [hafter] at h
        dsimp only at h ⊢
        split_ifs at h ⊢
        · cases h
          rfl
        · obtain ⟨p, hp, ⟨⟩⟩ := Option.map_eq_some_iff.mp h
          have hassigned := ofFieldsWith_foldl (fun n => ofRat n) p.1 []
          rw [ihFields _ _ _ hp, Option.map_some, readJson, ofJsonWith, hassigned]
          rfl
    rw [if_neg hbrace] at h ⊢
    split_ifs at h ⊢
    · exact keyword_of_json rfl h
    · exact keyword_of_json rfl h
    · exact keyword_of_json rfl h
    · obtain ⟨p, hp, ⟨⟩⟩ := Option.map_eq_some_iff.mp h
      exact parseNumber_of_json hp

theorem readsItems_succ (ihValue : ReadsValues n) (ihItems : ReadsItems n) : ReadsItems (n + 1) := by
  intro cs js rest h
  rw [Json.parseItems] at h
  obtain ⟨⟨j, after⟩, hvalue, h⟩ := Option.bind_eq_some_iff.mp h
  rw [parseItems, ihValue _ _ _ hvalue]
  simp only [bind, Option.bind_some]
  dsimp only at h
  cases hafter : skip after with
  | nil =>
    rw [hafter] at h
    cases h
  | cons c after' =>
    rw [hafter] at h
    dsimp only at h ⊢
    split_ifs at h ⊢
    · cases h
      rfl
    · obtain ⟨⟨js', rest'⟩, hitems, h⟩ := Option.bind_eq_some_iff.mp h
      cases h
      rw [ihItems _ _ _ hitems]
      rfl

theorem readsFields_succ (ihValue : ReadsValues n) (ihFields : ReadsFields n) : ReadsFields (n + 1) := by
  intro cs fields rest h
  rw [Json.parseFields] at h
  rw [parseFields]
  cases hcs : skip cs with
  | nil =>
    rw [hcs] at h
    cases h
  | cons c after =>
    rw [hcs] at h
    dsimp only at h ⊢
    split_ifs at h ⊢ with hquote
    obtain ⟨⟨key, after'⟩, hkey, h⟩ := Option.bind_eq_some_iff.mp h
    rw [hkey]
    simp only [bind, Option.bind_some]
    dsimp only at h
    cases hafter : skip after' with
    | nil =>
      rw [hafter] at h
      cases h
    | cons c' after'' =>
      rw [hafter] at h
      dsimp only at h ⊢
      split_ifs at h ⊢ with hcolon
      obtain ⟨⟨j, rest'⟩, hvalue, h⟩ := Option.bind_eq_some_iff.mp h
      rw [ihValue _ _ _ hvalue]
      simp only [Option.bind_some]
      dsimp only at h
      cases hrest' : skip rest' with
      | nil =>
        rw [hrest'] at h
        cases h
      | cons c'' rest'' =>
        rw [hrest'] at h
        dsimp only at h ⊢
        split_ifs at h ⊢
        · cases h
          rfl
        · obtain ⟨⟨fields', rest'''⟩, hfields, h⟩ := Option.bind_eq_some_iff.mp h
          cases h
          rw [ihFields _ _ _ hfields]
          rfl

theorem parsers_read (n : ℕ) : ReadsValues n ∧ ReadsItems n ∧ ReadsFields n := by
  induction n with
  | zero =>
    refine ⟨fun cs j rest h => ?_, fun cs js rest h => ?_, fun cs fields rest h => ?_⟩
    · cases h
    · cases h
    · cases h
  | succ n ih =>
    obtain ⟨ihValue, ihItems, ihFields⟩ := ih
    exact ⟨readsValues_succ ihItems ihFields, readsItems_succ ihValue ihItems, readsFields_succ ihValue ihFields⟩

theorem parse_of_json {s : String} {j : Json} (h : Json.parse s = some j) : parse s = some (readJson j) := by
  unfold Json.parse at h
  split at h
  · rename_i k rest hvalue
    split_ifs at h with hrest
    cases h
    unfold parse
    rw [(parsers_read _).1 _ _ _ hvalue]
    exact if_pos hrest
  · cases h

end JsonValue

end ADT
