import ADT.Lib.Basics
import ADT.Lib.Json

/-!
# Lib.JsonText — reading JSON text

`JSON.parse`, and the round trip with `stringify`.  Numbers are read where they are integers without fraction or
exponent, the only ones a `Json` has; a lone surrogate is read as the replacement character, as an encoder to UTF-8
writes it.
-/

namespace ADT.Json

def isSpace (c : Char) : Bool := c == ' ' || c == '\t' || c == '\n' || c == '\r'

/-- Leave out the white space in front. -/
def skip (cs : List Char) : List Char := cs.dropWhile isSpace

/-- The code unit of `\u` and four hexadecimal digits. -/
def codeUnit : List Char → Option (ℕ × List Char)
  | a :: b :: c :: d :: rest => do
    let a ← hexDigit a
    let b ← hexDigit b
    let c ← hexDigit c
    let d ← hexDigit d
    return (((a * 16 + b) * 16 + c) * 16 + d, rest)
  | _ => none

def isHigh (n : ℕ) : Bool := 0xD800 ≤ n && n < 0xDC00
def isLow (n : ℕ) : Bool := 0xDC00 ≤ n && n < 0xE000

def single (n : ℕ) : Char := if isHigh n || isLow n then Char.ofNat 0xFFFD else Char.ofNat n

/-- The character of a code unit, with the second half of a surrogate pair where one follows. -/
def codePoint (n : ℕ) (rest : List Char) : Char × List Char :=
  let alone := (single n, rest)
  if isHigh n && ['\\', 'u'].isPrefixOf rest then
    match codeUnit (rest.drop 2) with
    | some (low, after) =>
      if isLow low then (Char.ofNat (0x10000 + (n - 0xD800) * 0x400 + (low - 0xDC00)), after) else alone
    | none => alone
  else alone

/-- The character of an escape of one letter. -/
def unescape (c : Char) : Option Char :=
  if c = '"' ∨ c = '\\' ∨ c = '/' then some c
  else if c = 'b' then some (Char.ofNat 8)
  else if c = 't' then some (Char.ofNat 9)
  else if c = 'n' then some (Char.ofNat 10)
  else if c = 'f' then some (Char.ofNat 12)
  else if c = 'r' then some (Char.ofNat 13)
  else none

/-! ### Values -/

def push (c : Char) (r : Option (List Char × List Char)) : Option (List Char × List Char) :=
  r.map fun p => (c :: p.1, p.2)

/-- The text up to the closing quote; it has at most as many characters as there are left. -/
def parseString : ℕ → List Char → Option (List Char × List Char)
  | 0, _ => none
  | _, [] => none
  | n + 1, c :: rest =>
    if c = '"' then some ([], rest)
    else if c = '\\' then
      match rest with
      | [] => none
      | e :: rest =>
        if e = 'u' then do
          let (unit, rest) ← codeUnit rest
          let (c, rest) := codePoint unit rest
          push c (parseString n rest)
        else do
          let c ← unescape e
          push c (parseString n rest)
    else if c.toNat < 32 then none
    else push c (parseString n rest)

/-- A number goes on with a fraction or an exponent. -/
def continues : List Char → Bool
  | c :: _ => c == '.' || c == 'e' || c == 'E'
  | [] => false

/-- Digits without a leading zero. -/
def parseDigits (cs : List Char) : Option (ℕ × List Char) :=
  let digits := cs.takeWhile Char.isDigit
  let rest := cs.dropWhile Char.isDigit
  if digits.isEmpty || (digits.head? == some '0' && 1 < digits.length) || continues rest then none
  else some (Nat.ofDigitChars 10 digits 0, rest)

def parseNumber : List Char → Option (ℤ × List Char)
  | [] => none
  | c :: rest =>
    if c = '-' then (parseDigits rest).map fun p => (-(p.1 : ℤ), p.2)
    else (parseDigits (c :: rest)).map fun p => ((p.1 : ℤ), p.2)

def keyword (word : List Char) (j : Json) (cs : List Char) : Option (Json × List Char) :=
  if word.isPrefixOf cs then some (j, cs.drop word.length) else none

/-- Set a property: a later value takes the place of an earlier one. -/
def assign (fields : List (String × Json)) (field : String × Json) : List (String × Json) :=
  if fields.any (·.1 == field.1) then fields.map fun p => if p.1 == field.1 then field else p
  else fields ++ [field]

mutual

/-- A value; the first argument bounds how deep the text is read. -/
def parseValue : ℕ → List Char → Option (Json × List Char)
  | 0, _ => none
  | n + 1, cs =>
    match skip cs with
    | [] => none
    | c :: rest =>
      if c = '"' then (parseString (rest.length + 1) rest).map fun p => (.str (String.ofList p.1), p.2)
      else if c = '[' then
        match skip rest with
        | [] => none
        | c :: rest =>
          if c = ']' then some (.arr [], rest)
          else (parseItems n (c :: rest)).map fun p => (.arr p.1, p.2)
      else if c = '\x7b' then
        match skip rest with
        | [] => none
        | c :: rest =>
          if c = '\x7d' then some (.obj [], rest)
          else (parseFields n (c :: rest)).map fun p => (.obj (p.1.foldl assign []), p.2)
      else if c = 'n' then keyword ['u', 'l', 'l'] .null rest
      else if c = 't' then keyword ['r', 'u', 'e'] (.bool true) rest
      else if c = 'f' then keyword ['a', 'l', 's', 'e'] (.bool false) rest
      else (parseNumber (c :: rest)).map fun p => (.num p.1, p.2)

/-- The items of an array up to its end. -/
def parseItems : ℕ → List Char → Option (List Json × List Char)
  | 0, _ => none
  | n + 1, cs => do
    let (j, rest) ← parseValue n cs
    match skip rest with
    | [] => none
    | c :: rest =>
      if c = ']' then return ([j], rest)
      else if c = ',' then
        let (js, rest) ← parseItems n rest
        return (j :: js, rest)
      else none

/-- The properties of an object up to its end. -/
def parseFields : ℕ → List Char → Option (List (String × Json) × List Char)
  | 0, _ => none
  | n + 1, cs =>
    match skip cs with
    | [] => none
    | c :: rest =>
      if c = '"' then do
        let (key, rest) ← parseString (rest.length + 1) rest
        match skip rest with
        | [] => none
        | c :: rest =>
          if c = ':' then
            let (j, rest) ← parseValue n rest
            match skip rest with
            | [] => none
            | c :: rest =>
              if c = '\x7d' then return ([(String.ofList key, j)], rest)
              else if c = ',' then
                let (fields, rest) ← parseFields n rest
                return ((String.ofList key, j) :: fields, rest)
              else none
          else none
      else none

end

def parse (s : String) : Option Json :=
  match parseValue (s.toList.length + 1) s.toList with
  | some (j, rest) => if (skip rest).isEmpty then some j else none
  | none => none

/-! ### Strings read back -/

theorem hexDigit_digit : ∀ d < 16, hexDigit (if d < 10 then Char.ofNat (48 + d) else Char.ofNat (87 + d)) = some d := by
  decide

/-- The parser reads an escaped character back. -/
theorem parseString_escape (c : Char) (n : ℕ) (rest : List Char) :
    parseString (n + 1) (escapeChar c ++ rest) = push c (parseString n rest) := by
  unfold escapeChar
  dsimp only
  by_cases hquote : c = '"'
  · subst hquote
    rfl
  by_cases hslash : c = '\\'
  · subst hslash
    rfl
  rw [if_neg (by simpa using hquote), if_neg (by simpa using hslash)]
  have hletter : ∀ (k : ℕ) (e : Char), e ≠ 'u' → unescape e = some (Char.ofNat k) → c.toNat = k →
      parseString (n + 1) (['\\', e] ++ rest) = push c (parseString n rest) := by
    intro k e hu he hk
    have hc : Char.ofNat k = c := by rw [← hk, Char.ofNat_toNat]
    show (if '\\' = '"' then _ else if '\\' = '\\' then _ else _) = _
    rw [if_neg (by decide), if_pos rfl]
    show (if e = 'u' then _ else _) = _
    rw [if_neg hu, he, hc]
    rfl
  by_cases h8 : c.toNat = 8
  · rw [if_pos (by simp [h8])]
    exact hletter 8 'b' (by decide) rfl h8
  by_cases h9 : c.toNat = 9
  · rw [if_neg (by simp [h8]), if_pos (by simp [h9])]
    exact hletter 9 't' (by decide) rfl h9
  by_cases h10 : c.toNat = 10
  · rw [if_neg (by simp [h8]), if_neg (by simp [h9]), if_pos (by simp [h10])]
    exact hletter 10 'n' (by decide) rfl h10
  by_cases h12 : c.toNat = 12
  · rw [if_neg (by simp [h8]), if_neg (by simp [h9]), if_neg (by simp [h10]), if_pos (by simp [h12])]
    exact hletter 12 'f' (by decide) rfl h12
  by_cases h13 : c.toNat = 13
  · rw [if_neg (by simp [h8]), if_neg (by simp [h9]), if_neg (by simp [h10]), if_neg (by simp [h12]),
      if_pos (by simp [h13])]
    exact hletter 13 'r' (by decide) rfl h13
  rw [if_neg (by simp [h8]), if_neg (by simp [h9]), if_neg (by simp [h10]), if_neg (by simp [h12]),
    if_neg (by simp [h13])]
  by_cases h32 : c.toNat < 32
  · rw [if_pos h32]
    have hhigh := hexDigit_digit (c.toNat / 16) (by omega)
    have hlow := hexDigit_digit (c.toNat % 16) (by omega)
    set high := if c.toNat / 16 < 10 then Char.ofNat (48 + c.toNat / 16) else Char.ofNat (87 + c.toNat / 16)
    set low := if c.toNat % 16 < 10 then Char.ofNat (48 + c.toNat % 16) else Char.ofNat (87 + c.toNat % 16)
    have hunit : codeUnit ('0' :: '0' :: high :: low :: rest) = some (c.toNat, rest) := by
      have hzero : hexDigit '0' = some 0 := by decide
      have hsum : ((0 * 16 + 0) * 16 + c.toNat / 16) * 16 + c.toNat % 16 = c.toNat := by omega
      simp only [codeUnit, hzero, hhigh, hlow, Option.bind_eq_bind, Option.bind_some, Option.pure_def, hsum]
    have hpoint : codePoint c.toNat rest = (c, rest) := by
      have hhigh : isHigh c.toNat = false := by simp only [isHigh, Bool.and_eq_false_iff, decide_eq_false_iff_not]; omega
      have hlow : isLow c.toNat = false := by simp only [isLow, Bool.and_eq_false_iff, decide_eq_false_iff_not]; omega
      simp only [codePoint, single, hhigh, hlow, Bool.false_and, Bool.or_self, Bool.false_eq_true, if_false,
        Char.ofNat_toNat]
    show (if '\\' = '"' then _ else if '\\' = '\\' then _ else _) = _
    rw [if_neg (by decide), if_pos rfl]
    show (if 'u' = 'u' then _ else _) = _
    rw [if_pos rfl]
    show ((codeUnit ('0' :: '0' :: high :: low :: rest)).bind _) = _
    rw [hunit, Option.bind_some]
    show push (codePoint c.toNat rest).1 (parseString n (codePoint c.toNat rest).2) = _
    rw [hpoint]
  · rw [if_neg h32]
    show (if c = '"' then _ else if c = '\\' then _ else if c.toNat < 32 then _ else _) = _
    rw [if_neg hquote, if_neg hslash, if_neg h32]
    rfl

variable (cs : List Char) (m : ℕ) (k : ℤ) (js : List Json) (fields : List (String × Json)) (j : Json)
  (f : String × Json)

theorem parseString_text {n : ℕ} (hn : cs.length < n) (rest : List Char) :
    parseString n (cs.flatMap escapeChar ++ '"' :: rest) = some (cs, rest) := by
  induction cs generalizing n with
  | nil =>
    obtain ⟨n, rfl⟩ := Nat.exists_eq_succ_of_ne_zero (show n ≠ 0 by omega)
    rfl
  | cons c cs ih =>
    rw [List.length_cons] at hn
    obtain ⟨n, rfl⟩ := Nat.exists_eq_succ_of_ne_zero (show n ≠ 0 by omega)
    rw [List.flatMap_cons, List.append_assoc, parseString_escape, ih (by omega)]
    rfl

theorem escapeChar_length_pos (c : Char) : 0 < (escapeChar c).length := by
  unfold escapeChar
  repeat' split
  all_goals simp

theorem length_le_escaped : cs.length ≤ (cs.flatMap escapeChar).length := by
  induction cs with
  | nil => exact Nat.le_refl _
  | cons c cs ih =>
    have := escapeChar_length_pos c
    rw [List.flatMap_cons, List.length_append, List.length_cons]
    omega

theorem parseString_quoted (rest : List Char) :
    parseString ((cs.flatMap escapeChar ++ '"' :: rest).length + 1) (cs.flatMap escapeChar ++ '"' :: rest) =
      some (cs, rest) := by
  refine parseString_text cs ?_ rest
  have := length_le_escaped cs
  rw [List.length_append]
  omega

/-! ### Numbers read back -/

/-- The text does not go on with a number. -/
def Stops (rest : List Char) : Prop :=
  ∀ c ∈ rest.head?, c.isDigit = false ∧ continues rest = false

theorem head_toDigits (hm : 0 < m) : (Nat.toDigits 10 m).head? ≠ some '0' := by
  induction m using Nat.strong_induction_on with
  | _ m ih =>
    by_cases hlt : m < 10
    · rw [Nat.toDigits_of_lt_base hlt]
      interval_cases m <;> decide
    · rw [Nat.toDigits_of_base_le (by decide) (by omega), List.head?_append_of_ne_nil _ Nat.toDigits_ne_nil]
      exact ih (m / 10) (by omega) (by omega)

theorem parseDigits_repr {rest : List Char} (h : Stops rest) :
    parseDigits (Nat.toDigits 10 m ++ rest) = some (m, rest) := by
  have hdigits : ∀ c ∈ Nat.toDigits 10 m, c.isDigit = true := fun c hc =>
    Nat.isDigit_of_mem_toDigits (by decide) (by decide) hc
  have hrest : rest.takeWhile Char.isDigit = [] ∧ rest.dropWhile Char.isDigit = rest ∧ continues rest = false := by
    rcases rest with _ | ⟨c, rest⟩
    · exact ⟨rfl, rfl, rfl⟩
    · obtain ⟨hc, hcontinues⟩ := h c rfl
      exact ⟨by simp [hc], by simp [hc], hcontinues⟩
  have htake : (Nat.toDigits 10 m ++ rest).takeWhile Char.isDigit = Nat.toDigits 10 m := by
    rw [List.takeWhile_append_of_pos hdigits, hrest.1, List.append_nil]
  have hdrop : (Nat.toDigits 10 m ++ rest).dropWhile Char.isDigit = rest := by
    rw [List.dropWhile_append_of_pos hdigits, hrest.2.1]
  have hzero : ((Nat.toDigits 10 m).head? == some '0' && decide (1 < (Nat.toDigits 10 m).length)) = false := by
    rcases Nat.eq_zero_or_pos m with rfl | hm
    · decide
    · have := head_toDigits m hm
      simp [this]
  have hne : (Nat.toDigits 10 m).isEmpty = false := by simp [Nat.toDigits_ne_nil]
  unfold parseDigits
  rw [htake, hdrop]
  dsimp only
  rw [hne, hzero, hrest.2.2, if_neg (by decide), Nat.ofDigitChars_ten_toDigits]

theorem toDigits_cons : ∃ c cs, Nat.toDigits 10 m = c :: cs ∧ c.isDigit = true := by
  obtain ⟨c, cs, h⟩ := List.exists_cons_of_ne_nil (Nat.toDigits_ne_nil (b := 10) (n := m))
  exact ⟨c, cs, h, Nat.isDigit_of_mem_toDigits (b := 10) (n := m) (by decide) (by decide)
    (by rw [h]; exact List.mem_cons_self)⟩

theorem parseNumber_ofNat {rest : List Char} (h : Stops rest) :
    parseNumber (Nat.toDigits 10 m ++ rest) = some ((m : ℤ), rest) := by
  obtain ⟨c, cs, hcs, hc⟩ := toDigits_cons m
  have hminus : c ≠ '-' := by rintro rfl; exact absurd hc (by decide)
  have hdigits := parseDigits_repr m h
  rw [hcs, List.cons_append] at hdigits ⊢
  show (if c = '-' then _ else _) = _
  rw [if_neg hminus, hdigits]
  rfl

theorem parseNumber_toString {rest : List Char} (h : Stops rest) :
    parseNumber ((toString k).toList ++ rest) = some (k, rest) := by
  rcases k with k | k
  · have htext : (toString (Int.ofNat k)).toList = Nat.toDigits 10 k := Nat.toList_repr
    rw [htext]
    exact parseNumber_ofNat k h
  · have htext : (toString (Int.negSucc k)).toList = '-' :: Nat.toDigits 10 (k + 1) := by
      show ("-" ++ Nat.repr (k + 1)).toList = _
      rw [String.toList_append, Nat.toList_repr]
      rfl
    rw [htext, List.cons_append]
    show (parseDigits (Nat.toDigits 10 (k + 1) ++ rest)).map _ = _
    rw [parseDigits_repr (k + 1) h]
    rfl

/-! ### Values read back -/

def text (j : Json) : List Char := j.stringify.toList

def fieldText (field : String × Json) : List Char := (stringifyStr field.1).toList ++ ':' :: field.2.text

def itemsText (js : List Json) : List Char := [','].intercalate (js.map text)

def fieldsText (fields : List (String × Json)) : List Char := [','].intercalate (fields.map fieldText)

theorem stringifyItems_eq_map : stringifyItems js = js.map stringify := by
  induction js with
  | nil => rw [stringifyItems]; rfl
  | cons j js ih => rw [stringifyItems, ih, List.map_cons]

theorem stringifyFields_eq_map :
    stringifyFields fields = fields.map fun f => stringifyStr f.1 ++ ":" ++ f.2.stringify := by
  induction fields with
  | nil => rw [stringifyFields]; rfl
  | cons f fields ih => rw [stringifyFields, ih, List.map_cons]

theorem text_str (s : String) : text (.str s) = '"' :: (s.toList.flatMap escapeChar ++ ['"']) := by
  rw [text, stringify, stringifyStr, String.toList_ofList]
  rfl

theorem text_arr : text (.arr js) = '[' :: (itemsText js ++ [']']) := by
  rw [text, stringify, String.toList_append, String.toList_append, String.toList_intercalate, stringifyItems_eq_map,
    List.map_map]
  rfl

theorem text_obj : text (.obj fields) = '\x7b' :: (fieldsText fields ++ ['\x7d']) := by
  have hfield : (String.toList ∘ fun f : String × Json => stringifyStr f.1 ++ ":" ++ f.2.stringify) = fieldText := by
    funext f
    show (stringifyStr f.1 ++ ":" ++ f.2.stringify).toList = _
    rw [String.toList_append, String.toList_append, List.append_assoc]
    rfl
  rw [text, stringify, String.toList_append, String.toList_append, String.toList_intercalate, stringifyFields_eq_map,
    List.map_map, hfield]
  rfl

theorem itemsText_cons (k : Json) (js : List Json) : itemsText (j :: k :: js) = j.text ++ ',' :: itemsText (k :: js) := by
  show [','].intercalate (text j :: text k :: js.map text) = _
  rw [List.intercalate_cons_cons, List.append_assoc]
  rfl

theorem fieldsText_cons (g : String × Json) (fields : List (String × Json)) :
    fieldsText (f :: g :: fields) = fieldText f ++ ',' :: fieldsText (g :: fields) := by
  show [','].intercalate (fieldText f :: fieldText g :: fields.map fieldText) = _
  rw [List.intercalate_cons_cons, List.append_assoc]
  rfl

theorem itemsText_single : itemsText [j] = j.text := by
  simp [itemsText, List.intercalate]

theorem fieldsText_single : fieldsText [f] = fieldText f := by
  simp [fieldsText, List.intercalate]

theorem itemsText_head (js : List Json) : ∃ tail, itemsText (j :: js) = j.text ++ tail := by
  cases js with
  | nil => exact ⟨[], by rw [itemsText_single, List.append_nil]⟩
  | cons k js => exact ⟨_, itemsText_cons j k js⟩

theorem fieldsText_head (fields : List (String × Json)) : ∃ tail, fieldsText (f :: fields) = fieldText f ++ tail := by
  cases fields with
  | nil => exact ⟨[], by rw [fieldsText_single, List.append_nil]⟩
  | cons g fields => exact ⟨_, fieldsText_cons f g fields⟩

theorem toString_head : ∃ c cs, (toString k).toList = c :: cs ∧ (c = '-' ∨ c.isDigit = true) := by
  rcases k with k | k
  · obtain ⟨c, cs, h, hc⟩ := toDigits_cons k
    exact ⟨c, cs, by rw [← h]; exact Nat.toList_repr, Or.inr hc⟩
  · refine ⟨'-', (Nat.repr (k + 1)).toList, ?_, Or.inl rfl⟩
    show ("-" ++ Nat.repr (k + 1)).toList = _
    rw [String.toList_append]
    rfl

theorem fieldText_head : ∃ cs, fieldText f = '"' :: cs := by
  rw [fieldText, stringifyStr, String.toList_ofList]
  exact ⟨_, rfl⟩

theorem text_head : ∃ c cs, j.text = c :: cs ∧ isSpace c = false ∧ c ≠ ']' ∧ c ≠ '\x7d' := by
  cases j with
  | null => exact ⟨'n', _, by rw [text, stringify]; rfl, by decide⟩
  | bool b => cases b <;> exact ⟨_, _, by rw [text, stringify]; rfl, by decide⟩
  | str s => exact ⟨'"', _, text_str s, by decide⟩
  | arr js => exact ⟨'[', _, text_arr js, by decide⟩
  | obj fields => exact ⟨'\x7b', _, text_obj fields, by decide⟩
  | num k =>
    obtain ⟨c, cs, h, hc⟩ := toString_head k
    refine ⟨c, cs, by rw [text, stringify]; exact h, ?_⟩
    rcases hc with rfl | hc
    · decide
    · refine ⟨?_, ?_, ?_⟩
      · by_contra hspace
        simp only [isSpace, Bool.or_eq_true, beq_iff_eq, Bool.not_eq_false] at hspace
        rcases hspace with ((rfl | rfl) | rfl) | rfl <;> exact absurd hc (by decide)
      · rintro rfl
        exact absurd hc (by decide)
      · rintro rfl
        exact absurd hc (by decide)

theorem skip_cons {c : Char} (h : isSpace c = false) (cs : List Char) : skip (c :: cs) = c :: cs := by
  simp [skip, h]

theorem skip_text (rest : List Char) : skip (j.text ++ rest) = j.text ++ rest := by
  obtain ⟨c, cs, h, hspace, -⟩ := text_head j
  rw [h, List.cons_append, skip_cons hspace]

mutual

/-- No object of the value names a property twice. -/
def distinct : Json → Bool
  | arr items => distinctItems items
  | obj fields => decide (fields.map (·.1)).Nodup && distinctFields fields
  | _ => true

def distinctItems : List Json → Bool
  | [] => true
  | j :: js => j.distinct && distinctItems js

def distinctFields : List (String × Json) → Bool
  | [] => true
  | (_, j) :: fields => j.distinct && distinctFields fields

end

theorem foldl_assign {fields acc : List (String × Json)} (h : ((acc ++ fields).map (·.1)).Nodup) :
    fields.foldl assign acc = acc ++ fields := by
  induction fields generalizing acc with
  | nil => simp
  | cons f fields ih =>
    have hnew : acc.any (·.1 == f.1) = false := by
      rw [List.map_append, List.map_cons, List.nodup_append] at h
      rw [List.any_eq_false]
      intro g hg heq
      exact h.2.2 g.1 (List.mem_map_of_mem hg) f.1 List.mem_cons_self (by simpa using heq)
    rw [List.foldl_cons, assign, hnew, if_neg Bool.false_ne_true, ih (by rwa [List.append_assoc]), List.append_assoc]
    rfl

theorem stops_cons {c : Char} (hdigit : c.isDigit = false) (hmore : continues [c] = false) (rest : List Char) :
    Stops (c :: rest) := by
  intro d hd
  obtain rfl : c = d := by simpa using hd
  exact ⟨hdigit, hmore⟩

theorem parseValue_num (n : ℕ) {rest : List Char} (h : Stops rest) :
    parseValue (n + 1) ((num k).text ++ rest) = some (num k, rest) := by
  have hskip := skip_text (num k) rest
  have hnumber := parseNumber_toString k h
  obtain ⟨c, cs, htext, hc⟩ := toString_head k
  have hword : c ≠ '"' ∧ c ≠ '[' ∧ c ≠ '\x7b' ∧ c ≠ 'n' ∧ c ≠ 't' ∧ c ≠ 'f' := by
    rcases hc with rfl | hc
    · decide
    · refine ⟨?_, ?_, ?_, ?_, ?_, ?_⟩ <;> (rintro rfl; exact absurd hc (by decide))
  rw [text, stringify, htext, List.cons_append] at hskip ⊢
  rw [htext, List.cons_append] at hnumber
  rw [parseValue, hskip]
  dsimp only
  rw [if_neg hword.1, if_neg hword.2.1, if_neg hword.2.2.1, if_neg hword.2.2.2.1, if_neg hword.2.2.2.2.1,
    if_neg hword.2.2.2.2.2, hnumber]
  rfl

theorem parseValue_str (s : String) (n : ℕ) (rest : List Char) :
    parseValue (n + 1) ((str s).text ++ rest) = some (str s, rest) := by
  have hskip := skip_text (str s) rest
  rw [text_str, List.cons_append, List.append_assoc] at hskip ⊢
  rw [parseValue, hskip]
  dsimp only
  rw [if_pos rfl, List.singleton_append, parseString_quoted]
  simp

theorem parseFields_key (key : String) (n : ℕ) (cs : List Char) :
    parseFields (n + 1) ((stringifyStr key).toList ++ ':' :: cs) = (parseValue n cs).bind fun p =>
      match skip p.2 with
      | [] => none
      | c :: rest =>
        if c = '\x7d' then some ([(key, p.1)], rest)
        else if c = ',' then (parseFields n rest).map fun q => ((key, p.1) :: q.1, q.2)
        else none := by
  rw [stringifyStr, String.toList_ofList, List.cons_append, List.cons_append, List.append_assoc, parseFields,
    skip_cons (by decide)]
  dsimp only
  rw [if_pos rfl, List.singleton_append, parseString_quoted, Option.bind_eq_bind, Option.bind_some]
  dsimp only
  rw [skip_cons (by decide)]
  dsimp only
  rw [if_pos rfl, String.ofList_toList]
  cases parseValue n cs with
  | none => rfl
  | some p =>
    rw [Option.bind_some, Option.bind_eq_bind, Option.bind_some]
    cases skip p.2 with
    | nil => rfl
    | cons c rest =>
      dsimp only
      cases parseFields n rest <;> rfl

mutual

/-- **Round trip.** A value is read back from its text. -/
theorem parseValue_text (j : Json) (hj : j.distinct = true) {n : ℕ} (hn : j.text.length < n) {rest : List Char}
    (h : Stops rest) : parseValue n (j.text ++ rest) = some (j, rest) := by
  obtain ⟨n, rfl⟩ := Nat.exists_eq_succ_of_ne_zero (show n ≠ 0 by omega)
  have hskip := skip_text j rest
  cases j with
  | null =>
    rw [show (null).text = ['n', 'u', 'l', 'l'] by rw [text, stringify]; rfl] at hskip ⊢
    rw [parseValue, hskip]
    rfl
  | bool b =>
    cases b with
    | true =>
      rw [show (bool true).text = ['t', 'r', 'u', 'e'] by rw [text, stringify]; rfl] at hskip ⊢
      rw [parseValue, hskip]
      rfl
    | false =>
      rw [show (bool false).text = ['f', 'a', 'l', 's', 'e'] by rw [text, stringify]; rfl] at hskip ⊢
      rw [parseValue, hskip]
      rfl
  | num k => exact parseValue_num k n h
  | str s => exact parseValue_str s n rest
  | arr items =>
    rw [text_arr] at hn hskip ⊢
    rw [parseValue, hskip]
    cases items with
    | nil => rfl
    | cons i items =>
      simp only [List.length_cons, List.length_append, List.length_nil] at hn
      have hitems := parseItems_text i items (by rwa [distinct] at hj) (show _ + 2 ≤ n by omega) rest
      obtain ⟨c, cs, hc, hspace, hend, -⟩ := text_head i
      obtain ⟨tail, htail⟩ := itemsText_head i items
      rw [htail, hc, List.cons_append, List.cons_append] at hitems
      rw [htail, hc, List.cons_append, List.append_assoc, List.cons_append, List.cons_append, List.append_assoc]
      rw [List.append_assoc] at hitems
      dsimp only
      rw [if_neg (by decide), if_pos rfl, skip_cons hspace]
      dsimp only
      rw [if_neg hend, List.singleton_append, hitems]
      rfl
  | obj fields =>
    rw [text_obj] at hn hskip ⊢
    rw [parseValue, hskip]
    cases fields with
    | nil => rfl
    | cons f fields =>
      cases f with | mk key j =>
      simp only [List.length_cons, List.length_append, List.length_nil] at hn
      rw [distinct, Bool.and_eq_true, decide_eq_true_eq] at hj
      have hfields := parseFields_text key j fields hj.2 (show _ + 2 ≤ n by omega) rest
      obtain ⟨cs, hc⟩ := fieldText_head (key, j)
      obtain ⟨tail, htail⟩ := fieldsText_head (key, j) fields
      rw [htail, hc, List.cons_append, List.cons_append, List.append_assoc] at hfields
      rw [htail, hc, List.cons_append, List.append_assoc, List.cons_append, List.cons_append, List.append_assoc]
      dsimp only
      rw [if_neg (by decide), if_neg (by decide), if_pos rfl, skip_cons (by decide)]
      dsimp only
      rw [if_neg (by decide), List.singleton_append, hfields]
      show some (obj (((key, j) :: fields).foldl assign []), rest) = _
      rw [foldl_assign (by simpa using hj.1)]
      rfl
  termination_by sizeOf j

theorem parseItems_text (j : Json) (js : List Json) (hj : distinctItems (j :: js) = true) {n : ℕ}
    (hn : (itemsText (j :: js)).length + 2 ≤ n) (rest : List Char) :
    parseItems n (itemsText (j :: js) ++ ']' :: rest) = some (j :: js, rest) := by
  obtain ⟨n, rfl⟩ := Nat.exists_eq_succ_of_ne_zero (show n ≠ 0 by omega)
  rw [distinctItems, Bool.and_eq_true] at hj
  cases js with
  | nil =>
    rw [itemsText_single] at hn ⊢
    rw [parseItems, parseValue_text j hj.1 (by omega) (stops_cons (by decide) rfl rest)]
    rfl
  | cons k js =>
    rw [itemsText_cons] at hn ⊢
    rw [List.length_append, List.length_cons] at hn
    rw [List.append_assoc, List.cons_append, parseItems,
      parseValue_text j hj.1 (by omega) (stops_cons (by decide) rfl _), Option.bind_eq_bind, Option.bind_some]
    dsimp only
    rw [skip_cons (by decide)]
    dsimp only
    rw [if_neg (by decide), if_pos rfl, parseItems_text k js hj.2 (by omega) rest]
    rfl
  termination_by sizeOf (j :: js)

theorem parseFields_text (key : String) (j : Json) (fields : List (String × Json))
    (hf : distinctFields ((key, j) :: fields) = true) {n : ℕ}
    (hn : (fieldsText ((key, j) :: fields)).length + 2 ≤ n) (rest : List Char) :
    parseFields n (fieldsText ((key, j) :: fields) ++ '\x7d' :: rest) = some ((key, j) :: fields, rest) := by
  obtain ⟨n, rfl⟩ := Nat.exists_eq_succ_of_ne_zero (show n ≠ 0 by omega)
  rw [distinctFields, Bool.and_eq_true] at hf
  cases fields with
  | nil =>
    rw [fieldsText_single, fieldText] at hn ⊢
    rw [List.length_append, List.length_cons] at hn
    dsimp only at hn ⊢
    rw [List.append_assoc, List.cons_append, parseFields_key,
      parseValue_text j hf.1 (by omega) (stops_cons (by decide) rfl rest), Option.bind_some]
    rfl
  | cons g fields =>
    cases g with | mk next k =>
    rw [fieldsText_cons, fieldText] at hn ⊢
    rw [List.length_append, List.length_append, List.length_cons, List.length_cons] at hn
    dsimp only at hn ⊢
    have hfields := parseFields_text next k fields hf.2 (show _ + 2 ≤ n by omega) rest
    rw [List.append_assoc, List.append_assoc, List.cons_append, List.cons_append, parseFields_key,
      parseValue_text j hf.1 (by omega) (stops_cons (by decide) rfl _), Option.bind_some]
    dsimp only
    rw [skip_cons (by decide)]
    dsimp only
    rw [if_neg (by decide), if_pos rfl, hfields]
    rfl
  termination_by sizeOf ((key, j) :: fields)
  decreasing_by
    all_goals
      subst_vars
      simp only [List.cons.sizeOf_spec, Prod.mk.sizeOf_spec]
      omega

end

theorem parse_stringify (hj : j.distinct = true) : parse j.stringify = some j := by
  have hvalue := parseValue_text j hj (Nat.lt_succ_self _) (show Stops [] by simp [Stops])
  rw [List.append_nil] at hvalue
  have htext : j.stringify.toList = j.text := rfl
  rw [parse, htext, hvalue]
  rfl

/-! ### Parts of a value -/

theorem distinctItems_iff : distinctItems js = true ↔ ∀ j ∈ js, j.distinct = true := by
  induction js with
  | nil => simp [distinctItems]
  | cons j js ih => rw [distinctItems, Bool.and_eq_true, ih, List.forall_mem_cons]

theorem distinctFields_iff : distinctFields fields = true ↔ ∀ f ∈ fields, f.2.distinct = true := by
  induction fields with
  | nil => simp [distinctFields]
  | cons f fields ih => rw [distinctFields, Bool.and_eq_true, ih, List.forall_mem_cons]

theorem distinct_arr : (arr js).distinct = true ↔ ∀ j ∈ js, j.distinct = true := by
  rw [distinct, distinctItems_iff]

theorem distinct_obj : (obj fields).distinct = true ↔ (fields.map (·.1)).Nodup ∧ ∀ f ∈ fields, f.2.distinct = true := by
  rw [distinct, Bool.and_eq_true, decide_eq_true_eq, distinctFields_iff]

theorem distinct_get? {j v : Json} {name : String} (hj : j.distinct = true) (h : j.get? name = some v) :
    v.distinct = true := by
  cases j with
  | obj fields =>
    obtain ⟨f, hf, rfl⟩ := Option.map_eq_some_iff.mp h
    exact ((distinct_obj fields).mp hj).2 f (List.mem_of_find?_eq_some hf)
  | _ => exact absurd h (by simp [get?])

theorem distinct_assign {fields : List (String × Json)} {f : String × Json} (h : (obj fields).distinct = true)
    (hf : f.2.distinct = true) : (obj (assign fields f)).distinct = true := by
  rw [distinct_obj] at h ⊢
  unfold assign
  by_cases hthere : fields.any (·.1 == f.1)
  · have hkeys : (fields.map fun p => if p.1 == f.1 then f else p).map (·.1) = fields.map (·.1) := by
      rw [List.map_map]
      refine List.map_congr_left fun p _ => ?_
      by_cases hp : p.1 = f.1
      · simp [hp]
      · simp [hp]
    rw [if_pos hthere, hkeys]
    refine ⟨h.1, fun g hg => ?_⟩
    obtain ⟨p, hp, rfl⟩ := List.mem_map.mp hg
    split
    · exact hf
    · exact h.2 p hp
  · rw [if_neg hthere, List.map_append, List.nodup_append]
    refine ⟨⟨h.1, by simp, fun a ha b hb => ?_⟩, fun g hg => ?_⟩
    · obtain rfl : b = f.1 := by simpa using hb
      obtain ⟨p, hp, rfl⟩ := List.mem_map.mp ha
      intro heq
      exact hthere (List.any_eq_true.mpr ⟨p, hp, by simpa using heq⟩)
    · rcases List.mem_append.mp hg with hg | hg
      · exact h.2 g hg
      · rw [List.mem_singleton.mp hg]
        exact hf

theorem distinct_foldl_assign {fields more : List (String × Json)} (h : (obj fields).distinct = true)
    (hmore : ∀ f ∈ more, f.2.distinct = true) : (obj (more.foldl assign fields)).distinct = true := by
  induction more generalizing fields with
  | nil => exact h
  | cons f more ih =>
    exact ih (distinct_assign h (hmore f List.mem_cons_self)) fun g hg => hmore g (List.mem_cons_of_mem _ hg)

end ADT.Json
