import Mathlib.Tactic

/-!
# Lib.Json — JSON values and the text operations of the language

JSON values as the program receives them, the accessors it uses on values it has not checked yet, the
string operations of the host language (lengths in UTF-16 units, `trim`) and its encoder
`stringify`.
-/

namespace ADT

/-- A JSON value; the fields of an object are in insertion order, and numbers are integers. -/
inductive Json where
  | null
  | bool (b : Bool)
  | num (n : ℤ)
  | str (s : String)
  | arr (items : List Json)
  | obj (fields : List (String × Json))

namespace Json

/-- Property access: `undefined` (`none`) where there is no such property. -/
def get? : Json → String → Option Json
  | obj fields, k => (fields.find? (·.1 == k)).map (·.2)
  | _, _ => none

def asStr? : Json → Option String
  | str s => some s
  | _ => none

def asBool? : Json → Option Bool
  | bool b => some b
  | _ => none

def asArr? : Json → Option (List Json)
  | arr items => some items
  | _ => none

/-- The strings of an array of strings; `none` for anything else. -/
def asStrs? (j : Json) : Option (List String) := j.asArr?.bind (·.mapM asStr?)

/-- An object all of whose properties are among `keys`. -/
def strictKeys (keys : List String) : Json → Bool
  | obj fields => fields.all (fun f => keys.contains f.1)
  | _ => false

/-- Replace the value of property `k`, in place, where it is present. -/
def setField (k : String) (f : Json → Json) : Json → Json
  | obj fields => obj (fields.map fun p => if p.1 == k then (p.1, f p.2) else p)
  | j => j

end Json

/-- `Array.isArray(value) ? value : []` -/
def itemsOf (value : Option Json) : List Json := (value.bind Json.asArr?).getD []

/-! ### Text -/

/-- The length of a string in UTF-16 code units. -/
def utf16Length (s : String) : ℕ :=
  s.toList.foldl (fun n c => n + if c.toNat < 0x10000 then 1 else 2) 0

/-- White space and line terminators, as `trim` removes them. -/
def isTrimmed (c : Char) : Bool :=
  let n := c.toNat
  (9 ≤ n && n ≤ 13) || n == 0x20 || n == 0xA0 || n == 0x1680 || (0x2000 ≤ n && n ≤ 0x200A) ||
    n == 0x2028 || n == 0x2029 || n == 0x202F || n == 0x205F || n == 0x3000 || n == 0xFEFF

def trim (s : String) : String :=
  String.ofList ((s.toList.dropWhile isTrimmed).reverse.dropWhile isTrimmed).reverse

theorem dropWhile_idem {α : Type} (p : α → Bool) : ∀ l : List α,
    (l.dropWhile p).dropWhile p = l.dropWhile p
  | [] => rfl
  | a :: l => by
    by_cases h : p a
    · simp [h, dropWhile_idem p l]
    · simp [h]

theorem dropWhile_front {α : Type} {p : α → Bool} {l : List α} (h : l.dropWhile p = l) :
    (l.reverse.dropWhile p).reverse.dropWhile p = (l.reverse.dropWhile p).reverse := by
  cases l with
  | nil => rfl
  | cons a l =>
    have ha : p a = false := by
      by_contra hc
      have hlen := congrArg List.length h
      simp only [Bool.not_eq_false] at hc
      rw [List.dropWhile_cons_of_pos hc] at hlen
      have := (List.dropWhile_sublist p (l := l)).length_le
      simp only [List.length_cons] at hlen
      omega
    rw [List.reverse_cons, List.dropWhile_append]
    split
    · simp [ha]
    · simp [ha]

theorem trim_trim (s : String) : trim (trim s) = trim s := by
  have h1 := dropWhile_front (p := isTrimmed) (dropWhile_idem isTrimmed s.toList)
  simp only [trim, String.toList_ofList]
  rw [h1, List.reverse_reverse, dropWhile_idem]

/-- Text between the quotes of a JSON string. -/
def escapeChar (c : Char) : List Char :=
  let hex (n : ℕ) : Char := if n < 10 then Char.ofNat (48 + n) else Char.ofNat (87 + n)
  if c == '"' then ['\\', '"']
  else if c == '\\' then ['\\', '\\']
  else if c.toNat == 8 then ['\\', 'b']
  else if c.toNat == 9 then ['\\', 't']
  else if c.toNat == 10 then ['\\', 'n']
  else if c.toNat == 12 then ['\\', 'f']
  else if c.toNat == 13 then ['\\', 'r']
  else if c.toNat < 32 then ['\\', 'u', '0', '0', hex (c.toNat / 16), hex (c.toNat % 16)]
  else [c]

def stringifyStr (s : String) : String :=
  String.ofList ('"' :: s.toList.flatMap escapeChar ++ ['"'])

mutual

/-- `JSON.stringify` without indentation. -/
def Json.stringify : Json → String
  | .null => "null"
  | .bool b => if b then "true" else "false"
  | .num n => toString n
  | .str s => stringifyStr s
  | .arr items => "[" ++ ",".intercalate (stringifyItems items) ++ "]"
  | .obj fields => "\x7b" ++ ",".intercalate (stringifyFields fields) ++ "\x7d"

def Json.stringifyItems : List Json → List String
  | [] => []
  | j :: js => j.stringify :: stringifyItems js

def Json.stringifyFields : List (String × Json) → List String
  | [] => []
  | (k, j) :: fs => (stringifyStr k ++ ":" ++ j.stringify) :: stringifyFields fs

end

/-- `Buffer.byteLength` of a text in UTF-8. -/
def byteLength (s : String) : ℕ := s.utf8ByteSize

end ADT
