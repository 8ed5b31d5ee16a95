import Mathlib.Tactic

/-!
# Lib.Pattern — patterns that are matched by backtracking

A pattern is matched where a text goes on: alternatives from left to right, repetitions from the longest one down, and the
first way through is the match.  A `Token` is a pattern that never matches the empty text, so that its matches follow one
another through a text: they can be replaced, and the text can be split at them.
-/

namespace ADT

/-- A pattern over the letters `α`; repetitions are of single letters. -/
inductive Pattern (α : Type)
  | empty
  | one (p : α → Bool)
  /-- No letter: a condition on the letters before and after the place. -/
  | edge (q : Option α → Option α → Bool)
  | seq (a b : Pattern α)
  | alt (a b : Pattern α)
  | many (p : α → Bool)
  /-- What it takes is remembered. -/
  | group (a : Pattern α)

namespace Pattern

variable {α : Type}

/-- A way through a pattern: what it takes, what its group takes, and what is left. -/
structure Way (α : Type) where
  taken : List α
  group : Option (List α)
  rest : List α

def Way.andThen (w v : Way α) : Way α :=
  ⟨w.taken ++ v.taken, v.group.or w.group, v.rest⟩

/-- The ways of a repetition, the longest first. -/
def runs (p : α → Bool) : List α → List (Way α)
  | [] => [⟨[], none, []⟩]
  | c :: t =>
    if p c then (runs p t).map (Way.andThen ⟨[c], none, t⟩) ++ [⟨[], none, c :: t⟩]
    else [⟨[], none, c :: t⟩]

/-- The ways through a pattern, in the order they are tried; `before` is the letter before the text. -/
def ways : Pattern α → Option α → List α → List (Way α)
  | empty, _, t => [⟨[], none, t⟩]
  | one _, _, [] => []
  | one p, _, c :: t => if p c then [⟨[c], none, t⟩] else []
  | edge q, before, t => if q before t.head? then [⟨[], none, t⟩] else []
  | seq a b, before, t =>
    (a.ways before t).flatMap fun w => (b.ways (w.taken.getLast?.or before) w.rest).map w.andThen
  | alt a b, before, t => a.ways before t ++ b.ways before t
  | many p, _, t => runs p t
  | group a, before, t => (a.ways before t).map fun w => { w with group := some w.taken }

def opt (a : Pattern α) : Pattern α := alt a empty

def many1 (p : α → Bool) : Pattern α := seq (one p) (many p)

def seqs : List (Pattern α) → Pattern α := List.foldr seq empty

def alts : List (Pattern α) → Pattern α := List.foldr alt (one fun _ => false)

/-- The pattern takes a letter at least. -/
def proper : Pattern α → Bool
  | one _ => true
  | seq a b => a.proper || b.proper
  | alt a b => a.proper && b.proper
  | group a => a.proper
  | _ => false

/-! ### Ways -/

variable {a : Pattern α} {before : Option α} {t : List α} {w : Way α}

theorem runs_text {p : α → Bool} (h : w ∈ runs p t) : w.taken ++ w.rest = t := by
  induction t generalizing w with
  | nil =>
    rw [List.mem_singleton.1 h]
    rfl
  | cons c t ih =>
    rw [runs] at h
    split at h
    · rcases List.mem_append.1 h with h | h
      · obtain ⟨v, hv, rfl⟩ := List.mem_map.1 h
        exact congrArg (c :: ·) (ih hv)
      · rw [List.mem_singleton.1 h]
        rfl
    · rw [List.mem_singleton.1 h]
      rfl

/-- **A way goes along the text.** -/
theorem ways_text (h : w ∈ a.ways before t) : w.taken ++ w.rest = t := by
  induction a generalizing before t w with
  | empty =>
    rw [List.mem_singleton.1 h]
    rfl
  | one p =>
    cases t with
    | nil => cases h
    | cons c t =>
      rw [ways] at h
      split at h
      · rw [List.mem_singleton.1 h]
        rfl
      · cases h
  | edge q =>
    rw [ways] at h
    split at h
    · rw [List.mem_singleton.1 h]
      rfl
    · cases h
  | seq a b iha ihb =>
    obtain ⟨u, hu, h⟩ := List.mem_flatMap.1 h
    obtain ⟨v, hv, rfl⟩ := List.mem_map.1 h
    show u.taken ++ v.taken ++ v.rest = t
    rw [List.append_assoc, ihb hv, iha hu]
  | alt a b iha ihb =>
    rcases List.mem_append.1 h with h | h
    · exact iha h
    · exact ihb h
  | many p => exact runs_text h
  | group a iha =>
    obtain ⟨v, hv, rfl⟩ := List.mem_map.1 h
    exact iha (w := v) hv

theorem taken_ne_nil (ha : a.proper = true) (h : w ∈ a.ways before t) : w.taken ≠ [] := by
  induction a generalizing before t w with
  | empty => cases ha
  | one p =>
    cases t with
    | nil => cases h
    | cons c t =>
      rw [ways] at h
      split at h
      · rw [List.mem_singleton.1 h]
        exact List.cons_ne_nil _ _
      · cases h
  | edge q => cases ha
  | seq a b iha ihb =>
    obtain ⟨u, hu, h⟩ := List.mem_flatMap.1 h
    obtain ⟨v, hv, rfl⟩ := List.mem_map.1 h
    rw [proper, Bool.or_eq_true] at ha
    intro hnil
    obtain ⟨hut, hvt⟩ := List.append_eq_nil_iff.1 hnil
    rcases ha with ha | hb
    · exact iha ha hu hut
    · exact ihb hb hv hvt
  | alt a b iha ihb =>
    rw [proper, Bool.and_eq_true] at ha
    rcases List.mem_append.1 h with h | h
    · exact iha ha.1 h
    · exact ihb ha.2 h
  | many p => cases ha
  | group a iha =>
    obtain ⟨v, hv, rfl⟩ := List.mem_map.1 h
    exact iha (w := v) ha hv

end Pattern

/-- A pattern that takes a letter at least. -/
structure Token (α : Type) where
  pattern : Pattern α
  proper : pattern.proper = true

namespace Token

open Pattern

variable {α : Type} (k : Token α)

/-- The match where the text goes on. -/
def first (before : Option α) (t : List α) : Option (Way α) :=
  (k.pattern.ways before t).head?

/-- The text from a place on: its matches, and the letters between them. -/
def piecesFrom : ℕ → Option α → List α → List (α ⊕ Way α)
  | 0, _, _ => []
  | _ + 1, _, [] => []
  | n + 1, before, c :: t =>
    match k.first before (c :: t) with
    | some w => .inr w :: piecesFrom n w.taken.getLast? w.rest
    | none => .inl c :: piecesFrom n (some c) t

def pieces (t : List α) : List (α ⊕ Way α) := k.piecesFrom t.length none t

def replace (f : Way α → List α) (t : List α) : List α :=
  (k.pieces t).flatMap (Sum.elim (fun c => [c]) f)

/-- A piece before the parts of the text that follow it. -/
def addPiece : α ⊕ Way α → List α × List (List α) → List α × List (List α)
  | .inl c, (part, parts) => (c :: part, parts)
  | .inr _, (part, parts) => ([], part :: parts)

/-- The text is split at the matches: its first part, and the others. -/
def split (t : List α) : List α × List (List α) :=
  (k.pieces t).foldr addPiece ([], [])

variable {k} {before : Option α} {t : List α} {w : Way α}

theorem rest_lt (h : k.first before t = some w) : w.rest.length < t.length := by
  have hmem : w ∈ k.pattern.ways before t := List.mem_of_head? h
  have hlen := congrArg List.length (ways_text hmem)
  have hpos := List.length_pos_of_ne_nil (taken_ne_nil k.proper hmem)
  rw [List.length_append] at hlen
  omega

theorem piecesFrom_of_le {n : ℕ} (h : t.length ≤ n) : k.piecesFrom n before t = k.piecesFrom t.length before t := by
  induction n using Nat.strong_induction_on generalizing before t with
  | _ n ih =>
    rcases n with _ | n
    · rw [Nat.le_zero.1 h]
    rcases t with _ | ⟨c, t⟩
    · rfl
    have hle : t.length ≤ n := Nat.le_of_succ_le_succ h
    rw [List.length_cons, piecesFrom, piecesFrom]
    split
    · rename_i w hw
      have hlt : w.rest.length < t.length + 1 := rest_lt hw
      rw [ih n (Nat.lt_succ_self n) (by omega)]
      by_cases hn : t.length = n
      · rw [hn, ih n (Nat.lt_succ_self n) (by omega)]
      · rw [ih t.length (by omega) (by omega)]
    · rw [ih n (Nat.lt_succ_self n) hle]

theorem piecesFrom_found (h : k.first before t = some w) :
    k.piecesFrom t.length before t = .inr w :: k.piecesFrom w.rest.length w.taken.getLast? w.rest := by
  have hlt := rest_lt h
  rcases t with _ | ⟨c, t⟩
  · cases hlt
  · rw [List.length_cons, piecesFrom, h]
    exact congrArg _ (piecesFrom_of_le (Nat.le_of_lt_succ hlt))

theorem piecesFrom_unit {c : α} (h : k.first before (c :: t) = none) :
    k.piecesFrom (c :: t).length before (c :: t) = .inl c :: k.piecesFrom t.length (some c) t := by
  rw [List.length_cons, piecesFrom, h]

end Token

end ADT
