import ADT.Lib.JsonText

/-!
# Lib.JsonWeight — a value read from a text is smaller than the text

`weight` counts the values and the characters of the strings in a value.  What `JSON.parse` reads weighs no more than
the text is long, and so less than the string of that text: a recursion may go on inside of strings.
-/

namespace ADT.Json

mutual

def weight : Json → ℕ
  | .null => 1
  | .bool _ => 1
  | .num _ => 1
  | .str s => s.length + 1
  | .arr items => weightItems items + 1
  | .obj fields => weightFields fields + 1

def weightItems : List Json → ℕ
  | [] => 0
  | j :: js => weight j + 1 + weightItems js

def weightFields : List (String × Json) → ℕ
  | [] => 0
  | (_, j) :: fs => weight j + 1 + weightFields fs

end

theorem weightFields_append (fields more : List (String × Json)) :
    weightFields (fields ++ more) = weightFields fields + weightFields more := by
  induction fields with
  | nil => simp [weightFields]
  | cons f fields ih =>
    rw [List.cons_append, weightFields, weightFields, ih]
    omega

theorem weight_assign {fields : List (String × Json)} (h : (fields.map (·.1)).Nodup) (f : String × Json) :
    weightFields (assign fields f) ≤ weightFields fields + (weight f.2 + 1) := by
  unfold assign
  by_cases hthere : fields.any (·.1 == f.1)
  · rw [if_pos hthere]
    clear hthere
    induction fields with
    | nil => simp [weightFields]
    | cons g fields ih =>
      rw [List.map_cons, List.nodup_cons] at h
      rw [List.map_cons, weightFields]
      by_cases hg : g.1 = f.1
      · have hrest : (fields.map fun p => if p.1 == f.1 then f else p) = fields := by
          refine (List.map_congr_left fun p hp => if_neg fun heq => h.1 ?_).trans (List.map_id' _)
          rw [hg, ← beq_iff_eq.mp heq]
          exact List.mem_map_of_mem hp
        rw [hrest, if_pos (beq_iff_eq.mpr hg), weightFields]
        omega
      · have hle := ih h.2
        rw [if_neg (by simpa using hg), weightFields]
        omega
  · rw [if_neg hthere, weightFields_append, weightFields, weightFields]

theorem weight_foldl_assign {fields more : List (String × Json)} (h : (obj fields).distinct = true)
    (hmore : ∀ f ∈ more, f.2.distinct = true) :
    weightFields (more.foldl assign fields) ≤ weightFields fields + weightFields more := by
  induction more generalizing fields with
  | nil => simp [weightFields]
  | cons f more ih =>
    have hassign := weight_assign ((distinct_obj fields).mp h).1 f
    have hrest := ih (distinct_assign h (hmore f List.mem_cons_self)) fun g hg => hmore g (List.mem_cons_of_mem _ hg)
    rw [List.foldl_cons, weightFields]
    omega

/-! ### Reading -/

theorem skip_length (cs : List Char) : (skip cs).length ≤ cs.length := (List.dropWhile_sublist _).length_le

variable {cs rest : List Char} {n : ℕ}

theorem codeUnit_length (h : codeUnit cs = some (n, rest)) : rest.length < cs.length := by
  unfold codeUnit at h
  split at h
  · simp only [bind, Option.bind_eq_some_iff, pure, Option.some.injEq, Prod.mk.injEq] at h
    obtain ⟨_, -, _, -, _, -, _, -, -, rfl⟩ := h
    simp only [List.length_cons]
    omega
  · cases h

theorem codePoint_length (n : ℕ) (rest : List Char) : (codePoint n rest).2.length ≤ rest.length := by
  unfold codePoint
  dsimp only
  split_ifs
  · split
    · rename_i low after hunit
      have hshort := codeUnit_length hunit
      rw [List.length_drop] at hshort
      split_ifs
      · show after.length ≤ rest.length
        omega
      · exact le_refl _
    · exact le_refl _
  · exact le_refl _

theorem push_some {c : Char} {r : Option (List Char × List Char)} {text : List Char}
    (h : push c r = some (text, rest)) : ∃ text', r = some (text', rest) ∧ text = c :: text' := by
  obtain ⟨p, hp, ⟨⟩⟩ := Option.map_eq_some_iff.1 h
  exact ⟨p.1, hp, rfl⟩

theorem parseString_length {text : List Char} (h : parseString n cs = some (text, rest)) :
    text.length + rest.length < cs.length := by
  induction n generalizing cs text with
  | zero => cases h
  | succ n ih =>
    cases cs with
    | nil => cases h
    | cons c cs =>
      rw [parseString.eq_def] at h
      dsimp only at h
      by_cases hquote : c = '"'
      · rw [if_pos hquote] at h
        cases h
        simp
      · rw [if_neg hquote] at h
        by_cases hescape : c = '\\'
        · rw [if_pos hescape] at h
          cases cs with
          | nil => cases h
          | cons e cs =>
            dsimp only at h
            by_cases hunit : e = 'u'
            · rw [if_pos hunit] at h
              obtain ⟨⟨unit, after⟩, hcode, h⟩ := Option.bind_eq_some_iff.1 h
              obtain ⟨text', htext, rfl⟩ := push_some h
              have hrest : text'.length + rest.length < (codePoint unit after).2.length := ih htext
              have hpoint : (codePoint unit after).2.length ≤ after.length := codePoint_length unit after
              have hshort := codeUnit_length hcode
              simp only [List.length_cons]
              omega
            · rw [if_neg hunit] at h
              obtain ⟨c', -, h⟩ := Option.bind_eq_some_iff.1 h
              obtain ⟨text', htext, rfl⟩ := push_some h
              have hrest := ih htext
              simp only [List.length_cons]
              omega
        · rw [if_neg hescape] at h
          split_ifs at h with hcontrol
          obtain ⟨text', htext, rfl⟩ := push_some h
          have hrest := ih htext
          simp only [List.length_cons]
          omega

theorem parseDigits_length {m : ℕ} (h : parseDigits cs = some (m, rest)) : rest.length < cs.length := by
  unfold parseDigits at h
  dsimp only at h
  split_ifs at h with hbad
  cases h
  have hsplit := congrArg List.length (List.takeWhile_append_dropWhile (p := Char.isDigit) (l := cs))
  rw [List.length_append] at hsplit
  have hsome : cs.takeWhile Char.isDigit ≠ [] := by
    intro hnil
    rw [hnil] at hbad
    exact hbad rfl
  have hpos := List.length_pos_of_ne_nil hsome
  omega

theorem parseNumber_length {k : ℤ} (h : parseNumber cs = some (k, rest)) : rest.length < cs.length := by
  cases cs with
  | nil => cases h
  | cons c cs =>
    rw [parseNumber] at h
    split_ifs at h
    · obtain ⟨p, hp, ⟨⟩⟩ := Option.map_eq_some_iff.1 h
      exact (parseDigits_length hp).trans (Nat.lt_succ_self _)
    · obtain ⟨p, hp, ⟨⟩⟩ := Option.map_eq_some_iff.1 h
      exact parseDigits_length hp

theorem keyword_length {word : List Char} {j k : Json} (h : keyword word j cs = some (k, rest)) :
    k = j ∧ rest.length ≤ cs.length := by
  unfold keyword at h
  split_ifs at h
  cases h
  exact ⟨rfl, by rw [List.length_drop]; omega⟩

/-- What is read up to depth `n` is distinct, and weighs no more than its text is long. -/
def ValuesFit (n : ℕ) : Prop :=
  ∀ cs j rest, parseValue n cs = some (j, rest) → j.distinct = true ∧ j.weight + rest.length ≤ cs.length

def ItemsFit (n : ℕ) : Prop :=
  ∀ cs js rest, parseItems n cs = some (js, rest) →
    (∀ j ∈ js, j.distinct = true) ∧ weightItems js + rest.length ≤ cs.length

def FieldsFit (n : ℕ) : Prop :=
  ∀ cs fields rest, parseFields n cs = some (fields, rest) →
    (∀ f ∈ fields, f.2.distinct = true) ∧ weightFields fields + rest.length ≤ cs.length

theorem valuesFit_succ (ihItems : ItemsFit n) (ihFields : FieldsFit n) : ValuesFit (n + 1) := by
  intro cs j rest h
  rw [parseValue] at h
  have hskip := skip_length cs
  cases hcs : skip cs with
  | nil =>
    rw [hcs] at h
    cases h
  | cons c after =>
    rw [hcs] at h hskip
    rw [List.length_cons] at hskip
    dsimp only at h
    by_cases hquote : c = '"'
    · rw [if_pos hquote] at h
      obtain ⟨p, hp, ⟨⟩⟩ := Option.map_eq_some_iff.1 h
      have hlength := parseString_length hp
      refine ⟨rfl, ?_⟩
      rw [weight, String.length_ofList]
      omega
    rw [if_neg hquote] at h
    by_cases hopen : c = '['
    · rw [if_pos hopen] at h
      have hskip' := skip_length after
      cases hafter : skip after with
      | nil =>
        rw [hafter] at h
        cases h
      | cons c' after' =>
        rw [hafter] at h hskip'
        rw [List.length_cons] at hskip'
        dsimp only at h
        split_ifs at h
        · cases h
          refine ⟨rfl, ?_⟩
          rw [weight, weightItems]
          omega
        · obtain ⟨p, hp, ⟨⟩⟩ := Option.map_eq_some_iff.1 h
          obtain ⟨hdistinct, hweight⟩ := ihItems _ _ _ hp
          refine ⟨(distinct_arr _).mpr hdistinct, ?_⟩
          rw [List.length_cons] at hweight
          rw [weight]
          omega
    rw [if_neg hopen] at h
    by_cases hbrace : c = '\x7b'
    · rw [if_pos hbrace] at h
      have hskip' := skip_length after
      cases hafter : skip after with
      | nil =>
        rw [hafter] at h
        cases h
      | cons c' after' =>
        rw [hafter] at h hskip'
        rw [List.length_cons] at hskip'
        dsimp only at h
        split_ifs at h
        · cases h
          refine ⟨rfl, ?_⟩
          rw [weight, weightFields]
          omega
        · obtain ⟨p, hp, ⟨⟩⟩ := Option.map_eq_some_iff.1 h
          obtain ⟨hdistinct, hweight⟩ := ihFields _ _ _ hp
          have hempty : (obj []).distinct = true := rfl
          have hassigned := weight_foldl_assign hempty hdistinct
          refine ⟨distinct_foldl_assign hempty hdistinct, ?_⟩
          rw [List.length_cons] at hweight
          rw [weightFields] at hassigned
          rw [weight]
          omega
    rw [if_neg hbrace] at h
    split_ifs at h
    · obtain ⟨rfl, hlength⟩ := keyword_length h
      exact ⟨rfl, by rw [weight]; omega⟩
    · obtain ⟨rfl, hlength⟩ := keyword_length h
      exact ⟨rfl, by rw [weight]; omega⟩
    · obtain ⟨rfl, hlength⟩ := keyword_length h
      exact ⟨rfl, by rw [weight]; omega⟩
    · obtain ⟨p, hp, ⟨⟩⟩ := Option.map_eq_some_iff.1 h
      have hlength := parseNumber_length hp
      rw [List.length_cons] at hlength
      exact ⟨rfl, by rw [weight]; omega⟩

theorem itemsFit_succ (ihValue : ValuesFit n) (ihItems : ItemsFit n) : ItemsFit (n + 1) := by
  intro cs js rest h
  rw [parseItems] at h
  obtain ⟨⟨j, after⟩, hvalue, h⟩ := Option.bind_eq_some_iff.1 h
  obtain ⟨hdistinct, hweight⟩ := ihValue _ _ _ hvalue
  have hskip := skip_length after
  dsimp only at h
  cases hafter : skip after with
  | nil =>
    rw [hafter] at h
    cases h
  | cons c after' =>
    rw [hafter] at h hskip
    rw [List.length_cons] at hskip
    dsimp only at h
    split_ifs at h
    · cases h
      refine ⟨fun k hk => ?_, ?_⟩
      · rw [List.mem_singleton.mp hk]
        exact hdistinct
      · rw [weightItems, weightItems]
        omega
    · obtain ⟨⟨js', rest'⟩, hitems, h⟩ := Option.bind_eq_some_iff.1 h
      cases h
      obtain ⟨hall, hrest⟩ := ihItems _ _ _ hitems
      refine ⟨List.forall_mem_cons.mpr ⟨hdistinct, hall⟩, ?_⟩
      show weightItems (j :: js') + rest'.length ≤ _
      rw [weightItems]
      omega

theorem fieldsFit_succ (ihValue : ValuesFit n) (ihFields : FieldsFit n) : FieldsFit (n + 1) := by
  intro cs fields rest h
  rw [parseFields] at h
  have hskip := skip_length cs
  cases hcs : skip cs with
  | nil =>
    rw [hcs] at h
    cases h
  | cons c after =>
    rw [hcs] at h hskip
    rw [List.length_cons] at hskip
    dsimp only at h
    split_ifs at h with hquote
    obtain ⟨⟨key, after'⟩, hkey, h⟩ := Option.bind_eq_some_iff.1 h
    have hkeyLength := parseString_length hkey
    dsimp only at h
    have hskip' := skip_length after'
    cases hafter : skip after' with
    | nil =>
      rw [hafter] at h
      cases h
    | cons c' after'' =>
      rw [hafter] at h hskip'
      rw [List.length_cons] at hskip'
      dsimp only at h
      split_ifs at h with hcolon
      obtain ⟨⟨j, rest'⟩, hvalue, h⟩ := Option.bind_eq_some_iff.1 h
      obtain ⟨hdistinct, hweight⟩ := ihValue _ _ _ hvalue
      dsimp only at h
      have hskip'' := skip_length rest'
      cases hrest' : skip rest' with
      | nil =>
        rw [hrest'] at h
        cases h
      | cons c'' rest'' =>
        rw [hrest'] at h hskip''
        rw [List.length_cons] at hskip''
        dsimp only at h
        split_ifs at h
        · cases h
          refine ⟨fun f hf => ?_, ?_⟩
          · rw [List.mem_singleton.mp hf]
            exact hdistinct
          · rw [weightFields, weightFields]
            omega
        · obtain ⟨⟨fields', rest'''⟩, hfields, h⟩ := Option.bind_eq_some_iff.1 h
          cases h
          obtain ⟨hall, hrest⟩ := ihFields _ _ _ hfields
          refine ⟨List.forall_mem_cons.mpr ⟨hdistinct, hall⟩, ?_⟩
          show weightFields ((String.ofList key, j) :: fields') + rest'''.length ≤ _
          rw [weightFields]
          omega

theorem parsers_fit (n : ℕ) : ValuesFit n ∧ ItemsFit n ∧ FieldsFit n := by
  induction n with
  | zero =>
    refine ⟨fun cs j rest h => ?_, fun cs js rest h => ?_, fun cs fields rest h => ?_⟩
    · cases h
    · cases h
    · cases h
  | succ n ih =>
    obtain ⟨ihValue, ihItems, ihFields⟩ := ih
    exact ⟨valuesFit_succ ihItems ihFields, itemsFit_succ ihValue ihItems, fieldsFit_succ ihValue ihFields⟩

theorem parse_distinct {s : String} {j : Json} (h : parse s = some j) : j.distinct = true := by
  unfold parse at h
  split at h
  · rename_i k rest hvalue
    split_ifs at h
    cases h
    exact ((parsers_fit _).1 _ _ _ hvalue).1
  · cases h

theorem parse_weight {s : String} {j : Json} (h : parse s = some j) : j.weight < (str s).weight := by
  unfold parse at h
  split at h
  · rename_i k rest hvalue
    split_ifs at h
    cases h
    have hweight := ((parsers_fit _).1 _ _ _ hvalue).2
    rw [String.length_toList] at hweight
    rw [weight]
    omega
  · cases h

end ADT.Json
