import ADT.Lib.JsonText

/-!
# Lib.JsonSize — the size of JSON texts

The bytes of `stringify` in UTF-8, counted on the value: every character of a text takes `escapedSize` bytes.
-/

namespace ADT

/-- The bytes of one character between the quotes of a JSON string. -/
def escapedSize (c : Char) : ℕ :=
  if c = '"' ∨ c = '\\' ∨ c.toNat ∈ [8, 9, 10, 12, 13] then 2
  else if c.toNat < 32 then 6
  else c.utf8Size

/-- The bytes of a text between the quotes of a JSON string. -/
def escapedLength (s : String) : ℕ := (s.toList.map escapedSize).sum

variable (s : String) (c : Char)

theorem byteLength_append (t : String) : byteLength (s ++ t) = byteLength s + byteLength t :=
  String.utf8ByteSize_append

theorem byteLength_singleton : byteLength (String.ofList [c]) = c.utf8Size := by
  unfold byteLength
  simp

theorem byteLength_ofList (cs : List Char) : byteLength (String.ofList cs) = (cs.map Char.utf8Size).sum := by
  induction cs with
  | nil => rfl
  | cons c cs ih =>
    rw [← List.singleton_append, String.ofList_append, byteLength_append, byteLength_singleton, ih,
      List.singleton_append, List.map_cons, List.sum_cons]

theorem byteLength_eq_sum : byteLength s = (s.toList.map Char.utf8Size).sum := by
  rw [← byteLength_ofList, String.ofList_toList]

theorem escapeChar_eq {c : Char} (h : ¬c.toNat < 128) : escapeChar c = [c] := by
  have hquote : c ≠ '"' := by
    rintro rfl
    exact h (by decide)
  have hslash : c ≠ '\\' := by
    rintro rfl
    exact h (by decide)
  have hcontrol : c.toNat ≠ 8 ∧ c.toNat ≠ 9 ∧ c.toNat ≠ 10 ∧ c.toNat ≠ 12 ∧ c.toNat ≠ 13 := by omega
  simp [escapeChar, hquote, hslash, hcontrol, show ¬c.toNat < 32 by omega]

theorem sum_escapeChar : ((escapeChar c).map Char.utf8Size).sum = escapedSize c := by
  by_cases hlow : c.toNat < 128
  · have hall : ∀ n < 128, ((escapeChar (Char.ofNat n)).map Char.utf8Size).sum = escapedSize (Char.ofNat n) := by
      decide
    have hc := hall c.toNat hlow
    rwa [Char.ofNat_toNat] at hc
  · have hspecial : ¬(c = '"' ∨ c = '\\' ∨ c.toNat ∈ [8, 9, 10, 12, 13]) := by
      simp only [List.mem_cons, List.not_mem_nil, or_false]
      rintro (rfl | rfl | hcontrol)
      · exact hlow (by decide)
      · exact hlow (by decide)
      · omega
    rw [escapeChar_eq hlow, escapedSize, if_neg hspecial, if_neg (by omega)]
    simp

theorem sum_escaped (cs : List Char) : ((cs.flatMap escapeChar).map Char.utf8Size).sum = (cs.map escapedSize).sum := by
  induction cs with
  | nil => rfl
  | cons c cs ih =>
    rw [List.flatMap_cons, List.map_append, List.sum_append, sum_escapeChar, ih, List.map_cons, List.sum_cons]

theorem byteLength_stringifyStr : byteLength (stringifyStr s) = escapedLength s + 2 := by
  rw [stringifyStr, byteLength_ofList, List.cons_append, List.map_cons, List.sum_cons, List.map_append, List.sum_append,
    sum_escaped, escapedLength]
  have hquote : Char.utf8Size '"' = 1 := rfl
  simp only [List.map_cons, List.map_nil, List.sum_cons, List.sum_nil, hquote]
  omega

theorem sum_map_le {f : Char → ℕ} {n : ℕ} (h : ∀ c, f c ≤ n) (cs : List Char) : (cs.map f).sum ≤ n * cs.length := by
  have hsum := List.sum_le_card_nsmul (cs.map f) n fun m hm => by
    obtain ⟨c, -, rfl⟩ := List.mem_map.mp hm
    exact h c
  rwa [List.length_map, smul_eq_mul, Nat.mul_comm] at hsum

theorem length_le_sum_map {f : Char → ℕ} (h : ∀ c, 1 ≤ f c) (cs : List Char) : cs.length ≤ (cs.map f).sum := by
  have hsum := List.length_le_sum_of_one_le (cs.map f) fun m hm => by
    obtain ⟨c, -, rfl⟩ := List.mem_map.mp hm
    exact h c
  rwa [List.length_map] at hsum

theorem escapedLength_le : escapedLength s ≤ 6 * s.toList.length := by
  refine sum_map_le (fun c => ?_) _
  have hfour := Char.utf8Size_le_four c
  unfold escapedSize
  split_ifs <;> omega

theorem escapedSize_pos : 0 < escapedSize c := by
  have hpos := c.utf8Size_pos
  unfold escapedSize
  split_ifs <;> omega

theorem length_le_escapedLength : s.toList.length ≤ escapedLength s := length_le_sum_map escapedSize_pos _

theorem length_le_byteLength : s.toList.length ≤ byteLength s := by
  rw [byteLength_eq_sum]
  exact length_le_sum_map Char.utf8Size_pos _

theorem digitChar_of_mem_toDigits {b : ℕ} (hb : 1 < b) (n : ℕ) : ∀ c ∈ Nat.toDigits b n, ∃ d < b, c = Nat.digitChar d := by
  induction n using Nat.strongRecOn with
  | ind n ih =>
    intro c hc
    by_cases hn : n < b
    · rw [Nat.toDigits_of_lt_base hn, List.mem_singleton] at hc
      exact ⟨n, hn, hc⟩
    · rw [Nat.toDigits_of_base_le hb (by omega), List.mem_append, List.mem_singleton] at hc
      rcases hc with hc | hc
      · exact ih (n / b) (Nat.div_lt_self (by omega) hb) c hc
      · exact ⟨n % b, Nat.mod_lt _ (by omega), hc⟩

theorem byteLength_toString_le {n k : ℕ} (hk : 0 < k) (hn : n < 10 ^ k) : byteLength (toString (n : ℤ)) ≤ 4 * k := by
  have hdigits : (Nat.toDigits 10 n).length ≤ k := (Nat.length_toDigits_le_iff (by omega) hk).mpr hn
  have htext : toString (n : ℤ) = String.ofList (Nat.toDigits 10 n) := Nat.repr_eq_ofList_toDigits
  have hsum := List.sum_le_card_nsmul ((Nat.toDigits 10 n).map Char.utf8Size) 4 fun m hm => by
    obtain ⟨c, -, rfl⟩ := List.mem_map.mp hm
    exact Char.utf8Size_le_four c
  rw [List.length_map, smul_eq_mul] at hsum
  rw [htext, byteLength_ofList]
  omega

/-! ### Lengths in UTF-16 units -/

/-- The UTF-16 units of a character. -/
def utf16Size (c : Char) : ℕ := if c.toNat < 0x10000 then 1 else 2

theorem utf16Length_eq_sum : utf16Length s = (s.toList.map utf16Size).sum := by
  have hfold : ∀ (cs : List Char) (n : ℕ),
      cs.foldl (fun n c => n + if c.toNat < 0x10000 then 1 else 2) n = n + (cs.map utf16Size).sum := by
    intro cs
    induction cs with
    | nil => exact fun n => (Nat.add_zero n).symm
    | cons c cs ih =>
      intro n
      rw [List.foldl_cons, ih, List.map_cons, List.sum_cons, utf16Size]
      omega
  rw [utf16Length, hfold, Nat.zero_add]

theorem utf16Length_append (t : String) : utf16Length (s ++ t) = utf16Length s + utf16Length t := by
  rw [utf16Length_eq_sum, utf16Length_eq_sum, utf16Length_eq_sum, String.toList_append, List.map_append, List.sum_append]

theorem utf16Size_le_utf8Size : utf16Size c ≤ c.utf8Size := by
  have hpos := c.utf8Size_pos
  unfold utf16Size
  split
  · omega
  · rename_i hlarge
    have hval : 0x10000 ≤ c.val.toNat := by
      have : c.val.toNat = c.toNat := rfl
      omega
    have hlarger : ∀ (n : ℕ) (hn : n < UInt32.size), n < 0x10000 → ¬c.val ≤ UInt32.ofNatLT n hn := by
      intro n hn hsmall hle
      have := UInt32.le_iff_toNat_le.mp hle
      rw [UInt32.toNat_ofNatLT] at this
      omega
    have hfour : c.utf8Size = 4 := by
      unfold Char.utf8Size
      rw [if_neg (hlarger _ _ (by decide)), if_neg (hlarger _ _ (by decide)), if_neg (hlarger _ _ (by decide))]
    omega

theorem utf16Length_le_byteLength : utf16Length s ≤ byteLength s := by
  rw [utf16Length_eq_sum, byteLength_eq_sum]
  exact List.sum_le_sum fun c _ => utf16Size_le_utf8Size c

theorem utf16Length_le : utf16Length s ≤ 2 * s.toList.length := by
  rw [utf16Length_eq_sum]
  refine sum_map_le (fun c => ?_) _
  unfold utf16Size
  split <;> omega

theorem length_le_utf16Length : s.toList.length ≤ utf16Length s := by
  rw [utf16Length_eq_sum]
  refine length_le_sum_map (fun c => ?_) _
  unfold utf16Size
  split <;> omega

theorem utf16Length_ofList {cs : List Char} (hplain : ∀ c ∈ cs, c.toNat < 0x10000) :
    utf16Length (String.ofList cs) = cs.length := by
  have hone : cs.map utf16Size = cs.map fun _ => 1 := List.map_congr_left fun c hc => if_pos (hplain c hc)
  rw [utf16Length_eq_sum, String.toList_ofList, hone]
  simp

theorem utf16Length_eq_zero {s : String} : utf16Length s = 0 ↔ s = "" := by
  constructor
  · intro h
    rw [utf16Length_eq_sum, List.sum_eq_zero_iff] at h
    rw [← String.toList_eq_nil_iff, List.eq_nil_iff_forall_not_mem]
    intro c hc
    have hsize := h (utf16Size c) (List.mem_map_of_mem hc)
    unfold utf16Size at hsize
    split at hsize <;> omega
  · rintro rfl
    rfl

theorem utf16Length_toString_le {n k : ℕ} (hk : 0 < k) (hn : n < 10 ^ k) : utf16Length (toString n) ≤ 2 * k := by
  have hdigits : (Nat.toDigits 10 n).length ≤ k := (Nat.length_toDigits_le_iff (by omega) hk).mpr hn
  have htext : toString n = String.ofList (Nat.toDigits 10 n) := Nat.repr_eq_ofList_toDigits
  have hlength := utf16Length_le (toString n)
  rw [htext, String.toList_ofList] at hlength
  rw [htext]
  omega

namespace Json

def size (j : Json) : ℕ := byteLength j.stringify

variable (s : String)

theorem size_str : (str s).size = escapedLength s + 2 := byteLength_stringifyStr s

theorem byteLength_intercalate (t : String) (texts : List String) :
    byteLength (",".intercalate (t :: texts)) + 1 = ((t :: texts).map fun u => byteLength u + 1).sum := by
  induction texts generalizing t with
  | nil => simp [String.intercalate_singleton]
  | cons u texts ih =>
    have hcomma : byteLength "," = 1 := rfl
    rw [String.intercalate_cons_cons, byteLength_append, byteLength_append, hcomma, List.map_cons, List.sum_cons, ← ih u]
    omega

theorem size_arr (j : Json) (js : List Json) : (arr (j :: js)).size = 1 + ((j :: js).map fun k => k.size + 1).sum := by
  have hbody := byteLength_intercalate j.stringify (js.map stringify)
  have hopen : byteLength "[" = 1 := rfl
  have hclose : byteLength "]" = 1 := rfl
  rw [← List.map_cons (f := stringify), List.map_map] at hbody
  rw [size, stringify, stringifyItems_eq_map, byteLength_append, byteLength_append, hopen, hclose]
  have hitems : (fun k : Json => k.size + 1) = (fun u => byteLength u + 1) ∘ stringify := rfl
  rw [hitems, ← hbody]
  omega

theorem size_obj (f : String × Json) (fields : List (String × Json)) :
    (obj (f :: fields)).size = 1 + ((f :: fields).map fun g => escapedLength g.1 + g.2.size + 4).sum := by
  have hfield : (fun u => byteLength u + 1) ∘ (fun g : String × Json => stringifyStr g.1 ++ ":" ++ g.2.stringify) =
      fun g => escapedLength g.1 + g.2.size + 4 := by
    funext g
    have hcolon : byteLength ":" = 1 := rfl
    show byteLength (stringifyStr g.1 ++ ":" ++ g.2.stringify) + 1 = _
    rw [byteLength_append, byteLength_append, byteLength_stringifyStr, hcolon, size]
    omega
  have hbody := byteLength_intercalate (stringifyStr f.1 ++ ":" ++ f.2.stringify)
    (fields.map fun g => stringifyStr g.1 ++ ":" ++ g.2.stringify)
  have hopen : byteLength "\x7b" = 1 := rfl
  have hclose : byteLength "\x7d" = 1 := rfl
  rw [← List.map_cons (f := fun g : String × Json => stringifyStr g.1 ++ ":" ++ g.2.stringify), List.map_map, hfield] at hbody
  rw [size, stringify, stringifyFields_eq_map, byteLength_append, byteLength_append, hopen, hclose, ← hbody]
  omega

theorem length_le_size : s.toList.length ≤ (str s).size := by
  have hlength := length_le_escapedLength s
  rw [size_str]
  omega

theorem size_le_arr {j : Json} {items : List Json} (h : j ∈ items) : j.size ≤ (arr items).size := by
  cases items with
  | nil => cases h
  | cons k items =>
    have hle := List.le_sum_of_mem (List.mem_map_of_mem (f := fun k : Json => k.size + 1) h)
    rw [size_arr]
    omega

theorem size_le_obj {f : String × Json} {fields : List (String × Json)} (h : f ∈ fields) : f.2.size ≤ (obj fields).size := by
  cases fields with
  | nil => cases h
  | cons g fields =>
    have hle := List.le_sum_of_mem (List.mem_map_of_mem (f := fun g : String × Json => escapedLength g.1 + g.2.size + 4) h)
    rw [size_obj]
    omega

theorem size_le_of_get? {j v : Json} {k : String} (h : j.get? k = some v) : v.size ≤ j.size := by
  cases j with
  | obj fields =>
    obtain ⟨f, hf, rfl⟩ := Option.map_eq_some_iff.mp h
    exact size_le_obj (List.mem_of_find?_eq_some hf)
  | null => cases h
  | bool b => cases h
  | num n => cases h
  | str s => cases h
  | arr items => cases h

/-! ### A bound that is quick to compute -/

theorem escapedLength_le_byteLength : escapedLength s ≤ 6 * byteLength s := by
  have hchars := escapedLength_le s
  have hlength := length_le_byteLength s
  omega

mutual

/-- A bound for the size of a value that does not look at the characters of its texts. -/
def sizeBound : Json → ℕ
  | .null => 4
  | .bool _ => 5
  | .num n => byteLength (toString n)
  | .str s => 6 * byteLength s + 2
  | .arr items => 2 + sizeBoundItems items
  | .obj fields => 2 + sizeBoundFields fields

def sizeBoundItems : List Json → ℕ
  | [] => 0
  | j :: js => j.sizeBound + 1 + sizeBoundItems js

def sizeBoundFields : List (String × Json) → ℕ
  | [] => 0
  | (k, j) :: fields => 6 * byteLength k + j.sizeBound + 4 + sizeBoundFields fields

end

mutual

theorem size_le_sizeBound (j : Json) : j.size ≤ j.sizeBound := by
  cases j with
  | null => rw [sizeBound]; decide
  | bool b => rw [sizeBound]; cases b <;> decide
  | num n => rw [sizeBound, size, stringify]
  | str s =>
    have := escapedLength_le_byteLength s
    rw [sizeBound, size_str]
    omega
  | arr items =>
    have hitems := sizeItems_le items
    rw [sizeBound]
    cases items with
    | nil => exact Nat.le_add_right 2 _
    | cons j js =>
      rw [size_arr]
      omega
  | obj fields =>
    have hfields := sizeFields_le fields
    rw [sizeBound]
    cases fields with
    | nil => exact Nat.le_add_right 2 _
    | cons f fs =>
      rw [size_obj]
      omega

theorem sizeItems_le (items : List Json) : (items.map fun k => k.size + 1).sum ≤ sizeBoundItems items := by
  cases items with
  | nil => exact Nat.le_refl 0
  | cons j js =>
    have hj := size_le_sizeBound j
    have hjs := sizeItems_le js
    rw [List.map_cons, List.sum_cons, sizeBoundItems]
    omega

theorem sizeFields_le (fields : List (String × Json)) :
    (fields.map fun f => escapedLength f.1 + f.2.size + 4).sum ≤ sizeBoundFields fields := by
  cases fields with
  | nil => exact Nat.le_refl 0
  | cons f fs =>
    obtain ⟨k, j⟩ := f
    have hk := escapedLength_le_byteLength k
    have hj := size_le_sizeBound j
    have hfs := sizeFields_le fs
    rw [List.map_cons, List.sum_cons, sizeBoundFields]
    dsimp only
    omega

end

/-! ### Texts on one line -/

theorem newline_not_mem_escapeChar (c : Char) : '\n' ∉ escapeChar c := by
  by_cases hlow : c.toNat < 128
  · have hall : ∀ n < 128, '\n' ∉ escapeChar (Char.ofNat n) := by decide
    have hc := hall c.toNat hlow
    rwa [Char.ofNat_toNat] at hc
  · rw [escapeChar_eq hlow, List.mem_singleton]
    rintro rfl
    exact hlow (by decide)

theorem newline_not_mem_quoted : '\n' ∉ (stringifyStr s).toList := by
  rw [stringifyStr, String.toList_ofList]
  simp only [List.mem_cons, List.mem_append, List.mem_flatMap, List.not_mem_nil, or_false, not_or, not_exists, not_and]
  exact ⟨⟨by decide, fun c _ => newline_not_mem_escapeChar c⟩, by decide⟩

theorem newline_not_mem_toString (n : ℤ) : '\n' ∉ (toString n).toList := by
  have hrepr : ∀ m : ℕ, '\n' ∉ (Nat.repr m).toList := by
    intro m hmem
    rw [Nat.toList_repr] at hmem
    exact absurd (Nat.isDigit_of_mem_toDigits (by omega) (by omega) hmem) (by decide)
  rcases n with m | m
  · exact hrepr m
  · show '\n' ∉ ("-" ++ Nat.repr (m + 1)).toList
    rw [String.toList_append, List.mem_append, not_or]
    exact ⟨by decide, hrepr _⟩

mutual

/-- **The text of a value** has no line breaks. -/
theorem newline_not_mem_text (j : Json) : '\n' ∉ j.text := by
  cases j with
  | null => decide
  | bool b => cases b <;> decide
  | num n => exact newline_not_mem_toString n
  | str s => exact newline_not_mem_quoted s
  | arr items =>
    have hitems := newline_not_mem_items items
    rw [text_arr]
    simp only [List.mem_cons, List.mem_append, List.not_mem_nil, or_false, not_or]
    exact ⟨by decide, hitems, by decide⟩
  | obj fields =>
    have hfields := newline_not_mem_fields fields
    rw [text_obj]
    simp only [List.mem_cons, List.mem_append, List.not_mem_nil, or_false, not_or]
    exact ⟨by decide, hfields, by decide⟩

theorem newline_not_mem_items (items : List Json) : '\n' ∉ itemsText items := by
  cases items with
  | nil => exact List.not_mem_nil
  | cons j js =>
    have hj := newline_not_mem_text j
    have hjs := newline_not_mem_items js
    cases js with
    | nil =>
      rw [itemsText_single]
      exact hj
    | cons k ks =>
      rw [itemsText_cons, List.mem_append, List.mem_cons]
      simp only [not_or]
      exact ⟨hj, by decide, hjs⟩

theorem newline_not_mem_fields (fields : List (String × Json)) : '\n' ∉ fieldsText fields := by
  cases fields with
  | nil => exact List.not_mem_nil
  | cons f fs =>
    obtain ⟨k, j⟩ := f
    have hj := newline_not_mem_text j
    have hfs := newline_not_mem_fields fs
    have hfield : '\n' ∉ fieldText (k, j) := by
      rw [fieldText, List.mem_append, List.mem_cons]
      simp only [not_or]
      exact ⟨newline_not_mem_quoted k, by decide, hj⟩
    cases fs with
    | nil =>
      rw [fieldsText_single]
      exact hfield
    | cons g gs =>
      rw [fieldsText_cons, List.mem_append, List.mem_cons]
      simp only [not_or]
      exact ⟨hfield, by decide, hfs⟩

end

end Json

end ADT
