import Mathlib.Tactic

/-!
# Lib.Base64Url — bytes as text

Base64 in the alphabet for URLs and without padding, and the decoder that pads what it is given: `atob` after the two
special digits are mapped back.
-/

namespace ADT.Base64Url

def digit (n : ℕ) : Char :=
  if n < 26 then Char.ofNat (65 + n)
  else if n < 52 then Char.ofNat (71 + n)
  else if n < 62 then Char.ofNat (n - 4)
  else if n = 62 then '-'
  else '_'

/-- Six bits of a character, in either alphabet. -/
def value (c : Char) : Option ℕ :=
  if 'A' ≤ c ∧ c ≤ 'Z' then some (c.toNat - 65)
  else if 'a' ≤ c ∧ c ≤ 'z' then some (c.toNat - 71)
  else if '0' ≤ c ∧ c ≤ '9' then some (c.toNat + 4)
  else if c = '-' ∨ c = '+' then some 62
  else if c = '_' ∨ c = '/' then some 63
  else none

/-- The digits of a sequence of bytes. -/
def group : List UInt8 → List ℕ
  | a :: b :: c :: rest =>
    let n := a.toNat * 65536 + b.toNat * 256 + c.toNat
    [n / 262144, n / 4096 % 64, n / 64 % 64, n % 64] ++ group rest
  | [a, b] =>
    let n := a.toNat * 256 + b.toNat
    [n / 1024, n / 16 % 64, n % 16 * 4]
  | [a] => [a.toNat / 4, a.toNat % 4 * 16]
  | [] => []

/-- The bytes of a sequence of digits; bits that are left over are dropped. -/
def ungroup : List ℕ → List UInt8
  | a :: b :: c :: d :: rest =>
    let n := a * 262144 + b * 4096 + c * 64 + d
    [UInt8.ofNat (n / 65536), UInt8.ofNat (n / 256 % 256), UInt8.ofNat (n % 256)] ++ ungroup rest
  | [a, b, c] =>
    let n := (a * 4096 + b * 64 + c) / 4
    [UInt8.ofNat (n / 256), UInt8.ofNat (n % 256)]
  | [a, b] => [UInt8.ofNat ((a * 64 + b) / 16)]
  | _ => []

def encode (bytes : List UInt8) : List Char := (group bytes).map digit

/-- White space that `atob` leaves out. -/
def isBlank (c : Char) : Bool := c == ' ' || c == '\t' || c == '\n' || c == '\r' || c.toNat == 12

/-- Up to two signs of padding at the end of whole groups. -/
def unpad (cs : List Char) : List Char :=
  if cs.length % 4 ≠ 0 then cs
  else if ['=', '='].isSuffixOf cs then cs.dropLast.dropLast
  else if ['='].isSuffixOf cs then cs.dropLast
  else cs

def atob (cs : List Char) : Option (List UInt8) :=
  let digits := unpad (cs.filter (!isBlank ·))
  if digits.length % 4 = 1 then none else (digits.mapM value).map ungroup

def decode (cs : List Char) : Option (List UInt8) :=
  atob (cs ++ List.replicate ((4 - cs.length % 4) % 4) '=')

/-! ### Round trip -/

theorem value_digit : ∀ n < 64, value (digit n) = some n := by decide

theorem digit_plain : ∀ n < 64, isBlank (digit n) = false ∧ digit n ≠ '=' ∧ digit n ≠ '.' := by decide

theorem ofNat_toNat_of {a : UInt8} {n : ℕ} (h : n = a.toNat) : UInt8.ofNat n = a := by
  rw [h, UInt8.ofNat_toNat]

variable (bytes : List UInt8)

theorem group_lt : ∀ n ∈ group bytes, n < 64 := by
  induction bytes using group.induct with
  | case1 a b c rest ih =>
    have ha := a.toNat_lt
    have hb := b.toNat_lt
    have hc := c.toNat_lt
    intro m hm
    simp only [group, List.cons_append, List.nil_append, List.mem_cons] at hm
    rcases hm with rfl | rfl | rfl | rfl | hm
    · omega
    · omega
    · omega
    · omega
    · exact ih m hm
  | case2 a b =>
    have ha := a.toNat_lt
    have hb := b.toNat_lt
    intro m hm
    simp only [group, List.mem_cons, List.not_mem_nil, or_false] at hm
    omega
  | case3 a =>
    have ha := a.toNat_lt
    intro m hm
    simp only [group, List.mem_cons, List.not_mem_nil, or_false] at hm
    omega
  | case4 => simp [group]

theorem ungroup_group : ungroup (group bytes) = bytes := by
  induction bytes using group.induct with
  | case1 a b c rest ih =>
    have ha := a.toNat_lt
    have hb := b.toNat_lt
    have hc := c.toNat_lt
    simp only [group, List.cons_append, List.nil_append, ungroup, ih]
    rw [ofNat_toNat_of (a := a) (by omega), ofNat_toNat_of (a := b) (by omega), ofNat_toNat_of (a := c) (by omega)]
  | case2 a b =>
    have ha := a.toNat_lt
    have hb := b.toNat_lt
    simp only [group, ungroup]
    rw [ofNat_toNat_of (a := a) (by omega), ofNat_toNat_of (a := b) (by omega)]
  | case3 a =>
    have ha := a.toNat_lt
    simp only [group, ungroup]
    rw [ofNat_toNat_of (a := a) (by omega)]
  | case4 => rfl

theorem group_length : (group bytes).length % 4 ≠ 1 := by
  induction bytes using group.induct with
  | case1 a b c rest ih =>
    simp only [group, List.length_append, List.length_cons, List.length_nil]
    omega
  | case2 a b => simp [group]
  | case3 a => simp [group]
  | case4 => simp [group]

theorem mapM_value (ns : List ℕ) (h : ∀ n ∈ ns, n < 64) : (ns.map digit).mapM value = some ns := by
  induction ns with
  | nil => rfl
  | cons n ns ih =>
    rw [List.map_cons, List.mapM_cons, value_digit n (h n List.mem_cons_self), ih fun m hm => h m (List.mem_cons_of_mem _ hm)]
    rfl

theorem mem_encode {bytes : List UInt8} {c : Char} (hc : c ∈ encode bytes) :
    isBlank c = false ∧ c ≠ '=' ∧ c ≠ '.' := by
  obtain ⟨n, hn, rfl⟩ := List.mem_map.mp hc
  exact digit_plain n (group_lt bytes n hn)

theorem unpad_padded {cs : List Char} (hcs : ∀ c ∈ cs, c ≠ '=') (hlength : cs.length % 4 ≠ 1) :
    unpad (cs ++ List.replicate ((4 - cs.length % 4) % 4) '=') = cs := by
  have hlast : ∀ pad : List Char, pad ≠ [] → (∀ c ∈ pad, c = '=') → ¬pad <:+ cs := by
    rintro pad hne hpad ⟨front, hfront⟩
    obtain ⟨c, hc⟩ := List.exists_mem_of_ne_nil pad hne
    exact hcs c (by rw [← hfront]; exact List.mem_append_right _ hc) (hpad c hc)
  have hcases : cs.length % 4 = 0 ∨ cs.length % 4 = 2 ∨ cs.length % 4 = 3 := by omega
  unfold unpad
  rcases hcases with h | h | h
  · have hone : ['='].isSuffixOf cs = false := by
      rw [Bool.eq_false_iff, Ne, List.isSuffixOf_iff_suffix]
      exact hlast _ (by simp) (by simp)
    have htwo : ['=', '='].isSuffixOf cs = false := by
      rw [Bool.eq_false_iff, Ne, List.isSuffixOf_iff_suffix]
      exact hlast _ (by simp) (by simp)
    have hpad : List.replicate ((4 - 0) % 4) '=' = [] := rfl
    rw [h, hpad, List.append_nil, if_neg (by omega), htwo, hone]
    rfl
  · have hpad : List.replicate ((4 - 2) % 4) '=' = ['=', '='] := rfl
    rw [h, hpad]
    have htwo : ['=', '='].isSuffixOf (cs ++ ['=', '=']) = true :=
      List.isSuffixOf_iff_suffix.mpr (List.suffix_append _ _)
    rw [if_neg (by rw [List.length_append]; simp; omega), htwo, if_pos rfl]
    simp
  · have hpad : List.replicate ((4 - 3) % 4) '=' = ['='] := rfl
    rw [h, hpad]
    have hone : ['='].isSuffixOf (cs ++ ['=']) = true := List.isSuffixOf_iff_suffix.mpr (List.suffix_append _ _)
    have htwo : ['=', '='].isSuffixOf (cs ++ ['=']) = false := by
      rw [Bool.eq_false_iff, Ne, List.isSuffixOf_iff_suffix]
      intro hsuffix
      obtain ⟨front, hfront⟩ := hsuffix
      have hcs' : front ++ ['='] = cs := by
        have : (front ++ ['=']) ++ ['='] = cs ++ ['='] := by rw [← hfront]; simp
        exact List.append_cancel_right this
      exact hlast ['='] (by simp) (by simp) ⟨front, hcs'⟩
    rw [if_neg (by rw [List.length_append]; simp; omega), htwo, hone]
    simp

theorem decode_encode : decode (encode bytes) = some bytes := by
  have hlength : (encode bytes).length % 4 ≠ 1 := by
    rw [encode, List.length_map]
    exact group_length bytes
  have hplain : (encode bytes ++ List.replicate ((4 - (encode bytes).length % 4) % 4) '=').filter (!isBlank ·) =
      encode bytes ++ List.replicate ((4 - (encode bytes).length % 4) % 4) '=' := by
    refine List.filter_eq_self.mpr fun c hc => ?_
    rcases List.mem_append.mp hc with hc | hc
    · simp [(mem_encode hc).1]
    · rw [List.eq_of_mem_replicate hc]
      rfl
  unfold decode atob
  rw [hplain, unpad_padded (fun c hc => (mem_encode hc).2.1) hlength]
  dsimp only
  rw [if_neg hlength, encode, mapM_value _ (group_lt bytes), Option.map_some, ungroup_group]

theorem length_encode : (encode bytes).length = (4 * bytes.length + 2) / 3 := by
  have hgroup : (group bytes).length = (4 * bytes.length + 2) / 3 := by
    induction bytes using group.induct with
    | case1 a b c rest ih =>
      simp only [group, List.length_append, List.length_cons, List.length_nil, ih]
      omega
    | case2 a b => simp [group]
    | case3 a => simp [group]
    | case4 => simp [group]
  rw [encode, List.length_map, hgroup]

theorem encode_ascii {bytes : List UInt8} {c : Char} (hc : c ∈ encode bytes) : c.toNat < 128 := by
  have hdigit : ∀ n < 64, (digit n).toNat < 128 := by decide
  obtain ⟨n, hn, rfl⟩ := List.mem_map.mp hc
  exact hdigit n (group_lt bytes n hn)

theorem encode_injective : Function.Injective encode := by
  intro a b h
  have := decode_encode a
  rw [h, decode_encode b] at this
  exact (Option.some.inj this).symm

theorem encode_ne_nil {bytes : List UInt8} (h : bytes ≠ []) : encode bytes ≠ [] := by
  intro heq
  have := decode_encode bytes
  rw [heq] at this
  exact h (Option.some.inj this).symm

end ADT.Base64Url
