import ADT.Lib.Utf8

/-!
# Lib.Utf8Cut — cutting a text at a number of bytes

A cut moves back to the last byte that does not continue a character; the bytes before it are a text again, a prefix of
the one that was cut.
-/

namespace ADT.Utf8

/-- The byte is inside a character. -/
def continues (b : UInt8) : Bool := b &&& 0xC0 == 0x80

/-- From `n` back to a byte that begins a character. -/
def cutEnd (bytes : List UInt8) : ℕ → ℕ
  | 0 => 0
  | n + 1 => if (bytes[n + 1]?).any continues then cutEnd bytes n else n + 1

theorem continues_low (n : ℕ) : continues (UInt8.ofNat (n % 0x40 + 0x80)) = true := by
  have hall : ∀ m : Fin 0x40, continues (UInt8.ofNat (m + 0x80)) = true := by decide
  exact hall ⟨n % 0x40, Nat.mod_lt _ (by omega)⟩

theorem continues_of_utf8EncodeChar {c : Char} {i : ℕ} {b : UInt8} (h : (String.utf8EncodeChar c)[i + 1]? = some b) :
    continues b = true := by
  unfold String.utf8EncodeChar at h
  dsimp only at h
  split_ifs at h
  · simp at h
  · rcases i with _ | i
    · cases h
      exact continues_low _
    · simp at h
  · rcases i with _ | _ | i
    · cases h
      exact continues_low _
    · cases h
      exact continues_low _
    · simp at h
  · rcases i with _ | _ | _ | i
    · cases h
      exact continues_low _
    · cases h
      exact continues_low _
    · cases h
      exact continues_low _
    · simp at h

theorem encode_cons (c : Char) (cs : List Char) : encode (c :: cs) = String.utf8EncodeChar c ++ encode cs := rfl

theorem prefix_of_boundary {cs : List Char} {n : ℕ} {b : UInt8} (h : (encode cs)[n]? = some b)
    (hb : continues b = false) : ∃ front, front <+: cs ∧ encode front = (encode cs).take n := by
  induction cs generalizing n with
  | nil => simp [encode] at h
  | cons c cs ih =>
    rcases n with _ | n
    · exact ⟨[], List.nil_prefix, rfl⟩
    · rw [encode_cons] at h ⊢
      by_cases hin : n + 1 < (String.utf8EncodeChar c).length
      · rw [List.getElem?_append_left hin] at h
        rw [continues_of_utf8EncodeChar h] at hb
        cases hb
      · have hle : (String.utf8EncodeChar c).length ≤ n + 1 := Nat.le_of_not_lt hin
        rw [List.getElem?_append_right hle] at h
        obtain ⟨front, hfront, hbytes⟩ := ih h
        refine ⟨c :: front, List.cons_prefix_cons.mpr ⟨rfl, hfront⟩, ?_⟩
        rw [encode_cons, hbytes, List.take_append, List.take_of_length_le hle]

theorem cutEnd_le (bytes : List UInt8) (n : ℕ) : cutEnd bytes n ≤ n := by
  induction n with
  | zero => exact le_rfl
  | succ n ih =>
    rw [cutEnd]
    split
    · omega
    · exact le_rfl

theorem prefix_of_cutEnd {cs : List Char} {n : ℕ} (h : n < (encode cs).length) :
    ∃ front, front <+: cs ∧ encode front = (encode cs).take (cutEnd (encode cs) n) := by
  induction n with
  | zero => exact ⟨[], List.nil_prefix, rfl⟩
  | succ n ih =>
    rw [cutEnd]
    split
    · exact ih (by omega)
    · rename_i hbegins
      rw [List.getElem?_eq_getElem h, Option.any_some, Bool.not_eq_true] at hbegins
      exact prefix_of_boundary (List.getElem?_eq_getElem h) hbegins

theorem decodeChars_of_encode {cs : List Char} {bytes : List UInt8} (h : encode cs = bytes) :
    decodeChars bytes.length bytes = cs := by
  rw [← h]
  exact decodeChars_encode cs (length_le_encode cs)

end ADT.Utf8
