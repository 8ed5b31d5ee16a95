import Mathlib.Tactic

/-!
# Lib.Utf8 — text of bytes

The bytes of a text in UTF-8, and the decoder that puts U+FFFD where the bytes are no text.
-/

namespace ADT.Utf8

def encode (cs : List Char) : List UInt8 := cs.flatMap String.utf8EncodeChar

def isContinuation (b : UInt8) : Bool := 0x80 ≤ b && b ≤ 0xBF

/-- The number of bytes at the front that one replacement character stands for: a sequence that is not a character
is cut where it stops being the beginning of one. -/
def subpart : List UInt8 → ℕ
  | lead :: second :: rest =>
    let lower : UInt8 := if lead == 0xE0 then 0xA0 else if lead == 0xF0 then 0x90 else 0x80
    let upper : UInt8 := if lead == 0xED then 0x9F else if lead == 0xF4 then 0x8F else 0xBF
    if !(0xE0 ≤ lead && lead ≤ 0xF4 && lower ≤ second && second ≤ upper) then 1
    else if 0xF0 ≤ lead && rest.head?.any isContinuation then 3
    else 2
  | _ => 1

/-- Text of bytes, with U+FFFD for what is no character. -/
def decodeChars : ℕ → List UInt8 → List Char
  | 0, _ => []
  | _, [] => []
  | n + 1, bytes =>
    match bytes.toByteArray.utf8DecodeChar? 0 with
    | some c => c :: decodeChars n (bytes.drop c.utf8Size)
    | none => Char.ofNat 0xFFFD :: decodeChars n (bytes.drop (subpart bytes))

/-- `TextDecoder`: a byte order mark at the front is left out. -/
def decode (bytes : List UInt8) : List Char :=
  let cs := decodeChars bytes.length bytes
  if cs.head? = some (Char.ofNat 0xFEFF) then cs.tail else cs

theorem decodeChars_encode (cs : List Char) {n : ℕ} (hn : cs.length ≤ n) : decodeChars n (encode cs) = cs := by
  induction cs generalizing n with
  | nil => cases n <;> rfl
  | cons c cs ih =>
    obtain ⟨m, rfl⟩ : ∃ m, n = m + 1 := ⟨n - 1, by simp only [List.length_cons] at hn; omega⟩
    have hfirst : (encode (c :: cs)).toByteArray.utf8DecodeChar? 0 = some c := by
      rw [encode, List.flatMap_cons, List.toByteArray_append, ByteArray.utf8DecodeChar?_utf8EncodeChar_append]
    have hdrop : (encode (c :: cs)).drop c.utf8Size = encode cs := by
      rw [encode, List.flatMap_cons, ← String.length_utf8EncodeChar, List.drop_left, encode]
    have hne : encode (c :: cs) ≠ [] := by
      rw [encode, List.flatMap_cons]
      simp [String.utf8EncodeChar_ne_nil]
    obtain ⟨b, bytes, hb⟩ := List.exists_cons_of_ne_nil hne
    rw [hb] at hfirst hdrop ⊢
    unfold decodeChars
    rw [hfirst]
    dsimp only
    rw [hdrop, ih (by simp only [List.length_cons] at hn; omega)]

theorem length_le_encode (cs : List Char) : cs.length ≤ (encode cs).length := by
  induction cs with
  | nil => rfl
  | cons c cs ih =>
    have := c.utf8Size_pos
    rw [encode, List.flatMap_cons, List.length_append, String.length_utf8EncodeChar, List.length_cons]
    rw [encode] at ih
    omega

theorem decode_encode {cs : List Char} (h : cs.head? ≠ some (Char.ofNat 0xFEFF)) : decode (encode cs) = cs := by
  unfold decode
  rw [decodeChars_encode cs (length_le_encode cs)]
  dsimp only
  rw [if_neg h]

example : decode [0x61, 0xE2, 0x82, 0x62] = ['a', Char.ofNat 0xFFFD, 'b'] := by decide +kernel

end ADT.Utf8
