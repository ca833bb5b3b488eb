import PubSub.Message

/-!
# Lossy decoding and valid UTF-8

What a character encodes to is decoded to this character, in front of any bytes. So lossy
decoding is the inverse of encoding, and it loses nothing exactly on valid UTF-8.
-/

namespace PubSub
set_option autoImplicit false

/-! ## The bytes of a character -/

/-- The first byte of a two-byte sequence. -/
theorem first_two : ∀ x < 0x20, 2 ≤ x → utf8CharWidth (UInt8.ofNat (x + 0xC0)) = 2 ∧
    (UInt8.ofNat (x + 0xC0) &&& 0x1F).toNat = x := by decide

theorem first_three : ∀ x < 0x10, utf8CharWidth (UInt8.ofNat (x + 0xE0)) = 3 ∧
    (UInt8.ofNat (x + 0xE0) &&& 0x0F).toNat = x := by decide

theorem first_four : ∀ x < 5, utf8CharWidth (UInt8.ofNat (x + 0xF0)) = 4 ∧
    (UInt8.ofNat (x + 0xF0) &&& 0x07).toNat = x := by decide

theorem continuation : ∀ x < 0x40, isContinuation (UInt8.ofNat (x + 0x80)) = true ∧
    low6 (UInt8.ofNat (x + 0x80)) = x := by decide

theorem second_three : ∀ x < 0x10, ∀ y < 0x40, (x = 0 → 0x20 ≤ y) → (x = 0xD → y < 0x20) →
    isSecondByte (UInt8.ofNat (x + 0xE0)) (UInt8.ofNat (y + 0x80)) = true := by decide +kernel

theorem second_four : ∀ x < 5, ∀ y < 0x40, (x = 0 → 0x10 ≤ y) → (x = 4 → y < 0x10) →
    isSecondByte (UInt8.ofNat (x + 0xF0)) (UInt8.ofNat (y + 0x80)) = true := by decide +kernel

/-- A code point is no surrogate. -/
theorem code_bounds (c : Char) : c.val.toNat < 0xD800 ∨ 0xDFFF < c.val.toNat ∧ c.val.toNat < 0x110000 := c.valid

/-- The bytes of a character are decoded to it. -/
theorem lossyChars_encode (c : Char) (rest : List UInt8) (n : Nat) :
    lossyChars (n + 1) (String.utf8EncodeChar c ++ rest) = c :: lossyChars n rest := by
  have bounds := code_bounds c
  have back : Char.ofNat c.val.toNat = c := Char.ofNat_toNat c
  generalize code : c.val.toNat = v at bounds back
  have step : ∀ b bs, lossyChar b bs = (c, rest) → lossyChars (n + 1) (b :: bs) = c :: lossyChars n rest := by
    intro b bs decoded
    rw [lossyChars, decoded]
  unfold String.utf8EncodeChar
  simp only [code]
  split
  · -- one byte
    apply step
    have width : utf8CharWidth (UInt8.ofNat v) = 1 := by
      have small : ∀ x < 0x80, utf8CharWidth (UInt8.ofNat x) = 1 := by decide
      exact small v (by omega)
    simp only [lossyChar, width]
    rw [UInt8.toNat_ofNat_of_lt' (show v < 256 by omega), back]
    rfl
  · split
    · -- two bytes
      obtain ⟨width, top⟩ := first_two (v / 64 % 0x20) (by omega) (by omega)
      obtain ⟨next, low⟩ := continuation (v % 0x40) (by omega)
      apply step
      show lossyChar _ (UInt8.ofNat (v % 0x40 + 0x80) :: rest) = _
      simp only [lossyChar, width, next, if_true, top, low]
      rw [show v / 64 % 0x20 * 64 + v % 0x40 = v by omega, back]
    · split
      · -- three bytes
        obtain ⟨width, top⟩ := first_three (v / 4096 % 0x10) (by omega)
        have second := second_three (v / 4096 % 0x10) (by omega) (v / 64 % 0x40) (by omega) (by omega) (by omega)
        obtain ⟨-, middle⟩ := continuation (v / 64 % 0x40) (by omega)
        obtain ⟨next, low⟩ := continuation (v % 0x40) (by omega)
        apply step
        show lossyChar _ (UInt8.ofNat (v / 64 % 0x40 + 0x80) :: UInt8.ofNat (v % 0x40 + 0x80) :: rest) = _
        simp only [lossyChar, width, second, next, if_true, top, middle, low]
        rw [show (v / 4096 % 0x10 * 64 + v / 64 % 0x40) * 64 + v % 0x40 = v by omega, back]
      · -- four bytes
        obtain ⟨width, top⟩ := first_four (v / 262144 % 0x08) (by omega)
        have second := second_four (v / 262144 % 0x08) (by omega) (v / 4096 % 0x40) (by omega) (by omega) (by omega)
        obtain ⟨-, upper⟩ := continuation (v / 4096 % 0x40) (by omega)
        obtain ⟨third, middle⟩ := continuation (v / 64 % 0x40) (by omega)
        obtain ⟨next, low⟩ := continuation (v % 0x40) (by omega)
        apply step
        show lossyChar _ (UInt8.ofNat (v / 4096 % 0x40 + 0x80) :: UInt8.ofNat (v / 64 % 0x40 + 0x80) ::
          UInt8.ofNat (v % 0x40 + 0x80) :: rest) = _
        simp only [lossyChar, width, second, third, next, if_true, top, upper, middle, low]
        rw [show ((v / 262144 % 0x08 * 64 + v / 4096 % 0x40) * 64 + v / 64 % 0x40) * 64 + v % 0x40 = v by omega,
          back]

/-! ## Texts -/

/-- Every character takes at least one byte. -/
theorem length_le_encode (cs : List Char) : cs.length ≤ (cs.flatMap String.utf8EncodeChar).length := by
  induction cs with
  | nil => exact Nat.le_refl _
  | cons c cs ih =>
    have := c.utf8Size_pos
    rw [List.flatMap_cons, List.length_append, String.length_utf8EncodeChar, List.length_cons]
    omega

theorem lossyChars_flatMap (cs : List Char) :
    ∀ n, cs.length ≤ n → lossyChars n (cs.flatMap String.utf8EncodeChar) = cs := by
  induction cs with
  | nil =>
    intro n _
    cases n <;> rfl
  | cons c cs ih =>
    intro n enough
    obtain ⟨m, rfl⟩ := Nat.exists_eq_add_of_le' (Nat.le_trans (Nat.succ_le_succ (Nat.zero_le _)) enough)
    rw [List.flatMap_cons, lossyChars_encode, ih m (by simpa using enough)]

/-- **Lossy decoding inverts encoding.** -/
theorem fromUtf8Lossy_toUTF8 (s : String) : fromUtf8Lossy s.toUTF8 = s := by
  have encoded : s.toUTF8 = (s.toList.flatMap String.utf8EncodeChar).toByteArray := by
    rw [String.toUTF8_eq_toByteArray, ← String.utf8Encode_toList]
    rfl
  have bytes : s.toUTF8.data.toList = s.toList.flatMap String.utf8EncodeChar := by
    rw [encoded, List.data_toByteArray]
  have size : s.toUTF8.size = (s.toList.flatMap String.utf8EncodeChar).length := by
    rw [← bytes]
    rfl
  rw [fromUtf8Lossy, bytes, size, lossyChars_flatMap _ _ (length_le_encode _), String.ofList_toList]

/-- Lossy decoding loses nothing exactly on valid UTF-8. -/
theorem toUTF8_fromUtf8Lossy_iff {bytes : Bytes} :
    (fromUtf8Lossy bytes).toUTF8 = bytes ↔ bytes.IsValidUTF8 := by
  constructor
  · intro same
    rw [← same]
    exact (fromUtf8Lossy bytes).isValidUTF8
  · intro valid
    have encoded : (String.ofByteArray bytes valid).toUTF8 = bytes := rfl
    rw [← encoded, fromUtf8Lossy_toUTF8]

end PubSub
