import Mathlib
import AtMarkup.Text.Utf8

/-!
# Decoding undoes encoding

Text that is encoded is decoded to itself by the decoder that documents go through, which replaces
what it cannot read (`decode_encode`).

The decoder is followed over the bytes of one character, behind which it stands as before with the
character read. The bytes of a character are given by the number of its code point
(`utf8EncodeChar_cases`): one byte below 0x80, two below 0x800, three below 0x10000, and four above.
In the narrow ranges of the decoder lies the fact that a character is no surrogate and that no
shorter form would have done.
-/

namespace AtMarkup.Text

/-! ## The bytes of a character -/

/-- The byte of a number. -/
theorem toNat_ofNat_byte {n : Nat} (h : n < 256) : (UInt8.ofNat n).toNat = n :=
  UInt8.toNat_ofNat_of_lt' h

/-- A code point is neither too great nor that of a surrogate. -/
theorem toNat_cases (c : Char) :
    c.toNat < 0xD800 ∨ (0xDFFF < c.toNat ∧ c.toNat < 0x110000) :=
  c.valid

/-- A character has one to four bytes, which hold its code point in parts of six bits. -/
theorem utf8EncodeChar_cases (c : Char) :
    (c.toNat < 0x80 ∧ String.utf8EncodeChar c = [UInt8.ofNat c.toNat]) ∨
    (0x80 ≤ c.toNat ∧ c.toNat < 0x800 ∧ String.utf8EncodeChar c =
      [UInt8.ofNat (c.toNat / 64 + 0xC0), UInt8.ofNat (c.toNat % 64 + 0x80)]) ∨
    (0x800 ≤ c.toNat ∧ c.toNat < 0x10000 ∧ String.utf8EncodeChar c =
      [UInt8.ofNat (c.toNat / 4096 + 0xE0), UInt8.ofNat (c.toNat / 64 % 64 + 0x80),
        UInt8.ofNat (c.toNat % 64 + 0x80)]) ∨
    (0x10000 ≤ c.toNat ∧ c.toNat < 0x110000 ∧ String.utf8EncodeChar c =
      [UInt8.ofNat (c.toNat / 262144 + 0xF0), UInt8.ofNat (c.toNat / 4096 % 64 + 0x80),
        UInt8.ofNat (c.toNat / 64 % 64 + 0x80), UInt8.ofNat (c.toNat % 64 + 0x80)]) := by
  have hscalar := toNat_cases c
  have hvalue : c.val.toNat = c.toNat := rfl
  unfold String.utf8EncodeChar
  simp only [hvalue]
  split_ifs with hone htwo hthree
  · exact .inl ⟨by omega, rfl⟩
  · have hfirst : c.toNat / 64 % 32 = c.toNat / 64 := by omega
    rw [hfirst]
    exact .inr (.inl ⟨by omega, by omega, rfl⟩)
  · have hfirst : c.toNat / 4096 % 16 = c.toNat / 4096 := by omega
    rw [hfirst]
    exact .inr (.inr (.inl ⟨by omega, by omega, rfl⟩))
  · have hfirst : c.toNat / 262144 % 8 = c.toNat / 262144 := by omega
    rw [hfirst]
    exact .inr (.inr (.inr ⟨by omega, by omega, rfl⟩))

/-- The bytes of a text are those of its characters. -/
theorem encode_cons (c : Char) (text : List Char) :
    encode (c :: text) = String.utf8EncodeChar c ++ encode text :=
  List.flatMap_cons

/-- A text has no more characters than bytes. -/
theorem length_le_length_encode (text : List Char) : text.length ≤ (encode text).length := by
  induction text with
  | nil => exact Nat.le_refl 0
  | cons c text ih =>
    have hpos : 0 < (String.utf8EncodeChar c).length := by
      rw [String.length_utf8EncodeChar]
      exact c.utf8Size_pos
    rw [encode_cons, List.length_append, List.length_cons]
    omega

/-! ## The decoder of documents -/

namespace Decoder

variable {text : List Char}

/-- A byte that the open character can use goes on it. -/
theorem step_open {character : OpenCharacter} {n : Nat} (hbyte : n < 256)
    (h : character.low ≤ n ∧ n ≤ character.high) :
    step ⟨text, some character⟩ (UInt8.ofNat n) = continued text character n := by
  simp only [step, toNat_ofNat_byte hbyte, if_pos h]

/-- A byte between two characters is taken as a first one. -/
theorem step_first {n : Nat} (hbyte : n < 256) :
    step ⟨text, none⟩ (UInt8.ofNat n) = first text n := by
  simp only [step, toNat_ofNat_byte hbyte]

/-- The last byte of a character completes it. -/
theorem step_last {bits low high part : Nat} (hpart : part < 64)
    (h : low ≤ part + 0x80 ∧ part + 0x80 ≤ high) :
    step ⟨text, some ⟨bits, 1, low, high⟩⟩ (UInt8.ofNat (part + 0x80)) =
      ⟨Char.ofNat (bits * 64 + part) :: text, none⟩ := by
  rw [step_open (by omega) h, continued, if_pos rfl, Nat.add_sub_cancel]

/-- Any other byte of a character leaves it open for fewer. -/
theorem step_more {bits owed low high part : Nat} (howed : owed ≠ 0) (hpart : part < 64)
    (h : low ≤ part + 0x80 ∧ part + 0x80 ≤ high) :
    step ⟨text, some ⟨bits, owed + 1, low, high⟩⟩ (UInt8.ofNat (part + 0x80)) =
      ⟨text, some ⟨bits * 64 + part, owed, 0x80, 0xBF⟩⟩ := by
  have hmore : ¬ owed + 1 = 1 := by omega
  rw [step_open (by omega) h, continued, if_neg hmore, Nat.add_sub_cancel, Nat.add_sub_cancel]

/-- A first byte of two opens a character. -/
theorem first_two {part : Nat} (hlow : 2 ≤ part) (hhigh : part < 32) :
    first text (part + 0xC0) = ⟨text, some ⟨part, 1, 0x80, 0xBF⟩⟩ := by
  have hof : FirstByte.of (part + 0xC0) = .opens ⟨part, 1, 0x80, 0xBF⟩ := by
    unfold FirstByte.of
    rw [if_neg (by omega), if_neg (by omega), if_pos (by omega), Nat.add_sub_cancel]
  rw [first, hof]

/-- A first byte of three opens a character whose next byte makes it neither overlong nor a
surrogate. -/
theorem first_three {part : Nat} (hpart : part < 16) :
    ∃ low high, first text (part + 0xE0) = ⟨text, some ⟨part, 2, low, high⟩⟩ ∧
      ∀ next < 64, (part = 0 → 32 ≤ next) → (part = 13 → next < 32) →
        low ≤ next + 0x80 ∧ next + 0x80 ≤ high := by
  unfold first FirstByte.of
  rw [if_neg (by omega), if_neg (by omega), if_neg (by omega)]
  split_ifs with hzero hthirteen hmiddle
  · obtain rfl : part = 0 := by omega
    exact ⟨0xA0, 0xBF, rfl, by omega⟩
  · obtain rfl : part = 13 := by omega
    exact ⟨0x80, 0x9F, rfl, by omega⟩
  · rw [Nat.add_sub_cancel]
    exact ⟨0x80, 0xBF, rfl, by omega⟩
  all_goals omega

/-- A first byte of four opens a character whose next byte makes it neither overlong nor too
great. -/
theorem first_four {part : Nat} (hpart : part < 5) :
    ∃ low high, first text (part + 0xF0) = ⟨text, some ⟨part, 3, low, high⟩⟩ ∧
      ∀ next < 64, (part = 0 → 16 ≤ next) → (part = 4 → next < 16) →
        low ≤ next + 0x80 ∧ next + 0x80 ≤ high := by
  unfold first FirstByte.of
  rw [if_neg (by omega), if_neg (by omega), if_neg (by omega), if_neg (by omega),
    if_neg (by omega), if_neg (by omega)]
  split_ifs with hzero hmiddle hfour
  · obtain rfl : part = 0 := by omega
    exact ⟨0x90, 0xBF, rfl, by omega⟩
  · rw [Nat.add_sub_cancel]
    exact ⟨0x80, 0xBF, rfl, by omega⟩
  · obtain rfl : part = 4 := by omega
    exact ⟨0x80, 0x8F, rfl, by omega⟩
  all_goals omega

/-- The bytes of a character are decoded to it. -/
theorem foldl_step_utf8EncodeChar (c : Char) :
    (String.utf8EncodeChar c).foldl step ⟨text, none⟩ = ⟨c :: text, none⟩ := by
  have hbits {bits : Nat} (h : bits = c.toNat) : Char.ofNat bits = c := by
    rw [h, Char.ofNat_toNat]
  have hscalar := toNat_cases c
  rcases utf8EncodeChar_cases c with ⟨hone, hbytes⟩ | ⟨hlow, hhigh, hbytes⟩ |
    ⟨hlow, hhigh, hbytes⟩ | ⟨hlow, hhigh, hbytes⟩
  · have hof : FirstByte.of c.toNat = .whole c := by
      unfold FirstByte.of
      rw [if_pos hone, Char.ofNat_toNat]
    rw [hbytes, List.foldl_cons, List.foldl_nil, step_first (by omega), first, hof]
  · rw [hbytes, List.foldl_cons, List.foldl_cons, List.foldl_nil, step_first (by omega),
      first_two (by omega) (by omega), step_last (by omega) (by omega), hbits (by omega)]
  · obtain ⟨low, high, hfirst, hrange⟩ := @first_three text (c.toNat / 4096) (by omega)
    have hnext := hrange (c.toNat / 64 % 64) (by omega) (by omega) (by omega)
    rw [hbytes, List.foldl_cons, List.foldl_cons, List.foldl_cons, List.foldl_nil,
      step_first (by omega), hfirst, step_more (by decide) (by omega) hnext,
      step_last (by omega) (by omega), hbits (by omega)]
  · obtain ⟨low, high, hfirst, hrange⟩ := @first_four text (c.toNat / 262144) (by omega)
    have hnext := hrange (c.toNat / 4096 % 64) (by omega) (by omega) (by omega)
    rw [hbytes, List.foldl_cons, List.foldl_cons, List.foldl_cons, List.foldl_cons, List.foldl_nil,
      step_first (by omega), hfirst, step_more (by decide) (by omega) hnext,
      step_more (by decide) (by omega) (by omega), step_last (by omega) (by omega),
      hbits (by omega)]

end Decoder

/-- Decoding undoes encoding. -/
theorem decode_encode (text : List Char) : decode (encode text) = text := by
  have hfold (before : List Char) :
      (encode text).foldl Decoder.step ⟨before, none⟩ = ⟨text.reverse ++ before, none⟩ := by
    induction text generalizing before with
    | nil => rfl
    | cons c text ih =>
      rw [encode_cons, List.foldl_append, Decoder.foldl_step_utf8EncodeChar, ih, List.reverse_cons,
        List.append_assoc]
      rfl
  rw [decode, hfold []]
  simp [Decoder.finish]

end AtMarkup.Text
