import Mathlib
import AtMarkup.Proofs.ByteCeiling
import AtMarkup.Proofs.Compiling
import AtMarkup.Proofs.Utf8

/-!
# Truncated text

A document beyond the ceiling on bytes is cut, and the cut may go through a character. Decoding what
is left gives the characters that are whole, and one replacement if one is cut.

* `IsLongestFitting` and `CutsCharacter` say of a text which characters are whole and whether one is
  cut. Both follow the text character by character.
* `Decoder.exists_open`: some of the bytes of a character, but not all, leave the decoder with an
  open character, and nothing else. There is a case for each length and each place of the cut.
* `Decoder.foldl_step_take`: where the decoder stands at the cut, by induction on the text.
* `decode_truncated`: a bounded reading is decoded, and parsed, like the text that is left.
-/

namespace AtMarkup.Text

/-! ## Where a text is cut -/

/-- The longest beginning of the text that fits into `room` bytes. -/
structure IsLongestFitting (room : Nat) (text kept : List Char) : Prop where
  /-- It is a beginning. -/
  beginning : kept <+: text
  /-- It fits. -/
  fits : (encode kept).length ≤ room
  /-- No beginning that fits is longer. -/
  longest : ∀ other, other <+: text → (encode other).length ≤ room → other.length ≤ kept.length

/-- Behind `room` bytes of the text one is inside a character. -/
def CutsCharacter (room : Nat) (text : List Char) : Prop :=
  ∃ before c after, text = before ++ c :: after ∧ (encode before).length < room ∧
    room < (encode before).length + (String.utf8EncodeChar c).length

section

variable {room : Nat} {text kept : List Char} {c : Char}

/-- Only one beginning is the longest that fits. -/
theorem IsLongestFitting.eq {other : List Char} (h : IsLongestFitting room text kept)
    (hother : IsLongestFitting room text other) : kept = other := by
  have hlength : kept.length = other.length :=
    Nat.le_antisymm (hother.longest kept h.beginning h.fits)
      (h.longest other hother.beginning hother.fits)
  rw [List.prefix_iff_eq_take.mp h.beginning, List.prefix_iff_eq_take.mp hother.beginning, hlength]

theorem isLongestFitting_nil : IsLongestFitting room [] [] where
  beginning := List.nil_prefix
  fits := Nat.zero_le room
  longest := by
    intro other hother _
    exact hother.length_le

/-- A character that fits is kept, and the text behind it has the room that is left. -/
theorem IsLongestFitting.cons (h : IsLongestFitting room text kept) (c : Char) :
    IsLongestFitting ((String.utf8EncodeChar c).length + room) (c :: text) (c :: kept) where
  beginning := (List.prefix_cons_inj c).mpr h.beginning
  fits := by
    have hfits := h.fits
    rw [encode_cons, List.length_append]
    omega
  longest := by
    intro other hother hroom
    cases other with
    | nil => exact Nat.zero_le _
    | cons d other =>
      obtain ⟨rfl, hrest⟩ := List.cons_prefix_cons.mp hother
      rw [encode_cons, List.length_append] at hroom
      exact Nat.succ_le_succ (h.longest other hrest (by omega))

/-- Nothing is kept from a character on that does not fit. -/
theorem isLongestFitting_of_lt (h : room < (String.utf8EncodeChar c).length) (text : List Char) :
    IsLongestFitting room (c :: text) [] where
  beginning := List.nil_prefix
  fits := Nat.zero_le room
  longest := by
    intro other hother hroom
    cases other with
    | nil => exact Nat.le_refl 0
    | cons d other =>
      obtain ⟨rfl, -⟩ := List.cons_prefix_cons.mp hother
      rw [encode_cons, List.length_append] at hroom
      omega

theorem not_cutsCharacter_nil : ¬ CutsCharacter room [] := by
  rintro ⟨before, c, after, htext, -⟩
  simp at htext

/-- Behind a character that fits, the cut is in the text behind it. -/
theorem cutsCharacter_cons : CutsCharacter ((String.utf8EncodeChar c).length + room) (c :: text) ↔
    CutsCharacter room text := by
  constructor
  · rintro ⟨before, d, after, htext, hlow, hhigh⟩
    cases before with
    | nil =>
      obtain ⟨rfl, -⟩ := List.cons.inj htext
      simp only [encode, List.flatMap_nil, List.length_nil] at hhigh
      omega
    | cons first before =>
      obtain ⟨rfl, rfl⟩ := List.cons.inj htext
      rw [encode_cons, List.length_append] at hlow hhigh
      exact ⟨before, d, after, rfl, by omega, by omega⟩
  · rintro ⟨before, d, after, rfl, hlow, hhigh⟩
    refine ⟨c :: before, d, after, rfl, ?_, ?_⟩
    · rw [encode_cons, List.length_append]
      omega
    · rw [encode_cons, List.length_append]
      omega

/-- A character that does not fit is cut, unless there is no room at all. -/
theorem cutsCharacter_of_lt (h : room < (String.utf8EncodeChar c).length) :
    CutsCharacter room (c :: text) ↔ 0 < room := by
  constructor
  · rintro ⟨before, d, after, -, hlow, -⟩
    omega
  · intro hpos
    refine ⟨[], c, text, rfl, hpos, ?_⟩
    rwa [encode, List.flatMap_nil, List.length_nil, Nat.zero_add]

end

/-! ## Where the decoder stands at the cut -/

namespace Decoder

/-- Some bytes of a character, but not all of them, leave it open. -/
theorem exists_open (c : Char) {count : Nat} (hsome : 0 < count)
    (hpart : count < (String.utf8EncodeChar c).length) (text : List Char) :
    ∃ character, ((String.utf8EncodeChar c).take count).foldl step ⟨text, none⟩ =
      ⟨text, some character⟩ := by
  have hscalar := toNat_cases c
  rcases utf8EncodeChar_cases c with ⟨-, hbytes⟩ | ⟨hlow, hhigh, hbytes⟩ |
    ⟨hlow, hhigh, hbytes⟩ | ⟨hlow, hhigh, hbytes⟩
  · rw [hbytes, List.length_singleton] at hpart
    omega
  · have hcount : count = 1 := by
      simp only [hbytes, List.length_cons, List.length_nil] at hpart
      omega
    have hone := @first_two text (c.toNat / 64) (by omega) (by omega)
    rw [← step_first (by omega)] at hone
    rw [hbytes, hcount]
    exact ⟨_, hone⟩
  · obtain ⟨low, high, hfirst, hrange⟩ := @first_three text (c.toNat / 4096) (by omega)
    have hnext := hrange (c.toNat / 64 % 64) (by omega) (by omega) (by omega)
    have hcount : count = 1 ∨ count = 2 := by
      simp only [hbytes, List.length_cons, List.length_nil] at hpart
      omega
    have htwo : step ⟨text, some ⟨c.toNat / 4096, 2, low, high⟩⟩
        (UInt8.ofNat (c.toNat / 64 % 64 + 0x80)) =
          ⟨text, some ⟨c.toNat / 4096 * 64 + c.toNat / 64 % 64, 1, 0x80, 0xBF⟩⟩ :=
      step_more (by decide) (by omega) hnext
    rw [← step_first (by omega)] at hfirst
    rw [← hfirst] at htwo
    rw [hbytes]
    rcases hcount with rfl | rfl
    · exact ⟨_, hfirst⟩
    · exact ⟨_, htwo⟩
  · obtain ⟨low, high, hfirst, hrange⟩ := @first_four text (c.toNat / 262144) (by omega)
    have hnext := hrange (c.toNat / 4096 % 64) (by omega) (by omega) (by omega)
    have hcount : count = 1 ∨ count = 2 ∨ count = 3 := by
      simp only [hbytes, List.length_cons, List.length_nil] at hpart
      omega
    set bits := c.toNat / 262144 * 64 + c.toNat / 4096 % 64
    have htwo : step ⟨text, some ⟨c.toNat / 262144, 3, low, high⟩⟩
        (UInt8.ofNat (c.toNat / 4096 % 64 + 0x80)) = ⟨text, some ⟨bits, 2, 0x80, 0xBF⟩⟩ :=
      step_more (by decide) (by omega) hnext
    have hthree : step ⟨text, some ⟨bits, 2, 0x80, 0xBF⟩⟩
        (UInt8.ofNat (c.toNat / 64 % 64 + 0x80)) =
          ⟨text, some ⟨bits * 64 + c.toNat / 64 % 64, 1, 0x80, 0xBF⟩⟩ :=
      step_more (by decide) (by omega) (by omega)
    rw [← step_first (by omega)] at hfirst
    rw [← hfirst] at htwo
    rw [← htwo] at hthree
    rw [hbytes]
    rcases hcount with rfl | rfl | rfl
    · exact ⟨_, hfirst⟩
    · exact ⟨_, htwo⟩
    · exact ⟨_, hthree⟩

/-- Over the first bytes of a text, the decoder reads the longest beginning that fits, and is inside
a character if this is where the cut is. -/
theorem foldl_step_take (room : Nat) (text before : List Char) :
    ∃ kept pending, ((encode text).take room).foldl step ⟨before, none⟩ =
        ⟨kept.reverse ++ before, pending⟩ ∧
      IsLongestFitting room text kept ∧ (pending.isSome = true ↔ CutsCharacter room text) := by
  induction text generalizing room before with
  | nil =>
    refine ⟨[], none, ?_, isLongestFitting_nil, ?_⟩
    · rw [encode, List.flatMap_nil, List.take_nil]
      rfl
    · simp [not_cutsCharacter_nil]
  | cons c text ih =>
    rw [encode_cons]
    by_cases hfits : (String.utf8EncodeChar c).length ≤ room
    · obtain ⟨left, rfl⟩ := Nat.exists_eq_add_of_le hfits
      obtain ⟨kept, pending, hfold, hkept, hpending⟩ := ih left (c :: before)
      refine ⟨c :: kept, pending, ?_, hkept.cons c, hpending.trans cutsCharacter_cons.symm⟩
      rw [List.take_length_add_append, List.foldl_append, foldl_step_utf8EncodeChar, hfold,
        List.reverse_cons, List.append_assoc]
      rfl
    · have hcut := not_le.mp hfits
      rw [List.take_append_of_le_length hcut.le]
      rcases Nat.eq_zero_or_pos room with rfl | hpos
      · refine ⟨[], none, rfl, isLongestFitting_of_lt hcut text, ?_⟩
        simp [cutsCharacter_of_lt hcut]
      · obtain ⟨character, hopen⟩ := exists_open c hpos hcut before
        refine ⟨[], some character, hopen, isLongestFitting_of_lt hcut text, ?_⟩
        simp [cutsCharacter_of_lt hcut, hpos]

end Decoder

/-- What is left of a text that is cut is decoded to the longest beginning that fits, with a
replacement behind it if a character is cut. -/
theorem decode_take (room : Nat) (text : List Char) :
    ∃ kept, IsLongestFitting room text kept ∧
      (CutsCharacter room text → decode ((encode text).take room) = kept ++ [replacement]) ∧
      (¬ CutsCharacter room text → decode ((encode text).take room) = kept) := by
  obtain ⟨kept, pending, hfold, hkept, hpending⟩ := Decoder.foldl_step_take room text []
  refine ⟨kept, hkept, ?_, ?_⟩
  · intro hcut
    obtain ⟨character, rfl⟩ := Option.isSome_iff_exists.mp (hpending.mpr hcut)
    rw [decode, hfold]
    simp [Decoder.finish]
  · intro hwhole
    obtain rfl : pending = none := by
      rwa [← hpending, Option.not_isSome_iff_eq_none] at hwhole
    rw [decode, hfold]
    simp [Decoder.finish]

end AtMarkup.Text

namespace AtMarkup

/-- **Main result.** A steady stream brings a text in pieces and is read up to a ceiling of `room`
bytes, in chunks of any size that is not negative. The bytes are decoded to the longest beginning of
the text that fits, with one replacement behind it if a character is cut, and nothing otherwise.
They are parsed like this text, whatever depth is asked for, with the same positions and events. -/
theorem decode_truncated (text : List Char) (room : Nat) {stream : Stream}
    (hsteady : stream.IsSteady) (hbytes : stream.bytes = Text.encode text) {chunkSize : Option Int}
    (hsize : ∀ size ∈ chunkSize, 0 ≤ size) :
    let data := (readBounded .standard (some room) chunkSize stream).data
    ∃ kept, Text.IsLongestFitting room text kept ∧
      (Text.CutsCharacter room text → Text.decode data = kept ++ [Text.replacement]) ∧
      (¬ Text.CutsCharacter room text → Text.decode data = kept) ∧
      ∀ frames asked, parse frames asked (.bytes data) =
        parse frames asked (.text (String.ofList (Text.decode data))) := by
  intro data
  have hdata : data = (Text.encode text).take room := by
    have hsettings : 0 < Settings.standard.chunkSize := by decide
    have hreading := BoundedReading.readsOn_readBounded (some (room : Int)) chunkSize rfl hsettings
      hsize hsteady
    rw [← hbytes]
    exact hreading.data
  obtain ⟨kept, hkept, hcut, hwhole⟩ := Text.decode_take room text
  rw [← hdata] at hcut hwhole
  refine ⟨kept, hkept, hcut, hwhole, ?_⟩
  intro asked
  apply parse_congr
  exact (String.toList_ofList).symm

/-- Five bytes in two pieces are a letter, a sign of three bytes, and a letter. Up to three bytes,
in chunks of two, the sign is cut, and what is left is parsed like the first letter and a
replacement. -/
theorem decode_truncated_inside_sign :
    let stream : Stream := ⟨[[0x61, 0xE2], [0x82, 0xAC, 0x62]]⟩
    let data := (readBounded .standard (some 3) (some 2) stream).data
    stream.IsSteady ∧ stream.bytes = Text.encode ['a', '€', 'b'] ∧
      (∀ size ∈ some (2 : Int), 0 ≤ size) ∧
      Text.CutsCharacter 3 ['a', '€', 'b'] ∧ Text.decode data = ['a', Text.replacement] ∧
      ∀ frames asked, parse frames asked (.bytes data) =
        parse frames asked (.text (String.ofList ['a', Text.replacement])) := by
  intro stream data
  have hsteady : stream.IsSteady := by unfold Stream.IsSteady; decide
  have hbytes : stream.bytes = Text.encode ['a', '€', 'b'] := by decide
  have hsize : ∀ size ∈ some (2 : Int), 0 ≤ size := by decide
  have hletter : Text.IsLongestFitting 3 ['a', '€', 'b'] ['a'] :=
    (@Text.isLongestFitting_of_lt 2 '€' (by decide) ['b']).cons 'a'
  have hinside : Text.CutsCharacter 3 ['a', '€', 'b'] :=
    ⟨['a'], '€', ['b'], rfl, by decide, by decide⟩
  obtain ⟨kept, hkept, hcut, -, hparse⟩ := decode_truncated ['a', '€', 'b'] 3 hsteady hbytes hsize
  have hdecoded : Text.decode data = ['a', Text.replacement] :=
    (hcut hinside).trans (by rw [hkept.eq hletter]; rfl)
  refine ⟨hsteady, hbytes, hsize, hinside, hdecoded, ?_⟩
  intro asked
  rw [← hdecoded]
  exact hparse asked

end AtMarkup
