import Mathlib
import AtMarkup.Text.Blank
import AtMarkup.Text.Spacing

/-!
# Compressed text

`Text.compressSpaces` brings a text into a normal form, which is described here without the
function: no spacing but the space, and no two spaces in a row (`IsCompressed`). Compressing gives
such a text (`isCompressed_compressSpaces`), leaves one alone (`compressSpaces_of_isCompressed`),
and neither makes nor loses a blank text (`isBlankText_compressSpaces`).
-/

namespace AtMarkup.Text

/-- No tab, vertical tab, form feed or carriage return, and no two spaces in a row. -/
def IsCompressed (text : List Char) : Prop :=
  (∀ c ∈ text, c ∉ ['\t', '\x0b', '\x0c', '\r']) ∧ ¬ [' ', ' '] <:+: text

/-- Spacing is the space and the four characters that compressed text does not have. -/
theorem isSpacing_iff (c : Char) :
    isSpacing c = true ↔ c = ' ' ∨ c ∈ ['\t', '\x0b', '\x0c', '\r'] := by
  simp only [isSpacing, Bool.or_eq_true, beq_iff_eq, List.mem_cons, List.not_mem_nil, or_false]
  tauto

/-- Spacing is blank. -/
theorem isBlank_of_isSpacing {c : Char} (h : isSpacing c = true) : isBlank c = true := by
  simp only [isSpacing, Bool.or_eq_true, beq_iff_eq] at h
  rcases h with (((rfl | rfl) | rfl) | rfl) | rfl <;> rfl

/-! ## One character in front -/

/-- Spacing in front of a space is swallowed by it. -/
theorem prependCompressed_space {c : Char} (h : isSpacing c = true) (rest : List Char) :
    prependCompressed c (' ' :: rest) = ' ' :: rest := by
  rw [prependCompressed, if_pos h]

/-- Spacing in front of anything else becomes a space. -/
theorem prependCompressed_of_isSpacing {c : Char} (h : isSpacing c = true) {out : List Char}
    (hout : out.head? ≠ some ' ') : prependCompressed c out = ' ' :: out := by
  unfold prependCompressed
  rw [if_pos h]
  split
  · exact absurd rfl hout
  · rfl

/-- What stands in front of compressed text is one character or none. -/
theorem prependCompressed_cases (c : Char) (out : List Char) :
    (prependCompressed c out = c :: out ∧ isSpacing c = false) ∨
      (isSpacing c = true ∧
        ((∃ rest, out = ' ' :: rest ∧ prependCompressed c out = out) ∨
          (out.head? ≠ some ' ' ∧ prependCompressed c out = ' ' :: out))) := by
  by_cases hspacing : isSpacing c = true
  · refine .inr ⟨hspacing, ?_⟩
    by_cases hhead : out.head? = some ' '
    · obtain ⟨rest, rfl⟩ := List.head?_eq_some_iff.mp hhead
      exact .inl ⟨rest, rfl, prependCompressed_space hspacing rest⟩
    · exact .inr ⟨hhead, prependCompressed_of_isSpacing hspacing hhead⟩
  · have hnot : isSpacing c = false := by simpa using hspacing
    exact .inl ⟨prependCompressed_of_not hnot out, hnot⟩

/-- One more character keeps text compressed. -/
theorem isCompressed_prependCompressed (c : Char) {out : List Char} (h : IsCompressed out) :
    IsCompressed (prependCompressed c out) := by
  obtain ⟨hchars, hspaces⟩ := h
  rcases prependCompressed_cases c out with ⟨heq, hnot⟩ | ⟨-, ⟨rest, -, heq⟩ | ⟨hhead, heq⟩⟩
  · have hc : ¬ (c = ' ' ∨ c ∈ ['\t', '\x0b', '\x0c', '\r']) := by
      rw [← isSpacing_iff, hnot]
      exact Bool.false_ne_true
    rw [not_or] at hc
    rw [heq]
    refine ⟨List.forall_mem_cons.mpr ⟨hc.2, hchars⟩, fun hinfix => ?_⟩
    rcases List.infix_cons_iff.mp hinfix with hprefix | hinfix
    · exact hc.1 (List.cons_prefix_cons.mp hprefix).1.symm
    · exact hspaces hinfix
  · rw [heq]
    exact ⟨hchars, hspaces⟩
  · rw [heq]
    refine ⟨List.forall_mem_cons.mpr ⟨by decide, hchars⟩, fun hinfix => ?_⟩
    rcases List.infix_cons_iff.mp hinfix with hprefix | hinfix
    · obtain ⟨tail, htail⟩ := (List.cons_prefix_cons.mp hprefix).2
      exact hhead (by rw [← htail]; rfl)
    · exact hspaces hinfix

/-! ## Whole texts -/

/-- Compressed text is compressed. -/
theorem isCompressed_compressSpaces (text : List Char) : IsCompressed (compressSpaces text) := by
  induction text with
  | nil => exact ⟨fun c hc => absurd hc List.not_mem_nil, by simp⟩
  | cons c text ih => exact isCompressed_prependCompressed c ih

/-- A tail of compressed text is compressed. -/
theorem IsCompressed.tail {c : Char} {text : List Char} (h : IsCompressed (c :: text)) :
    IsCompressed text :=
  ⟨fun d hd => h.1 d (List.mem_cons_of_mem c hd),
    fun hinfix => h.2 (List.infix_cons_iff.mpr (.inr hinfix))⟩

/-- Compressing changes nothing in compressed text. -/
theorem compressSpaces_of_isCompressed {text : List Char} (h : IsCompressed text) :
    compressSpaces text = text := by
  induction text with
  | nil => rfl
  | cons c text ih =>
    rw [compressSpaces_cons, ih h.tail]
    rcases prependCompressed_cases c text with ⟨heq, -⟩ | ⟨hspacing, hcases⟩
    · exact heq
    · have hspace : c = ' ' :=
        ((isSpacing_iff c).mp hspacing).resolve_right (h.1 c List.mem_cons_self)
      rcases hcases with ⟨rest, rfl, -⟩ | ⟨-, heq⟩
      · refine absurd ?_ h.2
        rw [hspace]
        exact ⟨[], rest, rfl⟩
      · rw [heq, hspace]

/-- Compressing neither makes nor loses a blank text. -/
theorem isBlankText_compressSpaces (text : List Char) :
    isBlankText (compressSpaces text) = isBlankText text := by
  induction text with
  | nil => rfl
  | cons c text ih =>
    rw [compressSpaces_cons, isBlankText_cons, ← ih]
    rcases prependCompressed_cases c (compressSpaces text) with
      ⟨heq, -⟩ | ⟨hspacing, ⟨rest, -, heq⟩ | ⟨-, heq⟩⟩
    · rw [heq, isBlankText_cons]
    · rw [heq, isBlank_of_isSpacing hspacing, Bool.true_and]
    · rw [heq, isBlankText_cons, isBlank_of_isSpacing hspacing]
      rfl

/-- Only the empty text is compressed to nothing. -/
theorem compressSpaces_ne_nil {text : List Char} (h : text ≠ []) : compressSpaces text ≠ [] := by
  obtain ⟨c, rest, rfl⟩ := List.exists_cons_of_ne_nil h
  rw [compressSpaces_cons]
  rcases prependCompressed_cases c (compressSpaces rest) with
    ⟨heq, -⟩ | ⟨-, ⟨tail, hout, heq⟩ | ⟨-, heq⟩⟩
  · rw [heq]
    exact List.cons_ne_nil _ _
  · rw [heq, hout]
    exact List.cons_ne_nil _ _
  · rw [heq]
    exact List.cons_ne_nil _ _

end AtMarkup.Text
