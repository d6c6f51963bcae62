import Mathlib
import AtMarkup.Proofs.Cutting
import AtMarkup.Proofs.Spacing

/-!
# What compressing does to a text

`Spacing` tells which texts are compressed. This file tells which one a text is compressed to, and
that it does not matter in how many steps that is done.

* The characters that are not spacing are kept, in their order. They cut the text into gaps, and a
  gap that is not empty becomes one space (`isCut_compressSpaces`).
* A part that is compressed before the whole is makes no difference
  (`foldr_prependCompressed_compressSpaces`), since spacing in front of spacing is swallowed
  whatever follows.
-/

namespace AtMarkup.Text

/-! ## Gaps -/

/-- What becomes of a run of spacing: one space, or nothing where there is none. -/
def oneSpace : List Char → List Char
  | [] => []
  | _ :: _ => [' ']

/-- The characters that are not spacing stay where they are, and the gaps between them become one
space each, or stay empty. -/
theorem isCut_compressSpaces (text : List Char) :
    IsCut isSpacing (compressSpaces text)
      ((splitWhere (fun c => !isSpacing c) text).map oneSpace)
      (text.filter fun c => !isSpacing c) := by
  induction text with
  | nil => exact isCut_nil isSpacing
  | cons c text ih =>
    cases hc : isSpacing c with
    | false =>
      simpa [prependPiece, hc, prependCompressed_of_not hc, oneSpace] using ih.cons_separator hc
    | true =>
      obtain ⟨gap, gaps, hgaps⟩ := (isCut_splitWhere isSpacing text).exists_cons
      have hcut : IsCut isSpacing (prependCompressed c (compressSpaces text))
          ([' '] :: gaps.map oneSpace) (text.filter fun c => !isSpacing c) := by
        rw [hgaps, List.map_cons] at ih
        cases gap with
        | nil =>
          rw [prependCompressed_of_isSpacing hc (ih.head?_ne rfl)]
          exact ih.cons_inside rfl
        | cons d gap =>
          obtain ⟨rest, hrest⟩ := ih.exists_eq_cons
          rw [hrest, prependCompressed_space hc, ← hrest]
          exact ih
      simpa [prependPiece, hc, hgaps, oneSpace] using hcut

/-! ## Parts -/

/-- Spacing is as good as a space. -/
theorem prependCompressed_eq_space {c : Char} (hc : isSpacing c = true) (out : List Char) :
    prependCompressed c out = prependCompressed ' ' out := by
  by_cases hhead : out.head? = some ' '
  · obtain ⟨rest, rfl⟩ := List.head?_eq_some_iff.mp hhead
    rw [prependCompressed_space hc, prependCompressed_space rfl]
  · rw [prependCompressed_of_isSpacing hc hhead, prependCompressed_of_isSpacing rfl hhead]

/-- Spacing in front of spacing is swallowed. -/
theorem prependCompressed_prependCompressed {c d : Char} (hc : isSpacing c = true)
    (hd : isSpacing d = true) (out : List Char) :
    prependCompressed c (prependCompressed d out) = prependCompressed c out := by
  rcases prependCompressed_cases d out with ⟨-, hnot⟩ | ⟨-, ⟨rest, -, heq⟩ | ⟨hhead, heq⟩⟩
  · exact absurd hd (by rw [hnot]; exact Bool.false_ne_true)
  · rw [heq]
  · rw [heq, prependCompressed_space hc, prependCompressed_of_isSpacing hc hhead]

/-- In front of anything, compressed text does what the text itself does. -/
theorem foldr_prependCompressed_compressSpaces (text out : List Char) :
    (compressSpaces text).foldr prependCompressed out = text.foldr prependCompressed out := by
  induction text with
  | nil => rfl
  | cons c text ih =>
    rw [compressSpaces_cons, List.foldr_cons, ← ih]
    rcases prependCompressed_cases c (compressSpaces text) with
      ⟨heq, -⟩ | ⟨hc, ⟨rest, hout, heq⟩ | ⟨-, heq⟩⟩
    · rw [heq, List.foldr_cons]
    · rw [heq, hout, List.foldr_cons, prependCompressed_prependCompressed hc rfl,
        prependCompressed_eq_space hc]
    · rw [heq, List.foldr_cons, prependCompressed_eq_space hc]

/-- The first part of a text is put in front of the second, compressed. -/
theorem compressSpaces_append (a b : List Char) :
    compressSpaces (a ++ b) = a.foldr prependCompressed (compressSpaces b) :=
  List.foldr_append

/-- **Compressing is a normal form.** A compressed text has no spacing but the space and no two
spaces in a row. Everything that is not spacing is kept in its order, line feeds among it, and there
is a space between two such characters, or at an end, exactly where the text had spacing.
Compressing again changes nothing; of two parts, each can be compressed before the whole is; and a
text is blank exactly if it is so when compressed. -/
theorem compressed_normal_form (a b : List Char) :
    IsCompressed (compressSpaces a) ∧
      (∃ gaps kept, IsCut isSpacing a gaps kept ∧
        IsCut isSpacing (compressSpaces a) (gaps.map oneSpace) kept) ∧
      compressSpaces (compressSpaces a) = compressSpaces a ∧
      compressSpaces (a ++ b) = compressSpaces (compressSpaces a ++ compressSpaces b) ∧
      isBlankText (compressSpaces a) = isBlankText a := by
  have hcompressed := isCompressed_compressSpaces a
  refine ⟨hcompressed, ⟨_, _, isCut_splitWhere isSpacing a, isCut_compressSpaces a⟩,
    compressSpaces_of_isCompressed hcompressed, ?_, isBlankText_compressSpaces a⟩
  calc compressSpaces (a ++ b)
      = a.foldr prependCompressed (compressSpaces b) := compressSpaces_append a b
    _ = (compressSpaces a).foldr prependCompressed (compressSpaces b) :=
        (foldr_prependCompressed_compressSpaces a _).symm
    _ = (compressSpaces a).foldr prependCompressed (compressSpaces (compressSpaces b)) := by
        rw [compressSpaces_of_isCompressed (isCompressed_compressSpaces b)]
    _ = compressSpaces (compressSpaces a ++ compressSpaces b) :=
        (compressSpaces_append (compressSpaces a) (compressSpaces b)).symm

/-- A line feed between two gaps keeps them apart. -/
example :
    compressSpaces ['a', '\t', ' ', '\n', '\x0b', 'b', ' '] = ['a', ' ', '\n', ' ', 'b', ' '] := by
  decide

end AtMarkup.Text
