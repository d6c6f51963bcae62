/-!
# Splitting

`splitWhere isSeparator text` cuts a text at each character that `isSeparator` picks and drops that
character, so `n` separators give `n + 1` pieces, some of which may be empty.
-/

namespace AtMarkup.Text

/-- Puts `c` in front of a list of pieces: a separator opens a new piece, any other character
joins the first one. -/
def prependPiece (isSeparator : Char → Bool) (c : Char) (pieces : List (List Char)) :
    List (List Char) :=
  if isSeparator c then [] :: pieces
  else (c :: pieces.headD []) :: pieces.tail

/-- The pieces of a text between its separators, empty ones included. -/
def splitWhere (isSeparator : Char → Bool) (text : List Char) : List (List Char) :=
  text.foldr (prependPiece isSeparator) [[]]

@[simp] theorem splitWhere_nil (isSeparator : Char → Bool) : splitWhere isSeparator [] = [[]] := rfl

@[simp] theorem splitWhere_cons (isSeparator : Char → Bool) (c : Char) (text : List Char) :
    splitWhere isSeparator (c :: text) =
      prependPiece isSeparator c (splitWhere isSeparator text) := rfl

/-- Splitting gives at least one piece. -/
theorem splitWhere_ne_nil (isSeparator : Char → Bool) (text : List Char) :
    splitWhere isSeparator text ≠ [] := by
  cases text with
  | nil => simp
  | cons c text =>
    simp only [splitWhere_cons, prependPiece]
    split <;> simp

/-- One more piece than separators. -/
theorem length_splitWhere (isSeparator : Char → Bool) (text : List Char) :
    (splitWhere isSeparator text).length = text.countP isSeparator + 1 := by
  induction text with
  | nil => rfl
  | cons c text ih =>
    by_cases h : isSeparator c = true
    · simp [prependPiece, h, ih]
    · simp [prependPiece, h, ih]

/-- The pieces of a text together are the text without the separators. -/
theorem flatten_splitWhere (isSeparator : Char → Bool) (text : List Char) :
    (splitWhere isSeparator text).flatten = text.filter fun c => !isSeparator c := by
  induction text with
  | nil => rfl
  | cons c text ih =>
    obtain ⟨piece, pieces, hpieces⟩ :=
      List.exists_cons_of_ne_nil (splitWhere_ne_nil isSeparator text)
    rw [hpieces, List.flatten_cons] at ih
    by_cases hc : isSeparator c = true
    · simp [prependPiece, hpieces, hc, ih]
    · simp [prependPiece, hpieces, hc, ih]

/-- A piece has only characters of the text. -/
theorem mem_of_mem_splitWhere {isSeparator : Char → Bool} {text piece : List Char} {c : Char}
    (hpiece : piece ∈ splitWhere isSeparator text) (hc : c ∈ piece) : c ∈ text := by
  have hmem : c ∈ (splitWhere isSeparator text).flatten :=
    List.mem_flatten.mpr ⟨piece, hpiece, hc⟩
  rw [flatten_splitWhere] at hmem
  exact (List.mem_filter.mp hmem).1

end AtMarkup.Text
