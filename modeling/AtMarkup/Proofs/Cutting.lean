import Mathlib
import AtMarkup.Proofs.OptionText

/-!
# Cutting a text

`Text.splitWhere` gives the pieces of a text and drops the characters at which it cuts. Here those
are kept as well:

* `interleave` puts pieces and separators together in turn.
* `IsCut` says that this gives the text, that there is one piece more than separators, and that a
  class of characters tells the two apart: what stands in a piece is in the class, a separator is
  not.

A text has one cut for each class, and `Text.splitWhere` finds it (`isCut_iff`). So the pieces of a
cut are the longest runs of the class, and there is an empty one wherever a separator has no run
before it or behind it.
-/

namespace AtMarkup.Text

/-- Pieces and separators in turn, a piece first. -/
def interleave : List (List Char) → List Char → List Char
  | [], separators => separators
  | piece :: pieces, [] => piece ++ interleave pieces []
  | piece :: pieces, separator :: separators =>
    piece ++ separator :: interleave pieces separators

/-- A text is cut into the pieces, whose characters are in the class, by the separators, which are
not. -/
structure IsCut (isInside : Char → Bool) (text : List Char) (pieces : List (List Char))
    (separators : List Char) : Prop where
  /-- The pieces stand before, between and behind the separators. -/
  length_eq : pieces.length = separators.length + 1
  /-- Together they are the text. -/
  interleave_eq : interleave pieces separators = text
  /-- The characters of a piece are in the class. -/
  inside : ∀ piece ∈ pieces, ∀ c ∈ piece, isInside c = true
  /-- A separator is not. -/
  separates : ∀ c ∈ separators, isInside c = false

variable {isInside : Char → Bool} {text piece separators : List Char} {pieces : List (List Char)}
  {c : Char}

/-! ## One character in front -/

/-- The empty text is one empty piece. -/
theorem isCut_nil (isInside : Char → Bool) : IsCut isInside [] [[]] [] :=
  ⟨rfl, rfl, by simp, by simp⟩

/-- A character of the class makes the first piece longer. -/
theorem IsCut.cons_inside (hc : isInside c = true)
    (h : IsCut isInside text (piece :: pieces) separators) :
    IsCut isInside (c :: text) ((c :: piece) :: pieces) separators where
  length_eq := h.length_eq
  interleave_eq := by
    rw [← h.interleave_eq]
    cases separators <;> rfl
  inside := by
    obtain ⟨hpiece, hpieces⟩ := List.forall_mem_cons.mp h.inside
    exact List.forall_mem_cons.mpr ⟨List.forall_mem_cons.mpr ⟨hc, hpiece⟩, hpieces⟩
  separates := h.separates

/-- Any other character separates an empty piece from the rest. -/
theorem IsCut.cons_separator (hc : isInside c = false) (h : IsCut isInside text pieces separators) :
    IsCut isInside (c :: text) ([] :: pieces) (c :: separators) where
  length_eq := congrArg (· + 1) h.length_eq
  interleave_eq := congrArg (c :: ·) h.interleave_eq
  inside := List.forall_mem_cons.mpr ⟨by simp, h.inside⟩
  separates := List.forall_mem_cons.mpr ⟨hc, h.separates⟩

/-- There is a first piece. -/
theorem IsCut.exists_cons (h : IsCut isInside text pieces separators) :
    ∃ piece rest, pieces = piece :: rest :=
  List.exists_cons_of_length_eq_add_one h.length_eq

/-- The text starts as its first piece does. -/
theorem IsCut.exists_eq_cons (h : IsCut isInside text ((c :: piece) :: pieces) separators) :
    ∃ rest, text = c :: rest := by
  rw [← h.interleave_eq]
  cases separators <;> exact ⟨_, rfl⟩

/-- Where the first piece is empty, the text does not start in the class. -/
theorem IsCut.head?_ne (h : IsCut isInside text ([] :: pieces) separators)
    (hc : isInside c = true) : text.head? ≠ some c := by
  rw [← h.interleave_eq]
  cases separators with
  | nil =>
    have hpieces : pieces = [] := List.eq_nil_of_length_eq_zero (Nat.succ.inj h.length_eq)
    rw [hpieces]
    exact Option.some_ne_none c ∘ Eq.symm
  | cons separator separators =>
    have hseparator := h.separates separator List.mem_cons_self
    exact fun hhead => Bool.false_ne_true
      (hseparator.symm.trans ((Option.some.inj hhead) ▸ hc))

/-! ## The cut of a text -/

/-- Splitting cuts the text, by what it drops. -/
theorem isCut_splitWhere (isInside : Char → Bool) (text : List Char) :
    IsCut isInside text (splitWhere (fun c => !isInside c) text)
      (text.filter fun c => !isInside c) := by
  induction text with
  | nil => exact isCut_nil isInside
  | cons c text ih =>
    cases hc : isInside c with
    | true =>
      obtain ⟨piece, pieces, hpieces⟩ := ih.exists_cons
      rw [hpieces] at ih
      simpa [prependPiece, hc, hpieces] using ih.cons_inside hc
    | false => simpa [prependPiece, hc] using ih.cons_separator hc

/-- A text has no other cut. -/
theorem IsCut.eq (h : IsCut isInside text pieces separators) :
    pieces = splitWhere (fun c => !isInside c) text ∧
      separators = text.filter fun c => !isInside c := by
  induction separators generalizing text pieces with
  | nil =>
    obtain ⟨piece, rfl⟩ := List.length_eq_one_iff.mp h.length_eq
    have htext : piece = text := by simpa [interleave] using h.interleave_eq
    have hinside : ∀ c ∈ text, (!isInside c) = false := fun c hc => by
      rw [h.inside piece List.mem_cons_self c (htext ▸ hc)]
      rfl
    rw [Grammar.splitWhere_eq_singleton hinside, htext]
    exact ⟨rfl, (List.filter_eq_nil_iff.mpr fun c hc => by simp [hinside c hc]).symm⟩
  | cons separator separators ih =>
    obtain ⟨piece, pieces, rfl⟩ := h.exists_cons
    obtain ⟨hpiece, hpieces⟩ := List.forall_mem_cons.mp h.inside
    obtain ⟨hseparator, hseparators⟩ := List.forall_mem_cons.mp h.separates
    obtain ⟨hsplit, hdropped⟩ := ih ⟨Nat.succ.inj h.length_eq, rfl, hpieces, hseparators⟩
    have hinside : ∀ c ∈ piece, (!isInside c) = false := fun c hc => by rw [hpiece c hc]; rfl
    have hcut : (!isInside separator) = true := by rw [hseparator]; rfl
    have hnone : piece.filter (fun c => !isInside c) = [] :=
      List.filter_eq_nil_iff.mpr fun c hc => by simp [hinside c hc]
    rw [← h.interleave_eq, interleave]
    constructor
    · rw [Grammar.splitWhere_append_cons hinside hcut, ← hsplit]
    · rw [List.filter_append, hnone, List.nil_append, List.filter_cons, if_pos hcut, ← hdropped]

/-- The cut of a text is what splitting gives, and what it drops. -/
theorem isCut_iff :
    IsCut isInside text pieces separators ↔
      pieces = splitWhere (fun c => !isInside c) text ∧
        separators = text.filter fun c => !isInside c := by
  refine ⟨IsCut.eq, ?_⟩
  rintro ⟨rfl, rfl⟩
  exact isCut_splitWhere isInside text

end AtMarkup.Text
