import Mathlib
import AtMarkup.Text.Blank
import AtMarkup.Text.LineBreak

/-!
# Unified line ends

`Text.unifyLineBreaks` leaves no carriage return (`not_mem_unifyLineBreaks`). It works on the two
sides of a place apart, unless the place is between a carriage return and a line feed
(`unifyLineBreaks_append`), and in front of text that starts with any other character it can be
taken apart there (`unifyLineBreaks_append_cons`). The other way round, where the unified text has
such a character the text can be taken apart, too (`exists_of_unifyLineBreaks_eq`). Blank text stays
blank, and no other text becomes blank (`isBlankText_unifyLineBreaks`).
-/

namespace AtMarkup.Text

/-- A property of texts holds when it holds of the empty text and passes to a text from what stands
behind its first line end or its first character. -/
theorem lineBreak_induction {motive : List Char → Prop} (nil : motive [])
    (crlf : ∀ rest, motive rest → motive ('\r' :: '\n' :: rest))
    (cr : ∀ rest, rest.head? ≠ some '\n' → motive rest → motive ('\r' :: rest))
    (cons : ∀ c rest, c ≠ '\r' → motive rest → motive (c :: rest)) (text : List Char) :
    motive text := by
  induction hlength : text.length using Nat.strong_induction_on generalizing text with
  | _ n ih =>
    cases text with
    | nil => exact nil
    | cons c rest =>
      rw [List.length_cons] at hlength
      by_cases hc : c = '\r'
      · subst hc
        by_cases hhead : rest.head? = some '\n'
        · obtain ⟨tail, rfl⟩ := List.head?_eq_some_iff.mp hhead
          rw [List.length_cons] at hlength
          exact crlf tail (ih tail.length (by omega) tail rfl)
        · exact cr rest hhead (ih rest.length (by omega) rest rfl)
      · exact cons c rest hc (ih rest.length (by omega) rest rfl)

/-- No carriage return is left. -/
theorem not_mem_unifyLineBreaks (text : List Char) : '\r' ∉ unifyLineBreaks text := by
  induction text using lineBreak_induction with
  | nil => simp
  | crlf rest ih =>
    rw [unifyLineBreaks_crlf]
    simp [ih]
  | cr rest hhead ih =>
    rw [unifyLineBreaks_cr hhead]
    simp [ih]
  | cons c rest hc ih =>
    rw [unifyLineBreaks_cons hc]
    simp [ih, Ne.symm hc]

/-- Two parts are unified apart, unless a line feed stands at the seam. -/
theorem unifyLineBreaks_append (a : List Char) {b : List Char} (hb : b.head? ≠ some '\n') :
    unifyLineBreaks (a ++ b) = unifyLineBreaks a ++ unifyLineBreaks b := by
  induction a using lineBreak_induction with
  | nil => rfl
  | crlf rest ih =>
    rw [List.cons_append, List.cons_append, unifyLineBreaks_crlf, unifyLineBreaks_crlf, ih,
      List.cons_append]
  | cr rest hhead ih =>
    have hseam : (rest ++ b).head? ≠ some '\n' := by
      cases rest with
      | nil => exact hb
      | cons d rest => exact hhead
    rw [List.cons_append, unifyLineBreaks_cr hseam, unifyLineBreaks_cr hhead, ih, List.cons_append]
  | cons c rest hc ih =>
    rw [List.cons_append, unifyLineBreaks_cons hc, unifyLineBreaks_cons hc, ih, List.cons_append]

/-- Text is unified apart in front of any character that is no line end. -/
theorem unifyLineBreaks_append_cons (a : List Char) {c : Char} (hc : c ≠ '\n' ∧ c ≠ '\r')
    (b : List Char) :
    unifyLineBreaks (a ++ c :: b) = unifyLineBreaks a ++ c :: unifyLineBreaks b := by
  rw [unifyLineBreaks_append a (by simpa using hc.1), unifyLineBreaks_cons hc.2]

/-- Text is unified apart behind any character that is no line end, too. -/
theorem unifyLineBreaks_behind (a : List Char) {c : Char} (hc : c ≠ '\n' ∧ c ≠ '\r')
    (b : List Char) :
    unifyLineBreaks (a ++ c :: b) = unifyLineBreaks (a ++ [c]) ++ unifyLineBreaks b := by
  rw [unifyLineBreaks_append_cons a hc, unifyLineBreaks_append_cons a hc, unifyLineBreaks_nil,
    List.append_assoc, List.singleton_append]

/-- Text without carriage returns stands as it is in front of any other. -/
theorem unifyLineBreaks_append_of_not_mem {a : List Char} (ha : '\r' ∉ a) (b : List Char) :
    unifyLineBreaks (a ++ b) = a ++ unifyLineBreaks b := by
  induction a with
  | nil => rfl
  | cons c a ih =>
    rw [List.mem_cons, not_or] at ha
    rw [List.cons_append, unifyLineBreaks_cons (Ne.symm ha.1), ih ha.2, List.cons_append]

/-- A text that starts with anything but a line feed can be taken apart in front of it. -/
theorem head?_append_ne {a : List Char} (ha : a ≠ []) {c : Char} (hc : c ∉ a) (b : List Char) :
    (a ++ b).head? ≠ some c := by
  obtain ⟨d, a, rfl⟩ := List.exists_cons_of_ne_nil ha
  rw [List.cons_append, List.head?_cons, ne_eq, Option.some.injEq]
  rintro rfl
  exact hc List.mem_cons_self

/-- Only the empty text is unified to nothing. -/
theorem eq_nil_of_unifyLineBreaks_eq_nil {text : List Char} (h : unifyLineBreaks text = []) :
    text = [] := by
  induction text using lineBreak_induction with
  | nil => rfl
  | crlf rest => simp [unifyLineBreaks_crlf] at h
  | cr rest hhead => simp [unifyLineBreaks_cr hhead] at h
  | cons c rest hc => simp [unifyLineBreaks_cons hc] at h

/-- A character of the unified text that is no line feed stands in the text itself, between what is
unified to the two sides of it. -/
theorem exists_of_unifyLineBreaks_eq {text a b : List Char} {c : Char} (hc : c ≠ '\n')
    (h : unifyLineBreaks text = a ++ c :: b) :
    ∃ front back, text = front ++ c :: back ∧ unifyLineBreaks front = a ∧
      unifyLineBreaks back = b := by
  induction text using lineBreak_induction generalizing a with
  | nil => simp at h
  | crlf rest ih =>
    rw [unifyLineBreaks_crlf] at h
    cases a with
    | nil => exact absurd (List.cons.inj h).1.symm hc
    | cons d a =>
      obtain ⟨rfl, hrest⟩ := List.cons.inj h
      obtain ⟨front, back, rfl, rfl, hback⟩ := ih hrest
      exact ⟨'\r' :: '\n' :: front, back, rfl, unifyLineBreaks_crlf front, hback⟩
  | cr rest hhead ih =>
    rw [unifyLineBreaks_cr hhead] at h
    cases a with
    | nil => exact absurd (List.cons.inj h).1.symm hc
    | cons d a =>
      obtain ⟨rfl, hrest⟩ := List.cons.inj h
      obtain ⟨front, back, rfl, rfl, hback⟩ := ih hrest
      -- The carriage return is still alone when the text ends in front of `c`.
      have hfront : front.head? ≠ some '\n' := by
        cases front with
        | nil => simp
        | cons e front => exact hhead
      exact ⟨'\r' :: front, back, rfl, unifyLineBreaks_cr hfront, hback⟩
  | cons d rest hd ih =>
    rw [unifyLineBreaks_cons hd] at h
    cases a with
    | nil =>
      obtain ⟨rfl, rfl⟩ := List.cons.inj h
      exact ⟨[], rest, rfl, rfl, rfl⟩
    | cons e a =>
      obtain ⟨rfl, hrest⟩ := List.cons.inj h
      obtain ⟨front, back, rfl, rfl, hback⟩ := ih hrest
      exact ⟨d :: front, back, rfl, unifyLineBreaks_cons hd front, hback⟩

/-- What the unified text starts with is what the text starts with, up to the first line end. -/
theorem exists_of_unifyLineBreaks_eq_append {text a b : List Char} (ha : '\n' ∉ a)
    (h : unifyLineBreaks text = a ++ b) : ∃ back, text = a ++ back ∧ unifyLineBreaks back = b := by
  induction a generalizing text with
  | nil => exact ⟨text, rfl, h⟩
  | cons c a ih =>
    rw [List.mem_cons, not_or] at ha
    obtain ⟨front, rest, rfl, hfront, hrest⟩ :=
      @exists_of_unifyLineBreaks_eq text [] (a ++ b) c (Ne.symm ha.1) h
    obtain rfl := eq_nil_of_unifyLineBreaks_eq_nil hfront
    obtain ⟨back, rfl, hback⟩ := ih ha.2 hrest
    exact ⟨back, rfl, hback⟩

/-- Unifying brings no character into a text and takes none out of it, but for line ends. -/
theorem mem_unifyLineBreaks_iff {text : List Char} {c : Char} (hc : c ≠ '\n' ∧ c ≠ '\r') :
    c ∈ unifyLineBreaks text ↔ c ∈ text := by
  constructor
  · intro hmem
    obtain ⟨a, b, hunified⟩ := List.append_of_mem hmem
    obtain ⟨front, back, rfl, -, -⟩ := exists_of_unifyLineBreaks_eq hc.1 hunified
    simp
  · intro hmem
    obtain ⟨a, b, rfl⟩ := List.append_of_mem hmem
    rw [unifyLineBreaks_append_cons a hc]
    simp

/-- Line ends are blank, however they are written. -/
theorem isBlankText_unifyLineBreaks (text : List Char) :
    isBlankText (unifyLineBreaks text) = isBlankText text := by
  have hreturn : isBlank '\r' = true := rfl
  have hfeed : isBlank '\n' = true := rfl
  induction text using lineBreak_induction with
  | nil => rfl
  | crlf rest ih =>
    rw [unifyLineBreaks_crlf, isBlankText_cons, isBlankText_cons, isBlankText_cons, hreturn, hfeed,
      ih, Bool.true_and, Bool.true_and]
  | cr rest hhead ih =>
    rw [unifyLineBreaks_cr hhead, isBlankText_cons, isBlankText_cons, hreturn, hfeed, ih]
  | cons c rest hc ih => rw [unifyLineBreaks_cons hc, isBlankText_cons, isBlankText_cons, ih]

end AtMarkup.Text
