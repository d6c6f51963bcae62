/-!
# Line breaks

A document may end its lines in a line feed, a carriage return, or the two together.  All
later work is done on text in which every line ends in one line feed: `unifyLineBreaks` turns a
carriage return into a line feed, together with a line feed that follows it at once.

Main statements: the loop lemma `unifyOnto_eq`, which frees the result from the accumulator, and
`unifyLineBreaks_of_not_mem`, that text without carriage returns is left alone.
-/

namespace AtMarkup.Text

/-- Unifies the line ends of a text behind `out`, which is kept latest first. -/
def unifyOnto (out : List Char) : List Char → List Char
  | [] => out.reverse
  | '\r' :: '\n' :: rest => unifyOnto ('\n' :: out) rest
  | '\r' :: rest => unifyOnto ('\n' :: out) rest
  | c :: rest => unifyOnto (c :: out) rest

/-- Writes every line end (CR LF, lone CR, LF) as one line feed. -/
def unifyLineBreaks (text : List Char) : List Char :=
  unifyOnto [] text

/-- The accumulator is only ever put in front. -/
theorem unifyOnto_eq (out text : List Char) :
    unifyOnto out text = out.reverse ++ unifyLineBreaks text := by
  unfold unifyLineBreaks
  suffices h : ∀ n : Nat, ∀ text : List Char, text.length ≤ n → ∀ out : List Char,
      unifyOnto out text = out.reverse ++ unifyOnto [] text from h _ text (Nat.le_refl _) out
  intro n
  induction n with
  | zero =>
    intro text hn out
    obtain rfl : text = [] := List.eq_nil_of_length_eq_zero (by omega)
    simp [unifyOnto]
  | succ n ih =>
    intro text hn out
    unfold unifyOnto
    split
    · simp
    · rename_i rest
      simp only [List.length_cons] at hn
      rw [ih rest (by omega) ('\n' :: out), ih rest (by omega) ['\n']]
      simp
    · rename_i rest _
      simp only [List.length_cons] at hn
      rw [ih rest (by omega) ('\n' :: out), ih rest (by omega) ['\n']]
      simp
    · rename_i c rest _ _
      simp only [List.length_cons] at hn
      rw [ih rest (by omega) (c :: out), ih rest (by omega) [c]]
      simp

@[simp] theorem unifyLineBreaks_nil : unifyLineBreaks [] = [] := rfl

/-- CR LF is one line end. -/
theorem unifyLineBreaks_crlf (rest : List Char) :
    unifyLineBreaks ('\r' :: '\n' :: rest) = '\n' :: unifyLineBreaks rest := by
  rw [unifyLineBreaks, unifyOnto, unifyOnto_eq]
  rfl

/-- A carriage return that no line feed follows is a line end of its own. -/
theorem unifyLineBreaks_cr {rest : List Char} (h : rest.head? ≠ some '\n') :
    unifyLineBreaks ('\r' :: rest) = '\n' :: unifyLineBreaks rest := by
  rw [unifyLineBreaks]
  unfold unifyOnto
  split
  · contradiction
  · rename_i heq
    cases heq
    simp at h
  · rename_i heq
    cases heq
    rw [unifyOnto_eq]
    rfl
  · rename_i hne heq
    cases heq
    exact (hne rfl).elim

/-- Any character but a carriage return is kept. -/
theorem unifyLineBreaks_cons {c : Char} (h : c ≠ '\r') (rest : List Char) :
    unifyLineBreaks (c :: rest) = c :: unifyLineBreaks rest := by
  rw [unifyLineBreaks]
  unfold unifyOnto
  split
  · contradiction
  · rename_i heq
    cases heq
    exact absurd rfl h
  · rename_i heq
    cases heq
    exact absurd rfl h
  · rename_i heq
    cases heq
    rw [unifyOnto_eq]
    rfl

/-- Text without carriage returns is left alone. -/
theorem unifyLineBreaks_of_not_mem {text : List Char} (h : '\r' ∉ text) :
    unifyLineBreaks text = text := by
  induction text with
  | nil => rfl
  | cons c rest ih =>
    simp only [List.mem_cons, not_or] at h
    rw [unifyLineBreaks_cons (Ne.symm h.1), ih h.2]

end AtMarkup.Text
