/-!
# Ranges of characters

Large character classes are tables of ranges of code points, both ends included.
-/

namespace AtMarkup.Text

/-- Whether a code point lies in one of the ranges of a table. -/
def inRanges (table : Array (Nat × Nat)) (codePoint : Nat) : Bool :=
  table.any fun range => decide (range.1 ≤ codePoint) && decide (codePoint ≤ range.2)

/-- Lying in a table is lying in one of its ranges. -/
theorem inRanges_iff (table : Array (Nat × Nat)) (codePoint : Nat) :
    inRanges table codePoint = true ↔
      ∃ range ∈ table, range.1 ≤ codePoint ∧ codePoint ≤ range.2 := by
  rw [inRanges, Array.any_eq_true']
  simp

end AtMarkup.Text
