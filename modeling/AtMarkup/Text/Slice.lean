/-!
# Slices

A slice is the part of a text between two offsets.  An offset below zero counts from the end;
afterwards both are brought into the bounds of the text, and a slice that would end before it
starts is empty.
-/

namespace AtMarkup.Text

/-- The place in a text of `length` characters that an offset means. -/
def sliceBound (length : Nat) (offset : Int) : Nat :=
  let fromStart := if offset < 0 then offset + length else offset
  min fromStart.toNat length

/-- The characters from `start` up to, and without, `stop`. -/
def slice (text : List Char) (start stop : Int) : List Char :=
  let length := text.length
  let first := sliceBound length start
  (text.drop first).take (sliceBound length stop - first)

/-- An offset within the text means itself. -/
theorem sliceBound_ofNat {length offset : Nat} (h : offset ≤ length) :
    sliceBound length offset = offset := by
  have hnonneg : ¬ ((offset : Int) < 0) := by omega
  simp [sliceBound, hnonneg, Nat.min_eq_left h]

/-- What a part of the text starts with is the slice of its length. -/
theorem slice_of_drop_eq_append {text front rest : List Char} {start : Nat}
    (hstart : start ≤ text.length) (h : text.drop start = front ++ rest) :
    slice text start (start + front.length : Nat) = front := by
  have hend : start + front.length ≤ text.length := by
    have hlength := congrArg List.length h
    rw [List.length_drop, List.length_append] at hlength
    omega
  rw [slice, sliceBound_ofNat hstart, sliceBound_ofNat hend, h, Nat.add_sub_cancel_left]
  exact List.take_left' rfl

end AtMarkup.Text
