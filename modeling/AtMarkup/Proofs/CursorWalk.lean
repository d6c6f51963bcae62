import Mathlib
import AtMarkup.Cursor
import AtMarkup.Proofs.Coordinates

/-!
# Where a cursor is after any number of moves

A cursor is told by how often it has been moved. The first move takes it onto the first character,
each further one to the next, and once it stands behind the text it stays.

* Its place and position after `k` moves are those of an offset in the unified text, by
  `current_iterate_advance` and `Position.ofOffset`. Moves beyond the end count as the one that led
  there, so the offset is `min (k - 1) length`.
* A cursor that has been moved and stands on nothing is behind the text (`advance_advance`). One
  that has not been moved stands on nothing either, and there a move does change it: this is why
  places are told apart by more than `current`.
-/

namespace AtMarkup

namespace Cursor

/-- One move takes the cursor to the next character ahead. -/
theorem advance_of_cons {cursor : Cursor} {c : Char} {rest : List Char}
    (h : cursor.ahead = c :: rest) : cursor.advance = ⟨.on c, cursor.nextPosition, rest⟩ := by
  rw [advance, h]

/-- With nothing ahead, one move takes the cursor behind the text. -/
theorem advance_of_nil {cursor : Cursor} (h : cursor.ahead = []) :
    cursor.advance = ⟨.ended, cursor.nextPosition, []⟩ := by
  rw [advance, h]

/-- Where the cursor is, and on what, after some moves and one more. -/
theorem current_iterate_advance (cursor : Cursor) (n : Nat) :
    (advance^[n + 1] cursor).position = cursor.nextPosition.afterText (cursor.ahead.take n) ∧
      (advance^[n + 1] cursor).current = cursor.ahead[n]? := by
  induction n generalizing cursor with
  | zero =>
    rw [Function.iterate_one]
    cases hahead : cursor.ahead with
    | nil =>
      rw [advance_of_nil hahead]
      exact ⟨rfl, rfl⟩
    | cons c rest =>
      rw [advance_of_cons hahead]
      exact ⟨rfl, rfl⟩
  | succ n ih =>
    rw [Function.iterate_succ_apply]
    obtain ⟨hposition, hcurrent⟩ := ih cursor.advance
    rw [hposition, hcurrent]
    cases hahead : cursor.ahead with
    | nil =>
      rw [advance_of_nil hahead]
      simp [nextPosition]
    | cons c rest =>
      rw [advance_of_cons hahead]
      exact ⟨rfl, rfl⟩

/-- The position behind the text is that of its length, however long one goes on. -/
theorem afterText_take_min (text : List Char) (n : Nat) :
    Position.origin.afterText (text.take n) = .ofOffset text (min n text.length) := by
  rw [← Position.afterText_take (Nat.min_le_right n text.length), List.take_eq_take_min]

/-- Where a cursor is that has been moved along a text, and on what. -/
theorem iterate_advance_ofText (text : List Char) (n : Nat) :
    let unified := Text.unifyLineBreaks text
    let cursor := advance^[n + 1] (ofText text)
    cursor.position = .ofOffset unified (min n unified.length) ∧ cursor.current = unified[n]? := by
  intro unified cursor
  obtain ⟨hposition, hcurrent⟩ := current_iterate_advance (ofText text) n
  exact ⟨hposition.trans (afterText_take_min unified n), hcurrent⟩

/-- What is at an offset of a text is also there when offsets end with the text. -/
theorem getElem?_min (text : List Char) (n : Nat) : text[min n text.length]? = text[n]? := by
  rcases Nat.le_total n text.length with h | h
  · rw [Nat.min_eq_left h]
  · rw [Nat.min_eq_right h, List.getElem?_eq_none (Nat.le_refl _), List.getElem?_eq_none h]

/-- The characters at the first offsets are the first characters. -/
theorem filterMap_getElem?_range (text : List Char) (n : Nat) :
    (List.range n).filterMap (fun k => text[k]?) = text.take n := by
  induction n with
  | zero => rfl
  | succ n ih =>
    rw [List.range_succ, List.filterMap_append, ih, List.take_add_one]
    cases h : text[n]? <;> simp [h]

/-- A cursor that has been moved and stands on nothing stays where it is. -/
theorem advance_advance {cursor : Cursor} (h : cursor.advance.current = none) :
    cursor.advance.advance = cursor.advance := by
  cases hahead : cursor.ahead with
  | nil =>
    rw [advance_of_nil hahead]
    exact advance_of_ended
  | cons c rest =>
    rw [advance_of_cons hahead] at h
    cases h

end Cursor

/-- **Where a cursor is.** It starts one before the first offset, in row zero and one before the
first column, on nothing. After `k` moves, one at least, it is at the offset `min (k - 1) length` of
the unified text: in the row that counts the line feeds before, in the column that counts from the
start of that row, and on the character there or, at the end, on nothing. The characters that it
comes to stand on are the text. Once it has come to stand on nothing, no number of further moves
changes anything about it. -/
theorem cursor_walk (text : List Char) :
    let unified := Text.unifyLineBreaks text
    let moved (k : Nat) := Cursor.advance^[k] (Cursor.ofText text)
    ((moved 0).position = ⟨-1, 0, -1⟩ ∧ (moved 0).current = none) ∧
      (∀ k, 1 ≤ k →
        let offset := min (k - 1) unified.length
        (moved k).position = .ofOffset unified offset ∧ (moved k).current = unified[offset]?) ∧
      (∀ n, (List.range n).filterMap (fun k => (moved (k + 1)).current) = unified.take n) ∧
      ∀ k, 1 ≤ k → (moved k).current = none → ∀ more, moved (k + more) = moved k := by
  intro unified moved
  refine ⟨⟨rfl, rfl⟩, fun k hk => ?_, fun n => ?_, fun k hk hnone more => ?_⟩
  · obtain ⟨n, rfl⟩ := Nat.exists_eq_add_of_le' hk
    obtain ⟨hposition, hcurrent⟩ := Cursor.iterate_advance_ofText text n
    exact ⟨hposition, hcurrent.trans (Cursor.getElem?_min unified n).symm⟩
  · have hcurrent : (fun k => (moved (k + 1)).current) = fun k => unified[k]? :=
      funext fun k => (Cursor.iterate_advance_ofText text k).2
    rw [hcurrent, Cursor.filterMap_getElem?_range]
  · obtain ⟨n, rfl⟩ := Nat.exists_eq_add_of_le' hk
    -- The move that led onto nothing was made from somewhere, so the next one changes nothing.
    have hlast : moved (n + 1) = (moved n).advance := Function.iterate_succ_apply' _ _ _
    have hstays : (moved (n + 1)).advance = moved (n + 1) := by
      rw [hlast] at hnone ⊢
      exact Cursor.advance_advance hnone
    have hsplit : moved (n + 1 + more) = Cursor.advance^[more] (moved (n + 1)) := by
      rw [Nat.add_comm]
      exact Function.iterate_add_apply _ _ _ _
    rw [hsplit, Function.iterate_fixed hstays]

/-- A cursor that has been moved five times along a text of three characters, the last of them a
line end of two characters, stands behind it, in the row that the line end opens, and stays
there. -/
theorem cursor_walk_line_end :
    let moved (k : Nat) := Cursor.advance^[k] (Cursor.ofText ['a', 'b', '\r', '\n'])
    (moved 3).position = ⟨2, 0, 2⟩ ∧ (moved 3).current = some '\n' ∧
      (moved 5).position = ⟨3, 1, 0⟩ ∧ (moved 5).current = none ∧
      ∀ more, moved (5 + more) = moved 5 := by
  intro moved
  have hthird := (cursor_walk ['a', 'b', '\r', '\n']).2.1 3 (by decide)
  have hfifth := (cursor_walk ['a', 'b', '\r', '\n']).2.1 5 (by decide)
  have hnone : (moved 5).current = none := hfifth.2
  exact ⟨hthird.1, hthird.2, hfifth.1, hnone,
    (cursor_walk ['a', 'b', '\r', '\n']).2.2.2 5 (by decide) hnone⟩

end AtMarkup
