import Mathlib
import AtMarkup.Markup.Descent
import AtMarkup.Proofs.CursorWalk

/-!
# Scans that go over a text once

A scan goes over a text once if its cursor is where its moves have led, if they came to the
characters in order and to the end once at most, if each turn of a loop moved the cursor forward,
and if each tag began behind those around it (`Scan.IsSinglePass`).

* Three steps keep that: a move while there is one left, a turn that is over further on than it
  started, and a tag that begins behind those around it. Nothing else changes a scan.
* How many moves are left tells the offset (`offset_add_left`), so procedures that leave fewer moves
  than before come further on (`offset_le`, `offset_lt`).
* What a procedure cuts out of the text by two offsets is what the cursor has passed (`slice_eq`).
-/

namespace AtMarkup

/-! ## The cursor -/

namespace Cursor

/-- What the cursor has not left behind: the character that it stands on, and what is ahead. -/
def remaining (cursor : Cursor) : List Char :=
  cursor.current.toList ++ cursor.ahead

/-- A cursor on a character has it, and what is ahead, before it. -/
theorem remaining_of_current {cursor : Cursor} {c : Char} (h : cursor.current = some c) :
    cursor.remaining = c :: cursor.ahead := by
  rw [remaining, h]
  rfl

/-- Behind a move, what was ahead remains. -/
@[simp] theorem remaining_advance (cursor : Cursor) : cursor.advance.remaining = cursor.ahead := by
  cases hahead : cursor.ahead with
  | nil =>
    rw [advance_of_nil hahead]
    rfl
  | cons c rest =>
    rw [advance_of_cons hahead]
    rfl

/-- From a character a move leads behind it. -/
theorem nextPosition_of_current {cursor : Cursor} {c : Char} (h : cursor.current = some c) :
    cursor.nextPosition = cursor.position.after c := by
  obtain ⟨place, position, ahead⟩ := cursor
  cases place with
  | on d =>
    cases h
    rfl
  | before | ended => cases h

/-- So many moves are done, as long as there are any left. -/
theorem left_iterate_advance (cursor : Cursor) (n : Nat) :
    (advance^[n] cursor).left = cursor.left - n := by
  induction n with
  | zero => rfl
  | succ n ih =>
    rw [Function.iterate_succ_apply', left_advance, ih]
    omega

/-- A move takes one character of those ahead. -/
theorem ahead_iterate_advance (cursor : Cursor) (n : Nat) :
    (advance^[n] cursor).ahead = cursor.ahead.drop n := by
  induction n generalizing cursor with
  | zero => rfl
  | succ n ih =>
    rw [Function.iterate_succ_apply, ih]
    cases hahead : cursor.ahead with
    | nil =>
      rw [advance_of_nil hahead]
      simp
    | cons c rest =>
      rw [advance_of_cons hahead]
      rfl

end Cursor

namespace Markup

variable {text : List Char} {scan here : Scan}

/-! ## Single passes -/

/-- A scan of a text that goes over it once. -/
structure Scan.IsSinglePass (text : List Char) (scan : Scan) : Prop where
  /-- The cursor has been moved as often as is written down, and by nothing else. -/
  moved : scan.cursor = Cursor.advance^[scan.moves.length] (.ofUnified text)
  /-- The moves came to the characters of the text in order, to each once, and then to the end, once
  at most. -/
  inOrder : scan.moves.reverse = (text.map some ++ [none]).take scan.moves.length
  /-- Each turn of a loop moved the cursor forward. -/
  forward : ∀ turn ∈ scan.turns, turn.start.offset < turn.stop.offset
  /-- Each tag began behind the one around it, and so on outwards. -/
  nested : ∀ markers ∈ scan.tags, markers.Pairwise fun inner outer => outer.offset < inner.offset

namespace Scan.IsSinglePass

/-- Each character and the end take one move. -/
theorem length_moves_le (h : scan.IsSinglePass text) : scan.moves.length ≤ text.length + 1 := by
  have hlength := congrArg List.length h.inOrder
  rw [List.length_reverse, List.length_take, List.length_append, List.length_map,
    List.length_singleton] at hlength
  omega

/-- The moves that are left are those that have not been made. -/
theorem left_add_length (h : scan.IsSinglePass text) :
    scan.left + scan.moves.length = text.length + 1 := by
  have hleft : scan.left = text.length + 1 - scan.moves.length := by
    rw [Scan.left, h.moved, Cursor.left_iterate_advance]
    rfl
  have hle := h.length_moves_le
  omega

/-- The offset tells how many moves are left. -/
theorem offset_add_left (h : scan.IsSinglePass text) :
    scan.position.offset + scan.left = text.length := by
  have hleft := h.left_add_length
  have hposition : scan.position.offset = scan.moves.length - 1 := by
    rw [Scan.position, h.moved]
    cases hlength : scan.moves.length with
    | zero => rfl
    | succ n =>
      obtain ⟨hposition, -⟩ := Cursor.current_iterate_advance (.ofUnified text) n
      have hnext : (Cursor.ofUnified text).nextPosition = .origin := rfl
      have hle := h.length_moves_le
      rw [hposition, hnext, Position.offset_afterText_origin, List.length_take]
      show ((min n text.length : Nat) : Int) = _
      omega
  omega

/-- Nothing has been done before the text. -/
theorem start (text : List Char) : (Scan.start text).IsSinglePass text where
  moved := rfl
  inOrder := rfl
  forward := by simp [Scan.start]
  nested := by simp [Scan.start]

/-- The next move comes to the first character to which none has come, or to the end. -/
theorem current_advance_eq (h : scan.IsSinglePass text) :
    scan.cursor.advance.current = text[scan.moves.length]? := by
  have hnext : scan.cursor.advance = Cursor.advance^[scan.moves.length + 1] (.ofUnified text) := by
    rw [Function.iterate_succ_apply', ← h.moved]
  rw [hnext]
  exact (Cursor.current_iterate_advance (.ofUnified text) _).2

/-- **Move.** If there is a move left, it comes to the next character or to the end. -/
theorem advance (h : scan.IsSinglePass text) (hleft : 0 < scan.left) :
    scan.advance.IsSinglePass text where
  moved := by
    rw [Scan.advance, List.length_cons, Function.iterate_succ_apply', ← h.moved]
  inOrder := by
    have hwithin : scan.moves.length ≤ text.length := by
      have hsum := h.left_add_length
      omega
    have hnext : (text.map some ++ [none])[scan.moves.length]? =
        some scan.cursor.advance.current := by
      rw [h.current_advance_eq]
      rcases Nat.lt_or_eq_of_le hwithin with hlt | heq
      · rw [List.getElem?_append_left (by simpa using hlt), List.getElem?_map,
          List.getElem?_eq_getElem hlt]
        rfl
      · rw [heq]
        simp
    rw [Scan.advance, List.reverse_cons, h.inOrder, List.length_cons, List.take_add_one, hnext]
    rfl
  forward := h.forward
  nested := h.nested

/-- **Turn.** A turn that is over further on than it started moved forward. -/
theorem turned (h : scan.IsSinglePass text) (loop : Loop) {start : Position}
    (hforward : start.offset < scan.position.offset) :
    (scan.turned loop start).IsSinglePass text :=
  { h with forward := List.forall_mem_cons.mpr ⟨hforward, h.forward⟩ }

/-- **Tag.** A tag that begins behind those around it is nested in them. -/
theorem entered (h : scan.IsSinglePass text) {around : List Position}
    (hnested : (scan.position :: around).Pairwise fun inner outer => outer.offset < inner.offset) :
    (scan.entered around).IsSinglePass text :=
  { h with nested := List.forall_mem_cons.mpr ⟨hnested, h.nested⟩ }

/-- The cursor has not gone back if no more moves are left than before. -/
theorem offset_le (h : scan.IsSinglePass text) (hhere : here.IsSinglePass text)
    (hleft : here.left ≤ scan.left) : scan.position.offset ≤ here.position.offset := by
  have hoffset := h.offset_add_left
  have hoffset' := hhere.offset_add_left
  omega

/-- The cursor has gone forward if fewer moves are left than before. -/
theorem offset_lt (h : scan.IsSinglePass text) (hhere : here.IsSinglePass text)
    (hleft : here.left < scan.left) : scan.position.offset < here.position.offset := by
  have hoffset := h.offset_add_left
  have hoffset' := hhere.offset_add_left
  omega

/-- What is ahead are the characters to which no move has come. -/
theorem ahead_eq (h : scan.IsSinglePass text) :
    scan.cursor.ahead = text.drop scan.moves.length := by
  rw [h.moved]
  exact Cursor.ahead_iterate_advance (.ofUnified text) _

/-- What has been passed behind a character is the slice between the two offsets. -/
theorem slice_eq (h : scan.IsSinglePass text) (hhere : here.IsSinglePass text) {c d : Char}
    {passed : List Char} (hcurrent : scan.current = some c) (hstop : here.current = some d)
    (hpassed : scan.advance.cursor.remaining = passed ++ here.cursor.remaining) :
    Text.slice text (scan.position.offset + 1) here.position.offset = passed := by
  have hahead : text.drop scan.moves.length = passed ++ here.cursor.remaining := by
    rw [← h.ahead_eq, ← scan.cursor.remaining_advance]
    exact hpassed
  have hsum := h.left_add_length
  have hsum' := hhere.left_add_length
  have hleft := Scan.left_pos_of_current hcurrent
  have hleft' := Scan.left_pos_of_current hstop
  have hstart : scan.position.offset + 1 = scan.moves.length := by
    have hoffset := h.offset_add_left
    omega
  have hend : here.position.offset = (scan.moves.length + passed.length : Nat) := by
    have hoffset := hhere.offset_add_left
    have hlength := congrArg List.length hahead
    rw [Cursor.remaining_of_current hstop, hhere.ahead_eq, List.length_append, List.length_cons,
      List.length_drop, List.length_drop] at hlength
    omega
  rw [hstart, hend]
  exact Text.slice_of_drop_eq_append (by omega) hahead

end Scan.IsSinglePass

end Markup

end AtMarkup
