import AtMarkup.Position
import AtMarkup.Text.LineBreak

/-!
# A cursor over a text

A cursor walks a text one character at a time and always knows its position.  It starts before
the first character, stands on each character once, and ends behind the last one, where it
stays.  Line ends are unified before the walk, so positions count characters of the unified text.
-/

namespace AtMarkup

/-- What a cursor stands on. -/
inductive Cursor.Place where
  /-- Before the first character. -/
  | before
  /-- On a character. -/
  | on (c : Char)
  /-- Behind the last character. -/
  | ended
  deriving DecidableEq, Repr, Inhabited

/-- Where a reader is in a text, and what it has yet to read. -/
structure Cursor where
  /-- What the cursor stands on. -/
  place : Cursor.Place
  /-- Where that is. -/
  position : Position
  /-- The characters behind the one it stands on. -/
  ahead : List Char
  deriving DecidableEq, Repr, Inhabited

namespace Cursor

/-- The cursor before a text whose line ends are unified. -/
def ofUnified (text : List Char) : Cursor :=
  ⟨.before, Position.beforeOrigin, text⟩

/-- The cursor before a text. -/
def ofText (text : List Char) : Cursor :=
  ofUnified (Text.unifyLineBreaks text)

/-- The character that the cursor stands on. -/
def current (cursor : Cursor) : Option Char :=
  match cursor.place with
  | .on c => some c
  | _ => none

/-- The position one step further on: a new row behind a line feed, else a new column. -/
def nextPosition (cursor : Cursor) : Position :=
  match cursor.place with
  | .before => cursor.position.nextColumn
  | .on c => cursor.position.after c
  | .ended => cursor.position

/-- Moves one character on; behind the last character the cursor stays where it is. -/
def advance (cursor : Cursor) : Cursor :=
  match cursor.ahead with
  | c :: rest => ⟨.on c, cursor.nextPosition, rest⟩
  | [] => ⟨.ended, cursor.nextPosition, []⟩

/-- Moves over the given characters, which are those ahead, and behind the last of them. -/
def passing (cursor : Cursor) : List Char → Cursor
  | [] => ⟨.ended, cursor.nextPosition, []⟩
  | c :: rest => passing ⟨.on c, cursor.nextPosition, rest⟩ rest

/-- Moves behind the last character. -/
def drained (cursor : Cursor) : Cursor :=
  cursor.passing cursor.ahead

/-- How many moves there are until the cursor rests behind the text. -/
def left (cursor : Cursor) : Nat :=
  match cursor.place, cursor.ahead with
  | .ended, [] => 0
  | _, ahead => ahead.length + 1

/-- A move is one of those that are left, if any is. -/
@[simp] theorem left_advance (cursor : Cursor) : cursor.advance.left = cursor.left - 1 := by
  obtain ⟨place, position, ahead⟩ := cursor
  cases ahead with
  | nil => cases place <;> rfl
  | cons c rest => cases place <;> rfl

/-- A cursor on a character has a move left. -/
theorem left_pos_of_current {cursor : Cursor} {c : Char} (h : cursor.current = some c) :
    0 < cursor.left := by
  obtain ⟨place, position, ahead⟩ := cursor
  cases place with
  | on d => exact Nat.succ_pos _
  | before | ended => cases h

/-- Draining is advancing until nothing is ahead. -/
theorem drained_advance {cursor : Cursor} (h : cursor.ahead ≠ []) :
    cursor.advance.drained = cursor.drained := by
  unfold advance drained
  split
  · rename_i c rest hc
    rw [hc, passing]
  · contradiction

/-- At the end of the text a further step changes nothing. -/
theorem advance_of_ended {position : Position} :
    advance ⟨.ended, position, []⟩ = ⟨.ended, position, []⟩ := rfl

end Cursor

end AtMarkup
