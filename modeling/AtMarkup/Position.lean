/-!
# Positions in a text

A position is an offset together with its row and column, all counted in characters from zero.
Positions are whole numbers of either sign: the reader starts before the first character, and
trees that are built by hand may carry any position.

A character takes the reader from its own position to the next: `Position.after` opens a new row
behind a line feed and moves one column on behind anything else.
-/

namespace AtMarkup

/-- A place in a text, counted in characters from zero. -/
structure Position where
  /-- How many characters stand before. -/
  offset : Int := 0
  /-- How many line feeds stand before. -/
  row : Int := 0
  /-- How far the place is from the start of its row. -/
  column : Int := 0
  deriving DecidableEq, Repr, Inhabited

namespace Position

/-- The position of the first character. -/
def origin : Position := ⟨0, 0, 0⟩

/-- Where a reader stands that has not yet reached the first character. -/
def beforeOrigin : Position := ⟨-1, 0, -1⟩

/-- The position one character further on in the same row. -/
def nextColumn (p : Position) : Position :=
  ⟨p.offset + 1, p.row, p.column + 1⟩

/-- The position one character further on, at the start of the next row. -/
def nextRow (p : Position) : Position :=
  ⟨p.offset + 1, p.row + 1, 0⟩

/-- The position behind the character `c` that stands at `p`. -/
def after (p : Position) (c : Char) : Position :=
  if c = '\n' then p.nextRow else p.nextColumn

/-- The position behind a text that starts at `p`. -/
def afterText (p : Position) (text : List Char) : Position :=
  text.foldl after p

/-- The row as people count it. -/
def line (p : Position) : Int := p.row + 1

/-- The column as people count it. -/
def lineColumn (p : Position) : Int := p.column + 1

@[simp] theorem nextColumn_beforeOrigin : beforeOrigin.nextColumn = origin := rfl

@[simp] theorem afterText_nil (p : Position) : p.afterText [] = p := rfl

@[simp] theorem afterText_cons (p : Position) (c : Char) (text : List Char) :
    p.afterText (c :: text) = (p.after c).afterText text := rfl

/-- Each character moves the offset on by one. -/
@[simp] theorem offset_after (p : Position) (c : Char) : (p.after c).offset = p.offset + 1 := by
  unfold after
  split <;> rfl

/-- The offset behind a text is its length further on. -/
theorem offset_afterText (p : Position) (text : List Char) :
    (p.afterText text).offset = p.offset + text.length := by
  induction text generalizing p with
  | nil => simp
  | cons c text ih =>
    rw [afterText_cons, ih, offset_after, List.length_cons]
    omega

/-- From the origin on the offset is the length of what has been passed. -/
theorem offset_afterText_origin (text : List Char) :
    (origin.afterText text).offset = text.length := by
  rw [offset_afterText]
  exact Int.zero_add _

end Position

end AtMarkup
