/-!
# Blank characters

Markup is laid out freely, so "blank" is decided in one place.  A character is blank when it is
white space in the Unicode sense: the five ASCII layout controls, the four information
separators, the space, and the spaces and line separators beyond ASCII.  `isBlank` decides it
for a character and `isBlankText` for a text; the empty text is blank.
-/

namespace AtMarkup.Text

/-- White space in the Unicode sense, the four information separators U+001C to U+001F included. -/
def isBlank (c : Char) : Bool :=
  let n := c.toNat
  (9 ≤ n && n ≤ 13) || (28 ≤ n && n ≤ 32) || n == 0x85 || n == 0xA0 || n == 0x1680 ||
    (0x2000 ≤ n && n ≤ 0x200A) || n == 0x2028 || n == 0x2029 || n == 0x202F || n == 0x205F ||
    n == 0x3000

/-- A text is blank when it holds blank characters only, or none. -/
def isBlankText (text : List Char) : Bool :=
  text.all isBlank

@[simp] theorem isBlankText_nil : isBlankText [] = true := rfl

@[simp] theorem isBlankText_cons (c : Char) (text : List Char) :
    isBlankText (c :: text) = (isBlank c && isBlankText text) := rfl

@[simp] theorem isBlankText_append (a b : List Char) :
    isBlankText (a ++ b) = (isBlankText a && isBlankText b) := by
  simp [isBlankText]

end AtMarkup.Text
