/-!
# Spacing

Inside a text run only single spaces survive: `compressSpaces` writes every run of spaces, tabs,
vertical tabs, form feeds and carriage returns as one space.  Line feeds are not spacing here,
since an escaped line break has to reach the output.
-/

namespace AtMarkup.Text

/-- The characters that make up a run of spacing; the line feed is not one. -/
def isSpacing (c : Char) : Bool :=
  c == ' ' || c == '\t' || c == '\x0b' || c == '\x0c' || c == '\r'

/-- Puts `c` in front of compressed text: spacing becomes one space, and none before a space. -/
def prependCompressed (c : Char) (out : List Char) : List Char :=
  if isSpacing c then
    match out with
    | ' ' :: _ => out
    | _ => ' ' :: out
  else c :: out

/-- Writes every run of spacing as one space. -/
def compressSpaces (text : List Char) : List Char :=
  text.foldr prependCompressed []

@[simp] theorem compressSpaces_nil : compressSpaces [] = [] := rfl

@[simp] theorem compressSpaces_cons (c : Char) (text : List Char) :
    compressSpaces (c :: text) = prependCompressed c (compressSpaces text) := rfl

/-- A character that is not spacing is kept. -/
theorem prependCompressed_of_not {c : Char} (h : isSpacing c = false) (out : List Char) :
    prependCompressed c out = c :: out := by
  simp [prependCompressed, h]

end AtMarkup.Text
