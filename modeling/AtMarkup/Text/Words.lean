import AtMarkup.Text.Split
import AtMarkup.Text.Letter

/-!
# Words

A word is a run of letters and numerals.  Every other character separates words: white space,
punctuation, the underscore, decimal digits of any script, combining marks.  Neighbouring
separators enclose an empty word.
-/

namespace AtMarkup.Text

/-- A character that may stand in a word. -/
def isWordCharacter (c : Char) : Bool :=
  isLetter c || isNumeral c

/-- The words of a text, empty ones included. -/
def splitWords (text : List Char) : List (List Char) :=
  splitWhere (fun c => !isWordCharacter c) text

end AtMarkup.Text
