/-!
# Character references

Inside HTML the five characters that could be taken for markup are written as references.
-/

namespace AtMarkup.Html

/-- The written form of one character of plain text. -/
def escapeCharacter (c : Char) : List Char :=
  if c = '&' then "&amp;".toList
  else if c = '<' then "&lt;".toList
  else if c = '>' then "&gt;".toList
  else if c = '"' then "&quot;".toList
  else if c = '\'' then "&#x27;".toList
  else [c]

/-- Plain text as HTML. -/
def escape (text : String) : String :=
  String.ofList (text.toList.flatMap escapeCharacter)

end AtMarkup.Html
