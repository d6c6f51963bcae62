import AtMarkup.Text.Hex
import AtMarkup.Text.Printable

/-!
# Quoted text

Names and values that a message talks about are shown in quotes, in printable characters only.
The quotes are single, unless the text holds a single quote and no double one.  A backslash and
the quote itself get a backslash in front; line feed, carriage return and tab have short escapes;
any other character that is not printable is shown by its code point in two, four or eight
hexadecimal digits.
-/

namespace AtMarkup.Text

/-- The quote that goes around a text. -/
def quoteFor (text : List Char) : Char :=
  if text.contains '\'' && !text.contains '"' then '"' else '\''

/-- The written form of one character between the given quotes. -/
def quotedCharacter (quote c : Char) : List Char :=
  if c = quote || c = '\\' then ['\\', c]
  else if c = '\n' then ['\\', 'n']
  else if c = '\r' then ['\\', 'r']
  else if c = '\t' then ['\\', 't']
  else if isPrintable c then [c]
  else if c.toNat < 0x100 then '\\' :: 'x' :: hexDigits 2 c.toNat
  else if c.toNat < 0x10000 then '\\' :: 'u' :: hexDigits 4 c.toNat
  else '\\' :: 'U' :: hexDigits 8 c.toNat

/-- A text in quotes. -/
def quoted (text : List Char) : List Char :=
  let quote := quoteFor text
  quote :: (text.flatMap (quotedCharacter quote) ++ [quote])

/-- A string in quotes. -/
def quotedString (text : String) : String :=
  String.ofList (quoted text.toList)

end AtMarkup.Text
