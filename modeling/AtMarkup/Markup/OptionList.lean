import AtMarkup.Markup.Fault
import AtMarkup.Tag.Options
import AtMarkup.Text.Blank
import AtMarkup.Text.Split

/-!
# Option lists

What stands between the parentheses of a tag is blank, or a list of segments parted by commas.
A segment is a name, a colon and a value in double quotes, with blanks allowed around each:

    level: "2", alignment : "center"

A name is made of ASCII letters, digits, underscores and hyphens.  A value holds no comma, no
quote and no line feed.  A name that comes twice takes its later value.
-/

namespace AtMarkup.Markup

/-- A character of an option name. -/
def isOptionNameCharacter (c : Char) : Bool :=
  c.isAlphanum || c == '_' || c == '-'

/-- A character of an option value. -/
def isOptionValueCharacter (c : Char) : Bool :=
  c != '\n' && c != ',' && c != '"'

/-- Reads a quoted value with nothing but blanks around it. -/
def readOptionValue? (text : List Char) : Option String :=
  match text.dropWhile Text.isBlank with
  | '"' :: quoted =>
    match quoted.dropWhile isOptionValueCharacter with
    | '"' :: rest =>
      if Text.isBlankText rest then some (String.ofList (quoted.takeWhile isOptionValueCharacter))
      else none
    | _ => none
  | _ => none

/-- Reads one segment: name, colon, value. -/
def readOption? (segment : List Char) : Option (String × String) :=
  let text := segment.dropWhile Text.isBlank
  let name := text.takeWhile isOptionNameCharacter
  if name.isEmpty then none
  else
    match (text.dropWhile isOptionNameCharacter).dropWhile Text.isBlank with
    | ':' :: rest => (readOptionValue? rest).map fun value => (String.ofList name, value)
    | _ => none

/-- Adds the option that a segment gives. -/
def addOption (options : Tag.Options) (segment : List Char) : Except Fault Tag.Options :=
  match readOption? segment with
  | some (name, value) => .ok (options.insert name value)
  | none => .error (.badOption (String.ofList segment))

/-- Reads what stands between the parentheses; the first bad segment is the fault. -/
def readOptions (text : List Char) : Except Fault Tag.Options :=
  if Text.isBlankText text then .ok Tag.Options.empty
  else (Text.splitWhere (· == ',') text).foldlM addOption Tag.Options.empty

end AtMarkup.Markup
