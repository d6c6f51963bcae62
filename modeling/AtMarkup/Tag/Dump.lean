import AtMarkup.Tag.Basic
import AtMarkup.Text.Hex

/-!
# Tree dumps

A dump shows a tree as indented text.  A node is a line with its name and options, the dumps of
its children four columns further in, a line with its content two columns further in if it has
any, and a closing line.  Content is quoted, option values are shown as they are.

A quoted content has a backslash before each quote and backslash, the short escapes for line
feed, carriage return, tab, backspace and form feed, and a four-digit escape for the other
control characters below U+0020.  All else stands for itself.
-/

namespace AtMarkup.Tag

/-- The written form of one character inside a quoted content. -/
def quoteCharacter (c : Char) : List Char :=
  if c = '"' then ['\\', '"']
  else if c = '\\' then ['\\', '\\']
  else if c = '\n' then ['\\', 'n']
  else if c = '\r' then ['\\', 'r']
  else if c = '\t' then ['\\', 't']
  else if c = '\x08' then ['\\', 'b']
  else if c = '\x0c' then ['\\', 'f']
  else if c.toNat < 0x20 then
    '\\' :: 'u' :: Text.hexDigits 4 c.toNat
  else [c]

/-- A content in quotes. -/
def quoteContent (content : String) : String :=
  String.ofList ('"' :: (content.toList.flatMap quoteCharacter ++ ['"']))

/-- One option: its name, and its value in quotes. -/
def dumpOption (entry : String × String) : String :=
  entry.1 ++ ": \"" ++ entry.2 ++ "\""

/-- The options of a node, parted by commas. -/
def dumpOptions (options : Options) : String :=
  ", ".intercalate (options.entries.map dumpOption)

/-- The tree as indented text, each line behind `indent`. -/
def dump (indent : String) (tag : Tag) : String :=
  let children := String.join (tag.children.map (dump (indent ++ "    ")))
  let content := if tag.content.isEmpty then ""
    else indent ++ "  " ++ quoteContent tag.content ++ "\n"
  indent ++ "@" ++ tag.kind ++ "(" ++ dumpOptions tag.options ++ ") \x7b\n" ++ children ++
    content ++ indent ++ "\x7d\n"
termination_by sizeOf tag
decreasing_by exact sizeOf_lt_of_mem_children ‹_›

end AtMarkup.Tag
