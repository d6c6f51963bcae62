import AtMarkup.Markup.OptionList
import AtMarkup.Markup.PendingText

/-!
# Reading markup

Markup is literal text and tags.  A tag is `@`, a name, an optional option list in parentheses,
and a block in braces that holds text and tags again:

    @main{ @heading(level: "2"){ Title } some text }

Blanks may stand behind the name and behind the option list.  In text a backslash takes the next
character as it is, except that `\n` is a line break; a plain line feed counts as a space, with or
without a backslash.  A backslash as the last character of a document is dropped.

The reader is an automaton.  `step` takes one character and the position it stands at, `read` runs
it along the text, and `finish` judges what has been read when the text ends.  Nothing is looked
at twice and nothing ahead, so a fault that `step` finds depends only on the text up to the
character at which it is found.

`Reading` tells the outcome and how far the reader came: behind the last character, or at the
character with the fault.
-/

namespace AtMarkup.Markup

/-! ## What is being read -/

/-- Which part of the grammar the next character belongs to.  Tag parts carry the position of
the tag's `@` and what the tag has so far; collected text is kept latest first. -/
inductive Mode where
  /-- The text of a block. -/
  | text
  /-- The character behind the backslash at the given position. -/
  | escaped (backslash : Position)
  /-- A tag name. -/
  | name (marker : Position) (typed : List Char)
  /-- What follows a name: blanks, then an option list or a block. -/
  | named (marker : Position) (kind : String)
  /-- The inside of an option list. -/
  | options (marker : Position) (kind : String) (typed : List Char)
  /-- What follows an option list: blanks, then a block. -/
  | optioned (marker : Position) (kind : String) (options : Tag.Options)
  deriving DecidableEq, Repr, Inhabited

/-- A tag whose block is still open, and the nodes before it in the enclosing block. -/
structure OpenTag where
  /-- The tag's name. -/
  kind : String
  /-- The tag's options. -/
  options : Tag.Options
  /-- Where its `@` stands. -/
  marker : Position
  /-- The finished nodes before the tag in the enclosing block, latest first. -/
  earlier : List Tag
  deriving Repr, Inhabited

/-- How far a document has been read. -/
structure Progress where
  /-- What the next character belongs to. -/
  mode : Mode := .text
  /-- The text run that is being collected. -/
  pending : PendingText := {}
  /-- The finished nodes of the innermost open block, latest first. -/
  nodes : List Tag := []
  /-- The tags whose blocks are open, innermost first. -/
  enclosing : List OpenTag := []
  deriving Repr, Inhabited

namespace Progress

/-- Nothing read yet. -/
def start : Progress := {}

/-- The finished nodes, the pending text among them, latest first. -/
def flushedNodes (p : Progress) : List Tag :=
  match p.pending.flush.1 with
  | none => p.nodes
  | some leaf => leaf :: p.nodes

/-- Turns the pending text into a node. -/
def flush (p : Progress) : Progress :=
  { p with pending := p.pending.flush.2, nodes := p.flushedNodes }

/-- Collects a piece of text and goes on reading text. -/
def collect (p : Progress) (c : Char) (position : Position) : Progress :=
  { p with mode := .text, pending := p.pending.add [c] position }

/-- Opens the block of a tag. -/
def openBlock (p : Progress) (marker : Position) (kind : String) (options : Tag.Options) :
    Progress :=
  { mode := .text, pending := .empty, nodes := [],
    enclosing := ⟨kind, options, marker, p.nodes⟩ :: p.enclosing }

end Progress

/-! ## One character -/

/-- A character of a tag name. -/
def isNameCharacter (c : Char) : Bool :=
  c.isAlphanum || c == '_'

/-- A character that ends a tag name. -/
def endsName (c : Char) : Bool :=
  c == '{' || c == '(' || Text.isBlank c

/-- A character that an option list must not hold. -/
def isForbiddenInOptions (c : Char) : Bool :=
  c == '{' || c == '}' || c == '(' || c == '@'

/-- What a character of the text stands for when no backslash is before it. -/
def plainCharacter (c : Char) : Char :=
  if c = '\n' then ' ' else c

/-- What a character of the text stands for behind a backslash. -/
def escapedCharacter (c : Char) : Char :=
  if c = 'n' then '\n' else if c = '\n' then ' ' else c

/-- Closes the innermost block: its tag becomes a node of the enclosing one. -/
def closeBlock (p : Progress) : Except Fault Progress :=
  match p.enclosing with
  | [] => .error .unmatchedBrace
  | tag :: outer =>
    .ok { p.flush with
          mode := .text
          nodes := ⟨tag.kind, tag.options, "", tag.marker, p.flush.nodes.reverse⟩ :: tag.earlier
          enclosing := outer }

/-- A character in the text of a block. -/
def stepText (limit : Int) (p : Progress) (here : Position) (c : Char) : Except Fault Progress :=
  if c = '\\' then .ok { p with mode := .escaped here }
  else if c = '@' then
    if limit < p.enclosing.length + 1 then .error (.tooDeep limit)
    else .ok { p.flush with mode := .name here [] }
  else if c = '}' then closeBlock p
  else .ok (p.collect (plainCharacter c) here)

/-- A character behind a complete tag name. -/
def stepNamed (p : Progress) (marker : Position) (kind : String) (c : Char) :
    Except Fault Progress :=
  if Text.isBlank c then .ok { p with mode := .named marker kind }
  else if c = '(' then .ok { p with mode := .options marker kind [] }
  else if c = '{' then .ok (p.openBlock marker kind .empty)
  else .error .unexpectedCharacter

/-- A character of a tag name, or the one that ends it. -/
def stepName (p : Progress) (marker : Position) (typed : List Char) (c : Char) :
    Except Fault Progress :=
  if endsName c then
    let kind := String.ofList typed.reverse
    if !typed.isEmpty && typed.all isNameCharacter then stepNamed p marker kind c
    else .error (.badName kind)
  else .ok { p with mode := .name marker (c :: typed) }

/-- A character of an option list, or the parenthesis that closes it. -/
def stepOptions (p : Progress) (marker : Position) (kind : String) (typed : List Char)
    (c : Char) : Except Fault Progress :=
  if c = ')' then
    match readOptions typed.reverse with
    | .ok options => .ok { p with mode := .optioned marker kind options }
    | .error fault => .error fault
  else if isForbiddenInOptions c then .error .unexpectedCharacter
  else .ok { p with mode := .options marker kind (c :: typed) }

/-- A character behind an option list. -/
def stepOptioned (p : Progress) (marker : Position) (kind : String) (options : Tag.Options)
    (c : Char) : Except Fault Progress :=
  if Text.isBlank c then .ok p
  else if c = '{' then .ok (p.openBlock marker kind options)
  else .error .unexpectedCharacter

/-- Takes the character `c`, which stands at `here`; no tag may lie deeper than `limit`. -/
def step (limit : Int) (p : Progress) (here : Position) (c : Char) : Except Fault Progress :=
  match p.mode with
  | .text => stepText limit p here c
  | .escaped backslash => .ok (p.collect (escapedCharacter c) backslash)
  | .name marker typed => stepName p marker typed c
  | .named marker kind => stepNamed p marker kind c
  | .options marker kind typed => stepOptions p marker kind typed c
  | .optioned marker kind options => stepOptioned p marker kind options c

/-! ## The whole text -/

/-- The top-level nodes when the text ends; inside a tag it must not end. -/
def topNodes (p : Progress) : Except Fault (List Tag) :=
  match p.mode, p.enclosing with
  | .text, [] => .ok p.flushedNodes.reverse
  | .escaped _, [] => .ok p.flushedNodes.reverse
  | _, _ => .error .unexpectedEnd

/-- The one node that a document consists of; the text ends at `stop`. -/
def soleNode (stop : Position) : List Tag → Except LocatedFault Tag
  | [] => .error ⟨.noRoot, stop⟩
  | [root] => .ok root
  | _ :: second :: _ => .error ⟨.severalRoots, second.position⟩

/-- Judges what has been read when the text ends at `stop`. -/
def finish (p : Progress) (stop : Position) : Except LocatedFault Tag :=
  match topNodes p with
  | .error fault => .error ⟨fault, stop⟩
  | .ok nodes => soleNode stop nodes

/-- What came of reading a text, and where the reader stopped. -/
structure Reading where
  /-- The root of the document, or what is wrong with it. -/
  outcome : Except LocatedFault Tag
  /-- The position behind the text, or that of the character at which reading broke off. -/
  stop : Position

/-- Reads the text ahead, whose first character stands at `here`. -/
def read (limit : Int) (p : Progress) (here : Position) : List Char → Reading
  | [] => ⟨finish p here, here⟩
  | c :: rest =>
    match step limit p here c with
    | .ok p => read limit p (here.after c) rest
    | .error fault => ⟨.error ⟨fault, here⟩, here⟩

/-- Reads a document whose line ends are unified. -/
def readUnified (limit : Int) (text : List Char) : Reading :=
  read limit .start .origin text

end AtMarkup.Markup
