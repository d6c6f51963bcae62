import Mathlib
import AtMarkup.Tag.Basic
import AtMarkup.Text.Blank
import AtMarkup.Text.Spacing

/-!
# The grammar of documents

What a document is, said as a grammar and without a reader, over text in which every line ends in
one line feed:

    document  ::=  items  |  items \
    items     ::=  (unit | tag)*
    unit      ::=  a character other than \ @ }  |  \ and any character
    tag       ::=  @ name blank* [ ( options ) blank* ] { items }
    options   ::=  blank*  |  segment (, segment)*
    segment   ::=  blank* key blank* : blank* " value " blank*

* **Items** (`Items here text items`): `text`, which starts at the position `here`, is spelled out
  as a list of decoded characters and finished tags. Each item knows where it starts, so the tree
  of a text carries positions and nothing about them is left to a reader.
* **Nodes** (`nodes`): the tags in their order, and one text leaf for each longest run of
  characters between them, unless the run is blank.
* **Documents** (`Document text nodes`): items from the origin on, and at most one backslash with
  nothing behind it.

A tag's header, from its `@` to its `{`, is a relation of its own (`Header`), so that `Items` has
one recursive rule for a tag. The depth of tags is no part of the grammar: `Tag.nesting` measures
it on the tree.
-/

namespace AtMarkup.Grammar

/-! ## Characters -/

/-- A character of a tag name: an ASCII letter or digit, or an underscore. -/
def IsWordCharacter (c : Char) : Prop :=
  ('A' ≤ c ∧ c ≤ 'Z') ∨ ('a' ≤ c ∧ c ≤ 'z') ∨ ('0' ≤ c ∧ c ≤ '9') ∨ c = '_'

/-- A character of an option key: one of a tag name, or a hyphen. -/
def IsKeyCharacter (c : Char) : Prop :=
  IsWordCharacter c ∨ c = '-'

/-- The characters that no option value holds. -/
def valueDelimiters : List Char :=
  ['\n', ',', '"', '{', '}', '(', ')', '@']

/-- A tag name. -/
def IsName (text : List Char) : Prop :=
  text ≠ [] ∧ ∀ c ∈ text, IsWordCharacter c

/-- An option key. -/
def IsKey (text : List Char) : Prop :=
  text ≠ [] ∧ ∀ c ∈ text, IsKeyCharacter c

/-- An option value. -/
def IsValue (text : List Char) : Prop :=
  ∀ c ∈ text, c ∉ valueDelimiters

/-- Any run of blanks, the empty one included. -/
def IsGap (text : List Char) : Prop :=
  Text.isBlankText text = true

instance : DecidablePred IsWordCharacter := fun c =>
  inferInstanceAs (Decidable
    (('A' ≤ c ∧ c ≤ 'Z') ∨ ('a' ≤ c ∧ c ≤ 'z') ∨ ('0' ≤ c ∧ c ≤ '9') ∨ c = '_'))

instance : DecidablePred IsKeyCharacter := fun c =>
  inferInstanceAs (Decidable (IsWordCharacter c ∨ c = '-'))

instance : DecidablePred IsName := fun text =>
  @instDecidableAnd _ _ inferInstance (List.decidableBAll IsWordCharacter text)

instance : DecidablePred IsKey := fun text =>
  @instDecidableAnd _ _ inferInstance (List.decidableBAll IsKeyCharacter text)

instance : DecidablePred IsValue := fun text =>
  List.decidableBAll (· ∉ valueDelimiters) text

instance : DecidablePred IsGap := fun text =>
  inferInstanceAs (Decidable (Text.isBlankText text = true))

/-- A unit of text, and the character that it stands for. A line feed stands for a space, with a
backslash or without; a line break proper is a backslash and the letter n. -/
inductive TextUnit : List Char → Char → Prop where
  | plain {c : Char} (h : c ∉ ['\\', '@', '}', '\n']) : TextUnit [c] c
  | lineFeed : TextUnit ['\n'] ' '
  | escaped {c : Char} (h : c ∉ ['n', '\n']) : TextUnit ['\\', c] c
  | escapedBreak : TextUnit ['\\', 'n'] '\n'
  | escapedLineFeed : TextUnit ['\\', '\n'] ' '

/-! ## Options and headers -/

/-- One option as it is written, with blanks wherever they are allowed. -/
inductive Segment : List Char → String × String → Prop where
  | mk {before key behind ahead value after : List Char} (hbefore : IsGap before)
      (hkey : IsKey key) (hbehind : IsGap behind) (hahead : IsGap ahead) (hvalue : IsValue value)
      (hafter : IsGap after) :
      Segment (before ++ key ++ behind ++ ':' :: (ahead ++ '"' :: (value ++ '"' :: after)))
        (String.ofList key, String.ofList value)

/-- Segments parted by commas, one at least. -/
inductive Segments : List Char → List (String × String) → Prop where
  | last {text : List Char} {pair : String × String} (h : Segment text pair) :
      Segments text [pair]
  | cons {text rest : List Char} {pair : String × String} {pairs : List (String × String)}
      (h : Segment text pair) (hrest : Segments rest pairs) :
      Segments (text ++ ',' :: rest) (pair :: pairs)

/-- The options that pairs give, told by their names and values. -/
structure Gives (pairs : List (String × String)) (options : Tag.Options) : Prop where
  /-- Each name is there once, in the order in which it comes first. -/
  names : options.names = (pairs.map Prod.fst).eraseDups
  /-- It has the value that it comes with last. -/
  values : ∀ name,
    options.get? name = (pairs.reverse.find? fun pair => pair.1 == name).map Prod.snd

/-- What stands between the parentheses, and the options that it gives. -/
inductive OptionText : List Char → Tag.Options → Prop where
  | blank {text : List Char} (h : IsGap text) : OptionText text .empty
  | list {text : List Char} {pairs : List (String × String)} {options : Tag.Options}
      (h : Segments text pairs) (hgives : Gives pairs options) : OptionText text options

/-- A tag from its `@` to its `{`, with its name and options. -/
inductive Header : List Char → String → Tag.Options → Prop where
  | bare {name gap : List Char} (hname : IsName name) (hgap : IsGap gap) :
      Header ('@' :: (name ++ gap ++ ['{'])) (String.ofList name) .empty
  | optioned {name gap text behind : List Char} {options : Tag.Options} (hname : IsName name)
      (hgap : IsGap gap) (htext : OptionText text options) (hbehind : IsGap behind) :
      Header ('@' :: (name ++ gap ++ '(' :: (text ++ ')' :: (behind ++ ['{']))))
        (String.ofList name) options

/-- A header has characters. -/
theorem Header.length_pos {header : List Char} {kind : String} {options : Tag.Options}
    (h : Header header kind options) : 0 < header.length := by
  cases h <;> exact Nat.succ_pos _

/-! ## Nodes -/

/-- One thing in a block: a decoded character, with the position of its unit, or a tag. -/
inductive Item where
  /-- A character. -/
  | character (c : Char) (position : Position)
  /-- A tag. -/
  | tag (tag : Tag)

/-- The text leaf of a run of characters; a blank run has none. The leaf stands where the run
starts. -/
def leaf? : List (Char × Position) → Option Tag
  | [] => none
  | (c, start) :: rest =>
    let text := c :: rest.map Prod.fst
    if Text.isBlankText text then none
    else some (Tag.textLeaf (String.ofList (Text.compressSpaces text)) start)

/-- The nodes of the items that follow a run of characters: the run goes on up to the next tag or
the last item. -/
def nodesAfter (run : List (Char × Position)) : List Item → List Tag
  | [] => (leaf? run).toList
  | .character c position :: items => nodesAfter (run ++ [(c, position)]) items
  | .tag tag :: items => (leaf? run).toList ++ tag :: nodesAfter [] items

/-- The nodes of a block with these items. -/
def nodes (items : List Item) : List Tag :=
  nodesAfter [] items

/-! ## Items and documents -/

/-- The text that starts at `here` is spelled out as `items`. -/
inductive Items : Position → List Char → List Item → Prop where
  | nil (here : Position) : Items here [] []
  | unit {here : Position} {unit rest : List Char} {c : Char} {items : List Item}
      (hunit : TextUnit unit c) (hrest : Items (here.afterText unit) rest items) :
      Items here (unit ++ rest) (.character c here :: items)
  | tag {here : Position} {header body rest : List Char} {kind : String} {options : Tag.Options}
      {inner items : List Item} (hheader : Header header kind options)
      (hbody : Items (here.afterText header) body inner)
      (hrest : Items (here.afterText (header ++ body ++ ['}'])) rest items) :
      Items here (header ++ body ++ ['}'] ++ rest)
        (.tag ⟨kind, options, "", here, nodes inner⟩ :: items)

/-- A document and the nodes at its top. -/
inductive Document : List Char → List Tag → Prop where
  | whole {text : List Char} {items : List Item} (h : Items .origin text items) :
      Document text (nodes items)
  | dangling {text : List Char} {items : List Item} (h : Items .origin text items) :
      Document (text ++ ['\\']) (nodes items)

end AtMarkup.Grammar

namespace AtMarkup.Tag

/-! ## Depth -/

/-- How many tags lie within each other on the longest way down from a node. A text leaf, which is
a node with content, does not count. -/
def nesting (tag : Tag) : Nat :=
  (if tag.content = "" then 1 else 0) + (tag.children.map nesting).foldr max 0
termination_by sizeOf tag
decreasing_by exact sizeOf_lt_of_mem_children ‹_›

end AtMarkup.Tag
