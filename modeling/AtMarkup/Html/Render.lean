import AtMarkup.Html.Escape
import AtMarkup.Tag.Basic

/-!
# HTML output

A tree is shown as an HTML fragment.  Text leaves give their content, escaped if asked for, with a
break element for each line break.  An image is an empty element and its children are not shown.
Every other node is a shell around its children: what stands before and after all of them, and
before and after each one.  `shell` is the table of these; names it does not know give a span.

Option values go into attributes as they are, which is safe for what the reader accepts, since no
option value holds a double quote.
-/

namespace AtMarkup.Html

/-- The element that stands for a line break. -/
def lineBreak : String := "<br/>"

/-- What stands around the children of a node. -/
structure Shell where
  /-- Before all children. -/
  opening : String
  /-- After all children. -/
  closing : String
  /-- Before each child. -/
  itemOpening : String := ""
  /-- After each child. -/
  itemClosing : String := ""
  deriving DecidableEq, Repr, Inhabited

/-- One part of a style attribute, if the option is given. -/
def styleOption (options : Tag.Options) (option before after : String) : String :=
  match options.get? option with
  | some value => before ++ value ++ after
  | none => ""

/-- The style attribute of a font tag. -/
def fontStyle (options : Tag.Options) : String :=
  styleOption options "size" "font-size: " "px; " ++
    styleOption options "family" "font-family: " "; " ++
    styleOption options "color" "color: " "; "

/-- The shell of a node; `none` stands for names of no known kind. -/
def shell (kind : Option Tag.Kind) (options : Tag.Options) : Shell :=
  match kind with
  | some .main => ⟨"<div class=\"main-tag\">", "</div>", "", ""⟩
  | some .paragraph =>
    ⟨"<p class=\"text-" ++ options.getD "alignment" "left" ++ "\">", "</p>", "", ""⟩
  | some .heading =>
    ⟨"<p class=\"h" ++ options.getD "level" "1" ++ " text-" ++ options.getD "alignment" "left" ++
      "\">", "</p>", "", ""⟩
  | some .list =>
    if options.getD "style" "unordered" == "ordered" then ⟨"<ol>", "</ol>", "<li>", "</li>"⟩
    else ⟨"<ul>", "</ul>", "<li>", "</li>"⟩
  | some .bold => ⟨"<strong>", "</strong>", "", ""⟩
  | some .italic => ⟨"<em>", "</em>", "", ""⟩
  | some .underlined => ⟨"<u>", "</u>", "", ""⟩
  | some .block => ⟨"<div>", "</div>", "", ""⟩
  | some .columns => ⟨"<div class=\"row\">", "</div>", "<div class=\"col-sm\">", "</div>"⟩
  | some .link => ⟨"<a href=\"" ++ options.getD "uri" "" ++ "\">", "</a>", "", ""⟩
  | some .font => ⟨"<span style=\"" ++ fontStyle options ++ "\">", "</span>", "", ""⟩
  | some .text | some .image | none => ⟨"<span>", "</span>", "", ""⟩

/-- An image element. -/
def image (options : Tag.Options) : String :=
  "<img src=\"" ++ options.getD "uri" "" ++ "\" class=\"rounded mx-auto d-block\" >"

/-- One character of a text leaf. -/
def breakCharacter (c : Char) : List Char :=
  if c = '\n' then lineBreak.toList else [c]

/-- A text with break elements for its line breaks. -/
def withBreaks (text : String) : String :=
  String.ofList (text.toList.flatMap breakCharacter)

/-- A text leaf. -/
def textLeaf (escaped : Bool) (content : String) : String :=
  withBreaks (if escaped then escape content else content)

/-- A tree as an HTML fragment, its text escaped or as it is. -/
def render (escaped : Bool) (tag : Tag) : String :=
  match Tag.Kind.ofName? tag.kind with
  | some .text => textLeaf escaped tag.content
  | some .image => image tag.options
  | kind =>
    let around := shell kind tag.options
    let children := tag.children.map fun child =>
      around.itemOpening ++ render escaped child ++ around.itemClosing
    around.opening ++ String.join children ++ around.closing
termination_by sizeOf tag
decreasing_by exact Tag.sizeOf_lt_of_mem_children ‹_›

end AtMarkup.Html
