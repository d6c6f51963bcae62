/-!
# Kinds of tag

Thirteen tag names have a meaning of their own.  Any other name is allowed in a document; such a
tag has no rules to keep and is shown as a plain span.
-/

namespace AtMarkup.Tag

/-- The tag kinds that rules and output know. -/
inductive Kind where
  | main
  | text
  | paragraph
  | heading
  | list
  | bold
  | italic
  | underlined
  | block
  | columns
  | image
  | link
  | font
  deriving DecidableEq, Repr, Inhabited

namespace Kind

/-- The name of a kind, as it is written behind the `@`. -/
def name : Kind → String
  | main => "main"
  | text => "text"
  | paragraph => "paragraph"
  | heading => "heading"
  | list => "list"
  | bold => "bold"
  | italic => "italic"
  | underlined => "underlined"
  | block => "block"
  | columns => "columns"
  | image => "image"
  | link => "link"
  | font => "font"

/-- All kinds. -/
def all : List Kind :=
  [main, text, paragraph, heading, list, bold, italic, underlined, block, columns, image, link,
    font]

/-- The kind of that exact name, if there is one. -/
def ofName? (name : String) : Option Kind :=
  all.find? fun kind => kind.name == name

/-- No kind is left out of the list. -/
theorem mem_all (kind : Kind) : kind ∈ all := by
  cases kind <;> decide

/-- Names tell kinds apart. -/
theorem name_injective {a b : Kind} (h : a.name = b.name) : a = b := by
  cases a <;> cases b <;> first | rfl | exact absurd h (by decide)

/-- A kind is found under its name, and under no other. -/
theorem ofName?_eq_some_iff {text : String} {kind : Kind} :
    ofName? text = some kind ↔ kind.name = text := by
  constructor
  · intro h
    simpa using List.find?_some h
  · rintro rfl
    cases kind <;> decide

end Kind

end AtMarkup.Tag
