import AtMarkup.Diagnostic
import AtMarkup.Tag.Basic

/-!
# The rules of a document

Markup that can be read may still break rules.  The root has to be a `main` tag, and some kinds
constrain their options:

* `alignment` of a paragraph or heading is left, right or center;
* `level` of a heading is 1 to 5;
* `style` of a list is unordered or ordered;
* an image and a link need a `uri`.

`violations` lists everything that is wrong with a tree: the root first, then each node in
document order, and for one node the rules of its kind in the order above.
-/

namespace AtMarkup

/-- A rule that a node can break. -/
inductive Rule where
  /-- The root is a `main` tag. -/
  | rootIsMain
  /-- An option, if given, has one of some values. -/
  | oneOf (option : String) (allowed : List String)
  /-- An option is given. -/
  | given (option : String)
  deriving DecidableEq, Repr, Inhabited

/-- The wording of a broken rule. -/
def Rule.message : Rule → String
  | .rootIsMain => "root tag must be @" ++ Tag.Kind.main.name
  | .oneOf option allowed => option ++ " must be: " ++ ", ".intercalate allowed
  | .given option => option ++ " parameter is required"

/-- A broken rule, and where the node that breaks it stands. -/
structure Violation where
  /-- What is broken. -/
  rule : Rule
  /-- Where the node stands. -/
  position : Position
  deriving DecidableEq, Repr, Inhabited

/-- The violation as a diagnostic. -/
def Violation.diagnostic (v : Violation) : Diagnostic :=
  ⟨.rules, v.rule.message, v.position⟩

namespace Rule

/-- The values of `alignment`. -/
def alignments : List String := ["left", "right", "center"]

/-- The values of `level`. -/
def headingLevels : List String := ["1", "2", "3", "4", "5"]

/-- The values of `style`. -/
def listStyles : List String := ["unordered", "ordered"]

/-- The rules of a kind, in the order in which they are reported. -/
def ofKind : Tag.Kind → List Rule
  | .paragraph => [.oneOf "alignment" alignments]
  | .heading => [.oneOf "alignment" alignments, .oneOf "level" headingLevels]
  | .list => [.oneOf "style" listStyles]
  | .image => [.given "uri"]
  | .link => [.given "uri"]
  | _ => []

/-- Whether a node keeps a rule, as far as its options tell. -/
def keptBy (tag : Tag) : Rule → Bool
  | .rootIsMain => tag.kind == Tag.Kind.main.name
  | .oneOf option allowed =>
    match tag.options.get? option with
    | none => true
    | some value => allowed.contains value
  | .given option => tag.options.contains option

/-- The rules that a node has to keep wherever it stands. -/
def ofTag (tag : Tag) : List Rule :=
  match Tag.Kind.ofName? tag.kind with
  | some kind => ofKind kind
  | none => []

end Rule

namespace Tag

/-- The given rules that a node breaks. -/
def broken (tag : Tag) (rules : List Rule) : List Violation :=
  (rules.filter fun rule => !rule.keptBy tag).map fun rule => ⟨rule, tag.position⟩

/-- Everything that is wrong with a tree, the root first and then in document order. -/
def violations (root : Tag) : List Violation :=
  root.broken [.rootIsMain] ++ root.walk.flatMap fun tag => tag.broken (Rule.ofTag tag)

end Tag

end AtMarkup
