import AtMarkup.Event
import AtMarkup.Html.Render
import AtMarkup.Markup.Reader
import AtMarkup.Rules
import AtMarkup.Settings.Basic
import AtMarkup.Tag.Dump
import AtMarkup.Text.LineBreak
import AtMarkup.Text.Utf8

/-!
# Documents

A document comes as text or as bytes.  Reading it gives a tree that keeps all rules, or a
rejection: the first fault in its markup, or all the rules that its tree breaks.  Compiling it
gives HTML and a dump of the tree.

`parse` and `compile` report what happens on the way as events; `parse` reads no deeper than a
limit, which itself is capped so that the calls of all passes stay within what the interpreter
allows.
-/

namespace AtMarkup

/-- A document before it is read. -/
inductive Source where
  /-- Text. -/
  | text (content : String)
  /-- Bytes, which are read as UTF-8. -/
  | bytes (data : List UInt8)
  deriving DecidableEq, Repr, Inhabited

/-- The characters of a document. -/
def Source.characters : Source → List Char
  | .text content => content.toList
  | .bytes data => Text.decode data

/-- Why a document is not accepted. -/
inductive Rejection where
  /-- Its markup has a fault. -/
  | markup (fault : Markup.LocatedFault)
  /-- Its tree breaks rules. -/
  | rules (violations : List Violation)
  deriving DecidableEq, Repr, Inhabited

namespace Rejection

/-- The stage that rejects the document. -/
def stage : Rejection → Stage
  | markup _ => .markup
  | rules _ => .rules

/-- What is wrong, one by one. -/
def diagnostics : Rejection → List Diagnostic
  | markup fault => [fault.diagnostic]
  | rules violations => violations.map Violation.diagnostic

/-- What is wrong, a line each. -/
def message (r : Rejection) : String :=
  Diagnostic.joined r.diagnostics

end Rejection

/-- How many calls a level of tags takes in the deepest pass, some left for those who ask. -/
def framesPerLevel : Nat := 8

/-- The depth limit that is honoured when `asked` is asked for and calls may lie `frames` deep in
one another. -/
def effectiveDepth (frames : Nat) (asked : Int) : Int :=
  min asked ((max 1 (frames / framesPerLevel) : Nat) : Int)

/-- Accepts a tree that keeps all rules. -/
def checkRules (root : Tag) : Logged (Except Rejection Tag) :=
  match root.violations with
  | [] => pure (.ok root)
  | violations => do
    Logged.tell (.rulesBroken violations.length)
    pure (.error (.rules violations))

/-- Reads the markup of a document without checking the rules. -/
def readMarkup (frames : Nat) (asked : Int) (text : List Char) : Markup.Reading :=
  Markup.readUnified (effectiveDepth frames asked) (Text.unifyLineBreaks text)

/-- Reads a document into a tree that keeps all rules. -/
def parse (frames : Nat) (asked : Int) (source : Source) : Logged (Except Rejection Tag) :=
  match (readMarkup frames asked source.characters).outcome with
  | .error fault => pure (.error (.markup fault))
  | .ok root => checkRules root

/-- What a document becomes. -/
structure Compiled where
  /-- The HTML fragment. -/
  html : String
  /-- The dump of the tree. -/
  tree : String
  deriving DecidableEq, Repr, Inhabited

/-- Turns a tree into output. -/
def Compiled.ofTag (escaped : Bool) (root : Tag) : Compiled :=
  ⟨Html.render escaped root, root.dump ""⟩

/-- Reads a document and turns it into output, its text escaped or as it is. -/
def compile (settings : Settings) (escaped : Bool) (source : Source) :
    Logged (Except Rejection Compiled) := do
  match ← parse settings.recursionLimit settings.depth source with
  | .error rejection => pure (.error rejection)
  | .ok root =>
    let compiled := Compiled.ofTag escaped root
    Logged.tell (.compiled compiled.html.length)
    pure (.ok compiled)

/-- Line ends do not matter to the reader. -/
theorem readMarkup_of_unified {frames : Nat} {asked : Int} {text : List Char} (h : '\r' ∉ text) :
    readMarkup frames asked text = Markup.readUnified (effectiveDepth frames asked) text := by
  rw [readMarkup, Text.unifyLineBreaks_of_not_mem h]

end AtMarkup
