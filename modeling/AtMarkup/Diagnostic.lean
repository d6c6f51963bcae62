import AtMarkup.Position

/-!
# Diagnostics

What is wrong with a document is told in one line: the stage that found it, what it is, and the
line and column, both counted from one.  A line feed inside the message is written as a backslash
and the letter n, so a diagnostic never breaks its line.
-/

namespace AtMarkup

/-- The stage of the work that finds fault with a document. -/
inductive Stage where
  /-- Reading the markup. -/
  | markup
  /-- Checking the rules of a document that could be read. -/
  | rules
  deriving DecidableEq, Repr, Inhabited

/-- The words in front of a diagnostic. -/
def Stage.label : Stage → String
  | .markup => "Syntax Error"
  | .rules => "Validation Error"

/-- The name of the stage in messages between programs. -/
def Stage.key : Stage → String
  | .markup => "syntax"
  | .rules => "validation"

/-- One thing that is wrong with a document, and where. -/
structure Diagnostic where
  /-- Who found it. -/
  stage : Stage
  /-- What it is. -/
  message : String
  /-- Where it is. -/
  position : Position
  deriving DecidableEq, Repr, Inhabited

namespace Diagnostic

/-- The written form of one character of a message. -/
def escapeBreak (c : Char) : List Char :=
  if c = '\n' then ['\\', 'n'] else [c]

/-- The message in one line. -/
def detail (d : Diagnostic) : String :=
  String.ofList (d.message.toList.flatMap escapeBreak)

/-- The whole diagnostic, with line and column counted from one. -/
def text (d : Diagnostic) : String :=
  d.stage.label ++ ": " ++ d.detail ++ " (line " ++ toString d.position.line ++ ", column " ++
    toString d.position.lineColumn ++ ")"

/-- Several diagnostics, a line each. -/
def joined (ds : List Diagnostic) : String :=
  "\n".intercalate (ds.map text)

/-- A detail has no line feed. -/
theorem not_mem_detail (d : Diagnostic) : '\n' ∉ d.detail.toList := by
  simp only [detail, String.toList_ofList, List.mem_flatMap, not_exists, not_and]
  intro c _
  unfold escapeBreak
  split <;> simp_all [eq_comm]

end Diagnostic

end AtMarkup
