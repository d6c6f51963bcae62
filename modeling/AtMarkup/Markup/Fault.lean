import AtMarkup.Diagnostic

/-!
# Faults in markup

The eight things that can be wrong with markup, each with its wording.
-/

namespace AtMarkup.Markup

/-- What can be wrong with markup. -/
inductive Fault where
  /-- The text ends inside a tag. -/
  | unexpectedEnd
  /-- A character stands where the grammar has no place for it. -/
  | unexpectedCharacter
  /-- A block is closed that was never opened. -/
  | unmatchedBrace
  /-- A tag lies deeper than the given limit. -/
  | tooDeep (limit : Int)
  /-- A tag name is empty or holds characters that no name has. -/
  | badName (name : String)
  /-- A part of an option list is not a name with a quoted value. -/
  | badOption (segment : String)
  /-- The document holds no node at all. -/
  | noRoot
  /-- The document holds more than one node at the top. -/
  | severalRoots
  deriving DecidableEq, Repr, Inhabited

/-- The wording of a fault. -/
def Fault.message : Fault → String
  | .unexpectedEnd => "unexpected end of content"
  | .unexpectedCharacter => "unexpected token"
  | .unmatchedBrace => "unmatched closing brace"
  | .tooDeep limit => "maximum nesting depth of " ++ toString limit ++ " exceeded"
  | .badName name => "invalid tag name `" ++ name ++ "`"
  | .badOption segment => "invalid tag option format `" ++ segment ++ "`"
  | .noRoot => "no root tag found"
  | .severalRoots => "multiple root tags found"

/-- A fault and where it is. -/
structure LocatedFault where
  /-- What is wrong. -/
  fault : Fault
  /-- Where. -/
  position : Position
  deriving DecidableEq, Repr, Inhabited

/-- The fault as a diagnostic. -/
def LocatedFault.diagnostic (f : LocatedFault) : Diagnostic :=
  ⟨.markup, f.fault.message, f.position⟩

end AtMarkup.Markup
