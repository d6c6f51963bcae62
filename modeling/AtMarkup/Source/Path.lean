import AtMarkup.Text.Split

/-!
# Paths

A path is a list of names parted by slashes.  Empty names and single dots mean nothing and are
dropped when a path is read; double dots are kept, since what they lead to depends on the
directories that are there.  A path that begins with a slash is absolute; one that begins with
exactly two keeps both.
-/

namespace AtMarkup

/-- A path without empty names and single dots. -/
structure Path where
  /-- What an absolute path begins with; empty for a relative one. -/
  root : String := ""
  /-- The names. -/
  names : List String
  deriving DecidableEq, Repr, Inhabited

namespace Path

/-- What a path begins with: nothing, one slash, or exactly two. -/
def rootOf : List Char → String
  | '/' :: '/' :: '/' :: _ => "/"
  | '/' :: '/' :: _ => "//"
  | '/' :: _ => "/"
  | _ => ""

/-- Reads a path. -/
def ofString (text : String) : Path :=
  let pieces := (Text.splitWhere (· == '/') text.toList).map String.ofList
  ⟨rootOf text.toList, pieces.filter fun piece => piece != "" && piece != "."⟩

/-- The text of a path; the empty path is a dot. -/
def text (path : Path) : String :=
  let shown := path.root ++ "/".intercalate path.names
  if shown.isEmpty then "." else shown

end Path

end AtMarkup
