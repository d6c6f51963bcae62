import AtMarkup.Document
import AtMarkup.Source.FileSystem

/-!
# Documents in files

A document is read from a file up to a limit.  A path that leads nowhere, or not to a file, is a
`SourceError`, and so is a file that cannot be read to the end; a path with a NUL character is no
path at all and is refused before that.
-/

namespace AtMarkup

/-- Why a document cannot be had. -/
inductive SourceError where
  /-- There is no file at the path. -/
  | noFile (path : Path)
  /-- There is something at the path that cannot be read. -/
  | unreadable (path : Path) (cause : FileError)
  /-- There is no document at a URL, in words. -/
  | noDocument (message : String)
  /-- There is nothing at a URL that was not asked for as a document, in words. -/
  | noResource (message : String)
  /-- Fetching was given up; the cause is that of the last attempt, if there was one. -/
  | gaveUp (url : String) (cause : Option String)
  deriving DecidableEq, Repr, Inhabited

/-- The error in words. -/
def SourceError.message : SourceError → String
  | noFile path => "Document not found: " ++ path.text
  | unreadable path cause => "Failed to read " ++ path.text ++ ": " ++ cause.message
  | noDocument message => message
  | noResource message => message
  | gaveUp url cause => "Failed to fetch " ++ url ++ ": " ++ cause.getD "None"

/-- Whether the error means that there is no such document. -/
def SourceError.isAbsence : SourceError → Bool
  | noFile _ | noDocument _ => true
  | _ => false

/-- Why a path gives no document. -/
inductive PathError where
  /-- The path holds a NUL character. -/
  | embeddedNul
  /-- The path is one, but no document can be had from it. -/
  | source (error : SourceError)
  deriving DecidableEq, Repr, Inhabited

/-- What a file error means for a reader.  By its number the error tells that there is no file. -/
def PathError.ofFileError (path : Path) : FileError → PathError
  | .embeddedNul => .embeddedNul
  | .system error named =>
    if error.number = SystemError.notFound.number then .source (.noFile path)
    else .source (.unreadable path (.system error named))

/-- Reads the document at a path, up to a limit. -/
def readPath (settings : Settings) (files : FileSystem) (path : Path) (limit : Option Int) :
    Logged (Except PathError Bytes) :=
  match files.read? path with
  | .error error => pure (.error (.ofFileError path error))
  | .ok input => do
    let result ← input.read settings path.text limit
    pure (result.mapError fun error => .ofFileError path (.system error none))

/-- Compiles the document at a path. -/
def compileFile (settings : Settings) (files : FileSystem) (path : Path) (escaped : Bool) :
    Logged (Except PathError (Except Rejection Compiled)) := do
  match ← readPath settings files path none with
  | .error error => pure (.error error)
  | .ok data => do
    let outcome ← compile settings escaped (.bytes data)
    pure (.ok outcome)

end AtMarkup
