import AtMarkup.Cli.Arguments
import AtMarkup.Http.Fetch

/-!
# The command

The command reads one document, from the standard input, a URL or a file, and writes its HTML or
its tree to the standard output or to a file, or only checks it.  Its exit status is 0 when all
went well, 1 when the document is rejected, and 2 when it cannot be had or the command line is
wrong.

`conclude` is what follows once the document is there, or known not to be.  `run` does the whole
work in a world that is given: what the standard input holds, what files there are, and what
servers answer.
-/

namespace AtMarkup.Cli

/-! ## The log -/

/-- An event as a line of the log. -/
def eventLine (time : String) (event : Event) : String :=
  time ++ " " ++ event.severity.name ++ " " ++ event.channel ++ ": " ++ event.message ++ "\n"

/-- The events that are shown: those of a level and above. -/
def logText (time : String) (least : Nat) (events : List Event) : String :=
  String.join ((events.filter fun event => event.severity.reaches least).map (eventLine time))

/-- The level from which on events are shown, if it can be told. -/
def leastShown? (settings : Settings) (arguments : Arguments) : Option Nat :=
  if arguments.verbose then some Severity.debug.number else levelNamed? settings.logLevel

/-! ## Once the document is there -/

/-- What the command does in the end. -/
structure Conclusion where
  /-- The exit status. -/
  status : Nat
  /-- What goes to the standard output. -/
  stdout : String := ""
  /-- What goes to the standard error output. -/
  stderr : String := ""
  /-- The file that is written, and its contents. -/
  file : Option (Path × String) := none
  deriving DecidableEq, Repr, Inhabited

/-- The output for a tree. -/
def outputText (arguments : Arguments) (root : Tag) : String :=
  if arguments.tree then root.dump "" else Html.render arguments.escapeText root

/-- A text that ends in a line feed. -/
def ended (text : String) : String :=
  if text.toList.getLast? == some '\n' then text else text ++ "\n"

/-- Where the output of a document goes. -/
inductive Outlet where
  /-- Nowhere, since the document is only checked. -/
  | nowhere
  /-- To the standard output. -/
  | screen
  /-- To a file. -/
  | file (name : String)
  deriving DecidableEq, Repr, Inhabited

/-- Where a command line sends the output; a file without a name is none. -/
def Arguments.outlet (arguments : Arguments) : Outlet :=
  if arguments.check then .nowhere
  else
    match arguments.output with
    | none | some "" => .screen
    | some name => .file name

/-- Delivers the output of a document that is in order. -/
def deliver (arguments : Arguments) (root : Tag) : Conclusion :=
  let text := outputText arguments root
  match arguments.outlet with
  | .nowhere => { status := 0 }
  | .screen => { status := 0, stdout := ended text }
  | .file name => { status := 0, file := some (.ofString name, text) }

/-- What follows when the document is there, or cannot be had. -/
def conclude (settings : Settings) (time : String) (least : Nat) (arguments : Arguments)
    (loaded : Logged (Except SourceError Bytes)) : Conclusion :=
  let before := logText time least loaded.events
  match loaded.value with
  | .error error => { status := 2, stderr := before ++ "Error: " ++ error.message ++ "\n" }
  | .ok bytes =>
    let parsed := parse settings.recursionLimit settings.depth (.bytes bytes)
    let log := before ++ logText time least parsed.events
    match parsed.value with
    | .error rejection => { status := 1, stderr := log ++ rejection.message ++ "\n" }
    | .ok root => { deliver arguments root with stderr := log }

/-! ## In a given world -/

/-- What the command finds. -/
structure World where
  /-- The rules for what is attached to an option. -/
  edition : Edition
  /-- What makes the requests. -/
  library : Http.Library
  /-- What comes from the standard input. -/
  stdin : Input := {}
  /-- The file system. -/
  files : FileSystem
  /-- What servers answer. -/
  answers : List Http.Answer := []
  /-- What keeps a text from being shown on the standard output, if anything does, in words: it may
  have no characters for it. -/
  unshown? : String → Option String := fun _ => none

/-- Whether an input is a URL. -/
def isUrl (location : String) : Bool :=
  "http://".toList.isPrefixOf location.toList || "https://".toList.isPrefixOf location.toList

/-- An error that the command does not catch. -/
inductive Uncaught where
  /-- There is something wrong with a file or the standard input. -/
  | file (error : FileError)
  /-- There is something wrong with a URL. -/
  | url (error : Http.UrlError)
  /-- The next pause of a fetch would have been doubled too often. -/
  | endlessPause
  /-- The output cannot be shown, for a reason in words. -/
  | unshown (reason : String)
  /-- The log is set to a level that does not exist. -/
  | unknownLevel (name : String)
  deriving DecidableEq, Repr, Inhabited

/-- The error in words. -/
def Uncaught.message : Uncaught → String
  | file error => error.message
  | url error => error.message
  | endlessPause => Http.FetchError.endlessPause.message
  | unshown reason => reason
  | unknownLevel name => "Unknown level: " ++ Text.quotedString (levelName name)

/-- Why there is no document. -/
inductive LoadError where
  /-- It cannot be had. -/
  | source (error : SourceError)
  /-- Something is wrong that the command does not catch. -/
  | uncaught (error : Uncaught)
  deriving DecidableEq, Repr, Inhabited

/-- What an error of a path means for the command. -/
def LoadError.ofPathError : PathError → LoadError
  | .source error => .source error
  | .embeddedNul => .uncaught (.file .embeddedNul)

/-- What an error of the standard input means for the command. -/
def LoadError.ofSystemError (error : SystemError) : LoadError :=
  .uncaught (.file (.system error none))

/-- What an error of a fetch means for the command. -/
def LoadError.ofFetchError : Http.FetchError → LoadError
  | .source error => .source error
  | .url error => .uncaught (.url error)
  | .endlessPause => .uncaught .endlessPause

/-- Gets the document. -/
def load (settings : Settings) (world : World) (location : String) :
    Logged (Except LoadError Bytes) :=
  if location == "-" then do
    let result ← world.stdin.read settings "<stdin>" none
    pure (result.mapError .ofSystemError)
  else if isUrl location then
    let (result, conversation) :=
      Http.fetchDocument world.library settings none location { answers := world.answers }
    ⟨result.mapError .ofFetchError, conversation.events⟩
  else do
    let result ← readPath settings world.files (.ofString location) none
    pure (result.mapError .ofPathError)

/-- How the command ends. -/
inductive Ending where
  /-- With an exit status. -/
  | returned (status : Nat)
  /-- With an exit status before any work is done. -/
  | dismissed (status : Nat)
  /-- With an error that it does not catch. -/
  | failed (error : Uncaught)
  deriving DecidableEq, Repr, Inhabited

/-- What came of the command. -/
structure Report where
  /-- How it ended. -/
  ending : Ending
  /-- What went to the standard output. -/
  stdout : String := ""
  /-- What went to the standard error output. -/
  stderr : String := ""
  /-- The files afterwards. -/
  files : FileSystem
  /-- The place that was opened to write, if one was. -/
  written : Option Place := none

/-- Does in a world what a conclusion asks for. -/
def Conclusion.carryOut (conclusion : Conclusion) (world : World) : Report :=
  let report : Report :=
    { ending := .returned conclusion.status, stdout := conclusion.stdout,
      stderr := conclusion.stderr, files := world.files }
  match conclusion.file with
  | none =>
    match if conclusion.stdout.isEmpty then none else world.unshown? conclusion.stdout with
    | some reason => { report with ending := .failed (.unshown reason), stdout := "" }
    | none => report
  | some (path, text) =>
    match world.files.target? path with
    | .error error => { report with ending := .failed (.file error) }
    | .ok place =>
      match world.files.write place (Text.encode text.toList) with
      | (files, none) => { report with files, written := some place }
      | (files, some error) =>
        { report with files, written := some place, ending := .failed (.file (.system error none)) }

/-- Does the work of a command line. -/
def runArguments (settings : Settings) (time : String) (world : World) (arguments : Arguments) :
    Report :=
  match leastShown? settings arguments with
  | none => { ending := .failed (.unknownLevel settings.logLevel), files := world.files }
  | some least =>
    let loaded := load settings world arguments.input
    let conclude := fun value => conclude settings time least arguments ⟨value, loaded.events⟩
    match loaded.value with
    | .error (.uncaught error) =>
      { ending := .failed error, files := world.files,
        stderr := logText time least loaded.events }
    | .error (.source error) => (conclude (.error error)).carryOut world
    | .ok bytes => (conclude (.ok bytes)).carryOut world

/-- Runs the command.  `time` is what stands in front of each line of the log. -/
def run (settings : Settings) (time : String) (world : World) (line : List String) : Report :=
  match Arguments.ofList world.edition line with
  | .ok arguments => runArguments settings time world arguments
  | .error .help => { ending := .dismissed 0, stdout := helpText, files := world.files }
  | .error (.error error) =>
    { ending := .dismissed 2, stderr := error.report, files := world.files }

end AtMarkup.Cli
