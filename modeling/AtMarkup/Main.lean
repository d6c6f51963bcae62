import AtMarkup.Cli.Run
import AtMarkup.Settings.Environment
import Std.Time.Format

/-!
# The program

The command of `AtMarkup.Cli.Run`, with the real environment, standard streams and files in place of
a given world.  This module only fetches and delivers; what the command line means, what is reported
and what is written is decided there.

No network is at hand here: a request for a URL goes unanswered.
-/

namespace AtMarkup.Cli

/-! ## Settings -/

/-- The variables that settings are read from. -/
def variableNames : List String := [
  "TAGMARK_MAX_INPUT_BYTES", "TAGMARK_READ_CHUNK_SIZE", "TAGMARK_MAX_DEPTH",
  "TAGMARK_FETCH_TIMEOUT_S", "TAGMARK_FETCH_MAX_RETRIES", "TAGMARK_FETCH_BACKOFF_S",
  "TAGMARK_MAX_SOURCE_CHARS", "TAGMARK_USER_AGENT", "TAGMARK_LOG_LEVEL"]

/-- The variables that are set. -/
def getEnvironment : IO Environment := do
  let mut environment : Environment := []
  for name in variableNames do
    if let some value ← IO.getEnv name then environment := (name, value) :: environment
  pure environment

/-! ## Inputs -/

/-- What a failure of the operating system says. -/
def systemErrorOf (error : IO.Error) : SystemError :=
  match error with
  | .alreadyExists _ number wording | .invalidArgument _ number wording
  | .permissionDenied _ number wording | .resourceExhausted _ number wording
  | .inappropriateType _ number wording | .noSuchThing _ number wording
  | .interrupted _ number wording | .noFileOrDirectory _ number wording
  | .otherError number wording | .resourceBusy number wording
  | .resourceVanished number wording | .unsupportedOperation number wording
  | .hardwareFault number wording | .unsatisfiedConstraints number wording
  | .illegalOperation number wording | .protocolError number wording
  | .timeExpired number wording => ⟨number.toNat, wording⟩
  | .unexpectedEof => ⟨5, "Unexpected end of file"⟩
  | .userError wording => ⟨5, wording⟩

/-- How many bytes are asked for at a time. -/
def pieceSize : Nat := 512

/-- What comes from a stream: all of it, or more than the limit that may be given. -/
def gather (stream : IO.FS.Stream) (limit : Option Nat) : IO Input := do
  let mut pieces : List Bytes := []
  let mut total := 0
  try
    while limit.all (total ≤ ·) do
      let piece ← stream.read (USize.ofNat pieceSize)
      if piece.isEmpty then break
      pieces := piece.toList :: pieces
      total := total + piece.size
    pure { data := pieces.reverse.flatten }
  catch error => pure ⟨pieces.reverse.flatten, systemErrorOf error⟩

/-- How much of a stream settings need: all of it if chunks are of a negative size. -/
def neededOf (settings : Settings) : Option Nat :=
  if settings.chunkSize < 0 then none else some settings.byteLimit.toNat

/-- Gets the document. -/
def fetchInput (settings : Settings) (location : String) :
    IO (Logged (Except LoadError Bytes)) := do
  if location == "-" then
    let input ← gather (← IO.getStdin) (neededOf settings)
    let read := input.read settings "<stdin>" none
    pure ⟨read.value.mapError .ofSystemError, read.events⟩
  else if isUrl location then
    let (result, conversation) := Http.fetchDocument .literal settings none location
      { answers := [.failure "All connection attempts failed"] }
    pure ⟨result.mapError .ofFetchError, conversation.events⟩
  else
    let path := Path.ofString location
    let failure (error : SystemError) (named : Option Path) : LoadError :=
      .ofPathError (.ofFileError path (.system error named))
    try
      let handle ← IO.FS.Handle.mk path.text .read
      let input ← gather (.ofHandle handle) (neededOf settings)
      let read := input.read settings path.text none
      pure ⟨read.value.mapError (failure · none), read.events⟩
    catch error => pure ⟨.error (failure (systemErrorOf error) path), []⟩

/-! ## The whole run -/

/-- The time, as it stands in front of a line of the log. -/
def timeText : IO String := do
  try
    let now ← Std.Time.PlainDateTime.now
    pure (now.format "uuuu-MM-dd HH:mm:ss,SSS")
  catch _ => pure "-"

/-- Prints what a conclusion says and writes its file.  The exit status is 1 when the file cannot
be written. -/
def carryOut (conclusion : Conclusion) : IO UInt32 := do
  IO.eprint conclusion.stderr
  IO.print conclusion.stdout
  match conclusion.file with
  | none => pure (UInt32.ofNat conclusion.status)
  | some (path, text) =>
    try
      IO.FS.writeFile path.text text
      pure (UInt32.ofNat conclusion.status)
    catch error =>
      IO.eprintln (FileError.system (systemErrorOf error) path).message
      pure 1

/-- Ends with an error that is not caught. -/
def fail (message : String) : IO UInt32 := do
  IO.eprintln message
  pure 1

/-- Does the work of a command line. -/
def perform (settings : Settings) (arguments : Arguments) : IO UInt32 := do
  match leastShown? settings arguments with
  | none => fail (Uncaught.unknownLevel settings.logLevel).message
  | some least =>
    let time ← timeText
    let loaded ← fetchInput settings arguments.input
    match loaded.value with
    | .error (.uncaught error) => fail error.message
    | .error (.source error) =>
      carryOut (conclude settings time least arguments ⟨.error error, loaded.events⟩)
    | .ok bytes => carryOut (conclude settings time least arguments ⟨.ok bytes, loaded.events⟩)

end AtMarkup.Cli

/-- Runs the command. -/
def main (line : List String) : IO UInt32 := do
  match AtMarkup.Settings.ofEnvironment (← AtMarkup.Cli.getEnvironment) with
  | .error error => AtMarkup.Cli.fail error.message
  | .ok settings =>
    match AtMarkup.Cli.Arguments.ofList .late line with
    | .ok arguments => AtMarkup.Cli.perform settings arguments
    | .error .help =>
      IO.print AtMarkup.Cli.helpText
      pure 0
    | .error (.error error) =>
      IO.eprint error.report
      pure 2
