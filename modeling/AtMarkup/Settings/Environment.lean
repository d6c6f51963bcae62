import AtMarkup.Event
import AtMarkup.Number.Literal
import AtMarkup.Settings.Basic

/-!
# Settings from the environment

Each setting has an environment variable.  A variable that is not set leaves the standard value;
the limit on a document's characters is the limit on its bytes unless it is set itself.  The
first variable, in a fixed order, that does not hold a number where one is needed is an error.

The server that is started takes its address from three more variables.
-/

namespace AtMarkup

/-- Environment variables by name. -/
abbrev Environment := List (String × String)

namespace Environment

/-- The value of a variable, if it is set. -/
def value? (environment : Environment) (name : String) : Option String :=
  (environment.find? fun entry => entry.1 == name).map Prod.snd

/-- The value of a variable, or a default. -/
def text (environment : Environment) (name default : String) : String :=
  (environment.value? name).getD default

/-- The whole number that a variable holds, or a default. -/
def integer (environment : Environment) (name : String) (default : Int) :
    Except Number.LiteralError Int :=
  match environment.value? name with
  | some value => Number.readInteger value
  | none => .ok default

/-- The double that a variable holds, or a default. -/
def float (environment : Environment) (name : String) (default : Float) :
    Except Number.LiteralError Float :=
  match environment.value? name with
  | some value => Number.readFloat value
  | none => .ok default

end Environment

/-- The settings that an environment gives. -/
def Settings.ofEnvironment (environment : Environment) :
    Except Number.LiteralError Settings := do
  let standard := Settings.standard
  let byteLimit ← environment.integer "TAGMARK_MAX_INPUT_BYTES" standard.byteLimit
  let chunkSize ← environment.integer "TAGMARK_READ_CHUNK_SIZE" standard.chunkSize
  let depth ← environment.integer "TAGMARK_MAX_DEPTH" standard.depth
  let fetchTimeout ← environment.float "TAGMARK_FETCH_TIMEOUT_S" standard.fetchTimeout
  let fetchRetries ← environment.integer "TAGMARK_FETCH_MAX_RETRIES" standard.fetchRetries
  let fetchBackoff ← environment.float "TAGMARK_FETCH_BACKOFF_S" standard.fetchBackoff
  let sourceLimit ← environment.integer "TAGMARK_MAX_SOURCE_CHARS" byteLimit
  pure { byteLimit, chunkSize, depth, fetchTimeout, fetchRetries, fetchBackoff, sourceLimit,
         recursionLimit := standard.recursionLimit
         userAgent := environment.text "TAGMARK_USER_AGENT" standard.userAgent
         logLevel := environment.text "TAGMARK_LOG_LEVEL" standard.logLevel }

/-- Where and how the server is started. -/
structure Launch where
  /-- The address it listens at. -/
  host : String
  /-- The port it listens at. -/
  port : Int
  /-- Whether it starts anew when its program changes. -/
  reload : Bool
  deriving DecidableEq, Repr, Inhabited

/-- The application that is served. -/
def Launch.application : String := "server.main:app"

/-- The event that tells of the start. -/
def Launch.event (launch : Launch) : Event :=
  .starting launch.host launch.port

/-- The start of the server that an environment asks for. -/
def Launch.ofEnvironment (environment : Environment) : Except Number.LiteralError Launch := do
  let port ← environment.integer "PORT" 8000
  let reload := environment.text "RELOAD" "false"
  pure { port, host := environment.text "HOST" "0.0.0.0",
         reload := String.ofList (reload.toList.map Char.toLower) == "true" }

end AtMarkup
