/-!
# Settings

The limits and names that the program works with, and their values when nothing is set.
-/

namespace AtMarkup

/-- What can be set. -/
structure Settings where
  /-- The most bytes that are read of one document. -/
  byteLimit : Int
  /-- How many bytes of a stream are asked for at a time. -/
  chunkSize : Int
  /-- How deep tags may lie in one another. -/
  depth : Int
  /-- How deep the interpreter lets calls lie in one another. -/
  recursionLimit : Nat
  /-- How long to wait for a server, in seconds. -/
  fetchTimeout : Float
  /-- How many attempts to fetch a document may follow the first. -/
  fetchRetries : Int
  /-- The pause before the second attempt, in seconds. -/
  fetchBackoff : Float
  /-- What the program calls itself when it fetches documents. -/
  userAgent : String
  /-- From which severity on events are shown. -/
  logLevel : String
  /-- The most characters that the service accepts as a document. -/
  sourceLimit : Int
  deriving Repr, Inhabited

/-- The settings when nothing is set. -/
def Settings.standard : Settings where
  byteLimit := 1048576
  chunkSize := 512
  depth := 100
  recursionLimit := 1000
  fetchTimeout := 10.0
  fetchRetries := 2
  fetchBackoff := 0.5
  userAgent := "tagmark/0.1"
  logLevel := "WARNING"
  sourceLimit := 1048576

end AtMarkup
