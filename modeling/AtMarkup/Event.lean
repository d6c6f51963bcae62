import AtMarkup.Diagnostic
import AtMarkup.Number.Rounding

/-!
# Events

What the program has to tell beside its results: each event has a severity, the part of the
program it comes from, a line of text, and sometimes named details for programs that collect
them.  Work that can give rise to events returns a `Logged` value, the result together with the
events in the order in which they happened.
-/

namespace AtMarkup

/-- How much an event matters. -/
inductive Severity where
  | debug
  | info
  | warning
  deriving DecidableEq, Repr, Inhabited

/-- The name of a severity. -/
def Severity.name : Severity → String
  | .debug => "DEBUG"
  | .info => "INFO"
  | .warning => "WARNING"

/-- The number of a severity, by which severities are compared. -/
def Severity.number : Severity → Nat
  | .debug => 10
  | .info => 20
  | .warning => 30

/-- Whether a severity counts for a listener that asks for `least` and all above. -/
def Severity.reaches (severity : Severity) (least : Nat) : Bool :=
  least ≤ severity.number

/-- The levels from which on a listener can ask for events. -/
def levelNames : List (String × Nat) := [
  ("NOTSET", 0), ("DEBUG", 10), ("INFO", 20), ("WARN", 30), ("WARNING", 30), ("ERROR", 40),
  ("CRITICAL", 50), ("FATAL", 50)]

/-- The upper case of a letter as far as a level can be named with it: beyond ASCII, of the two
letters whose upper case is in ASCII. -/
def upperCase (c : Char) : Char :=
  if c == 'ı' then 'I' else if c == 'ſ' then 'S' else c.toUpper

/-- The name of a level in upper case. -/
def levelName (name : String) : String :=
  String.ofList (name.toList.map upperCase)

/-- The level of a name, in any letter case. -/
def levelNamed? (name : String) : Option Nat :=
  (levelNames.find? fun entry => entry.1 == levelName name).map Prod.snd

/-- Something that happened. -/
inductive Event where
  /-- A document breaks so many rules. -/
  | rulesBroken (count : Nat)
  /-- A document became so many characters of HTML. -/
  | compiled (characters : Nat)
  /-- A stream held more bytes than were allowed. -/
  | inputTruncated (name : String) (limit : Int)
  /-- The body of a response held more bytes than were allowed. -/
  | bodyTruncated (url : String) (limit : Int)
  /-- A request failed and is made again after a pause in seconds. -/
  | retrying (url : String) (pause : Float) (cause : String)
  /-- The service answered with HTML. -/
  | accepted (sourceLength htmlLength : Nat)
  /-- The service answered with diagnostics. -/
  | refused (sourceLength : Nat) (stage : Stage) (count : Nat) (first : Option String)
  /-- The service starts. -/
  | starting (host : String) (port : Int)
  deriving Repr, Inhabited

/-- The value of a detail. -/
inductive Event.Detail where
  | text (value : String)
  | number (value : Int)
  | absent
  deriving DecidableEq, Repr, Inhabited

namespace Event

/-- How much the event matters. -/
def severity : Event → Severity
  | rulesBroken .. | compiled .. | retrying .. => .debug
  | accepted .. | starting .. => .info
  | inputTruncated .. | bodyTruncated .. | refused .. => .warning

/-- The part of the program that the event comes from. -/
def channel : Event → String
  | rulesBroken .. => "tagmark.parser"
  | compiled .. => "tagmark.compiler"
  | inputTruncated .. => "tagmark.sources"
  | bodyTruncated .. | retrying .. => "tagmark.http_utils"
  | accepted .. | refused .. => "server.compile_processor"
  | starting .. => "__main__"

/-- The event in words. -/
def message : Event → String
  | rulesBroken count => "Document rejected with " ++ toString count ++ " validation error(s)"
  | compiled characters => "Compiled document into " ++ toString characters ++ " characters of HTML"
  | inputTruncated name limit =>
    "Document " ++ name ++ " exceeds " ++ toString limit ++ " bytes; input truncated"
  | bodyTruncated url limit =>
    "Response from " ++ url ++ " exceeds " ++ toString limit ++ " bytes; body truncated"
  | retrying url pause cause =>
    "Retrying " ++ url ++ " in " ++ Number.fixedText 2 pause ++ "s after: " ++ cause
  | accepted .. => "Document compiled"
  | refused .. => "Document rejected"
  | starting .. => "Starting tagmark server"

/-- The named details of the event. -/
def details : Event → List (String × Detail)
  | accepted sourceLength htmlLength =>
    [("source_chars", .number sourceLength), ("html_chars", .number htmlLength)]
  | refused sourceLength stage count first =>
    [("source_chars", .number sourceLength), ("error_kind", .text stage.key),
      ("error_count", .number count),
      ("first_error", match first with | some text => .text text | none => .absent)]
  | starting host port => [("host", .text host), ("port", .number port)]
  | _ => []

end Event

/-- A result together with the events on the way to it. -/
structure Logged (α : Type) where
  /-- The result. -/
  value : α
  /-- What happened, in order. -/
  events : List Event := []
  deriving Repr, Inhabited

namespace Logged

instance : Monad Logged where
  pure value := ⟨value, []⟩
  bind first next :=
    let second := next first.value
    ⟨second.value, first.events ++ second.events⟩

/-- Only tells of an event. -/
def tell (event : Event) : Logged Unit := ⟨(), [event]⟩

@[simp] theorem value_pure {α : Type} (a : α) : (pure a : Logged α).value = a := rfl

@[simp] theorem events_pure {α : Type} (a : α) : (pure a : Logged α).events = [] := rfl

@[simp] theorem value_bind {α β : Type} (first : Logged α) (next : α → Logged β) :
    (first >>= next).value = (next first.value).value := rfl

@[simp] theorem events_bind {α β : Type} (first : Logged α) (next : α → Logged β) :
    (first >>= next).events = first.events ++ (next first.value).events := rfl

end Logged

end AtMarkup
