import AtMarkup.Document
import AtMarkup.Service.Framework

/-!
# The service

Documents are posted to the service, which answers with HTML or with diagnostics, and it tells that
it is up.  `process` does the work and reports it as an event.  A reply has a status code and a
body, which is a record of texts.
-/

namespace AtMarkup.Service

/-! ## The work -/

/-- What becomes of a request. -/
inductive Outcome where
  /-- The document became HTML; the dump of its tree is there if it was wanted. -/
  | success (html : String) (tree : Option String)
  /-- The document was rejected: the message, the stage that rejects it, and the diagnostics. -/
  | failure (error : String) (kind : Stage) (errors : List String)
  deriving DecidableEq, Repr, Inhabited

/-- The event that tells of an outcome. -/
def Outcome.event (source : String) : Outcome → Event
  | success html _ => .accepted source.length html.length
  | failure _ kind errors => .refused source.length kind errors.length errors.head?

/-- Compiles the document of a request. -/
def process (settings : Settings) (request : CompileRequest) : Logged Outcome := do
  let outcome ← match ← compile settings request.escaped (.text request.source) with
    | .ok compiled =>
      pure (.success compiled.html (if request.includeTree then some compiled.tree else none))
    | .error rejection =>
      pure (.failure rejection.message rejection.stage (rejection.diagnostics.map Diagnostic.text))
  Logged.tell (outcome.event request.source)
  pure outcome

/-! ## Replies -/

/-- What the body of a reply has under a name. -/
inductive Member where
  /-- A text. -/
  | text (content : String)
  /-- A list of texts. -/
  | texts (contents : List String)
  deriving DecidableEq, Repr, Inhabited

/-- A reply. -/
structure Reply where
  /-- The status code. -/
  status : Nat
  /-- The body, by its names. -/
  body : List (String × Member)
  deriving DecidableEq, Repr, Inhabited

/-- The reply to a request; a tree that was not wanted is left out. -/
def Reply.ofOutcome : Outcome → Reply
  | .success html tree =>
    ⟨200, ("html", .text html) :: tree.toList.map fun text => ("tree", .text text)⟩
  | .failure error kind errors =>
    ⟨422, [("error", .text error), ("kind", .text kind.key), ("errors", .texts errors)]⟩

/-- The reply that the service is up. -/
def Reply.healthy : Reply :=
  ⟨200, [("status", .text "ok")]⟩

/-- Answers a call. -/
def respond (framework : Framework) (settings : Settings) (call : framework.Call) :
    Logged (Except framework.Refusal Reply) :=
  match framework.deliver (routes settings) call with
  | .refused refusal => pure (.error refusal)
  | .health => pure (.ok .healthy)
  | .compile request => do
    let outcome ← process settings request
    pure (.ok (.ofOutcome outcome))

end AtMarkup.Service
