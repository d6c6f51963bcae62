import AtMarkup.Settings.Basic
import AtMarkup.Text.Blank

/-!
# The service framework

The service runs in a framework that is not part of the program.  How a call arrives, which path
it names, how a body is read into a request, and the replies to calls that come to nothing are the
framework's business.  The program tells it where calls go and what the text of a document has to
be (`Routes`), and gets what it makes of a call (`Delivery`).
-/

namespace AtMarkup.Service

/-- A request to compile a document. -/
structure CompileRequest where
  /-- The document. -/
  source : String
  /-- Whether text is escaped. -/
  escaped : Bool := false
  /-- Whether the dump of the tree is wanted as well. -/
  includeTree : Bool := false
  deriving DecidableEq, Repr, Inhabited

/-- What the program tells the framework. -/
structure Routes where
  /-- The path that documents are posted to. -/
  compile : String
  /-- The path that tells whether the service is up. -/
  health : String
  /-- The most characters that a document may have. -/
  sourceLimit : Int
  /-- What else is wrong with a document, in words, if anything is. -/
  sourceError? : String → Option String

/-- What is wrong with a document that is blank. -/
def blankError? (source : String) : Option String :=
  if Text.isBlankText source.toList then some "source cannot be empty" else none

/-- What the service tells its framework. -/
def routes (settings : Settings) : Routes where
  compile := "/api/compile"
  health := "/health"
  sourceLimit := settings.sourceLimit
  sourceError? := blankError?

/-- A document that the routes let through. -/
structure Routes.Admits (routes : Routes) (source : String) : Prop where
  /-- It is not too long. -/
  length_le : (source.length : Int) ≤ routes.sourceLimit
  /-- Nothing else is wrong with it. -/
  sourceError? : routes.sourceError? source = none

/-- Neither a limit nor a blank keeps a document from the service. -/
theorem admits_routes_iff {settings : Settings} {source : String} :
    (routes settings).Admits source ↔
      (source.length : Int) ≤ settings.sourceLimit ∧ Text.isBlankText source.toList = false := by
  have hblank : blankError? source = none ↔ Text.isBlankText source.toList = false := by
    simp [blankError?]
  exact ⟨fun h => ⟨h.length_le, hblank.mp h.sourceError?⟩, fun h => ⟨h.1, hblank.mpr h.2⟩⟩

/-- What the framework makes of a call. -/
inductive Delivery (Refusal : Type) where
  /-- A request to compile. -/
  | compile (request : CompileRequest)
  /-- The question whether the service is up. -/
  | health
  /-- The framework has refused the call itself. -/
  | refused (refusal : Refusal)
  deriving DecidableEq, Repr

/-- A framework that takes calls. -/
structure Framework where
  /-- The calls. -/
  Call : Type
  /-- The replies to calls that it refuses. -/
  Refusal : Type
  /-- What it makes of a call. -/
  deliver : Routes → Call → Delivery Refusal

namespace Framework

/-- A call posts a request to a path: where documents are posted to this path and the document is
let through, the request is delivered. -/
def Posts (framework : Framework) (path : String) (request : CompileRequest)
    (call : framework.Call) : Prop :=
  ∀ routes : Routes, routes.compile = path → routes.Admits request.source →
    framework.deliver routes call = .compile request

/-- A call by its method, its path and a request that has been read. -/
structure LiteralCall where
  /-- The method. -/
  method : String
  /-- The path. -/
  path : String
  /-- The request, if there is one. -/
  request : Option CompileRequest := none
  deriving DecidableEq, Repr, Inhabited

/-- The framework that takes calls whose requests have been read, and refuses any other in words. -/
def literal : Framework where
  Call := LiteralCall
  Refusal := String
  deliver routes call :=
    if call.path = routes.compile then
      match call.method, call.request with
      | "POST", some request =>
        if routes.sourceLimit < request.source.length then .refused "Too long"
        else
          match routes.sourceError? request.source with
          | some error => .refused error
          | none => .compile request
      | "POST", none => .refused "Field required"
      | _, _ => .refused "Method Not Allowed"
    else if call.path = routes.health then
      if call.method = "GET" then .health else .refused "Method Not Allowed"
    else .refused "Not Found"

theorem posts_literal (path : String) (request : CompileRequest) :
    literal.Posts path request (⟨"POST", path, some request⟩ : LiteralCall) := by
  rintro routes rfl hadmits
  have hlength : ¬ routes.sourceLimit < request.source.length := Int.not_lt.mpr hadmits.length_le
  simp [literal, hlength, hadmits.sourceError?]

end Framework

end AtMarkup.Service
