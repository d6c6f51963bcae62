import AtMarkup.Http.Status
import AtMarkup.Source.Stream

/-!
# The HTTP library

Requests are made through a library that is not part of the program.  What a URL is, which ones
can be asked for and where a redirect leads to is the library's business, and so are the words for
what goes wrong there.  `Library` collects what fetching sees of it; nothing is laid down but that
a response counts as an error exactly if its status is no success.
-/

namespace AtMarkup.Http

/-- A response: its status, where it points to if anywhere, and its body as it arrives. -/
structure Response where
  /-- The status code. -/
  status : Int
  /-- The `location` header. -/
  location : Option String := none
  /-- The body, in the pieces in which it arrives. -/
  chunks : List Bytes := []
  deriving DecidableEq, Repr, Inhabited

/-- An error about a URL, which is no failed request. -/
structure UrlError where
  /-- What the library calls the error. -/
  name : String
  /-- The error in words. -/
  message : String
  deriving DecidableEq, Repr, Inhabited

/-- What the library makes of a response before its caller sees it. -/
inductive Receipt (Url : Type) where
  /-- The response is the answer. -/
  | stays
  /-- The response leads to another URL. -/
  | leads (target : Url)
  /-- The response leads nowhere, which is a failed request. -/
  | failed (message : String)
  /-- A URL has to do with the response that cannot be asked for. -/
  | refused (error : UrlError)
  deriving DecidableEq, Repr

/-- A library that makes requests. -/
structure Library where
  /-- The URLs that it can ask for. -/
  Url : Type
  /-- Reads a URL as a caller writes it. -/
  read : String → Except UrlError Url
  /-- The text of a URL. -/
  text : Url → String
  /-- What it makes of a response from a URL. -/
  receive : Url → Response → Receipt Url
  /-- The error that a response counts as, in words, if it counts as one. -/
  statusError : Url → Response → Option String
  /-- What it says of more redirects than a client follows. -/
  tooManyRedirects : String
  /-- A response is no error exactly if its status tells of success. -/
  statusError_eq_none_iff :
    ∀ url response, statusError url response = none ↔ isSuccess response.status = true

namespace Library

variable {library : Library} {url : library.Url} {response : Response}

/-- A success is no error. -/
theorem statusError_of_success (h : isSuccess response.status = true) :
    library.statusError url response = none :=
  (library.statusError_eq_none_iff url response).mpr h

/-- Any other status is one. -/
theorem exists_statusError (url : library.Url) (h : isSuccess response.status = false) :
    ∃ cause, library.statusError url response = some cause := by
  rw [← Option.ne_none_iff_exists']
  intro hnone
  rw [library.statusError_eq_none_iff, h] at hnone
  cases hnone

/-- The library asks for a URL as this one, and takes every response from there that is no redirect
for the answer. -/
structure Takes (library : Library) (url : String) (target : library.Url) : Prop where
  /-- The URL is read. -/
  read : library.read url = .ok target
  /-- Its responses are taken. -/
  receive : ∀ response, isRedirect response.status = false →
    library.receive target response = .stays

/-- The library that asks for any URL as it is written, and follows a redirect to its location. -/
def literal : Library where
  Url := String
  read := .ok
  text url := url
  receive _ response :=
    match isRedirect response.status, response.location with
    | true, some target => .leads target
    | _, _ => .stays
  statusError _ response :=
    if isSuccess response.status then none else some ("Status " ++ toString response.status)
  tooManyRedirects := "Exceeded maximum allowed redirects."
  statusError_eq_none_iff := by simp

theorem takes_literal (url : String) : literal.Takes url url where
  read := rfl
  receive := by
    intro response hstays
    simp [literal, hstays]

end Library

end AtMarkup.Http
