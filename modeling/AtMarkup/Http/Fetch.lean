import AtMarkup.Http.Library
import AtMarkup.Source.File

/-!
# Fetching documents

A document is fetched over HTTP in one or more attempts.  An attempt makes a request, and with a
client of its own follows redirects, at most five.  A success gives the body up to a limit.  The
status 404 ends the fetch at once.  Any other answer is a failure of the attempt: the next one
follows after a pause, which doubles each time, until the attempts are used up.  A URL that the
library cannot ask for ends the fetch at once as well, and so does a pause that has been doubled
too often.

The other side is a list of answers, the last of which repeats, and time does not pass:
`Conversation` records the requests, the pauses and the events instead.
-/

namespace AtMarkup.Http

/-! ## The other side -/

/-- What comes of a request. -/
inductive Answer where
  /-- A response. -/
  | response (response : Response)
  /-- A failure to get one, in words. -/
  | failure (message : String)
  deriving DecidableEq, Repr, Inhabited

/-- A request that was made. -/
structure Request where
  /-- The URL as it is shown. -/
  url : String
  /-- What the client calls itself. -/
  userAgent : String
  deriving DecidableEq, Repr, Inhabited

/-- A conversation with the other side: the answers to come, and what has been done so far. -/
structure Conversation where
  /-- The answers to come; the last one repeats. -/
  answers : List Answer
  /-- The requests, in order. -/
  requests : List Request := []
  /-- The pauses in seconds, in order. -/
  pauses : List Float := []
  /-- The events, in order. -/
  events : List Event := []
  deriving Repr, Inhabited

namespace Conversation

/-- Makes a request and takes the next answer. -/
def request (c : Conversation) (request : Request) : Answer × Conversation :=
  let asked := { c with requests := c.requests ++ [request] }
  match c.answers with
  | [] => (.failure "", asked)
  | [last] => (last, asked)
  | next :: later => (next, { asked with answers := later })

/-- Adds an event. -/
def tell (c : Conversation) (event : Event) : Conversation :=
  { c with events := c.events ++ [event] }

/-- Adds a pause. -/
def pause (c : Conversation) (seconds : Float) : Conversation :=
  { c with pauses := c.pauses ++ [seconds] }

end Conversation

/-! ## One attempt -/

/-- Who makes the requests. -/
structure Client where
  /-- What the client calls itself. -/
  userAgent : String
  /-- How many redirects it follows; `none` when it does not follow any. -/
  redirects : Option Nat
  deriving DecidableEq, Repr, Inhabited

/-- How fetching goes about its work. -/
structure Policy where
  /-- How many attempts may follow the first. -/
  retries : Int
  /-- The first pause in seconds. -/
  backoff : Float
  /-- The most bytes of a body that are read. -/
  limit : Int
  deriving Repr, Inhabited

/-- The pause in seconds after an attempt that `made` others came before. -/
def Policy.pauseAfter (policy : Policy) (made : Nat) : Float :=
  policy.backoff * Float.ofNat (Nat.pow 2 made)

/-- How often a pause can be doubled: the next power of two is too great for a double. -/
def doublingLimit : Nat := 1023

/-- The first `count` of some bytes, or all but the last when `count` is negative. -/
def takeBytes (count : Int) (bytes : Bytes) : Bytes :=
  if count < 0 then bytes.take (bytes.length - count.natAbs) else bytes.take count.toNat

/-- Reads a body up to a limit; `body` is what has been read, latest chunk first, and `total` its
length.  The flag tells whether bytes were left behind.  Empty chunks do not count. -/
def readBodyFrom (limit : Int) (body : List Bytes) (total : Nat) : List Bytes → Bytes × Bool
  | [] => (body.reverse.flatten, false)
  | [] :: later => readBodyFrom limit body total later
  | chunk :: later =>
    if limit - total < chunk.length then
      ((takeBytes (limit - total) chunk :: body).reverse.flatten, true)
    else readBodyFrom limit (chunk :: body) (total + chunk.length) later

/-- Reads a body up to a limit. -/
def readBody (limit : Int) (chunks : List Bytes) : Bytes × Bool :=
  readBodyFrom limit [] 0 chunks

/-- How an attempt ends. -/
inductive Attempt where
  /-- With the body of a response. -/
  | found (body : Bytes)
  /-- With the news that there is nothing at the URL. -/
  | missing
  /-- With a failure, in words. -/
  | failed (cause : String)
  /-- With a URL that cannot be asked for, which no later attempt mends. -/
  | refused (error : UrlError)
  deriving DecidableEq, Repr, Inhabited

section

variable (library : Library)

/-- What a response amounts to that is not followed to another location.  `asked` is the URL as
the caller wrote it, `url` the one that answered. -/
def judge (limit : Int) (asked : String) (url : library.Url) (response : Response)
    (c : Conversation) : Attempt × Conversation :=
  if response.status == 404 then (.missing, c)
  else if isTransient response.status then
    (.failed ("HTTP " ++ toString response.status ++ " from " ++ asked), c)
  else
    match library.statusError url response with
    | some cause => (.failed cause, c)
    | none =>
      let (body, truncated) := readBody limit response.chunks
      (.found body, if truncated then c.tell (.bodyTruncated asked limit) else c)

/-- Makes a request and those that redirects lead to.  A client that follows none takes a redirect
for the answer. -/
def attempt (limit : Int) (asked userAgent : String) (url : library.Url) :
    Option Nat → Conversation → Attempt × Conversation
  | redirects, c =>
    match c.request ⟨library.text url, userAgent⟩ with
    | (.failure message, c) => (.failed message, c)
    | (.response response, c) =>
      match redirects, library.receive url response with
      | _, .failed message => (.failed message, c)
      | _, .refused error => (.refused error, c)
      | none, .leads _ | _, .stays => judge library limit asked url response c
      | some 0, .leads _ => (.failed library.tooManyRedirects, c)
      | some (left + 1), .leads target => attempt limit asked userAgent target (some left) c

/-! ## All attempts -/

/-- Why a fetch gives nothing. -/
inductive FetchError where
  /-- Nothing can be had from the URL. -/
  | source (error : SourceError)
  /-- The URL, or one that it redirects to, cannot be asked for. -/
  | url (error : UrlError)
  /-- The next pause would have been doubled too often. -/
  | endlessPause
  deriving DecidableEq, Repr, Inhabited

/-- The error in words. -/
def FetchError.message : FetchError → String
  | source error => error.message
  | url error => error.message
  | endlessPause => "int too large to convert to float"

/-- Makes up to `left` attempts after `made` earlier ones, the last of which failed with `last`.
Nothing at the URL is reported with the error `missing`. -/
def attempts (policy : Policy) (client : Client) (asked : String) (url : library.Url)
    (missing : SourceError) (made : Nat) (last : Option String) :
    Nat → Conversation → Except FetchError Bytes × Conversation
  | 0, c => (.error (.source (.gaveUp asked last)), c)
  | left + 1, c =>
    match attempt library policy.limit asked client.userAgent url client.redirects c with
    | (.found body, c) => (.ok body, c)
    | (.missing, c) => (.error (.source missing), c)
    | (.refused error, c) => (.error (.url error), c)
    | (.failed cause, c) =>
      if left = 0 then
        attempts policy client asked url missing (made + 1) (some cause) left c
      else if doublingLimit < made then (.error .endlessPause, c)
      else
        let seconds := policy.pauseAfter made
        attempts policy client asked url missing (made + 1) (some cause) left
          ((c.tell (.retrying asked seconds cause)).pause seconds)

/-- Fetches the body at a URL.  Whether it is a URL is only seen when an attempt is made. -/
def fetch (policy : Policy) (client : Client) (url : String) (missing : SourceError)
    (c : Conversation) : Except FetchError Bytes × Conversation :=
  match (policy.retries + 1).toNat, library.read url with
  | 0, _ => (.error (.source (.gaveUp url none)), c)
  | _, .error error => (.error (.url error), c)
  | count, .ok target => attempts library policy client url target missing 0 none count c

end

/-! ## Documents -/

/-- How many redirects the program follows with a client of its own. -/
def redirectLimit : Nat := 5

/-- The policy that settings give; a limit on the bytes may be given beside them. -/
def Policy.ofSettings (settings : Settings) (limit : Option Int) : Policy :=
  ⟨settings.fetchRetries, settings.fetchBackoff, limit.getD settings.byteLimit⟩

/-- The client that fetching uses of its own. -/
def ownClient (settings : Settings) : Client :=
  ⟨settings.userAgent, some redirectLimit⟩

/-- What is said of a URL with nothing at it; an empty wording counts as none. -/
def absenceMessage (url : String) (wording : Option String) : String :=
  match wording with
  | none | some "" => "Resource not found at " ++ url
  | some message => message

/-- The error for a URL at which there is no document. -/
def absentDocument (url : String) : SourceError :=
  .noDocument ("Document not found at " ++ url)

/-- Fetches a document. -/
def fetchDocument (library : Library) (settings : Settings) (limit : Option Int) (url : String)
    (c : Conversation) : Except FetchError Bytes × Conversation :=
  fetch library (.ofSettings settings limit) (ownClient settings) url (absentDocument url) c

/-- Fetches a document and compiles it. -/
def compileUrl (library : Library) (settings : Settings) (url : String) (escaped : Bool)
    (c : Conversation) : Except FetchError (Except Rejection Compiled) × Conversation :=
  match fetchDocument library settings none url c with
  | (.error error, c) => (.error error, c)
  | (.ok body, c) =>
    let outcome := compile settings escaped (.bytes body)
    (.ok outcome.value, { c with events := c.events ++ outcome.events })

end AtMarkup.Http
