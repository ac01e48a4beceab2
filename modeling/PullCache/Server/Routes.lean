import PullCache.Origin.Etag
import PullCache.Proxy.Basic
import PullCache.Server.Target
import PullCache.Text.HeaderValue
import PullCache.Time.HttpDate
import PullCache.Data.Json
/-!
# Server.Routes

The requests that the server answers, and its answers: resources below `/repository/`, the
invalidation of all copies, and a report of its state. A resource is served with the headers that
the origin sent, as far as they can stand in a header.
-/

namespace PullCache

/-- The body of an answer. -/
inductive ResponseBody where
  | bytes (b : Bytes)
  /-- Sent on piece by piece as it arrives. -/
  | chunks (list : List Chunk)
  deriving DecidableEq, Repr

structure Response where
  status : Nat
  headers : List (String × Bytes) := []
  body : ResponseBody := .bytes []
  deriving DecidableEq, Repr

/-- What a request asks for. -/
inductive Route where
  | resource (r : Resource)
  | invalidate
  | health
  /-- The path has escapes that are no text. -/
  | unreadable
  | notFound
  | methodNotAllowed (allowed : String)
  deriving DecidableEq, Repr

namespace Route

/-- The part of a path below `/repository/`, which must not be empty. -/
def repositoryPath? (path : Bytes) : Option Bytes :=
  let front := utf8 "/repository/"
  if front.isPrefixOf path && front.length < path.length then some (path.drop front.length)
  else none

/-- Whether the method only reads. -/
def reads (method : String) : Bool :=
  method == "GET" || method == "HEAD"

/-- The route of a request. -/
def of (method : String) (t : Target) : Route :=
  match repositoryPath? t.path with
  | some raw =>
    if !reads method then .methodNotAllowed "GET,HEAD"
    else match utf8? (Percent.decode raw) with
      | some path => .resource ((Resource.classified path).withParams t.params)
      | none => .unreadable
  | none =>
    if t.path = utf8 "/admin/invalidate" then
      if method == "POST" then .invalidate else .methodNotAllowed "POST"
    else if t.path = utf8 "/healthz" then
      if reads method then .health else .methodNotAllowed "GET,HEAD"
    else .notFound

end Route

namespace Response

/-- A header, if its value can stand in one. -/
def header (name value : String) : List (String × Bytes) :=
  if Text.isHeaderValue (utf8 value) then [(name, utf8 value)] else []

def text (status : Nat) (body : String) : Response :=
  ⟨status, [("content-type", utf8 "text/plain; charset=utf-8")], .bytes (utf8 body)⟩

def json (body : Json) : Response :=
  ⟨200, [("content-type", utf8 "application/json")], .bytes (utf8 body.compact)⟩

/-- The type of content without a type. -/
def unknownType : String := "application/octet-stream"

/-- The headers of content. -/
def contentHeaders (a : Attributes) : List (String × Bytes) :=
  let type := a.contentType.getD unknownType
  [("content-type", utf8 (if Text.isHeaderValue (utf8 type) then type else unknownType))]
    ++ (match a.lastModified with
      | some t => header "last-modified" (HttpDate.text t)
      | none => [])
    ++ (match a.etag with
      | some tag => header "etag" (String.ofList (Etag.quote tag.toList))
      | none => [])

/-- Content as it is served. A body that someone else has read cannot be served any more. -/
def ofContent (c : Content) (s : Streams) : Response × Streams :=
  match c.payload with
  | .buffered b => (⟨200, contentHeaders c.attributes, .bytes b⟩, s)
  | .streaming body =>
    match s.take body with
    | (some chunks, s) => (⟨200, contentHeaders c.attributes, .chunks chunks⟩, s)
    | (none, s) => (⟨500, [], .bytes []⟩, s)

def ofFault (fault : Fault) : Response :=
  text fault.responseStatus (fault.message ++ "\n")

/-- The answer to a get. -/
def ofResult (r : Resource) (result : Except Fault (Option Content)) (s : Streams) :
    Response × Streams :=
  match result with
  | .ok (some content) => ofContent content s
  | .ok none => (text 404 (r.display ++ " not found\n"), s)
  | .error fault => (ofFault fault, s)

/-- The answer to a request that does not need the origin. -/
def ofRoute (p : Proxy σ) : Route → Option Response
  | .resource _ => none
  | .invalidate => some (json (.record [("invalidated", .bool true)]))
  | .health => some (json (.record [("status", .text "ok"),
      ("remote_url", .text p.remote.text), ("in_flight", .int p.coop.inFlight)]))
  | .unreadable => some (text 400 "Invalid URL: Invalid UTF-8 in \x60path\x60")
  | .notFound => some ⟨404, [], .bytes []⟩
  | .methodNotAllowed allowed => some ⟨405, [("allow", utf8 allowed)], .bytes []⟩

/-- The answer without its body, as `HEAD` gets it. -/
def forMethod (method : String) (r : Response) : Response :=
  if method == "HEAD" then { r with body := .bytes [] } else r

/-- The body as the client receives it. -/
def readBody (r : Response) : Except ReadFault Bytes :=
  match r.body with
  | .bytes b => .ok b
  | .chunks list => Chunk.readAll list

end Response

end PullCache
