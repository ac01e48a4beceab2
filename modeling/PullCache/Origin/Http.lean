import PullCache.AutoBlock
import PullCache.Config.Basic
import PullCache.Origin.Etag
import PullCache.Proxy.Exchange
import PullCache.Server.Target
import PullCache.Text.HeaderValue
import PullCache.Text.Percent
import PullCache.Time.HttpDate
/-!
# Origin.Http

The origin over HTTP: a request is made for an exchange and carried to a server, and what comes back
is read into an answer. A remote that fails too often is left alone for a while; a request that
cannot even be made counts as a failure too.
-/

namespace PullCache

/-- A request as it goes out. -/
structure HttpRequest where
  url : Url
  headers : List (String × Bytes)
  deriving DecidableEq, Repr

/-- An answer as it comes in: headers in order, and a body piece by piece with the length that the
headers declare. -/
structure HttpAnswer where
  status : Nat
  headers : List (String × Bytes)
  body : List Chunk
  length : Option Nat
  deriving DecidableEq, Repr

/-- What carries a request to a server; without an answer the exchange has failed. -/
abbrev Carrier := HttpRequest → Option HttpAnswer

/-- The client of one remote. -/
structure HttpOrigin where
  userAgent : String
  block : AutoBlock
  deriving DecidableEq, Repr

namespace HttpOrigin

/-! ## Headers -/

/-- The text of a header; one that is not plain ASCII counts as absent. -/
def header? (name : String) (a : HttpAnswer) : Option String := do
  let value ← (a.headers.find? fun h => h.1.map Text.lowerAscii == name).map (·.2)
  if Text.isVisible value then utf8? value else none

/-! ## Requests -/

/-- The URL without user name and password, which go into a header of their own. Names that are no
text stay where they are. -/
def withoutCredentials (u : Url) : Url :=
  if (utf8? (Percent.decode (utf8 u.username))).isSome then
    { u with username := "", password := "" }
  else u

/-- The refusal of a URL that no request can be made for. -/
def unsendable (u : Url) : String :=
  "builder error for url (" ++ u.text ++ ")"

/-- Whether the host of a URL can stand in a request. -/
def hasPlainHost (u : Url) : Bool :=
  u.host.any fun host => (utf8 host.text).all Target.inAuthority

/-- The request for an exchange, or what is wrong with it. -/
def prepare (userAgent : String) (request : OriginRequest) : Except String HttpRequest :=
  let url := withoutCredentials request.url
  let headers := [("user-agent", utf8 userAgent)]
    ++ (match request.ifModifiedSince with
      | some t => [("if-modified-since", utf8 (HttpDate.text t))]
      | none => [])
    ++ (match request.ifNoneMatch with
      | some tag => [("if-none-match", utf8 (String.ofList (Etag.quote tag.toList)))]
      | none => [])
  if !url.hasHost then .error (unsendable url)
  else if !headers.all fun h => Text.isHeaderValue h.2 then .error "builder error"
  else if !(["http", "https"].contains url.scheme) || !hasPlainHost url then .error (unsendable url)
  else .ok ⟨url, headers⟩

/-! ## Answers -/

/-- Reads an answer. Only a successful one hands on its body. -/
def replyOf (a : HttpAnswer) : Reply where
  status := a.status
  body := if a.status = 200 then some (.chunks a.body a.length) else none
  lastModified := (header? "last-modified" a) >>= fun s => HttpDate.parse? s.toList
  etag := (header? "etag" a).map fun s => String.ofList (Etag.unquote s.toList)
  contentType := header? "content-type" a

/-- Sends a request, unless it cannot be made. -/
def send (carry : Carrier) (userAgent : String) (request : OriginRequest) : Except String Reply :=
  match prepare userAgent request with
  | .error reason => .error reason
  | .ok prepared =>
    match carry prepared with
    | some a => .ok (replyOf a)
    | none => .error ("error sending request for url (" ++ prepared.url.text ++ ")")

/-! ## The client -/

/-- The messages for a name of the client that cannot stand in a header, outermost first. -/
def unusableAgent : List String :=
  ["Failed to build HTTP client", "builder error", "failed to parse header value"]

/-- A client with given settings. -/
def new (http : HttpSection) (block : AutoBlock) : Except (List String) HttpOrigin :=
  if Text.isHeaderValue (utf8 http.userAgent) then .ok ⟨http.userAgent, block⟩
  else .error unusableAgent

/-- Performs an exchange at a time. -/
def fetch (carry : Carrier) (now : Instant) (request : OriginRequest) (o : HttpOrigin) :
    Except OriginFault Reply × HttpOrigin :=
  match o.block.check now with
  | .error fault => (.error fault, o)
  | .ok _ =>
    match send carry o.userAgent request with
    | .ok reply => (.ok reply, { o with block := o.block.recordSuccess })
    | .error reason =>
      (.error (.transient request.url.text reason),
        { o with block := (o.block.recordFailure now).2 })

end HttpOrigin

end PullCache
