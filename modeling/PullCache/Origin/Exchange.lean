import PullCache.Content.Basic
import PullCache.Fault
import PullCache.Url.Basic
/-!
# Origin.Exchange

Requests to the origin and its answers. A request made on behalf of a copy carries what the origin
said about that copy, so that the origin can answer that nothing changed.
-/

namespace PullCache

/-- A request for a resource at the origin, conditional if it carries a date or a tag. -/
structure OriginRequest where
  url : Url
  ifModifiedSince : Option Instant := none
  ifNoneMatch : Option String := none
  deriving DecidableEq, Repr

namespace OriginRequest

/-- The request that also asks whether a copy is still the same. -/
def revalidating (request : OriginRequest) (copy : Option Content) : OriginRequest :=
  match copy with
  | none => request
  | some copy => { request with
      ifModifiedSince := copy.attributes.lastModified
      ifNoneMatch := copy.attributes.etag }

def isConditional (request : OriginRequest) : Bool :=
  request.ifModifiedSince.isSome || request.ifNoneMatch.isSome

end OriginRequest

/-- What the origin answered. -/
structure OriginResponse where
  status : Nat
  body : Option Payload := none
  lastModified : Option Instant := none
  etag : Option String := none
  contentType : Option String := none
  deriving DecidableEq, Repr

namespace OriginResponse

/-- The resource follows. -/
def isOk (r : OriginResponse) : Bool :=
  r.status == 200

/-- The copy asked about is still the same. -/
def isNotModified (r : OriginResponse) : Bool :=
  r.status == 304

/-- The origin refuses or cannot serve: authentication, payment, or a fault of its own. -/
def isDefinitiveFailure (r : OriginResponse) : Bool :=
  r.status == 401 || r.status == 402 || r.status == 407 || 500 ≤ r.status

/-- Gives up the body, if it is still unread. The answer is whether there was one. -/
def release (r : OriginResponse) (s : Streams) : Bool × Streams :=
  match r.body with
  | some body => body.release s
  | none => (false, s)

end OriginResponse

end PullCache
