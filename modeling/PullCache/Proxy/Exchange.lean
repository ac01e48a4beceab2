import PullCache.Freshness
import PullCache.Origin.Exchange
/-!
# Proxy.Exchange

What an answer of the origin means for a resource: new content is kept, an unchanged copy is
confirmed, and everything else leaves things as they are or is a fault. A fault of the origin or of
the store gives way to an old copy if there is one.

A body is never left open: unless the content that is returned reads from it, it is released.
-/

namespace PullCache

/-- Where the body of an answer comes from. -/
inductive BodySource where
  | bytes (b : Bytes)
  | chunks (list : List Chunk) (declared : Option Nat)
  deriving DecidableEq, Repr

/-- An answer as the origin gives it, before its body is opened. -/
structure Reply where
  status : Nat
  body : Option BodySource := none
  lastModified : Option Instant := none
  etag : Option String := none
  contentType : Option String := none
  deriving DecidableEq, Repr

namespace BodySource

/-- The payload of a body from this source; pieces get a stream of their own. -/
def payload (b : BodySource) (s : Streams) : Payload × Streams :=
  match b with
  | .bytes all => (.buffered all, s)
  | .chunks list declared =>
    let (n, s) := s.add list
    (.streaming ⟨n, declared⟩, s)

end BodySource

namespace Reply

/-- Opens the body, if there is one. -/
def receive (r : Reply) (s : Streams) : OriginResponse × Streams :=
  let response (body : Option Payload) : OriginResponse :=
    { status := r.status, body, lastModified := r.lastModified, etag := r.etag,
      contentType := r.contentType }
  match r.body with
  | none => (response none, s)
  | some source =>
    let (payload, s) := source.payload s
    (response (some payload), s)

end Reply

namespace Exchange

/-- What is to be done about an answer. -/
inductive Verdict where
  /-- There is new content to keep. -/
  | keep (remote : Content)
  /-- The copy is unchanged and gets a new stamp. -/
  | confirm (copy : Content) (stamp : Stamp)
  /-- The origin has nothing to say about the resource. -/
  | nothing
  | fail (fault : Fault)

/-- The content of an answer with a body, stamped with the present time. -/
def contentOf (response : OriginResponse) (body : Payload) (stamp : Stamp) : Content :=
  ⟨body, ⟨response.lastModified, response.etag, response.contentType, some stamp⟩⟩

/-- Reads an answer. -/
def judge (request : OriginRequest) (response : OriginResponse) (copy : Option Content)
    (stamp : Stamp) : Verdict :=
  if response.isOk then
    match response.body with
    | some body => .keep (contentOf response body stamp)
    | none => .fail (.invalidResponse (request.url.text ++ " returned 200 without a body"))
  else if response.isNotModified then
    match copy with
    | some copy => .confirm copy stamp
    | none => .fail (.invalidResponse
        (request.url.text ++ " returned 304 for an unconditional request"))
  else if response.isDefinitiveFailure then
    .fail (.originStatus response.status request.url.text)
  else .nothing

/-- An old copy stands in for a fault that is not the fault of the request. -/
def degrade (copy : Option Content) (fault : Fault) : Except Fault (Option Content) :=
  if fault.isDegradable then
    match copy with
    | some copy => .ok (some copy)
    | none => .error fault
  else .error fault

/-- The outcome of an exchange: new content, or else the copy, or a fault. -/
def outcome (copy : Option Content) (fetched : Except Fault (Option Content)) :
    Except Fault (Option Content) :=
  match fetched with
  | .ok (some content) => .ok (some content)
  | .ok none => .ok copy
  | .error fault => degrade copy fault

/-- Whether the content that is returned reads from the body of the answer. -/
def returnsBody (result : Except Fault (Option Content)) (response : OriginResponse) : Bool :=
  match result, response.body with
  | .ok (some content), some body => content.payload.sharesStream body
  | _, _ => false

/-- The outcome of an exchange, with the body released unless it is returned. -/
def conclude (copy : Option Content) (response : OriginResponse)
    (fetched : Except Fault (Option Content)) (s : Streams) :
    Except Fault (Option Content) × Streams :=
  let result := outcome copy fetched
  if returnsBody result response then (result, s) else (result, (response.release s).2)

end Exchange

end PullCache
