import PullCache.Content.Body
import PullCache.Time.Instant
/-!
# Content.Basic

Content as it is handed around: the bytes, or a body that can be read once, together with what the
origin said about it and the stamp that tells how fresh it is.
-/

namespace PullCache

/-- What a stamp names the state of its controller by. Issued tokens are all different, and
different from any token that came from elsewhere. -/
inductive Token where
  | issued (number : Nat)
  | named (text : String)
  deriving DecidableEq, Repr

/-- When content was last fetched or confirmed, the maximum age in seconds at that time, and the
token of the controller that issued the stamp. -/
structure Stamp where
  verified : Instant
  maxAge : Int
  token : Option Token
  deriving DecidableEq, Repr

/-- What the origin said about the content, and the stamp. -/
structure Attributes where
  lastModified : Option Instant := none
  etag : Option String := none
  contentType : Option String := none
  stamp : Option Stamp := none
  deriving DecidableEq, Repr

/-- The bytes of a content. -/
inductive Payload where
  /-- All there, for any number of readers. -/
  | buffered (bytes : Bytes)
  /-- Still to be read, once. -/
  | streaming (body : RemoteBody)
  deriving DecidableEq, Repr

structure Content where
  payload : Payload
  attributes : Attributes
  deriving DecidableEq, Repr

namespace Payload

/-- The length, as far as it is known before reading. -/
def length? : Payload → Option Nat
  | buffered bytes => some bytes.length
  | streaming body => body.declared

def isEmpty (p : Payload) : Bool :=
  p.length? == some 0

/-- Reads all the bytes; this consumes a stream. -/
def readAll (p : Payload) (s : Streams) : Except ReadFault Bytes × Streams :=
  match p with
  | buffered bytes => (.ok bytes, s)
  | streaming body =>
    match s.take body with
    | (some chunks, s) => body.readToEnd [] chunks s
    | (none, s) => (.error .consumed, s)

/-- Gives up an unread stream. The answer is whether there was one. -/
def release (p : Payload) (s : Streams) : Bool × Streams :=
  match p with
  | buffered _ => (false, s)
  | streaming body =>
    match s.take body with
    | (chunks, s) => (chunks.isSome, s)

/-- Reads all the bytes unless there are more than `limit`, which gives `none`. A stream that
declares too much is released unread. -/
def readLimited (p : Payload) (limit : Nat) (s : Streams) :
    Except ReadFault (Option Bytes) × Streams :=
  if p.length?.any (limit < ·) then (.ok none, (p.release s).2)
  else match p with
    | buffered bytes => (.ok (some bytes), s)
    | streaming body =>
      match s.take body with
      | (some chunks, s) => body.readUpTo limit [] chunks s
      | (none, s) => (.error .consumed, s)

/-- Whether both are the same stream. -/
def sharesStream : Payload → Payload → Bool
  | streaming a, streaming b => a.stream == b.stream
  | _, _ => false

end Payload

namespace Content

/-- Whether the content can be handed to several readers. -/
def isReusable (c : Content) : Bool :=
  match c.payload with
  | .buffered _ => true
  | .streaming _ => false

def withStamp (c : Content) (stamp : Stamp) : Content :=
  { c with attributes := { c.attributes with stamp := some stamp } }

/-- Whether both contents are read from one stream. -/
def sharesStream (a b : Content) : Bool :=
  a.payload.sharesStream b.payload

/-- The content with all its bytes in memory; this consumes a stream. -/
def materialize (c : Content) (s : Streams) : Except ReadFault Content × Streams :=
  match c.payload with
  | .buffered _ => (.ok c, s)
  | .streaming _ =>
    match c.payload.readAll s with
    | (.ok bytes, s) => (.ok ⟨.buffered bytes, c.attributes⟩, s)
    | (.error fault, s) => (.error fault, s)

end Content

namespace RemoteBody

/-- A body as diagnostics show it. -/
def describe (body : RemoteBody) (s : Streams) : String :=
  let length := match body.declared with
    | some n => "Some(" ++ toString n ++ ")"
    | none => "None"
  let consumed := if s.isConsumed body then "true" else "false"
  "RemoteBody \x7b content_length: " ++ length ++ ", consumed: " ++ consumed ++ " \x7d"

end RemoteBody

end PullCache
