import PullCache.Text.Utf8
/-!
# Content.Body

Bodies that arrive in pieces and can be read once. Everyone who holds a body refers to the same
stream by its number, so whoever reads or releases it first settles it for all.

Whoever has taken a stream pulls its pieces one by one, and every piece that is pulled is on record.
`readToEnd` goes on to the end; `readUpTo` gives up as soon as a limit is crossed.
-/

namespace PullCache

/-- What is wrong with a body that cannot be read. -/
inductive ReadFault where
  /-- Someone else has read or released it. -/
  | consumed
  /-- The connection broke off with a message. -/
  | broken (reason : String)
  deriving DecidableEq, Repr

namespace ReadFault

def message : ReadFault → String
  | consumed => "remote body already consumed"
  | broken reason => reason

end ReadFault

/-- A piece of a body as it arrives. -/
inductive Chunk where
  | data (bytes : Bytes)
  /-- Reading on fails. -/
  | failure (reason : String)
  deriving DecidableEq, Repr

namespace Chunk

/-- All the bytes of the pieces, or the first failure among them. -/
def readAll : List Chunk → Except ReadFault Bytes
  | [] => .ok []
  | data bytes :: rest => (readAll rest).map (bytes ++ ·)
  | failure reason :: _ => .error (.broken reason)

end Chunk

/-- A body attached to an answer of the origin: the number of its stream and the length that was
declared for it, true or not. -/
structure RemoteBody where
  stream : Nat
  declared : Option Nat
  deriving DecidableEq, Repr

/-- The streams opened so far, by number; `none` once a stream has been taken. The pieces that were
pulled out of streams are on record, in their order, each with the number of its stream. -/
structure Streams where
  open? : List (Option (List Chunk))
  pulled : List (Nat × Chunk) := []
  deriving DecidableEq, Repr

namespace Streams

def empty : Streams := { open? := [] }

/-- The streams with one more, and its number. -/
def add (s : Streams) (chunks : List Chunk) : Nat × Streams :=
  (s.open?.length, { s with open? := s.open? ++ [some chunks] })

/-- Whether the stream of a body is gone. -/
def isConsumed (s : Streams) (body : RemoteBody) : Bool :=
  (s.open?.getD body.stream none).isNone

/-- Takes the stream out of a body; only the first to ask gets it. Nothing is pulled yet. -/
def take (s : Streams) (body : RemoteBody) : Option (List Chunk) × Streams :=
  (s.open?.getD body.stream none, { s with open? := s.open?.set body.stream none })

/-- The streams once this piece has been pulled out of the stream of a body. -/
def pull (s : Streams) (body : RemoteBody) (chunk : Chunk) : Streams :=
  { s with pulled := s.pulled ++ [(body.stream, chunk)] }

end Streams

namespace RemoteBody

/-- Pulls the pieces of a stream that was taken out of the body, until there are no more or one fails,
and puts their bytes after `read`. -/
def readToEnd (body : RemoteBody) (read : Bytes) :
    List Chunk → Streams → Except ReadFault Bytes × Streams
  | [], s => (.ok read, s)
  | .data bytes :: rest, s => body.readToEnd (read ++ bytes) rest (s.pull body (.data bytes))
  | .failure reason :: _, s => (.error (.broken reason), s.pull body (.failure reason))

/-- The same until more than `limit` bytes are there, which gives `none`. -/
def readUpTo (body : RemoteBody) (limit : Nat) (read : Bytes) :
    List Chunk → Streams → Except ReadFault (Option Bytes) × Streams
  | [], s => (.ok (some read), s)
  | .data bytes :: rest, s =>
    let s := s.pull body (.data bytes)
    if read.length + bytes.length > limit then (.ok none, s)
    else body.readUpTo limit (read ++ bytes) rest s
  | .failure reason :: _, s => (.error (.broken reason), s.pull body (.failure reason))

end RemoteBody

end PullCache
