import PullCache.Text.Percent
/-!
# Text.FormQuery

Query strings made of names and values, the way forms send them: pairs are joined by `&`, a name is
joined to its value by `=`, and a space is written as `+`.
-/

namespace PullCache.FormQuery

open Text

/-- The characters that stand for themselves. -/
def isPlain (c : Char) : Bool :=
  isAsciiAlnum c || ['*', '-', '.', '_'].contains c

/-- A name or a value as it stands in a query string. -/
def encodeText (cs : List Char) : List Char :=
  cs.flatMap fun c =>
    if c == ' ' then ['+']
    else if isPlain c then [c]
    else (Utf8.encodeChar c).flatMap Percent.encodeByte

/-- One pair. -/
def encodePair (p : String × String) : List Char :=
  encodeText p.1.toList ++ '=' :: encodeText p.2.toList

/-- Adds pairs to a query string. -/
def append (query : List Char) (pairs : List (String × String)) : List Char :=
  pairs.foldl
    (fun query p => (if query.isEmpty then query else query ++ ['&']) ++ encodePair p)
    query

/-- A name or a value of a query string, with U+FFFD for what is no text. -/
def decodeText (bs : Bytes) : String :=
  utf8Lossy (Percent.decode (bs.map fun b => if b = 0x2B then 0x20 else b))

/-- One pair; without `=` the value is empty. -/
def decodePair (bs : Bytes) : String × String :=
  (decodeText (bs.takeWhile (· ≠ 0x3D)), decodeText ((bs.dropWhile (· ≠ 0x3D)).drop 1))

/-- The pairs of a query string; empty pieces are skipped. -/
def decode (bs : Bytes) : List (String × String) :=
  ((splitOn (· == 0x26) bs).filter (fun piece => !piece.isEmpty)).map decodePair

end PullCache.FormQuery
