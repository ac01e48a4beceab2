import PullCache.Text.FormQuery
/-!
# Server.Target

The target of a request line: a path and a query, in the raw form in which clients send them. Bytes
that have to be escaped make a target illegal; a fragment is dropped.
-/

namespace PullCache

/-- The path and the query of a request. -/
structure Target where
  path : Bytes
  query : Option Bytes
  deriving DecidableEq, Repr

namespace Target

open Text

/-- The bytes that a path may hold as they are. -/
def inPath (b : UInt8) : Bool :=
  let n := b.toNat
  n == 0x21 || n == 0x22 || (0x24 ≤ n && n ≤ 0x3B) || n == 0x3D || (0x40 ≤ n && n ≤ 0x5F)
    || (0x61 ≤ n && n != 0x60)

/-- The bytes that a query may hold as they are. -/
def inQuery (b : UInt8) : Bool :=
  let n := b.toNat
  n == 0x21 || (0x24 ≤ n && n ≤ 0x3B) || n == 0x3D || 0x3F ≤ n

/-- A path with an optional query; what follows `#` is dropped. -/
def ofBytes? (bs : Bytes) : Option Target :=
  let bs := bs.takeWhile (· ≠ 0x23)
  let path := bs.takeWhile (· ≠ 0x3F)
  let rest := bs.dropWhile (· ≠ 0x3F)
  if !path.all inPath || !(rest.drop 1).all inQuery then none
  else some ⟨path, if rest.isEmpty then none else some (rest.drop 1)⟩

/-- The bytes of a host with its user and number. -/
def inAuthority (b : UInt8) : Bool :=
  let c := Char.ofNat b.toNat
  isAsciiAlnum c || "-._~!$&'()*+,;=:@[]%".toList.contains c

/-- What follows the scheme and `://` of an absolute target: a host, and the path from its first
slash on. -/
def ofAuthority? (bs : Bytes) : Option Target :=
  let ends (b : UInt8) : Bool := b = 0x2F || b = 0x3F || b = 0x23
  let authority := bs.takeWhile fun b => !ends b
  if authority.isEmpty || !authority.all inAuthority then none
  else
    match bs.dropWhile fun b => !ends b with
    | [] => some ⟨utf8 "/", none⟩
    | 0x2F :: rest => ofBytes? (0x2F :: rest)
    | rest => ofBytes? (0x2F :: rest)

/-- The part of an absolute target after its scheme. -/
def afterScheme? (bs : Bytes) : Option Bytes :=
  let inScheme (b : UInt8) : Bool :=
    let c := Char.ofNat b.toNat
    isAsciiAlnum c || c == '+' || c == '-' || c == '.'
  if (bs.takeWhile inScheme).isEmpty then none
  else match bs.dropWhile inScheme with
    | 0x3A :: 0x2F :: 0x2F :: rest => some rest
    | _ => none

/-- Reads a target: a path, `*`, an absolute URL, or a host alone. -/
def parse? (s : String) : Option Target :=
  let bs := utf8 s
  match bs with
  | [] => none
  | 0x2F :: _ => ofBytes? bs
  | [0x2A] => some ⟨bs, none⟩
  | bs =>
    match afterScheme? bs with
    | some rest => ofAuthority? rest
    | none => if bs.all inAuthority then some ⟨[], none⟩ else none

/-- The parameters of the query. -/
def params (t : Target) : List (String × String) :=
  FormQuery.decode (t.query.getD [])

end Target

end PullCache
