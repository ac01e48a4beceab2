import PullCache.Text.Blank
import PullCache.Text.Utf8
/-!
# Text.Percent

Percent encoding: characters of a set are written as a percent sign and two hexadecimal digits for
each of their bytes. Decoding works on bytes and leaves a percent sign that is not followed by two
digits as it is.
-/

namespace PullCache.Percent

open Text

/-! ## Encoding -/

/-- An upper-case hexadecimal digit. -/
def hexDigit (n : Nat) : Char :=
  if n < 10 then Char.ofNat (48 + n) else Char.ofNat (55 + n)

/-- A percent sign and the digits of a byte. -/
def encodeByte (b : UInt8) : List Char :=
  ['%', hexDigit (b.toNat / 16), hexDigit (b.toNat % 16)]

/-- Encodes the characters of a set and leaves the others as they are. -/
def encode (inSet : Char → Bool) (cs : List Char) : List Char :=
  cs.flatMap fun c => if inSet c then (Utf8.encodeChar c).flatMap encodeByte else [c]

/-! ## Sets -/

/-- Control characters and everything outside ASCII, which every set contains. -/
def control (c : Char) : Bool :=
  c.toNat < 0x20 || 0x7F ≤ c.toNat

/-- Inside a fragment. -/
def fragment (c : Char) : Bool :=
  control c || [' ', '"', '<', '>', '\x60'].contains c

/-- Inside a path. -/
def path (c : Char) : Bool :=
  fragment c || ['#', '?', '\x7b', '\x7d'].contains c

/-- Inside one segment of a path, where neither a slash nor a percent sign may stand for itself; in
the common schemes a backslash counts as a slash. -/
def segment (special : Bool) (c : Char) : Bool :=
  path c || ['/', '%'].contains c || (special && c == '\\')

/-- Inside a user name or password. -/
def userinfo (c : Char) : Bool :=
  path c || ['/', ':', ';', '=', '@', '[', '\\', ']', '^', '|'].contains c

/-- Inside a query; the common schemes add the apostrophe. -/
def query (special : Bool) (c : Char) : Bool :=
  control c || [' ', '"', '#', '<', '>'].contains c || (special && c == '\'')

/-! ## Decoding -/

/-- The value of a hexadecimal digit given as a byte. -/
def hexValue? (b : UInt8) : Option Nat :=
  digitValue? (Char.ofNat b.toNat)

/-- Replaces every percent sign with two digits by the byte they stand for. -/
def decode : Bytes → Bytes
  | 0x25 :: h :: l :: rest =>
    match hexValue? h, hexValue? l with
    | some hi, some lo => UInt8.ofNat (hi * 16 + lo) :: decode rest
    | _, _ => 0x25 :: decode (h :: l :: rest)
  | b :: rest => b :: decode rest
  | [] => []

end PullCache.Percent
