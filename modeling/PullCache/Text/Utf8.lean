/-!
# Text.Utf8

UTF-8 over lists of bytes: the encoding of a character, and decoding in which
every maximal ill-formed piece becomes one replacement character, or makes the
whole text unreadable.

Everything a request or a configuration file carries arrives as bytes, so both
readings are needed: headers and query parameters are read leniently, paths and
files strictly. This module depends only on the Lean 4 core library.
-/

namespace PullCache

/-- Raw bytes, as a body, a file or a request line holds them. -/
abbrev Bytes := List UInt8

namespace Utf8

/-! ## Encoding -/

/-- The one to four bytes of a character, most significant bits first. -/
def encodeChar (c : Char) : Bytes :=
  let n := c.toNat
  if n < 0x80 then
    [UInt8.ofNat n]
  else if n < 0x800 then
    [UInt8.ofNat (0xC0 + n / 0x40), UInt8.ofNat (0x80 + n % 0x40)]
  else if n < 0x10000 then
    [UInt8.ofNat (0xE0 + n / 0x1000), UInt8.ofNat (0x80 + n / 0x40 % 0x40),
      UInt8.ofNat (0x80 + n % 0x40)]
  else
    [UInt8.ofNat (0xF0 + n / 0x40000), UInt8.ofNat (0x80 + n / 0x1000 % 0x40),
      UInt8.ofNat (0x80 + n / 0x40 % 0x40), UInt8.ofNat (0x80 + n % 0x40)]

/-- The bytes of a list of characters, one after the other. -/
def encode (cs : List Char) : Bytes :=
  cs.flatMap encodeChar

@[simp] theorem encode_nil : encode [] = [] := rfl

@[simp] theorem encode_cons (c : Char) (cs : List Char) :
    encode (c :: cs) = encodeChar c ++ encode cs := rfl

theorem encode_append (xs ys : List Char) : encode (xs ++ ys) = encode xs ++ encode ys := by
  simp [encode]

/-! ## Decoding -/

/-- Bytes 80 to BF continue a character. -/
def isContinuation (b : UInt8) : Bool :=
  0x80 ≤ b.toNat && b.toNat ≤ 0xBF

/-- How many continuation bytes a first byte asks for, and the range its second byte must be in.
The narrower ranges rule out overlong forms, surrogates and numbers past the last character. -/
def leadShape (b : UInt8) : Option (Nat × Nat × Nat) :=
  let n := b.toNat
  if 0xC2 ≤ n && n ≤ 0xDF then some (1, 0x80, 0xBF)
  else if n == 0xE0 then some (2, 0xA0, 0xBF)
  else if n == 0xED then some (2, 0x80, 0x9F)
  else if 0xE1 ≤ n && n ≤ 0xEF then some (2, 0x80, 0xBF)
  else if n == 0xF0 then some (3, 0x90, 0xBF)
  else if 0xF1 ≤ n && n ≤ 0xF3 then some (3, 0x80, 0xBF)
  else if n == 0xF4 then some (3, 0x80, 0x8F)
  else none

/-- The bits a first byte contributes. -/
def leadBits (b : UInt8) (continuations : Nat) : Nat :=
  match continuations with
  | 1 => b.toNat - 0xC0
  | 2 => b.toNat - 0xE0
  | _ => b.toNat - 0xF0

/-- Reads `k` further continuation bytes onto the bits read so far; `none` when one is missing, with
the bytes from there on. -/
def continueChar : Nat → Nat → Bytes → Option Char × Bytes
  | 0, bits, rest => (some (Char.ofNat bits), rest)
  | _ + 1, _, [] => (none, [])
  | k + 1, bits, b :: rest =>
    if isContinuation b then continueChar k (bits * 0x40 + (b.toNat - 0x80)) rest
    else (none, b :: rest)

/-- Reads one character after its first byte `b`; `none` stands for an ill-formed piece. -/
def decodeChar (b : UInt8) (rest : Bytes) : Option Char × Bytes :=
  if b.toNat < 0x80 then
    (some (Char.ofNat b.toNat), rest)
  else match leadShape b, rest with
    | some (k + 1, lo, hi), c :: tail =>
      if lo ≤ c.toNat && c.toNat ≤ hi then
        continueChar k (leadBits b (k + 1) * 0x40 + (c.toNat - 0x80)) tail
      else (none, rest)
    | _, _ => (none, rest)

theorem length_continueChar (k bits : Nat) (rest : Bytes) :
    (continueChar k bits rest).2.length ≤ rest.length := by
  induction k generalizing bits rest with
  | zero => simp [continueChar]
  | succ k ih =>
    cases rest with
    | nil => simp [continueChar]
    | cons b rest =>
      simp only [continueChar]
      split
      · exact Nat.le_succ_of_le (ih _ _)
      · simp

/-- Reading a character never gives bytes back. -/
theorem length_decodeChar (b : UInt8) (rest : Bytes) :
    (decodeChar b rest).2.length ≤ rest.length := by
  unfold decodeChar
  split
  · simp
  · split
    · split
      · exact Nat.le_succ_of_le (length_continueChar _ _ _)
      · simp
    · simp

/-- The characters of a byte list in order, `none` for each maximal ill-formed piece. -/
def decodeUnits : Bytes → List (Option Char)
  | [] => []
  | b :: rest => (decodeChar b rest).1 :: decodeUnits (decodeChar b rest).2
termination_by bs => bs.length
decreasing_by
  have := length_decodeChar b rest
  simp only [List.length_cons]
  omega

/-- The text of a byte list, with U+FFFD for every ill-formed piece. -/
def decodeLossy (bs : Bytes) : List Char :=
  (decodeUnits bs).map (·.getD '\uFFFD')

/-- The text of a byte list, if all of it is well-formed. -/
def decode? (bs : Bytes) : Option (List Char) :=
  (decodeUnits bs).mapM id

end Utf8

/-- The UTF-8 bytes of a text. -/
def utf8 (s : String) : Bytes :=
  Utf8.encode s.toList

/-- The text of UTF-8 bytes, if they are well-formed. -/
def utf8? (bs : Bytes) : Option String :=
  (Utf8.decode? bs).map String.ofList

/-- The text of UTF-8 bytes, with U+FFFD for what is ill-formed. -/
def utf8Lossy (bs : Bytes) : String :=
  String.ofList (Utf8.decodeLossy bs)

end PullCache
