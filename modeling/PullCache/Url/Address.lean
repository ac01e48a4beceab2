import PullCache.Text.Scan
/-!
# Url.Address

Addresses of hosts by number. In URLs an IPv4 address may be written in up to four parts of any of
three bases, where the last part fills all the bytes that are left; sockets take four decimal
numbers only. An IPv6 address is eight groups, of which one run of zeros may be left out.
-/

namespace PullCache.Address

open Text

/-! ## IPv4 in URLs -/

/-- A part of an address: `0x` starts a hexadecimal number and `0` an octal one. A base without any
digits after it is zero. -/
def part? (cs : List Char) : Option Nat :=
  match cs with
  | [] => none
  | '0' :: 'x' :: rest | '0' :: 'X' :: rest =>
    if rest.isEmpty then some 0 else natOfDigits? 16 rest
  | '0' :: c :: rest => natOfDigits? 8 (c :: rest)
  | cs => natOfDigits? 10 cs

/-- The parts between dots, an empty last one aside. -/
def parts (cs : List Char) : List (List Char) :=
  let all := splitOn (· == '.') cs
  if all.getLast? = some [] then all.dropLast else all

/-- Whether the last part is a number, which makes a name an address. -/
def endsInNumber (cs : List Char) : Bool :=
  match (parts cs).getLast? with
  | none => false
  | some last => (!last.isEmpty && last.all isAsciiDigit) || (part? last).isSome

/-- The number of an address: each part but the last is one byte. -/
def ipv4? (cs : List Char) : Option Nat := do
  let numbers ← (parts cs).mapM part?
  let last ← numbers.getLast?
  let front := numbers.dropLast
  if numbers.length ≤ 4 ∧ front.all (· ≤ 255) ∧ last < Nat.pow 256 (4 - front.length) then
    some (front.zipIdx.foldl (fun sum (n, i) => sum + n * Nat.pow 256 (3 - i)) last)
  else none

/-- Four decimal bytes, the most significant first. -/
def ipv4Text (n : Nat) : String :=
  toString (n / 16777216 % 256) ++ "." ++ toString (n / 65536 % 256) ++ "."
    ++ toString (n / 256 % 256) ++ "." ++ toString (n % 256)

/-! ## IPv4 in socket addresses -/

/-- A decimal byte of at most three digits without zeros in front. -/
def byte? (cs : List Char) : Option (Nat × List Char) :=
  let (digits, rest) := spanDigits 3 cs
  if digits.isEmpty ∨ (digits.length > 1 ∧ digits.head? = some '0') ∨ decimalValue digits > 255
  then none
  else some (decimalValue digits, rest)

/-- Four decimal bytes between dots. -/
def dotted? (cs : List Char) : Option (Nat × List Char) := do
  let (a, cs) ← byte? cs
  let (b, cs) ← byte? (← expect? '.' cs)
  let (c, cs) ← byte? (← expect? '.' cs)
  let (d, cs) ← byte? (← expect? '.' cs)
  some (a * 16777216 + b * 65536 + c * 256 + d, cs)

/-! ## IPv6 -/

/-- A group of one to four hexadecimal digits. -/
def group? (cs : List Char) : Option (Nat × List Char) := do
  let digits := (cs.take 4).takeWhile (fun c => (digitValue? c).isSome)
  let n ← natOfDigits? 16 digits
  some (n, cs.drop digits.length)

/-- Up to `limit` groups between colons. An IPv4 address may stand for the last two; whether one
did is the second component. -/
def groups : Nat → List Char → List Nat × Bool × List Char
  | 0, cs => ([], false, cs)
  | limit + 1, cs =>
    match (if limit = 0 then none else dotted? cs) with
    | some (n, rest) => ([n / 65536, n % 65536], true, rest)
    | none =>
      match group? cs with
      | none => ([], false, cs)
      | some (n, rest) =>
        match rest with
        | ':' :: more =>
          match groups limit more with
          | ([], _, _) => ([n], false, rest)
          | (ns, dotted, rest) => (n :: ns, dotted, rest)
        | rest => ([n], false, rest)

/-- An address at the front of a text: eight groups, or fewer around a double colon that stands for
at least one group of zeros. -/
def ipv6Start? (cs : List Char) : Option (List Nat × List Char) :=
  let (front, dotted, rest) := groups 8 cs
  if front.length = 8 then some (front, rest)
  else if dotted then none
  else match rest with
    | ':' :: ':' :: rest =>
      let (back, _, rest) := groups (7 - front.length) rest
      some (front ++ List.replicate (8 - front.length - back.length) 0 ++ back, rest)
    | _ => none

/-- The groups of an address that is the whole text. -/
def ipv6? (cs : List Char) : Option (List Nat) :=
  match ipv6Start? cs with
  | some (ns, []) => some ns
  | _ => none

/-- The length of the run of zeros at the front. -/
def zeroRun (ns : List Nat) : Nat :=
  (ns.takeWhile (· == 0)).length

/-- Where the longest run of at least two zeros starts, and its length; of equal runs the first. -/
def longestRun (ns : List Nat) : Option (Nat × Nat) :=
  (List.range ns.length).foldl
    (fun best i =>
      let run := zeroRun (ns.drop i)
      if run < 2 then best
      else match best with
        | some (_, length) => if length < run then some (i, run) else best
        | none => some (i, run))
    none

/-- Groups in lower-case digits, between colons. -/
def groupsText (ns : List Nat) : String :=
  ":".intercalate (ns.map hex)

/-- The shortest text of an address: its longest run of zeros is left out. -/
def ipv6Text (ns : List Nat) : String :=
  match longestRun ns with
  | none => groupsText ns
  | some (start, length) =>
    groupsText (ns.take start) ++ "::" ++ groupsText (ns.drop (start + length))

/-! ## Sockets -/

/-- A decimal number below a bound that ends the text. -/
def boundedNumber? (bound : Nat) (cs : List Char) : Option (Nat × List Char) := do
  let (digits, rest) ← digits? cs
  if decimalValue digits < bound then some (decimalValue digits, rest) else none

/-- The zone of a link-local address, after a percent sign. -/
def skipScope? (cs : List Char) : Option (List Char) :=
  match cs with
  | '%' :: rest => (boundedNumber? UInt32.size rest).map (·.2)
  | cs => some cs

/-- Whether a text is the address of a socket: an IPv4 address, or an IPv6 address in brackets,
and after a colon the number of the service. -/
def isSocketAddress (s : String) : Bool :=
  let service (cs : List Char) : Bool :=
    match expect? ':' cs >>= boundedNumber? 65536 with
    | some (_, []) => true
    | _ => false
  match dotted? s.toList with
  | some (_, rest) => service rest
  | none =>
    match s.toList with
    | '[' :: rest =>
      match ipv6Start? rest with
      | some (_, rest) =>
        match skipScope? rest >>= expect? ']' with
        | some rest => service rest
        | none => false
      | none => false
    | _ => false

end PullCache.Address
