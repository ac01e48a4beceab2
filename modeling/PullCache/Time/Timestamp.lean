import PullCache.Text.Scan
import PullCache.Time.Instant
/-!
# Time.Timestamp

Timestamps of data formats: `2024-06-01T00:00:00.500Z`. They are written with as many groups of
three fractional digits as it takes, and read with some freedom: the separators may be surrounded
by white space, fields may be short, and the zone may be an offset.
-/

namespace PullCache.Timestamp

open Text

/-! ## Writing -/

/-- The fraction of a second in zero, three, six or nine digits. -/
def fractionText (nanos : Nat) : String :=
  if nanos = 0 then ""
  else if nanos % 1000000 = 0 then "." ++ padded 3 (nanos / 1000000)
  else if nanos % 1000 = 0 then "." ++ padded 6 (nanos / 1000)
  else "." ++ padded 9 nanos

/-- A timestamp without its zone; the separator stands between the date and the time. -/
def body (separator : String) (t : Instant) : String :=
  Instant.yearText t.date.year ++ "-" ++ padded 2 t.date.month ++ "-" ++ padded 2 t.date.day
    ++ separator ++ t.clockText ++ fractionText t.nanos

/-- The form of data: Universal Time is marked by `Z`. -/
def text (t : Instant) : String :=
  body "T" t ++ "Z"

/-- The form of reports: Universal Time is marked by its offset. -/
def offsetText (t : Instant) : String :=
  body "T" t ++ "+00:00"

/-- The form of messages: a space stands between date and time, and the zone is named. -/
def plainText (t : Instant) : String :=
  body " " t ++ " UTC"

/-! ## Reading -/

/-- A year: up to four digits, or a sign and any number of digits. -/
def year? (cs : List Char) : Option (Int × List Char) :=
  match trimStart cs with
  | '-' :: rest => do
    let (n, rest) ← number? 1 rest.length rest
    some (-(n : Int), rest)
  | '+' :: rest => do
    let (n, rest) ← number? 1 rest.length rest
    some ((n : Int), rest)
  | cs => do
    let (n, rest) ← number? 1 4 cs
    some ((n : Int), rest)

/-- One or two digits after optional white space. -/
def field? (cs : List Char) : Option (Nat × List Char) :=
  number? 1 2 (trimStart cs)

/-- A separator after optional white space. -/
def separator? (c : Char) (cs : List Char) : Option (List Char) :=
  expect? c (trimStart cs)

/-- Nanoseconds of an optional fraction; digits past the ninth are dropped. -/
def fraction? (cs : List Char) : Option (Nat × List Char) :=
  match cs with
  | '.' :: rest =>
    let (digits, rest) := spanDigits 9 rest
    if digits.isEmpty then none
    else some (decimalValue digits * Nat.pow 10 (9 - digits.length), rest.dropWhile isAsciiDigit)
  | cs => some (0, cs)

/-- An offset in seconds; colons and white space may stand between hours and minutes. -/
def offset? (cs : List Char) : Option (Int × List Char) :=
  match cs with
  | sign :: h₁ :: h₂ :: rest =>
    if (sign = '+' ∨ sign = '-' ∨ sign = '\u2212') ∧ isAsciiDigit h₁ ∧ isAsciiDigit h₂ then
      match rest.dropWhile (fun c => c == ':' || isBlank c) with
      | m₁ :: m₂ :: rest =>
        if isAsciiDigit m₁ ∧ isAsciiDigit m₂ ∧ m₁ ≤ '5' then
          let size : Int := decimalValue [h₁, h₂] * 3600 + decimalValue [m₁, m₂] * 60
          some (if sign = '+' then size else -size, rest)
        else none
      | _ => none
    else none
  | _ => none

/-- A zone: `Z`, `UTC`, in letters of either case, or an offset. -/
def zone? (cs : List Char) : Option (Int × List Char) :=
  if (cs.take 3).map lowerAscii == ['u', 't', 'c'] then some (0, cs.drop 3)
  else match cs with
    | 'Z' :: rest | 'z' :: rest => some (0, rest)
    | cs => offset? cs

/-- Reads a timestamp. -/
def parse? (cs : List Char) : Option Instant := do
  let (year, cs) ← year? cs
  let (month, cs) ← field? (← separator? '-' cs)
  let (day, cs) ← field? (← separator? '-' cs)
  let cs ← (expect? 't' cs <|> expect? 'T' cs <|> expect? ' ' cs)
  let (hour, cs) ← field? cs
  let (minute, cs) ← field? (← separator? ':' cs)
  let (second, cs) ← field? (← separator? ':' cs)
  let (nanos, cs) ← fraction? cs
  let (offset, cs) ← zone? (trimStart cs)
  if ¬ (trimStart cs).isEmpty ∨ offset.natAbs ≥ 86400 then none
  else Instant.ofLocal? ⟨year, month, day⟩ hour minute second nanos offset

end PullCache.Timestamp
