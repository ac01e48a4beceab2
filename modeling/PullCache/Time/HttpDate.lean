import PullCache.Text.Scan
import PullCache.Time.Instant
/-!
# Time.HttpDate

Dates of mail and of the web: `Sat, 01 Jun 2024 00:00:00 GMT`. They are written with a two-digit
day; they are read as mail dates are, with an optional day of the week that has to be right, short
years, named zones and comments.
-/

namespace PullCache.HttpDate

open Text

/-! ## Writing -/

/-- The preferred form of a date in a header. -/
def text (t : Instant) : String :=
  t.weekdayText ++ ", " ++ padded 2 t.date.day ++ " " ++ t.monthText ++ " "
    ++ Instant.yearText t.date.year ++ " " ++ t.clockText ++ " GMT"

/-- The form of a mail date, which only the years 0 to 9999 have. -/
def mailText? (t : Instant) : Option String :=
  if 0 ≤ t.date.year ∧ t.date.year ≤ 9999 then
    some (t.weekdayText ++ ", " ++ toString t.date.day ++ " " ++ t.monthText ++ " "
      ++ Instant.yearText t.date.year ++ " " ++ t.clockText ++ " +0000")
  else none

/-! ## Reading -/

/-- Years of two digits lie between 1950 and 2049, years of three digits count from 1900. -/
def fullYear (digits : List Char) : Nat :=
  let n := decimalValue digits
  if digits.length = 2 then (if n < 50 then n + 2000 else n + 1900)
  else if digits.length = 3 then n + 1900
  else n

/-- The named zones, in hours ahead of Universal Time. -/
def zoneHours? (name : String) : Option Int :=
  match name with
  | "gmt" | "ut" | "z" => some 0
  | "edt" => some (-4)
  | "est" | "cdt" => some (-5)
  | "cst" | "mdt" => some (-6)
  | "mst" | "pdt" => some (-7)
  | "pst" => some (-8)
  | _ => none

/-- A sign, two digits of hours and two of minutes, in seconds. -/
def numericZone? (cs : List Char) : Option (Int × List Char) :=
  match cs with
  | sign :: h₁ :: h₂ :: m₁ :: m₂ :: rest =>
    if (sign = '+' ∨ sign = '-') ∧ [h₁, h₂, m₁, m₂].all isAsciiDigit ∧ m₁ ≤ '5' then
      let size : Int := decimalValue [h₁, h₂] * 3600 + decimalValue [m₁, m₂] * 60
      some (if sign = '-' then -size else size, rest)
    else none
  | _ => none

/-- A zone by name or by number; any other single letter but `j` counts as Universal Time. -/
def zone? (cs : List Char) : Option (Int × List Char) :=
  let name := (cs.takeWhile isAsciiAlpha).map lowerAscii
  let rest := cs.dropWhile isAsciiAlpha
  if name.isEmpty then numericZone? cs
  else match zoneHours? (String.ofList name) with
    | some h => some (h * 3600, rest)
    | none => if name.length = 1 ∧ name ≠ ['j'] then some (0, rest) else none

/-- The rest of a comment after its opening bracket; a backslash takes the next character as it is
and comments nest. -/
def comment? : Nat → List Char → Option (List Char)
  | _, [] => none
  | _, ['\\'] => none
  | depth, '\\' :: _ :: rest => comment? depth rest
  | depth, '(' :: rest => comment? (depth + 1) rest
  | 0, ')' :: rest => some rest
  | depth + 1, ')' :: rest => comment? depth rest
  | depth, _ :: rest => comment? depth rest

/-- Whether only comments are left, each after optional white space. The fuel is the length of the
text. -/
def onlyComments : Nat → List Char → Bool
  | _, [] => true
  | 0, _ => false
  | fuel + 1, cs =>
    match trimStart cs with
    | '(' :: rest => match comment? 0 rest with
      | some rest => onlyComments fuel rest
      | none => false
    | _ => false

/-- An optional day of the week before a comma. -/
def weekdayPart? (cs : List Char) : Option (Option Nat × List Char) :=
  match shortName? Civil.weekdayNames cs with
  | some (i, rest) => do
    let rest ← expect? ',' rest
    some (some i, rest)
  | none => some (none, cs)

/-- An optional part of the time, after a colon. -/
def secondPart? (cs : List Char) : Option (Nat × List Char) :=
  match expect? ':' (trimStart cs) with
  | some rest => number? 2 2 rest
  | none => some (0, cs)

/-- Reads a mail date. -/
def parse? (cs : List Char) : Option Instant := do
  let (weekday, cs) ← weekdayPart? (trimStart cs)
  let (day, cs) ← number? 1 2 (trimStart cs)
  let (month, cs) ← shortName? Civil.monthNames (← blanks? cs)
  let (year, cs) ← digits? (← blanks? cs)
  let (hour, cs) ← number? 2 2 (← blanks? cs)
  let (minute, cs) ← number? 2 2 (trimStart (← expect? ':' (trimStart cs)))
  let (second, cs) ← secondPart? cs
  let (offset, cs) ← zone? (← blanks? cs)
  let date : Civil := ⟨fullYear year, month + 1, day⟩
  if year.length < 2 ∨ ¬ onlyComments cs.length cs ∨ weekday.any (· ≠ Civil.weekday date.toDays)
      ∨ offset.natAbs ≥ 86400 then none
  else Instant.ofLocal? date hour minute second 0 offset

end PullCache.HttpDate
