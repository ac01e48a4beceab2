import PullCache.Data.Json
import PullCache.Text.Scan
/-!
# Yaml.Scalar

What a scalar without quotes stands for: nothing, a truth value, a number or a text. Numbers may be
written in base two, eight, ten or sixteen, with a fraction or an exponent; digits that begin with a
zero are a text, and so is a number that is too large for a floating-point number.
-/

namespace PullCache.Yaml

open Text

/-! ## Words -/

/-- The ways to write nothing. -/
def isNullWord (s : String) : Bool :=
  s == "" || s == "~" || s == "null" || s == "Null" || s == "NULL"

/-- The ways to write a truth value. -/
def truth? (s : String) : Option Bool :=
  if s == "true" || s == "True" || s == "TRUE" then some true
  else if s == "false" || s == "False" || s == "FALSE" then some false
  else none

/-- The ways to write what is no finite number. -/
def isSpecialFloat (s : String) : Bool :=
  [".inf", ".Inf", ".INF", "+.inf", "+.Inf", "+.INF", "-.inf", "-.Inf", "-.INF", ".nan", ".NaN",
    ".NAN"].contains s

/-! ## Whole numbers -/

/-- The base that a mark in front of digits names. -/
def baseOf? : Char → Option Nat
  | 'x' => some 16
  | 'o' => some 8
  | 'b' => some 2
  | _ => none

/-- A sign in front of digits, and what follows it. -/
def sign (cs : List Char) : Bool × List Char :=
  match cs with
  | '-' :: rest => (true, rest)
  | '+' :: rest => (false, rest)
  | rest => (false, rest)

/-- Digits that begin with a zero, which are no number. -/
def hasLeadingZero (digits : List Char) : Bool :=
  match digits with
  | '0' :: c :: rest => (c :: rest).all isAsciiDigit
  | _ => false

/-- The size of a whole number without its sign. -/
def magnitude? (cs : List Char) : Option Nat :=
  let decimal := if hasLeadingZero cs then none else natOfDigits? 10 cs
  match cs with
  | '0' :: mark :: rest =>
    match baseOf? mark with
    | some base => natOfDigits? base rest
    | none => decimal
  | _ => decimal

/-- A whole number, as far as 128 bits go. -/
def whole? (cs : List Char) : Option Int := do
  let (negative, digits) := sign cs
  let n ← magnitude? digits
  if negative then if n ≤ Nat.pow 2 127 then some (-(n : Int)) else none
  else if n < Nat.pow 2 128 then some n else none

/-! ## Numbers with a point -/

/-- A number as its digits and a power of ten. -/
structure Scientific where
  digits : List Char
  exponent : Int

/-- The exponent of a number, if one follows. -/
def exponent? (cs : List Char) : Option Int :=
  match cs with
  | [] => some 0
  | c :: rest =>
    if c == 'e' || c == 'E' then
      let (negative, digits) := sign rest
      (natOfDigits? 10 digits).map fun (n : Nat) => if negative then -(n : Int) else n
    else none

/-- A number without its sign: digits with at most one point among them, and an exponent. -/
def scientific? (cs : List Char) : Option Scientific := do
  let before := cs.takeWhile isAsciiDigit
  let rest := cs.dropWhile isAsciiDigit
  let (after, rest) := match rest with
    | '.' :: rest => (rest.takeWhile isAsciiDigit, rest.dropWhile isAsciiDigit)
    | rest => ([], rest)
  if before.isEmpty && after.isEmpty then none
  else
    let e ← exponent? rest
    some ⟨before ++ after, e - after.length⟩

/-- The numbers below this one round to a finite floating-point number. -/
def finiteBound : Nat := Nat.pow 2 1024 - Nat.pow 2 970

namespace Scientific

/-- Whether a floating-point number can come close. The number of digits decides, except near the
bound. -/
def isFinite (s : Scientific) : Bool :=
  let significant := s.digits.dropWhile (· == '0')
  let places := significant.length + s.exponent
  if significant.isEmpty || places ≤ 300 then true
  else if 320 ≤ places then false
  else
    let n := decimalValue significant
    if 0 ≤ s.exponent then n * Nat.pow 10 s.exponent.toNat < finiteBound
    else n < finiteBound * Nat.pow 10 (-s.exponent).toNat

/-- The number as a decimal value. A value very close to nothing loses its digits. -/
def toJson (negative : Bool) (s : Scientific) : Json :=
  let n : Int := decimalValue s.digits
  let n := if negative then -n else n
  if n = 0 ∨ s.exponent < -1000 then .decimal 0 0
  else if 0 ≤ s.exponent then .decimal (n * Nat.pow 10 s.exponent.toNat) 0
  else .decimal n (-s.exponent).toNat

end Scientific

/-- A number with a point or an exponent, as long as it is finite. -/
def float? (cs : List Char) : Option Json := do
  let (negative, digits) := sign cs
  if hasLeadingZero digits then none
  else
    let s ← scientific? digits
    if s.isFinite then some (s.toJson negative) else none

/-- What a scalar without quotes stands for. A whole number that 64 bits cannot hold counts as one
with a point. -/
def plainValue (s : String) : Json :=
  if isNullWord s then .null
  else match truth? s with
    | some b => .bool b
    | none =>
      match whole? s.toList with
      | some n => if Int64.minValue.toInt ≤ n ∧ n < UInt64.size then .int n else .decimal n 0
      | none =>
        if isSpecialFloat s then .decimal 0 0
        else (float? s.toList).getD (.text s)

/-- Whether a text could be taken for something else if it had no quotes. -/
def isAmbiguous (s : String) : Bool :=
  hasLeadingZero (sign s.toList).2 ||
    match plainValue s with
    | .text _ => false
    | _ => true

end PullCache.Yaml
