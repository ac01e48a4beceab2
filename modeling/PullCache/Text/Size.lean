/-!
# Text.Size

Numbers of bytes for people: whole bytes below 1024, otherwise one decimal place in the largest unit
up to GiB. A number is first rounded to 53 significant bits; both roundings go to the nearest value
and from half-way to the even one.
-/

namespace PullCache.Size

/-- The nearest whole number to `n / d`; from half-way the even one. -/
def roundedQuotient (n d : Nat) : Nat :=
  let q := n / d
  let r := n % d
  if 2 * r < d then q
  else if d < 2 * r then q + 1
  else q + q % 2

/-- The nearest number with 53 significant bits. -/
def significant (n : Nat) : Nat :=
  let excess := n.log2 + 1 - 53
  roundedQuotient n (Nat.pow 2 excess) * Nat.pow 2 excess

/-- The units above the byte. -/
def units : List String := ["KiB", "MiB", "GiB"]

/-- How many times a size is divided by 1024. -/
def unitOf (n : Nat) : Nat :=
  if n < 1024 then 0 else if n < Nat.pow 1024 2 then 1 else if n < Nat.pow 1024 3 then 2 else 3

/-- A number of bytes with its unit. -/
def text (bytes : Nat) : String :=
  let n := significant bytes
  match unitOf n with
  | 0 => toString bytes ++ " B"
  | unit + 1 =>
    let tenths := roundedQuotient (n * 10) (Nat.pow 1024 (unit + 1))
    toString (tenths / 10) ++ "." ++ toString (tenths % 10) ++ " " ++ units.getD unit ""

end PullCache.Size
