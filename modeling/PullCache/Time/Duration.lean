import PullCache.Text.Blank
/-!
# Time.Duration

Lengths of time in nanoseconds, and their text: the largest unit that fits, with as many decimal
places as it takes.
-/

namespace PullCache

/-- A length of time. -/
structure Duration where
  nanos : Nat
  deriving DecidableEq, Repr

namespace Duration

def ofMillis (n : Nat) : Duration := ⟨n * 1000000⟩

def ofSeconds (n : Nat) : Duration := ⟨n * 1000000000⟩

def zero : Duration := ⟨0⟩

/-- Whole milliseconds. -/
def toMillis (d : Duration) : Nat := d.nanos / 1000000

/-- A number of units: the whole part, then the rest over `scale` without trailing zeros. -/
def inUnit (places : Nat) (n : Nat) : String :=
  let scale := Nat.pow 10 places
  let fraction := (Text.padded places (n % scale)).toList.reverse.dropWhile (· == '0') |>.reverse
  if n % scale = 0 then toString (n / scale)
  else toString (n / scale) ++ "." ++ String.ofList fraction

/-- Seconds, milliseconds, microseconds or nanoseconds, whichever is the largest that fits. -/
def text (d : Duration) : String :=
  if 1000000000 ≤ d.nanos then inUnit 9 d.nanos ++ "s"
  else if 1000000 ≤ d.nanos then inUnit 6 d.nanos ++ "ms"
  else if 1000 ≤ d.nanos then inUnit 3 d.nanos ++ "µs"
  else toString d.nanos ++ "ns"

end Duration

end PullCache
