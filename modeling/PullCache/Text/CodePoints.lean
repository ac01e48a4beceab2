import PullCache.Text.Blank
/-!
# Text.CodePoints

Tables of characters, written as texts: hexadecimal numbers, ranges with a hyphen between their
ends, and values after an equals sign, with white space between the items.
-/

namespace PullCache.Text.CodePoints

/-- The number that hexadecimal digits stand for. -/
def number (digits : List Char) : Nat :=
  (natOfDigits? 16 digits).getD 0

/-- A list cut in two at the first separator, which is dropped. -/
def cut (separator : Char) (cs : List Char) : List Char × List Char :=
  (cs.takeWhile (· != separator), (cs.dropWhile (· != separator)).drop 1)

/-- A range, or a number that stands for the range of itself. -/
def range (cs : List Char) : Nat × Nat :=
  let (first, last) := cut '-' cs
  (number first, number (if last.isEmpty then first else last))

/-- The items of a table. -/
def items (table : String) : List (List Char) :=
  (splitOn (fun c => c == ' ' || c == '\n') table.toList).filter fun item => !item.isEmpty

/-- A table of ranges. -/
def ranges (table : String) : List (Nat × Nat) :=
  (items table).map range

/-- A table of ranges with a number for each. -/
def numbered (table : String) : List ((Nat × Nat) × Nat) :=
  (items table).map fun item =>
    let (front, value) := cut '=' item
    (range front, number value)

/-- Whether a character lies in a range. -/
def within (r : Nat × Nat) (c : Char) : Bool :=
  r.1 ≤ c.toNat && c.toNat ≤ r.2

/-- Whether a character lies in one of the ranges. -/
def contains (table : List (Nat × Nat)) (c : Char) : Bool :=
  table.any (within · c)

/-- The number of the first range in which a character lies, or zero. -/
def value (table : List ((Nat × Nat) × Nat)) (c : Char) : Nat :=
  ((table.find? fun (r, _) => within r c).map (·.2)).getD 0

end PullCache.Text.CodePoints
