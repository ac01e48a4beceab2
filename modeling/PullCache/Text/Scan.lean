import PullCache.Text.Blank
/-!
# Text.Scan

Reading small pieces off the front of a text: digits with a least and a most count, single
characters, and white space. Dates, addresses and numbers are read with these.
-/

namespace PullCache.Text

/-- A character that must come next. -/
def expect? (c : Char) : List Char → Option (List Char)
  | [] => none
  | d :: rest => if d = c then some rest else none

/-- White space of which there must be some. -/
def blanks? (cs : List Char) : Option (List Char) :=
  match cs with
  | [] => none
  | c :: rest => if isBlank c then some (trimStart rest) else none

/-- At most `most` leading digits, and what follows them. -/
def spanDigits : Nat → List Char → List Char × List Char
  | 0, cs => ([], cs)
  | _ + 1, [] => ([], [])
  | most + 1, c :: rest =>
    if isAsciiDigit c then
      let (digits, rest) := spanDigits most rest
      (c :: digits, rest)
    else ([], c :: rest)

/-- A number of at least `least` digits; no more than `most` are read. -/
def number? (least most : Nat) (cs : List Char) : Option (Nat × List Char) :=
  let (digits, rest) := spanDigits most cs
  if digits.length < least then none else some (decimalValue digits, rest)

/-- All the leading digits, of which there must be at least one. -/
def digits? (cs : List Char) : Option (List Char × List Char) :=
  let (digits, rest) := spanDigits cs.length cs
  if digits.isEmpty then none else some (digits, rest)

/-- The position of a three-letter name in a list of names, letter case aside. -/
def shortName? (names : List String) (cs : List Char) : Option (Nat × List Char) :=
  let name := (cs.take 3).map lowerAscii
  match names.findIdx? (fun n => n.toList.map lowerAscii == name) with
  | some i => some (i, cs.drop 3)
  | none => none

end PullCache.Text
