import PullCache.Text.Blank
/-!
# Url.Domain.Punycode

Texts of any characters as texts of ASCII letters, digits and hyphens. The ASCII characters come
first; the others follow in the order of their numbers, each as the number of steps from the one
before, where a step goes on to the next place in the text and, after the last place, to the next
number. Steps are written in digits of base 36 with thresholds that follow the size of the steps so
far.
-/

namespace PullCache.Punycode

/-! ## Digits -/

/-- The digit of a value: letters up to 25, then decimal digits. -/
def digit (d : Nat) : Char :=
  Char.ofNat (if d < 26 then 'a'.toNat + d else '0'.toNat + (d - 26))

/-- The value of a digit; letters of both cases count. -/
def digitValue? (c : Char) : Option Nat :=
  let c := Text.lowerAscii c
  if 'a' ≤ c ∧ c ≤ 'z' then some (c.toNat - 'a'.toNat)
  else if '0' ≤ c ∧ c ≤ '9' then some (c.toNat - '0'.toNat + 26)
  else none

/-- The threshold at a place, counted from zero: a digit below it is the last. -/
def threshold (bias place : Nat) : Nat :=
  max 1 (min 26 (36 * (place + 1) - bias))

/-- Makes a number of steps smaller until it fits two digits. -/
def scaleDown (delta divisions : Nat) : Nat × Nat :=
  if 455 < delta then scaleDown (delta / 35) (divisions + 1) else (delta, divisions)
termination_by delta
decreasing_by exact Nat.div_lt_self (by omega) (by omega)

/-- The bias after a number of steps, with so many characters written. -/
def adapt (delta written : Nat) (isFirst : Bool) : Nat :=
  let delta := if isFirst then delta / 700 else delta / 2
  let (delta, divisions) := scaleDown (delta + delta / written) 0
  36 * divisions + 36 * delta / (delta + 38)

/-! ## Writing -/

/-- A number in digits. -/
def digits (bias place n : Nat) : List Char :=
  let t := threshold bias place
  if n < t then [digit n]
  else digit (t + (n - t) % (36 - t)) :: digits bias (place + 1) ((n - t) / (36 - t))
termination_by n
decreasing_by
  have : 1 ≤ threshold bias place := by unfold threshold; omega
  have := Nat.div_le_self (n - threshold bias place) (36 - threshold bias place)
  omega

/-- What writing has come to: the steps since the last character that was written, the bias, the
number of characters written, and the digits so far. -/
structure Writing where
  delta : Nat
  bias : Nat
  written : Nat
  output : List Char
  deriving DecidableEq, Repr

namespace Writing

/-- Passes a place of the text while characters of a number are written. -/
def pass (basic n : Nat) (w : Writing) (c : Char) : Writing :=
  if c.toNat < n then { w with delta := w.delta + 1 }
  else if c.toNat = n then
    { delta := 0
      bias := adapt w.delta (w.written + 1) (w.written = basic)
      written := w.written + 1
      output := w.output ++ digits w.bias 0 w.delta }
  else w

/-- Writes all characters of a number; `before` is the number before it. -/
def writeAll (text : List Char) (basic : Nat) (state : Writing × Nat) (n : Nat) : Writing × Nat :=
  let (w, before) := state
  let w := { w with delta := w.delta + (n - before) * (w.written + 1) }
  let w := text.foldl (pass basic n) w
  ({ w with delta := w.delta + 1 }, n + 1)

end Writing

/-- Puts a number into an ascending list, once. -/
def insertNumber (n : Nat) : List Nat → List Nat
  | [] => [n]
  | m :: rest =>
    if n < m then n :: m :: rest
    else if n = m then m :: rest
    else m :: insertNumber n rest

/-- The ASCII form of a text. -/
def encode (text : List Char) : List Char :=
  let basic := text.filter fun c => c.toNat < 0x80
  let others := (text.filter fun c => 0x80 ≤ c.toNat).map Char.toNat
  let numbers := others.foldr insertNumber []
  let start : Writing := { delta := 0, bias := 72, written := basic.length, output := [] }
  let (w, _) := numbers.foldl (Writing.writeAll text basic.length) (start, 0x80)
  basic ++ (if basic.isEmpty then [] else ['-']) ++ w.output

/-! ## Reading -/

/-- Reads the digits of a number, each of the weight that the digits before have led to. -/
def readNumber? (bias place weight n : Nat) : List Char → Option (Nat × List Char)
  | [] => none
  | c :: rest => do
    let d ← digitValue? c
    let n := n + d * weight
    let t := threshold bias place
    if d < t then some (n, rest) else readNumber? bias (place + 1) (weight * (36 - t)) n rest

theorem length_of_readNumber? {bias place weight n m : Nat} {cs rest : List Char}
    (h : readNumber? bias place weight n cs = some (m, rest)) : rest.length < cs.length := by
  induction cs generalizing place weight n with
  | nil => simp [readNumber?] at h
  | cons c cs ih =>
    simp only [readNumber?] at h
    cases hd : digitValue? c with
    | none => simp [hd] at h
    | some d =>
      simp only [hd, Option.bind_eq_bind, Option.bind_some] at h
      split at h
      · simp only [Option.some.injEq, Prod.mk.injEq] at h
        simp [h.2]
      · have := ih h
        simp only [List.length_cons]
        omega

/-- Puts in the characters that the digits tell of. -/
def insertAll? (n index bias : Nat) (text : List Char) (cs : List Char) : Option (List Char) :=
  if cs.isEmpty then some text
  else
    match _h : readNumber? bias 0 1 0 cs with
    | none => none
    | some (delta, rest) =>
      let count := text.length + 1
      let n := n + (index + delta) / count
      let index := (index + delta) % count
      if 0x110000 ≤ n ∨ (0xD800 ≤ n ∧ n < 0xE000) then none
      else insertAll? n (index + 1) (adapt delta count (text.all (·.toNat < 0x80)))
        (text.take index ++ Char.ofNat n :: text.drop index) rest
termination_by cs.length
decreasing_by exact length_of_readNumber? _h

/-- The text of an ASCII form: its ASCII characters end before the last hyphen. -/
def decode? (form : List Char) : Option (List Char) :=
  let extension := (form.reverse.takeWhile (· != '-')).reverse
  let basic := form.take (form.length - extension.length - 1)
  insertAll? 0x80 0 72 basic extension

end PullCache.Punycode
