import Mathlib.Data.Nat.Digits.Defs
import PullCache.Proofs.Text.Digits
import PullCache.Text.Scan
/-!
# Proofs.Text.Scan

Reading back what was written piece by piece. Numbers are written into fields of a fixed width and
names as they stand in a list; each piece is read off the front of whatever follows it.
-/

namespace PullCache.Text

variable {c : Char} {cs ds rest : List Char} {width least most n : Nat}

/-! ## White space -/

/-- The text begins with something other than white space. -/
def BeginsPlain (cs : List Char) : Prop :=
  ∃ c rest, cs = c :: rest ∧ isBlank c = false

namespace BeginsPlain

variable (h : BeginsPlain cs) (rest : List Char)

include h

/-- Text that starts with no blank keeps its start. -/
theorem trimStart_append : trimStart (cs ++ rest) = cs ++ rest := by
  obtain ⟨c, tail, rfl, hc⟩ := h
  simp [trimStart, hc]

/-- One blank is passed over, and no more. -/
theorem blanks?_append : blanks? (' ' :: (cs ++ rest)) = some (cs ++ rest) := by
  have hspace : isBlank ' ' = true := by decide
  simp [blanks?, hspace, h.trimStart_append]

end BeginsPlain

theorem toNat_of_isAsciiDigit (h : isAsciiDigit c = true) : 48 ≤ c.toNat ∧ c.toNat ≤ 57 := by
  simp only [isAsciiDigit, Bool.and_eq_true, decide_eq_true_eq, Char.le_def, UInt32.le_iff_toNat_le]
    at h
  exact h

/-- No digit is a blank. -/
theorem isBlank_of_isAsciiDigit (h : isAsciiDigit c = true) : isBlank c = false := by
  have hrange := toNat_of_isAsciiDigit h
  simp [isBlank, blankRanges]
  omega

/-! ## Fields of digits -/

/-- A number in a field of so many digits. -/
structure IsField (width n : Nat) (ds : List Char) : Prop where
  length : ds.length = width
  digits : ∀ c ∈ ds, isAsciiDigit c = true
  value : decimalValue ds = n

/-- Zeros in front do not change a number. -/
theorem decimalValue_append_zeros (k : Nat) (ds : List Char) :
    decimalValue (List.replicate k '0' ++ ds) = decimalValue ds := by
  induction k with
  | zero => rfl
  | succ k ih => exact ih

/-- A padded number has digits only. -/
theorem isAsciiDigit_of_mem_padded (h : c ∈ (padded width n).toList) : isAsciiDigit c = true := by
  rw [padded, String.toList_ofList] at h
  obtain hzero | hdigit := List.mem_append.mp h
  · rw [List.eq_of_mem_replicate hzero]
    decide
  · exact isAsciiDigit_of_mem_toDigits hdigit

/-- A number is padded to a field, if it fits. -/
theorem isField_padded (hwidth : 0 < width) (h : n < 10 ^ width) :
    IsField width n (padded width n).toList := by
  have hlength := Nat.toDigits_length 10 n width hwidth h
  refine ⟨?_, fun c hc => isAsciiDigit_of_mem_padded hc, ?_⟩
  · rw [padded, String.toList_ofList, List.length_append, List.length_replicate]
    omega
  · rw [padded, String.toList_ofList, decimalValue_append_zeros, decimalValue_toDigits]

/-- The digits of a field are read to its end, if the field is full or something else follows. -/
theorem spanDigits_append (hdigits : ∀ c ∈ ds, isAsciiDigit c = true) (hlength : ds.length ≤ most)
    (hrest : ds.length = most ∨ ∀ c ∈ rest.head?, isAsciiDigit c = false) :
    spanDigits most (ds ++ rest) = (ds, rest) := by
  induction ds generalizing most with
  | nil =>
    cases most with
    | zero => rfl
    | succ most =>
      cases rest with
      | nil => rfl
      | cons c rest =>
        have hother : isAsciiDigit c = false := by simpa using hrest
        simp [spanDigits, hother]
  | cons d ds ih =>
    obtain ⟨hdigit, hdigits⟩ := List.forall_mem_cons.mp hdigits
    cases most with
    | zero => simp at hlength
    | succ most =>
      have hspan := ih hdigits (Nat.le_of_succ_le_succ hlength)
        (hrest.imp_left Nat.succ.inj)
      simp [spanDigits, hdigit, hspan]

namespace IsField

variable (h : IsField width n ds)

include h

/-- A field of some width begins with a digit, so with no blank. -/
theorem beginsPlain (hwidth : 0 < width) : BeginsPlain ds := by
  have hlength := h.length
  cases ds with
  | nil =>
    rw [List.length_nil] at hlength
    omega
  | cons c cs => exact ⟨c, cs, rfl, isBlank_of_isAsciiDigit (h.digits c List.mem_cons_self)⟩

/-- A field is read as its number, whatever follows it, by a reader that stops at its width. -/
theorem number?_append (hleast : least ≤ width) (rest : List Char) :
    number? least width (ds ++ rest) = some (n, rest) := by
  have hspan : spanDigits width (ds ++ rest) = (ds, rest) :=
    spanDigits_append h.digits (Nat.le_of_eq h.length) (.inl h.length)
  have henough : ¬ ds.length < least := by
    rw [h.length]
    omega
  simp [number?, hspan, henough, h.value]

/-- All the digits of a field are read, if none follows it. -/
theorem digits?_append (hwidth : 0 < width) (hrest : ∀ c ∈ rest.head?, isAsciiDigit c = false) :
    digits? (ds ++ rest) = some (ds, rest) := by
  have hspan : spanDigits (ds ++ rest).length (ds ++ rest) = (ds, rest) :=
    spanDigits_append h.digits (by simp) (.inr hrest)
  obtain ⟨c, cs, hcons, -⟩ := h.beginsPlain hwidth
  rw [digits?, hspan]
  simp [hcons]

end IsField

/-! ## Names -/

/-- A short name at a place of a list of names. -/
structure IsName (names : List String) (i : Nat) (name : List Char) : Prop where
  length : name.length = 3
  found : names.findIdx? (fun n => n.toList.map lowerAscii == name.map lowerAscii) = some i
  head : name.head?.map isBlank = some false

namespace IsName

variable {names : List String} {name : List Char} {i : Nat} (h : IsName names i name)

include h

theorem beginsPlain : BeginsPlain name := by
  obtain ⟨c, hc, hplain⟩ := Option.map_eq_some_iff.mp h.head
  obtain ⟨rest, hcons⟩ := List.head?_eq_some_iff.mp hc
  exact ⟨c, rest, hcons, hplain⟩

/-- A name is read as its place, whatever follows it. -/
theorem shortName?_append (rest : List Char) :
    shortName? names (name ++ rest) = some (i, rest) := by
  have htake : (name ++ rest).take 3 = name := by
    rw [← h.length, List.take_left]
  have hdrop : (name ++ rest).drop 3 = rest := by
    rw [← h.length, List.drop_left]
  simp only [shortName?, htake, hdrop, h.found]

end IsName

end PullCache.Text
