import Mathlib.Algebra.GroupWithZero.Nat
import PullCache.Text.Blank
/-!
# Proofs.Text.Digits

Numbers and their digits. The digits of a number are read as that number again, in any base up to 16,
and a number that is read from digits is below the power of the base that has as many zeros.
-/

namespace PullCache.Text

variable {base n : Nat} {c : Char} {cs : List Char}

/-- The digits of a number are those of a smaller one and one more, or there is only one. -/
theorem toDigits_cases (hbase : 1 < base) (n : Nat) :
    n < base ∧ Nat.toDigits base n = [Nat.digitChar n] ∨
      base ≤ n ∧ n / base < n ∧
        Nat.toDigits base n = Nat.toDigits base (n / base) ++ [Nat.digitChar (n % base)] := by
  obtain hlt | hle := Nat.lt_or_ge n base
  · exact .inl ⟨hlt, Nat.toDigits_of_lt_base hlt⟩
  · exact .inr ⟨hle, Nat.div_lt_self (by omega) hbase, Nat.toDigits_of_base_le hbase hle⟩

/-- Digits are digits. -/
theorem exists_of_mem_toDigits (hbase : 1 < base) (h : c ∈ Nat.toDigits base n) :
    ∃ d < base, c = Nat.digitChar d := by
  induction n using Nat.strongRecOn with
  | ind n ih =>
    obtain ⟨hlt, hdigits⟩ | ⟨-, hless, hdigits⟩ := toDigits_cases hbase n
    · rw [hdigits, List.mem_singleton] at h
      exact ⟨n, hlt, h⟩
    · rw [hdigits, List.mem_append, List.mem_singleton] at h
      obtain h | rfl := h
      · exact ih (n / base) hless h
      · exact ⟨n % base, Nat.mod_lt _ (by omega), rfl⟩

theorem digitValue?_digitChar : ∀ d < 16, digitValue? (Nat.digitChar d) = some d := by
  decide

theorem isAsciiDigit_digitChar : ∀ d < 10, isAsciiDigit (Nat.digitChar d) = true := by
  decide

/-- Decimal numbers are written with decimal digits. -/
theorem isAsciiDigit_of_mem_toDigits (h : c ∈ Nat.toDigits 10 n) : isAsciiDigit c = true := by
  obtain ⟨d, hd, rfl⟩ := exists_of_mem_toDigits (by decide) h
  exact isAsciiDigit_digitChar d hd

/-! ## Numbers of a base -/

/-- Reads one more digit. -/
def addDigit (base : Nat) (read : Option Nat) (c : Char) : Option Nat := do
  let n ← read
  let d ← digitValue? c
  if d < base then some (n * base + d) else none

/-- Digits are read from the left, one after the other. -/
theorem natOfDigits?_eq (h : cs ≠ []) : natOfDigits? base cs = cs.foldl (addDigit base) (some 0) := by
  unfold natOfDigits?
  rw [if_neg (by simpa using h)]
  rfl

/-- The digits of a number are read as that number. -/
theorem natOfDigits?_toDigits (hbase : 1 < base) (hmost : base ≤ 16) (n : Nat) :
    natOfDigits? base (Nat.toDigits base n) = some n := by
  rw [natOfDigits?_eq Nat.toDigits_ne_nil]
  induction n using Nat.strongRecOn with
  | ind n ih =>
    obtain ⟨hlt, hdigits⟩ | ⟨-, hless, hdigits⟩ := toDigits_cases hbase n
    · simp [hdigits, addDigit, digitValue?_digitChar n (by omega), hlt]
    · have hlast : n % base < base := Nat.mod_lt _ (by omega)
      rw [hdigits, List.foldl_append, ih _ hless]
      simp [addDigit, digitValue?_digitChar (n % base) (by omega), hlast, Nat.div_add_mod']

/-- Nothing is read after a character that is no digit. -/
theorem foldl_addDigit_none (cs : List Char) : cs.foldl (addDigit base) none = none := by
  induction cs with
  | nil => rfl
  | cons c cs ih => exact ih

/-- Every further digit takes the number at most one place up. -/
theorem foldl_addDigit_lt {read : Nat} (h : cs.foldl (addDigit base) (some read) = some n) :
    n < (read + 1) * base ^ cs.length := by
  induction cs generalizing read with
  | nil =>
    cases h
    simp
  | cons c cs ih =>
    rw [List.foldl_cons] at h
    cases hread : addDigit base (some read) c with
    | none =>
      rw [hread, foldl_addDigit_none] at h
      contradiction
    | some next =>
      rw [hread] at h
      obtain ⟨d, -, hd⟩ := Option.bind_eq_some_iff.mp hread
      have hnext : next + 1 ≤ (read + 1) * base := by
        split at hd
        · next hlt =>
          obtain rfl := Option.some.inj hd
          rw [Nat.add_mul, Nat.one_mul]
          omega
        · contradiction
      calc n < (next + 1) * base ^ cs.length := ih h
        _ ≤ (read + 1) * base * base ^ cs.length := Nat.mul_le_mul_right _ hnext
        _ = (read + 1) * base ^ (c :: cs).length := by
          rw [List.length_cons, Nat.pow_succ', Nat.mul_assoc]

/-- A number is less than the base to the number of its digits. -/
theorem natOfDigits?_lt (h : natOfDigits? base cs = some n) : n < base ^ cs.length := by
  have hne : cs ≠ [] := by
    rintro rfl
    contradiction
  rw [natOfDigits?_eq hne] at h
  simpa using foldl_addDigit_lt h

/-! ## Decimal numbers -/

/-- A number is read back as it was written. -/
theorem decimalValue_toDigits (n : Nat) : decimalValue (Nat.toDigits 10 n) = n := by
  have hvalue : ∀ d < 10, (Nat.digitChar d).toNat - '0'.toNat = d := by decide
  induction n using Nat.strongRecOn with
  | ind n ih =>
    obtain ⟨hlt, hdigits⟩ | ⟨-, hless, hdigits⟩ := toDigits_cases (by decide : 1 < 10) n
    · rw [hdigits, decimalValue, List.foldl_cons, List.foldl_nil, hvalue n hlt]
      omega
    · have hlast := hvalue (n % 10) (Nat.mod_lt _ (by decide))
      rw [hdigits, decimalValue, List.foldl_append, ← decimalValue, ih _ hless, List.foldl_cons,
        List.foldl_nil, hlast]
      omega

end PullCache.Text
