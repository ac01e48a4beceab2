import PullCache.Freshness
/-!
# Proofs.Freshness

How long a stamp lasts. Points in time that are given in nanoseconds are ordered like their numbers,
so a stamp of a controller is fresh for the whole of the maximum age after it was taken, and as long
as dates reach no longer than that.
-/

namespace PullCache

/-! ## Points in time by their nanoseconds -/

namespace Instant

/-- Time is not before an earlier time, or the same. -/
theorem before_eq_false_iff {t now : Instant} : now.before t = false ↔
    t.seconds < now.seconds ∨ t.seconds = now.seconds ∧ t.subsecond ≤ now.subsecond := by
  simp only [before, Bool.or_eq_false_iff, decide_eq_false_iff_not, Bool.and_eq_false_imp, beq_iff_eq]
  omega

/-- Nanoseconds are compared as numbers. -/
theorem before_ofNanos (a b : Int) : (ofNanos a).before (ofNanos b) = true ↔ a < b := by
  have ha : 0 ≤ a % 1000000000 ∧ a % 1000000000 < 1000000000 := ⟨by omega, by omega⟩
  have hb : 0 ≤ b % 1000000000 ∧ b % 1000000000 < 1000000000 := ⟨by omega, by omega⟩
  rw [before, Bool.or_eq_true, Bool.and_eq_true, decide_eq_true_eq, decide_eq_true_eq, beq_iff_eq]
  simp only [ofNanos, subsecond, Bool.false_eq_true, if_false, Nat.add_zero]
  omega

/-- Whole seconds are a thousand million nanoseconds each, as far as dates reach. -/
theorem addSeconds?_ofNanos (a : Int) (s : Nat) :
    (ofNanos a).addSeconds? s = some (ofNanos (a + s * 1000000000)) ∨
      s ≠ 0 ∧ secondsInRange ((ofNanos a).seconds + s) = false ∧
        (ofNanos a).addSeconds? s = none := by
  unfold addSeconds?
  by_cases hs : s = 0
  · exact .inl (by simp [hs])
  · rw [if_neg hs]
    by_cases hrange : secondsInRange ((ofNanos a).seconds + s) = true
    · left
      have hdiv : (a + s * 1000000000) / 1000000000 = a / 1000000000 + s := by omega
      have hmod : (a + s * 1000000000) % 1000000000 = a % 1000000000 := by omega
      rw [if_pos hrange]
      simp only [ofNanos, hdiv, hmod]
    · rw [if_neg hrange]
      exact .inr ⟨hs, Bool.eq_false_iff.mpr hrange, rfl⟩

/-- Which seconds a date can have. -/
theorem secondsInRange_eq_true {s : Int} :
    secondsInRange s = true ↔ earliest.seconds ≤ s ∧ s ≤ latest.seconds := by
  rw [secondsInRange, Bool.and_eq_true, decide_eq_true_eq, decide_eq_true_eq]

end Instant

/-! ## Stamps -/

namespace Controller

variable {c : Controller} {stamp : Stamp} (origin : Instant) {taken now : Int}

/-- A stamp with the present token is fresh until the maximum age has passed since it was taken. -/
theorem isStale_of_young (htoken : stamp.token = some c.token)
    (htaken : stamp.verified = origin.addNanos taken) (hage : 0 < c.maxAge)
    (hnow : now < taken + c.maxAge * 1000000000) :
    c.isStale (some stamp) (origin.addNanos now) = false := by
  have hseconds : (c.maxAge.toNat : Int) = c.maxAge := by omega
  simp only [isStale, htoken, htaken, Option.any_some, ne_eq, not_true_eq_false, decide_false,
    Bool.false_eq_true, if_false, Int.not_le.mpr hage, Instant.addNanos]
  obtain h | ⟨-, -, h⟩ := Instant.addSeconds?_ofNanos (origin.toNanos + taken) c.maxAge.toNat
  · have hbefore : (Instant.ofNanos (origin.toNanos + now)).before
        (Instant.ofNanos (origin.toNanos + taken + c.maxAge.toNat * 1000000000)) = true := by
      rw [Instant.before_ofNanos]
      omega
    simp only [h, hbefore, Bool.not_true]
  · rw [h]

/-- A stamp that a controller gave is fresh until the maximum age has passed since. -/
theorem isStale_stampAt (hage : 0 < c.maxAge) (hnow : now < taken + c.maxAge * 1000000000) :
    c.isStale (some (c.stampAt (origin.addNanos taken))) (origin.addNanos now) = false :=
  isStale_of_young origin rfl rfl hage hnow

end Controller

end PullCache
