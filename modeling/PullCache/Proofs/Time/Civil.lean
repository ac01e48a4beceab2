import PullCache.Time.Civil
/-!
# Proofs.Time.Civil

The calendar in both directions. A cycle of 400 years is made of centuries, groups of four years and
years, each of which is a day longer or shorter than it usually is in one place only
(`exists_place`); with the years counted from March, the leap day comes last of all. So every day has
a date that exists, and the date leads back to the day.
-/

namespace PullCache.Civil

/-! ## Places in a cycle -/

/-- The place of a day in a cycle of 400 years: how many whole centuries, groups of four years, years
and days of the year lie before it. -/
structure Place (day century four year dayOfYear : Nat) : Prop where
  day_eq : day = 36524 * century + 1461 * four + 365 * year + dayOfYear
  century_le : century ≤ 3
  four_le : four ≤ 24
  year_le : year ≤ 3
  dayOfYear_le : dayOfYear ≤ 365
  /-- The last day of a year of 366 days ends a group of four years; if it ends a century as well, it
  ends the cycle. -/
  leap : dayOfYear = 365 → year = 3 ∧ (four = 24 → century = 3)

theorem exists_place {day : Nat} (h : day < 146097) :
    ∃ century four year dayOfYear, Place day century four year dayOfYear := by
  obtain ⟨century, rest, hcentury, hday, hrest⟩ : ∃ century rest, century ≤ 3 ∧
      day = 36524 * century + rest ∧ (rest < 36524 ∨ rest = 36524 ∧ century = 3) :=
    ⟨min (day / 36524) 3, day - 36524 * min (day / 36524) 3, by omega, by omega, by omega⟩
  obtain ⟨four, last, hfour, hfours, hlast⟩ : ∃ four last, four ≤ 24 ∧
      rest = 1461 * four + last ∧ last < 1461 :=
    ⟨rest / 1461, rest % 1461, by omega, by omega, by omega⟩
  refine ⟨century, four, min (last / 365) 3, last - 365 * min (last / 365) 3, ?_⟩
  constructor <;> omega

namespace Place

variable {day century four year dayOfYear : Nat} (h : Place day century four year dayOfYear)

include h

/-- The year of the cycle, as it is computed from the day. -/
theorem yearOfCycle_eq :
    (day - day / 1460 + day / 36524 - day / 146096) / 365 = 100 * century + 4 * four + year := by
  obtain ⟨hday, hcentury, hfour, hyear, hlast, hleap⟩ := h
  have hcenturies : day - day / 1460 + day / 36524 - day / 146096 = day - day / 1460 + century := by
    have hwithin : day < 146097 := by omega
    have hpart : day / 36524 - day / 146096 = century := by omega
    omega
  -- Groups of four years are a day longer than 1460, so the count can be one ahead near the end.
  have hfours : day / 1460 = 25 * century + four ∧ dayOfYear ≤ 364 ∨
      day / 1460 = 25 * century + four + 1 ∧ 1 ≤ dayOfYear := by
    omega
  rw [hcenturies]
  obtain ⟨hless, hdays⟩ | ⟨hmore, hdays⟩ := hfours
  · rw [hless]
    omega
  · rw [hmore]
    omega

/-- The day of that year, as it is computed from the days of the cycle before the year. -/
theorem dayOfYear_eq :
    let y := 100 * century + 4 * four + year
    day - (365 * y + y / 4 - y / 100) = dayOfYear := by
  obtain ⟨hday, hcentury, hfour, hyear, hlast, hleap⟩ := h
  omega

end Place

/-! ## Months from March -/

/-- The days of a year that begins with March before one of its months. -/
def daysBefore (month : Nat) : Nat :=
  (153 * month + 2) / 5

/-- A day of the year falls in the month that is computed from it. -/
theorem daysBefore_le {dayOfYear : Nat} (h : dayOfYear ≤ 365) :
    (5 * dayOfYear + 2) / 153 ≤ 11 ∧ daysBefore ((5 * dayOfYear + 2) / 153) ≤ dayOfYear ∧
      dayOfYear < daysBefore ((5 * dayOfYear + 2) / 153 + 1) := by
  unfold daysBefore
  omega

/-- The month in a year that begins with January. -/
def fromJanuary (month : Nat) : Nat :=
  if month < 10 then month + 3 else month - 9

/-- The date of a day: a year of the cycle, a month from March, and the days before it in the month. -/
theorem exists_ofDays (days : Int) : ∃ (cycle : Int) (century four year month day : Nat),
    Place (days + 719468 - cycle * 146097).toNat century four year (daysBefore month + day) ∧
    cycle * 146097 ≤ days + 719468 ∧ month ≤ 11 ∧ daysBefore month + day < daysBefore (month + 1) ∧
    ofDays days = ⟨cycle * 400 + (100 * century + 4 * four + year : Nat) +
      (if fromJanuary month ≤ 2 then 1 else 0), fromJanuary month, day + 1⟩ := by
  have hlt : ((days + 719468) % 146097).toNat < 146097 := by omega
  have hday : (days + 719468 - (days + 719468) / 146097 * 146097).toNat =
      ((days + 719468) % 146097).toNat := by omega
  obtain ⟨century, four, year, dayOfYear, hplace⟩ := exists_place hlt
  obtain ⟨hmonth, hle, hless⟩ := daysBefore_le hplace.dayOfYear_le
  obtain ⟨day, hsplit⟩ := Nat.exists_eq_add_of_le hle
  refine ⟨(days + 719468) / 146097, century, four, year, (5 * dayOfYear + 2) / 153, day, ?_, ?_,
    hmonth, ?_, ?_⟩
  · rwa [hday, ← hsplit]
  · omega
  · omega
  · have hyears := hplace.dayOfYear_eq
    have hfirst : dayOfYear - (153 * ((5 * dayOfYear + 2) / 153) + 2) / 5 = day := by
      unfold daysBefore at hsplit
      omega
    simp only [ofDays, hplace.yearOfCycle_eq, hyears, hfirst, fromJanuary]
    rfl

/-! ## Dates -/

theorem fromJanuary_add_nine {month : Nat} (h : month ≤ 11) : (fromJanuary month + 9) % 12 = month := by
  unfold fromJanuary
  split <;> omega

/-- The date of a day leads back to the day. -/
theorem toDays_ofDays (days : Int) : (ofDays days).toDays = days := by
  obtain ⟨cycle, century, four, year, month, day, hplace, hcycle, hmonth, -, hdate⟩ :=
    exists_ofDays days
  obtain ⟨hday, hcentury, hfour, hyear, -, -⟩ := hplace
  -- The year that begins with March is the one the date was made from.
  have hmarch : (if fromJanuary month ≤ 2 then
      cycle * 400 + (100 * century + 4 * four + year : Nat) +
        (if fromJanuary month ≤ 2 then 1 else 0) - 1
      else cycle * 400 + (100 * century + 4 * four + year : Nat) +
        (if fromJanuary month ≤ 2 then 1 else 0) : Int) =
      cycle * 400 + (100 * century + 4 * four + year : Nat) := by
    split <;> omega
  have hcycles : (cycle * 400 + (100 * century + 4 * four + year : Nat) : Int) / 400 = cycle := by
    omega
  have hyears : (cycle * 400 + (100 * century + 4 * four + year : Nat) : Int) % 400 =
      (100 * century + 4 * four + year : Nat) := by
    omega
  simp only [hdate, toDays, fromJanuary_add_nine hmonth, hmarch, hcycles, hyears]
  unfold daysBefore at hday
  omega

/-- Every month but the last one of a year that begins with March has the same length in all years. -/
theorem daysBefore_succ {month : Nat} (h : month < 11) (y : Int) :
    daysBefore (month + 1) = daysBefore month + daysInMonth y (fromJanuary month) := by
  have hmonths : ∀ month < 11, fromJanuary month ≠ 2 ∧
      daysBefore (month + 1) = daysBefore month + daysInMonth 1970 (fromJanuary month) := by
    decide
  obtain ⟨hother, hlength⟩ := hmonths month h
  simpa only [daysInMonth, if_neg hother] using hlength

theorem Place.isLeapYear {day century four year : Nat} (h : Place day century four year 365)
    (cycle : Int) :
    isLeapYear (cycle * 400 + (100 * century + 4 * four + year : Nat) + 1) = true := by
  obtain ⟨-, hcentury, hfour, -, -, hleap⟩ := h
  obtain ⟨rfl, hlast⟩ := hleap rfl
  simp only [Civil.isLeapYear, Bool.or_eq_true, Bool.and_eq_true, beq_iff_eq, bne_iff_ne]
  omega

/-- February has a last day in leap years only. -/
theorem Place.lt_february {day century four year rest : Nat}
    (h : Place day century four year (daysBefore 11 + rest)) (cycle : Int) :
    rest < daysInMonth (cycle * 400 + (100 * century + 4 * four + year : Nat) + 1) 2 := by
  have hlast : 337 + rest ≤ 365 := h.dayOfYear_le
  by_cases hleap : 337 + rest = 365
  · change Place day century four year (337 + rest) at h
    rw [hleap] at h
    rw [daysInMonth, if_pos rfl, h.isLeapYear cycle, if_pos rfl]
    omega
  · rw [daysInMonth, if_pos rfl]
    split <;> omega

/-- The date of a day exists. -/
theorem isDate_ofDays (days : Int) : (ofDays days).isDate = true := by
  obtain ⟨cycle, century, four, year, month, day, hplace, hcycle, hmonth, hless, hdate⟩ :=
    exists_ofDays days
  have hfirst : 1 ≤ fromJanuary month ∧ fromJanuary month ≤ 12 := by
    unfold fromJanuary
    split <;> omega
  have hlast : day < daysInMonth (cycle * 400 + (100 * century + 4 * four + year : Nat) +
      (if fromJanuary month ≤ 2 then 1 else 0)) (fromJanuary month) := by
    by_cases hfebruary : month = 11
    · subst hfebruary
      exact hplace.lt_february cycle
    · rw [daysBefore_succ (by omega)] at hless
      exact Nat.lt_of_add_lt_add_left hless
  simp only [hdate, isDate, Bool.and_eq_true, decide_eq_true_eq]
  exact ⟨⟨hfirst, by omega⟩, hlast⟩

/-- The parts of a date of a day are in range. -/
theorem ofDays_bounds (days : Int) : 1 ≤ (ofDays days).month ∧ (ofDays days).month ≤ 12 ∧
    1 ≤ (ofDays days).day ∧ (ofDays days).day ≤ 31 := by
  have hdate := isDate_ofDays days
  simp only [isDate, Bool.and_eq_true, decide_eq_true_eq] at hdate
  obtain ⟨⟨hmonth, hfirst⟩, hlast⟩ := hdate
  have hlength : daysInMonth (ofDays days).year (ofDays days).month ≤ 31 := by
    unfold daysInMonth
    split
    · split <;> omega
    · split <;> omega
  exact ⟨hmonth.1, hmonth.2, hfirst, Nat.le_trans hlast hlength⟩

/-- The days of the years 0 to 9999. -/
theorem days_bounds {days : Int} (hfirst : 0 ≤ (ofDays days).year)
    (hlast : (ofDays days).year ≤ 9999) : -1000000 ≤ days ∧ days ≤ 3000000 := by
  obtain ⟨cycle, century, four, year, month, day, hplace, hcycle, -, -, hdate⟩ := exists_ofDays days
  obtain ⟨hday, hcentury, hfour, hyear, hdayOfYear, -⟩ := hplace
  rw [hdate] at hfirst hlast
  split at hfirst <;> simp only at hfirst hlast <;> omega

end PullCache.Civil
