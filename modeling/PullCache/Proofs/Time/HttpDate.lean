import PullCache.Proofs.Freshness
import PullCache.Proofs.Text.Scan
import PullCache.Proofs.Time.Civil
import PullCache.Time.HttpDate
/-!
# Proofs.Time.HttpDate

Dates of the web, written and read back. A date is read piece by piece: the day of the week that is
written is the right one for the date, so it is accepted, and the fields lead back to the second they
were made from (`parse?_text`). A year outside 0 to 9999 is written with a sign and is not read at
all.
-/

namespace PullCache

/-! ## Whole seconds -/

namespace Instant

/-- The start of the second, which may be a leap second. -/
def wholeSecond (t : Instant) : Instant :=
  { t with nanos := 0, nanos_lt := Nat.zero_lt_succ 999999999 }

/-- Dates with a year of four digits. -/
def HasShortYear (t : Instant) : Prop :=
  0 ≤ t.date.year ∧ t.date.year ≤ 9999

instance (t : Instant) : Decidable t.HasShortYear :=
  inferInstanceAs (Decidable (_ ∧ _))

/-- A leap second is the last one of its minute. -/
def IsProper (t : Instant) : Prop :=
  t.leap = true → t.seconds % 60 = 59

variable {t : Instant}

theorem hour_lt (t : Instant) : t.hour < 24 := by
  unfold hour secondOfDay
  omega

theorem minute_lt (t : Instant) : t.minute < 60 := by
  unfold minute secondOfDay
  omega

theorem second_le (t : Instant) : t.second ≤ 60 := by
  unfold second
  split <;> omega

/-- A second counts as a leap second if it is number 60. -/
theorem second_beq_sixty (h : t.IsProper) : (t.second == 60) = t.leap := by
  unfold second secondOfDay
  cases hleap : t.leap with
  | false => simp; omega
  | true =>
    have hlast := h hleap
    simp
    omega

/-- The fields of a clock add up to the second of the day. -/
theorem secondOfDay_eq (h : t.IsProper) :
    t.hour * 3600 + t.minute * 60 + (if t.leap then 59 else t.second) = t.secondOfDay := by
  unfold hour minute second secondOfDay
  cases hleap : t.leap with
  | false => simp; omega
  | true =>
    have hlast := h hleap
    simp
    omega

/-- A clock that is whole minutes ahead shows a leap second where it lies. -/
theorem isProper_of_ofLocal? {date : Civil} {hour minute second nanos : Nat} {offset : Int}
    (hoffset : offset % 60 = 0)
    (h : ofLocal? date hour minute second nanos offset = some t) : t.nanos = nanos ∧ t.IsProper := by
  unfold ofLocal? at h
  split at h
  · split at h
    · extract_lets leap shown at h
      split at h
      · cases h
        refine ⟨rfl, fun hleap => ?_⟩
        have hlast : leap = true := hleap
        simp only [shown, hlast, if_true]
        omega
      · contradiction
    · contradiction
  · contradiction

/-- The fields of a clock lead back to the second. -/
theorem ofLocal?_fields (hyear : t.HasShortYear) (hproper : t.IsProper) :
    ofLocal? t.date t.hour t.minute t.second 0 0 = some t.wholeSecond := by
  have hvalid : (t.date.isDate && t.hour < 24 && t.minute < 60 && t.second ≤ 60) = true := by
    simp [date, Civil.isDate_ofDays, hour_lt, minute_lt, second_le]
  have hshown : t.date.toDays * 86400 + (t.secondOfDay : Nat) = t.seconds := by
    unfold date secondOfDay
    rw [Civil.toDays_ofDays]
    omega
  have hreached : secondsInRange t.seconds = true := by
    have hbounds := Civil.days_bounds hyear.1 hyear.2
    rw [secondsInRange_eq_true]
    show -8334601228800 ≤ t.seconds ∧ t.seconds ≤ 8210266876799
    omega
  simp [ofLocal?, hvalid, second_beq_sixty hproper, secondOfDay_eq hproper, hshown, hreached,
    wholeSecond]

end Instant

namespace HttpDate

open Text

/-! ## Pieces of a date -/

/-- The name of a day of the week. -/
def weekdayName (i : Nat) : List Char :=
  (Civil.weekdayNames.getD i "").toList

/-- The name of a month, counted from zero. -/
def monthName (i : Nat) : List Char :=
  (Civil.monthNames.getD i "").toList

theorem isName_weekday {i : Nat} (h : i < 7) : IsName Civil.weekdayNames i (weekdayName i) := by
  have hnames : ∀ i < 7, (weekdayName i).length = 3 ∧
      Civil.weekdayNames.findIdx? (fun n => n.toList.map lowerAscii == (weekdayName i).map lowerAscii) =
        some i ∧ (weekdayName i).head?.map isBlank = some false := by
    decide
  obtain ⟨hlength, hfound, hhead⟩ := hnames i h
  exact ⟨hlength, hfound, hhead⟩

theorem isName_month {i : Nat} (h : i < 12) : IsName Civil.monthNames i (monthName i) := by
  have hnames : ∀ i < 12, (monthName i).length = 3 ∧
      Civil.monthNames.findIdx? (fun n => n.toList.map lowerAscii == (monthName i).map lowerAscii) =
        some i ∧ (monthName i).head?.map isBlank = some false := by
    decide
  obtain ⟨hlength, hfound, hhead⟩ := hnames i h
  exact ⟨hlength, hfound, hhead⟩

/-! ## Reading -/

/-- Reads what follows the month of a date. -/
def afterMonth (weekday : Option Nat) (day month : Nat) (cs : List Char) : Option Instant := do
  let (year, cs) ← digits? (← blanks? cs)
  let (hour, cs) ← number? 2 2 (← blanks? cs)
  let (minute, cs) ← number? 2 2 (trimStart (← expect? ':' (trimStart cs)))
  let (second, cs) ← secondPart? cs
  let (offset, cs) ← zone? (← blanks? cs)
  let date : Civil := ⟨fullYear year, month + 1, day⟩
  if year.length < 2 ∨ ¬ onlyComments cs.length cs ∨ weekday.any (· ≠ Civil.weekday date.toDays)
      ∨ offset.natAbs ≥ 86400 then none
  else Instant.ofLocal? date hour minute second 0 offset

/-- Reading a date, cut in two after the month. -/
theorem parse?_eq (cs : List Char) : parse? cs = (do
    let (weekday, cs) ← weekdayPart? (trimStart cs)
    let (day, cs) ← number? 1 2 (trimStart cs)
    let (month, cs) ← shortName? Civil.monthNames (← blanks? cs)
    afterMonth weekday day month cs) := rfl

variable {i j day hour minute second : Nat} {ds ys hs ms ss cs : List Char}

theorem trimStart_space (h : BeginsPlain cs) (rest : List Char) :
    trimStart (' ' :: (cs ++ rest)) = cs ++ rest := by
  have hspace : trimStart (' ' :: (cs ++ rest)) = trimStart (cs ++ rest) := by
    have hblank : isBlank ' ' = true := by decide
    simp [trimStart, hblank]
  rw [hspace, h.trimStart_append]

/-- The parts of a date up to the month are read as they are written. -/
theorem parse?_front (hi : i < 7) (hj : j < 12) (hday : IsField 2 day ds) (cs : List Char) :
    parse? (weekdayName i ++ ',' :: ' ' :: (ds ++ ' ' :: (monthName j ++ cs))) =
      afterMonth (some i) day j cs := by
  have hweekday := isName_weekday hi
  have hmonth := isName_month hj
  have hpart : weekdayPart? (weekdayName i ++ ',' :: ' ' :: (ds ++ ' ' :: (monthName j ++ cs))) =
      some (some i, ' ' :: (ds ++ ' ' :: (monthName j ++ cs))) := by
    simp [weekdayPart?, hweekday.shortName?_append, expect?]
  have hnumber := hday.number?_append (by decide : 1 ≤ 2) (' ' :: (monthName j ++ cs))
  rw [parse?_eq, hweekday.beginsPlain.trimStart_append, hpart]
  simp [trimStart_space (hday.beginsPlain (by decide)), hnumber,
    hmonth.beginsPlain.blanks?_append, hmonth.shortName?_append]

/-- The rest of a date with four digits for the year is read as it is written. -/
theorem afterMonth_fields {year : Nat} (hyear : IsField 4 year ys) (hhour : IsField 2 hour hs)
    (hminute : IsField 2 minute ms) (hsecond : IsField 2 second ss)
    (hweekday : i = Civil.weekday (Civil.toDays ⟨year, j + 1, day⟩)) :
    afterMonth (some i) day j (' ' :: (ys ++ ' ' :: (hs ++ ':' :: (ms ++ ':' :: (ss ++
      [' ', 'G', 'M', 'T']))))) = Instant.ofLocal? ⟨year, j + 1, day⟩ hour minute second 0 0 := by
  have hdigits : digits? (ys ++ ' ' :: (hs ++ ':' :: (ms ++ ':' :: (ss ++ [' ', 'G', 'M', 'T'])))) =
      some (ys, ' ' :: (hs ++ ':' :: (ms ++ ':' :: (ss ++ [' ', 'G', 'M', 'T'])))) :=
    hyear.digits?_append (by decide) (by simp; decide)
  have hhours := hhour.number?_append (by decide : 2 ≤ 2)
    (':' :: (ms ++ ':' :: (ss ++ [' ', 'G', 'M', 'T'])))
  have hminutes := hminute.number?_append (by decide : 2 ≤ 2) (':' :: (ss ++ [' ', 'G', 'M', 'T']))
  have hcolon : isBlank ':' = false := by decide
  have hseconds : secondPart? (':' :: (ss ++ [' ', 'G', 'M', 'T'])) =
      some (second, [' ', 'G', 'M', 'T']) := by
    simp [secondPart?, trimStart, hcolon, expect?, hsecond.number?_append]
  have hblank : blanks? [' ', 'G', 'M', 'T'] = some ['G', 'M', 'T'] := by decide
  have hzone : zone? ['G', 'M', 'T'] = some (0, []) := by decide
  have hfull : fullYear ys = year := by
    simp [fullYear, hyear.length, hyear.value]
  have htrim : ∀ rest, expect? ':' (trimStart (':' :: rest)) = some rest := by
    simp [trimStart, hcolon, expect?]
  rw [afterMonth, (hyear.beginsPlain (by decide)).blanks?_append, Option.bind_eq_bind,
    Option.bind_some]
  simp only [hdigits, (hhour.beginsPlain (by decide)).blanks?_append, hhours, htrim,
    (hminute.beginsPlain (by decide)).trimStart_append, hminutes, hseconds, hblank, hzone, hfull,
    Option.bind_eq_bind, Option.bind_some]
  simp [hyear.length, onlyComments, ← hweekday]

/-- A year with a sign is not read. -/
theorem afterMonth_sign {sign : Char} (hsign : sign = '+' ∨ sign = '-') (weekday : Option Nat)
    (day month : Nat) (cs : List Char) :
    afterMonth weekday day month (' ' :: sign :: cs) = none := by
  obtain ⟨hplain, hdigit⟩ : isBlank sign = false ∧ isAsciiDigit sign = false := by
    obtain rfl | rfl := hsign <;> decide
  have hbegins : BeginsPlain [sign] := ⟨sign, [], rfl, hplain⟩
  have hblank : blanks? (' ' :: sign :: cs) = some (sign :: cs) := hbegins.blanks?_append cs
  have hnone : digits? (sign :: cs) = none := by
    simp [digits?, spanDigits, hdigit]
  rw [afterMonth, hblank]
  simp [hnone]

/-! ## Written and read back -/

variable {t u : Instant}

/-- The text of a date, part by part. -/
theorem toList_text (t : Instant) : (text t).toList = weekdayName t.weekday ++ ',' :: ' ' ::
    ((padded 2 t.date.day).toList ++ ' ' :: (monthName (t.date.month - 1) ++ ' ' ::
      ((Instant.yearText t.date.year).toList ++ ' ' :: ((padded 2 t.hour).toList ++ ':' ::
        ((padded 2 t.minute).toList ++ ':' :: ((padded 2 t.second).toList ++
          [' ', 'G', 'M', 'T'])))))) := by
  simp [text, Instant.clockText, Instant.weekdayText, Instant.monthText, weekdayName, monthName]

theorem weekday_lt (t : Instant) : t.weekday < 7 := by
  unfold Instant.weekday Civil.weekday
  omega

/-- A date is written with the fields of its calendar and its clock, and read up to the month. -/
theorem parse?_text_eq (t : Instant) : parse? (text t).toList =
    afterMonth (some t.weekday) t.date.day (t.date.month - 1) (' ' ::
      ((Instant.yearText t.date.year).toList ++ ' ' :: ((padded 2 t.hour).toList ++ ':' ::
        ((padded 2 t.minute).toList ++ ':' :: ((padded 2 t.second).toList ++
          [' ', 'G', 'M', 'T']))))) := by
  obtain ⟨hfirst, hlast, -, hday⟩ := Civil.ofDays_bounds (t.seconds / 86400)
  have hfield : IsField 2 t.date.day (padded 2 t.date.day).toList :=
    isField_padded (by decide) (Nat.lt_of_le_of_lt hday (by decide))
  have hmonth : t.date.month - 1 < 12 := by
    have : t.date.month ≤ 12 := hlast
    omega
  rw [toList_text, parse?_front (weekday_lt t) hmonth hfield]

/-- A date with a year of four digits is read as the start of its second. -/
theorem parse?_text (hyear : t.HasShortYear) (hproper : t.IsProper) :
    parse? (text t).toList = some t.wholeSecond := by
  obtain ⟨hfirst, hlast⟩ := hyear
  have hyears : Instant.yearText t.date.year = padded 4 t.date.year.toNat := by
    simp [Instant.yearText, hfirst, hlast]
  have hyear : IsField 4 t.date.year.toNat (padded 4 t.date.year.toNat).toList :=
    isField_padded (by decide) (by omega)
  have hhour : IsField 2 t.hour (padded 2 t.hour).toList :=
    isField_padded (by decide) (Nat.lt_trans t.hour_lt (by decide))
  have hminute : IsField 2 t.minute (padded 2 t.minute).toList :=
    isField_padded (by decide) (Nat.lt_trans t.minute_lt (by decide))
  have hsecond : IsField 2 t.second (padded 2 t.second).toList :=
    isField_padded (by decide) (Nat.lt_of_le_of_lt t.second_le (by decide))
  have hdate : (⟨t.date.year.toNat, t.date.month - 1 + 1, t.date.day⟩ : Civil) = t.date := by
    have hmonth : 1 ≤ t.date.month := (Civil.ofDays_bounds (t.seconds / 86400)).1
    rw [Int.toNat_of_nonneg hfirst, Nat.sub_add_cancel hmonth]
  have hweekday : t.weekday = Civil.weekday t.date.toDays := by
    rw [Instant.date, Civil.toDays_ofDays, Instant.weekday]
  rw [parse?_text_eq, hyears, afterMonth_fields hyear hhour hminute hsecond (hdate ▸ hweekday), hdate,
    Instant.ofLocal?_fields ⟨hfirst, hlast⟩ hproper]

/-- The day of the week has to be right: this was a Thursday. -/
example : parse? "Fri, 29 Feb 2024 12:00:00 GMT".toList = none := by decide +kernel

/-- Any other date is not read at all. -/
theorem parse?_text_eq_none (hyear : ¬ t.HasShortYear) : parse? (text t).toList = none := by
  have hsigned : ¬(0 ≤ t.date.year ∧ t.date.year ≤ 9999) := hyear
  rw [parse?_text_eq, Instant.yearText, if_neg hsigned]
  split <;> simp [afterMonth_sign]

/-! ## Dates that are read -/

/-- Zones are whole minutes. -/
theorem zone?_minutes {offset : Int} {rest : List Char} (h : zone? cs = some (offset, rest)) :
    offset % 60 = 0 := by
  have hnumeric : ∀ {offset : Int} {rest : List Char}, numericZone? cs = some (offset, rest) →
      offset % 60 = 0 := by
    intro offset rest h
    unfold numericZone? at h
    split at h
    · split at h
      · simp only [Option.some.injEq, Prod.mk.injEq] at h
        obtain ⟨hoffset, -⟩ := h
        split at hoffset <;> omega
      · contradiction
    · contradiction
  unfold zone? at h
  dsimp only at h
  split at h
  · exact hnumeric h
  · split at h
    · simp only [Option.some.injEq, Prod.mk.injEq] at h
      omega
    · split at h
      · simp only [Option.some.injEq, Prod.mk.injEq] at h
        omega
      · contradiction

/-- What is read has whole seconds, and a leap second only where there can be one. -/
theorem afterMonth_whole {weekday : Option Nat} {month : Nat}
    (h : afterMonth weekday day month cs = some t) : t.wholeSecond = t ∧ t.IsProper := by
  -- Only the zone and the clock matter.
  obtain ⟨zone, hzone, h⟩ : ∃ zone, (∃ cs, zone? cs = some zone) ∧
      ∃ date hour minute second, Instant.ofLocal? date hour minute second 0 zone.1 = some t := by
    unfold afterMonth at h
    iterate 8 obtain ⟨_, -, h⟩ := Option.bind_eq_some_iff.mp h
    obtain ⟨zone, hzone, h⟩ := Option.bind_eq_some_iff.mp h
    dsimp only at h
    split at h
    · contradiction
    · exact ⟨zone, ⟨_, hzone⟩, _, _, _, _, h⟩
  obtain ⟨_, hzone⟩ := hzone
  obtain ⟨date, hour, minute, second, hlocal⟩ := h
  obtain ⟨hnanos, hproper⟩ := Instant.isProper_of_ofLocal? (zone?_minutes hzone) hlocal
  refine ⟨?_, hproper⟩
  cases t
  simp only at hnanos
  simp only [Instant.wholeSecond, hnanos]

/-- A date is read as the start of a second. -/
theorem parse?_whole (h : parse? cs = some t) : t.wholeSecond = t ∧ t.IsProper := by
  rw [parse?_eq] at h
  iterate 4 obtain ⟨_, -, h⟩ := Option.bind_eq_some_iff.mp h
  exact afterMonth_whole h

/-! ## Order -/

/-- Whole seconds are in order like their numbers. -/
theorem before_wholeSecond_iff (ht : t.leap = false) (hu : u.leap = false) :
    t.wholeSecond.before u.wholeSecond = true ↔ t.seconds < u.seconds := by
  simp [Instant.before, Instant.wholeSecond, Instant.subsecond, ht, hu]

end HttpDate

end PullCache
