import PullCache.Text.Blank
import PullCache.Time.Civil
/-!
# Time.Instant

Points in time, in Coordinated Universal Time, to the nanosecond. A point inside a leap second is
kept apart from the second after it, because a date that names second 60 has to be shown again as
it was read.

Dates reach from the year -262143 to the year 262142; arithmetic that leaves this range has no
result.
-/

namespace PullCache

/-- A point in time: seconds since 1 January 1970, nanoseconds within the second, and whether it
lies in the leap second that follows that second. -/
structure Instant where
  seconds : Int
  nanos : Nat
  leap : Bool
  nanos_lt : nanos < 1000000000 := by omega
  deriving DecidableEq, Repr

namespace Instant

/-- A point in time at a number of milliseconds since 1 January 1970. -/
def ofMillis (ms : Int) : Instant where
  seconds := ms / 1000
  nanos := (ms % 1000).toNat * 1000000
  leap := false

/-- Whole milliseconds since 1 January 1970, rounded toward the past; a leap second counts on. -/
def toMillis (t : Instant) : Int :=
  t.seconds * 1000 + (t.nanos / 1000000 : Nat) + (if t.leap then 1000 else 0)

/-- A point in time at a number of nanoseconds since 1 January 1970. -/
def ofNanos (ns : Int) : Instant where
  seconds := ns / 1000000000
  nanos := (ns % 1000000000).toNat
  leap := false

/-- Nanoseconds since 1 January 1970; a leap second counts on. -/
def toNanos (t : Instant) : Int :=
  t.seconds * 1000000000 + t.nanos + (if t.leap then 1000000000 else 0)

/-- Nanoseconds since the start of the second, a leap second counting on. -/
def subsecond (t : Instant) : Nat :=
  t.nanos + (if t.leap then 1000000000 else 0)

/-- Order in time. -/
def before (a b : Instant) : Bool :=
  a.seconds < b.seconds || (a.seconds == b.seconds && a.subsecond < b.subsecond)

/-- The first point of the year -262143. -/
def earliest : Instant where
  seconds := -8334601228800
  nanos := 0
  leap := false

/-- The last point of the year 262142. -/
def latest : Instant where
  seconds := 8210266876799
  nanos := 999999999
  leap := false

/-- Whether a number of seconds since 1970 belongs to the years that dates reach. -/
def secondsInRange (s : Int) : Bool :=
  earliest.seconds ≤ s && s ≤ latest.seconds

/-- The point a positive number of seconds later, if dates reach it. From inside a leap second the
first second leads to the same place in the next one. -/
def addSeconds? (t : Instant) (s : Nat) : Option Instant :=
  if s = 0 then some t
  else if secondsInRange (t.seconds + s) then
    some { seconds := t.seconds + s, nanos := t.nanos, leap := false, nanos_lt := t.nanos_lt }
  else none

/-- The point a number of milliseconds later. -/
def addMillis (t : Instant) (ms : Int) : Instant :=
  ofMillis (t.toMillis + ms)

/-- The point a number of nanoseconds later. -/
def addNanos (t : Instant) (ns : Int) : Instant :=
  ofNanos (t.toNanos + ns)

/-! ## Calendar fields -/

/-- The date. -/
def date (t : Instant) : Civil :=
  Civil.ofDays (t.seconds / 86400)

/-- The day of the week from Sunday. -/
def weekday (t : Instant) : Nat :=
  Civil.weekday (t.seconds / 86400)

/-- Seconds since midnight. -/
def secondOfDay (t : Instant) : Nat :=
  (t.seconds % 86400).toNat

def hour (t : Instant) : Nat := t.secondOfDay / 3600

def minute (t : Instant) : Nat := t.secondOfDay / 60 % 60

/-- The second of the minute; 60 inside a leap second. -/
def second (t : Instant) : Nat :=
  t.secondOfDay % 60 + (if t.leap then 1 else 0)

/-- The point in time a clock shows at a date, `offset` seconds ahead of Universal Time. Second 60
stands for a leap second after second 59. -/
def ofLocal? (date : Civil) (hour minute second nanos : Nat) (offset : Int) : Option Instant :=
  if h : nanos < 1000000000 then
    if date.isDate && hour < 24 && minute < 60 && second ≤ 60 then
      let leap := second == 60
      let shown := date.toDays * 86400
        + (hour * 3600 + minute * 60 + (if leap then 59 else second) : Nat)
      if secondsInRange shown && secondsInRange (shown - offset) then
        some { seconds := shown - offset, nanos := nanos, leap := leap, nanos_lt := h }
      else none
    else none
  else none

/-! ## Texts shared by the date formats -/

/-- A year in at least four digits, with a sign outside the years 0 to 9999. -/
def yearText (y : Int) : String :=
  if 0 ≤ y ∧ y ≤ 9999 then Text.padded 4 y.toNat
  else (if y < 0 then "-" else "+") ++ Text.padded 4 y.natAbs

/-- Hours, minutes and seconds, separated by colons. -/
def clockText (t : Instant) : String :=
  Text.padded 2 t.hour ++ ":" ++ Text.padded 2 t.minute ++ ":" ++ Text.padded 2 t.second

/-- The short name of the day of the week. -/
def weekdayText (t : Instant) : String :=
  Civil.weekdayNames.getD t.weekday ""

/-- The short name of the month. -/
def monthText (t : Instant) : String :=
  Civil.monthNames.getD (t.date.month - 1) ""

end Instant

end PullCache
