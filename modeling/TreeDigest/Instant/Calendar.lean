/-!
Moments in time and the civil calendar.

An instant counts the seconds since the start of 1970 and the nanoseconds in its
second. In a leap second the nanoseconds run on from one thousand million. Leap
seconds follow second 59 of a minute, but an instant may have one after any other
second, too. Days are counted in the Gregorian calendar extended
to all years; `Date.toDays` and `Date.ofDays` go from a date to its day number
and back.
-/

namespace TreeDigest

/-- A moment in time. -/
structure Instant where
  seconds : Int
  nanos : Nat
  deriving DecidableEq, Repr, Inhabited

/-- A day of the calendar. -/
structure Date where
  year : Int
  month : Nat
  day : Nat
  deriving DecidableEq, Repr

namespace Date

/-- The year has a 29th of February. -/
def isLeap (year : Int) : Bool := year % 4 = 0 && (year % 100 != 0 || year % 400 = 0)

/-- The number of days of a month. -/
def daysIn (year : Int) (month : Nat) : Nat :=
  if month = 2 then (if isLeap year then 29 else 28)
  else if month = 4 ∨ month = 6 ∨ month = 9 ∨ month = 11 then 30
  else 31

/-- The first and the last year that an instant can lie in. -/
def minYear : Int := -262143
@[inherit_doc minYear] def maxYear : Int := 262142

/-- The date exists and its year is not too far away. -/
def isValid (d : Date) : Bool :=
  minYear ≤ d.year && d.year ≤ maxYear && 1 ≤ d.month && d.month ≤ 12
    && 1 ≤ d.day && d.day ≤ daysIn d.year d.month

/-- The number of days from the start of 1970 to a date. Years are counted from
March, so that a leap day ends its year. -/
def toDays (d : Date) : Int :=
  let y := if d.month ≤ 2 then d.year - 1 else d.year
  let era := y / 400
  let yearOfEra := y % 400
  let monthFromMarch : Int := (d.month + 9) % 12
  let dayOfYear := (153 * monthFromMarch + 2) / 5 + d.day - 1
  era * 146097 + (yearOfEra * 365 + yearOfEra / 4 - yearOfEra / 100 + dayOfYear) - 719468

/-- The date of a day, given by the number of days from the start of 1970. -/
def ofDays (days : Int) : Date :=
  let z := days + 719468
  let era := z / 146097
  let dayOfEra := z % 146097
  let yearOfEra := (dayOfEra - dayOfEra / 1460 + dayOfEra / 36524 - dayOfEra / 146096) / 365
  let dayOfYear := dayOfEra - (365 * yearOfEra + yearOfEra / 4 - yearOfEra / 100)
  let monthFromMarch := (5 * dayOfYear + 2) / 153
  let day := dayOfYear - (153 * monthFromMarch + 2) / 5 + 1
  let month := if monthFromMarch < 10 then monthFromMarch + 3 else monthFromMarch - 9
  let year := yearOfEra + era * 400 + if month ≤ 2 then 1 else 0
  ⟨year, month.toNat, day.toNat⟩

end Date

namespace Instant

/-- The number of nanoseconds in a second. -/
def billion : Nat := 1000000000

/-- The date of an instant. -/
def date (t : Instant) : Date := .ofDays (t.seconds / 86400)

/-- The second of its day in which an instant lies. -/
def secondOfDay (t : Instant) : Nat := (t.seconds % 86400).toNat

/-- The instant is one that a clock gives: it lies within the years that can be
told, and its nanoseconds run past a second only after second 59. -/
def isValid (t : Instant) : Bool :=
  Date.minYear ≤ t.date.year && t.date.year ≤ Date.maxYear
    && (t.nanos < billion || (t.nanos < 2 * billion && t.seconds % 60 = 59))

/-- The nanoseconds since the start of 1970. -/
def toNanos (t : Instant) : Int := t.seconds * billion + t.nanos

end Instant

end TreeDigest
