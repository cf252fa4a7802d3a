import Mathlib.Data.Int.Notation
import Mathlib.Tactic.Common

/-!
# Civil dates

The proleptic Gregorian calendar over the integers: day numbers from the
first of January 1970, and milliseconds of a local time in a zone of a
constant offset. Months are counted from zero and any field may overflow.
-/

namespace SpiritMysql.CivilDate

/-- Milliseconds of one day. -/
def dayMs : ℤ := 86400000

/-- The number of the first day of a year. -/
def dayFromYear (y : ℤ) : ℤ := 365*(y-1970)+(y-1969)/4-(y-1901)/100+(y-1601)/400

/-- The calendar's leap rule. -/
def leap (y : ℤ) : Bool := decide (y%4=0 ∧ (y%100≠0 ∨ y%400=0))

/-- Days of a year before one of its months, the months counted from zero. -/
def daysBeforeMonth (isLeap : Bool) (m : ℕ) : ℤ :=
  [0,31,59,90,120,151,181,212,243,273,304,334].getD m 365+if isLeap=true ∧ 2 ≤ m then 1 else 0

/-- The number of a day given by year, month and day of month. -/
def makeDay (year month day : ℤ) : ℤ :=
  let y := year+month/12
  dayFromYear y+daysBeforeMonth (leap y) (month%12).toNat+day-1

/-- Milliseconds since midnight. -/
def makeTime (hour minute second ms : ℤ) : ℤ := hour*3600000+minute*60000+second*1000+ms

/-- The instant of a local date and time in a zone that is `zone` milliseconds
ahead of UTC. -/
def makeInstant (zone year month day hour minute second ms : ℤ) : ℤ :=
  makeDay year month day*dayMs+makeTime hour minute second ms-zone

end SpiritMysql.CivilDate
