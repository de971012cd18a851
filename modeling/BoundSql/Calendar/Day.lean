/-!
# Calendar days

Days of the Gregorian calendar, extended to every year in both directions, with the day before and
the day after each. Dates are the days within the years that values can hold.
-/

namespace BoundSql

/-- Whether a year has a twenty-ninth of February. -/
def isLeapYear (year : Int) : Bool :=
  year % 4 == 0 && (year % 100 != 0 || year % 400 == 0)

/-- How many days a month has. -/
def monthLength (year : Int) (month : Nat) : Nat :=
  if month = 2 then (if isLeapYear year then 29 else 28)
  else if month = 4 ∨ month = 6 ∨ month = 9 ∨ month = 11 then 30
  else 31

/-- A day of the calendar. -/
structure Day where
  /-- The year; the year before the first is zero. -/
  year : Int
  /-- The month, from one to twelve. -/
  month : Nat
  /-- The day of the month, from one. -/
  day : Nat
  /-- The month exists and has such a day. -/
  valid : 1 ≤ month ∧ month ≤ 12 ∧ 1 ≤ day ∧ day ≤ monthLength year month
  deriving DecidableEq

namespace Day

/-- The day with the given numbers, if there is one. -/
def of? (year : Int) (month day : Nat) : Option Day :=
  if h : 1 ≤ month ∧ month ≤ 12 ∧ 1 ≤ day ∧ day ≤ monthLength year month then
    some ⟨year, month, day, h⟩
  else
    none

/-- Every month has at least its first twenty-eight days. -/
theorem monthLength_ge (year : Int) (month : Nat) : 28 ≤ monthLength year month := by
  unfold monthLength
  repeat' split
  all_goals omega

/-- No month has more than thirty-one days. -/
theorem monthLength_le (year : Int) (month : Nat) : monthLength year month ≤ 31 := by
  unfold monthLength
  repeat' split
  all_goals omega

/-- The day after. -/
def next (d : Day) : Day :=
  if h : d.day < monthLength d.year d.month then
    ⟨d.year, d.month, d.day + 1, by have := d.valid; omega⟩
  else if hm : d.month < 12 then
    ⟨d.year, d.month + 1, 1, by
      have := d.valid; have := monthLength_ge d.year (d.month + 1); omega⟩
  else
    ⟨d.year + 1, 1, 1, by have := monthLength_ge (d.year + 1) 1; omega⟩

/-- The day before. -/
def prev (d : Day) : Day :=
  if h : 1 < d.day then
    ⟨d.year, d.month, d.day - 1, by have := d.valid; omega⟩
  else if hm : 1 < d.month then
    ⟨d.year, d.month - 1, monthLength d.year (d.month - 1), by
      have := d.valid; have := monthLength_ge d.year (d.month - 1); omega⟩
  else
    ⟨d.year - 1, 12, monthLength (d.year - 1) 12, by
      have := monthLength_ge (d.year - 1) 12; omega⟩

/-- The day that lies a number of days after the first of January 1970, if the numbers worked out
from the count name a day, as they always do. -/
def ofEpoch? (n : Int) : Option Day :=
  let z := n + 719468
  let era := z / 146097
  let dayOfEra := (z % 146097).toNat
  let yearOfEra := (dayOfEra - dayOfEra / 1460 + dayOfEra / 36524 - dayOfEra / 146096) / 365
  let dayOfYear := dayOfEra - (365 * yearOfEra + yearOfEra / 4 - yearOfEra / 100)
  let shifted := (5 * dayOfYear + 2) / 153
  let day := dayOfYear - (153 * shifted + 2) / 5 + 1
  let month := if shifted < 10 then shifted + 3 else shifted - 9
  let year := yearOfEra + era * 400
  of? (if month ≤ 2 then year + 1 else year) month day

/-- Whether a value can hold the day as a date. -/
def isSupported (d : Day) : Bool :=
  -262143 ≤ d.year && d.year ≤ 262142

end Day

/-- A day within the years that values can hold. -/
structure Date where
  /-- The day. -/
  day : Day
  /-- Its year is within the range of dates. -/
  supported : day.isSupported = true
  deriving DecidableEq

namespace Date

/-- The date of a day, if it is in range. -/
def ofDay? (d : Day) : Option Date :=
  if h : d.isSupported = true then some ⟨d, h⟩ else none

/-- The date with the given numbers, if there is one in range. -/
def of? (year : Int) (month day : Nat) : Option Date :=
  (Day.of? year month day).bind ofDay?

/-- The least date. It stands for a date that was never entered. -/
def least : Date :=
  ⟨⟨-262143, 1, 1, by decide⟩, by decide⟩

end Date

end BoundSql
