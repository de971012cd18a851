import BoundSql.Calendar.Day
import BoundSql.Text.Numeral

/-!
# Times of day, date-times and offsets

A time of day is a count of seconds and a count of nanoseconds; during a leap second the
nanoseconds run on past a whole second. Numbers name a leap second at the end of a minute only, but
a clock may be in one at any second. A date-time joins a date with a time of day. An offset
date-time is kept as its date-time in universal time together with the distance of the local clock,
and its local reading may fall on the day before or after.

Dates are written as year, month and day. Years outside the four-digit range carry a sign. The
fraction of a second has three, six or nine digits, or is left out when it is zero, and a leap
second is shown as one second more. The offset of a local clock is shown in hours and minutes,
rounded to the nearest minute.
-/

namespace BoundSql

/-- A time of day. -/
structure Clock where
  /-- The seconds since midnight. -/
  second : Nat
  /-- The nanoseconds of the second, two seconds' worth of them during a leap second. -/
  nanos : Nat
  /-- The seconds stay within the day. -/
  second_lt : second < 86400
  /-- The nanoseconds stay within two seconds. -/
  nanos_lt : nanos < 2000000000
  deriving DecidableEq

namespace Clock

/-- The time of day with the given numbers, if they name one. They name a leap second in the last
second of a minute only. -/
def of? (hour minute second nanos : Nat) : Option Clock :=
  if h : hour < 24 ∧ minute < 60 ∧ second < 60 ∧ nanos < 2000000000 ∧
      (1000000000 ≤ nanos → second = 59) then
    some ⟨hour * 3600 + minute * 60 + second, nanos, by omega, by omega⟩
  else
    none

/-- The first instant of a day. -/
def midnight : Clock := ⟨0, 0, by decide, by decide⟩

/-- The hour of the day. -/
def hour (c : Clock) : Nat := c.second / 3600

/-- The minute of the hour. -/
def minute (c : Clock) : Nat := c.second / 60 % 60

/-- The second of the minute, one more during a leap second. -/
def shownSecond (c : Clock) : Nat := c.second % 60 + c.nanos / 1000000000

/-- The nanoseconds of the second that is shown. -/
def shownNanos (c : Clock) : Nat := c.nanos % 1000000000

end Clock

/-- A date with a time of day. -/
structure DateTime where
  /-- The date. -/
  date : Date
  /-- The time of day. -/
  clock : Clock
  deriving DecidableEq

namespace DateTime

/-- The first instant of a date. -/
def atMidnight (date : Date) : DateTime :=
  ⟨date, Clock.midnight⟩

/-- The least date-time. It stands for a date-time that was never entered. -/
def least : DateTime := atMidnight Date.least

/-- The date-time that lies a number of seconds after the start of 1970, if its date is in
range. -/
def ofEpochSeconds? (n : Int) : Option DateTime := do
  let day ← Day.ofEpoch? (n / 86400)
  let date ← Date.ofDay? day
  let second := (n % 86400).toNat
  if h : second < 86400 then
    pure ⟨date, ⟨second, 0, h, by decide⟩⟩
  else
    none

end DateTime

/-- A date-time in universal time, shown on a clock at some distance from it. -/
structure OffsetDateTime where
  /-- The date-time in universal time. -/
  utc : DateTime
  /-- How many seconds the local clock is ahead. -/
  offset : Int
  /-- The local clock is less than a day away. -/
  offset_lt : offset.natAbs < 86400
  deriving DecidableEq

namespace OffsetDateTime

/-- A date-time in universal time at a given distance, if that is less than a day. -/
def of? (utc : DateTime) (offset : Int) : Option OffsetDateTime :=
  if h : offset.natAbs < 86400 then some ⟨utc, offset, h⟩ else none

/-- A date-time shown in universal time itself. -/
def ofUtc (utc : DateTime) : OffsetDateTime := ⟨utc, 0, by decide⟩

/-- A clock moved by less than a day: the days it passes into and the time of day there. -/
def moved (c : Clock) (seconds : Int) : Int × Clock :=
  let total := (c.second : Int) + seconds
  (total / 86400, ⟨(total % 86400).toNat, c.nanos, by omega, c.nanos_lt⟩)

/-- The day a count of at most one day away. -/
def neighbour (d : Day) (days : Int) : Day :=
  if days < 0 then d.prev else if 0 < days then d.next else d

/-- What the local calendar and the local clock show. -/
def localReading (z : OffsetDateTime) : Day × Clock :=
  let (days, clock) := moved z.utc.clock z.offset
  (neighbour z.utc.date.day days, clock)

/-- The offset date-time whose local calendar and clock show a reading, if its universal date is in
range. -/
def ofLocal? (date : Date) (clock : Clock) (offset : Int) : Option OffsetDateTime := do
  let (days, clock) := moved clock (-offset)
  let date ← Date.ofDay? (neighbour date.day days)
  of? ⟨date, clock⟩ offset

/-- Two offset date-times are the same instant when they agree in universal time. -/
def same (a b : OffsetDateTime) : Bool :=
  a.utc == b.utc

end OffsetDateTime

/-! ## Dates and times as text -/

/-- A year: four digits at least, and a sign when it is negative or has more than four. -/
def yearText (year : Int) : List Char :=
  if 0 ≤ year ∧ year ≤ 9999 then Numeral.padded 4 year.toNat
  else (if year < 0 then '-' else '+') :: Numeral.padded 4 year.natAbs

/-- A day with dashes between its numbers. -/
def Day.text (d : Day) : List Char :=
  yearText d.year ++ '-' :: Numeral.padded 2 d.month ++ '-' :: Numeral.padded 2 d.day

/-- The fraction of a second behind its point. -/
def fractionText (nanos : Nat) : List Char :=
  if nanos = 0 then []
  else if nanos % 1000000 = 0 then '.' :: Numeral.padded 3 (nanos / 1000000)
  else if nanos % 1000 = 0 then '.' :: Numeral.padded 6 (nanos / 1000)
  else '.' :: Numeral.padded 9 nanos

/-- A time of day with colons between its numbers and the fraction behind it. -/
def Clock.text (c : Clock) : List Char :=
  Numeral.padded 2 c.hour ++ ':' :: Numeral.padded 2 c.minute ++
    ':' :: Numeral.padded 2 c.shownSecond ++ fractionText c.shownNanos

/-- A date. -/
def Date.text (d : Date) : List Char :=
  d.day.text

/-- A date-time with a space between date and time. -/
def DateTime.text (d : DateTime) : List Char :=
  d.date.text ++ ' ' :: d.clock.text

/-- The distance of a local clock in hours and minutes. -/
def offsetText (offset : Int) : List Char :=
  let minutes := (offset.natAbs + 30) / 60
  (if offset < 0 then '-' else '+') ::
    (Numeral.padded 2 (minutes / 60) ++ ':' :: Numeral.padded 2 (minutes % 60))

/-- The local reading with the letter T between date and time, and the offset behind it. -/
def OffsetDateTime.text (z : OffsetDateTime) : List Char :=
  let (day, clock) := z.localReading
  day.text ++ 'T' :: clock.text ++ offsetText z.offset

end BoundSql
