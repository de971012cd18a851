import BoundSql.Calendar.Moment
import BoundSql.Text.Blank
import BoundSql.Text.Numeral

/-!
# Layouts of dates and times

A layout is a list of parts, read from left to right: numbers, punctuation, a fraction of a second,
a clock offset. Blanks may stand before every number and wherever the layout has a space. A text
matches a layout when its parts use it up; what was read is then put together into a date, a
date-time or an offset date-time. The internet layout has fixed widths and no spare blanks.
-/

namespace BoundSql.Layout

/-- One part of a layout. -/
inductive Part where
  /-- Four digits at most, or a sign and any number of digits. -/
  | year
  /-- The number of a month. -/
  | month
  /-- The number of a day within its month. -/
  | day
  /-- The hour of the day. -/
  | hour
  /-- The minute of the hour. -/
  | minute
  /-- The second of the minute, sixty for a leap second. -/
  | second
  /-- A point and digits, or nothing at all. -/
  | fraction
  /-- A sign, two digits, any colons and blanks, and two digits. -/
  | offset
  /-- Any blanks, none included. -/
  | blanks
  /-- One character that stands for itself. -/
  | mark (c : Char)
  deriving DecidableEq

/-- The numbers read so far; a time of day that is not read is midnight. -/
structure Reading where
  /-- The year. -/
  year : Int := 0
  /-- The month. -/
  month : Nat := 0
  /-- The day of the month. -/
  day : Nat := 0
  /-- The hour. -/
  hour : Nat := 0
  /-- The minute. -/
  minute : Nat := 0
  /-- The second. -/
  second : Nat := 0
  /-- The nanoseconds. -/
  nanos : Nat := 0
  /-- How many seconds the local clock is ahead. -/
  offset : Int := 0

/-- Reads between `least` and `most` digits, as many as there are. -/
def digits? (least most : Nat) (cs : List Char) : Option (Nat × List Char) :=
  let run := (cs.take most).takeWhile Numeral.isDigit
  if run.length < least then none else some (Numeral.value run, cs.drop run.length)

/-- Reads a non-empty run of digits of any length. -/
def manyDigits? (cs : List Char) : Option (Nat × List Char) :=
  let (run, rest) := Numeral.spanDigits cs
  if run = [] then none else some (Numeral.value run, rest)

/-- Reads a year. -/
def year? (cs : List Char) : Option (Int × List Char) :=
  match cs with
  | '-' :: rest => (manyDigits? rest).map fun (n, r) => (-(n : Int), r)
  | '+' :: rest => (manyDigits? rest).map fun (n, r) => ((n : Int), r)
  | _ => (digits? 1 4 cs).map fun (n, r) => ((n : Int), r)

/-- Reads the digits behind the point of a fraction as nanoseconds. Digits after the ninth are
dropped. -/
def nanos? (cs : List Char) : Option (Nat × List Char) :=
  let (run, rest) := Numeral.spanDigits cs
  if run = [] then none
  else
    let kept := run.take 9
    some (Numeral.value kept * 10 ^ (9 - kept.length), rest)

/-- Reads an optional fraction. -/
def fraction? (cs : List Char) : Option (Nat × List Char) :=
  match cs with
  | '.' :: rest => nanos? rest
  | _ => some (0, cs)

/-- Reads the sign of an offset: a plus sign, a hyphen or the mathematical minus sign. -/
def sign? : List Char → Option (Int × List Char)
  | [] => none
  | c :: rest =>
    if c = '+' then some (1, rest)
    else if c = '-' ∨ c = '\u2212' then some (-1, rest)
    else none

/-- Reads a sign, two digits of hours, a separator, and two digits of minutes below sixty. -/
def offsetWith? (separator : List Char → Option (List Char)) (cs : List Char) :
    Option (Int × List Char) := do
  let (sign, cs) ← sign? cs
  let (hours, cs) ← digits? 2 2 cs
  let cs ← separator cs
  let (minutes, cs) ← digits? 2 2 cs
  if minutes < 60 then
    pure (sign * (hours * 3600 + minutes * 60 : Nat), cs)
  else
    none

/-- Drops the colons and blanks between the hours and the minutes of an offset. -/
def looseSeparator (cs : List Char) : Option (List Char) :=
  some (cs.dropWhile fun c => c == ':' || Text.isBlank c)

/-- Takes exactly one character. -/
def expect (c : Char) : List Char → Option (List Char)
  | d :: rest => if c = d then some rest else none
  | [] => none

/-- Reads one part from the front of a text into the numbers read so far. -/
def Part.read? (part : Part) (got : Reading) (cs : List Char) : Option (Reading × List Char) :=
  match part with
  | .year => (year? (Text.trimStart cs)).map fun (n, r) => ({ got with year := n }, r)
  | .month => (digits? 1 2 (Text.trimStart cs)).map fun (n, r) => ({ got with month := n }, r)
  | .day => (digits? 1 2 (Text.trimStart cs)).map fun (n, r) => ({ got with day := n }, r)
  | .hour => (digits? 1 2 (Text.trimStart cs)).map fun (n, r) => ({ got with hour := n }, r)
  | .minute => (digits? 1 2 (Text.trimStart cs)).map fun (n, r) => ({ got with minute := n }, r)
  | .second => (digits? 1 2 (Text.trimStart cs)).map fun (n, r) => ({ got with second := n }, r)
  | .fraction => (fraction? cs).map fun (n, r) => ({ got with nanos := n }, r)
  | .offset =>
    (offsetWith? looseSeparator (Text.trimStart cs)).map fun (n, r) => ({ got with offset := n }, r)
  | .blanks => some (got, Text.trimStart cs)
  | .mark c => (expect c cs).map fun r => (got, r)

/-- Reads the parts of a layout one after the other, up to the end of the text. -/
def read? : List Part → Reading → List Char → Option Reading
  | [], got, [] => some got
  | [], _, _ :: _ => none
  | part :: parts, got, cs => do
    let (got, rest) ← part.read? got cs
    read? parts got rest

/-- The date that was read. -/
def Reading.date? (r : Reading) : Option Date :=
  Date.of? r.year r.month r.day

/-- The time of day that was read; second sixty is the leap second after second fifty-nine. -/
def Reading.clock? (r : Reading) : Option Clock :=
  if r.second = 60 then Clock.of? r.hour r.minute 59 (1000000000 + r.nanos)
  else Clock.of? r.hour r.minute r.second r.nanos

/-- The date-time that was read. -/
def Reading.dateTime? (r : Reading) : Option DateTime := do
  let date ← r.date?
  let clock ← r.clock?
  pure ⟨date, clock⟩

/-- The offset date-time that was read. -/
def Reading.offsetDateTime? (r : Reading) : Option OffsetDateTime := do
  let date ← r.date?
  let clock ← r.clock?
  OffsetDateTime.ofLocal? date clock r.offset

/-- Reads the offset of the internet layout: the letter Z, or hours and minutes with a colon. -/
def internetOffset? (cs : List Char) : Option (Int × List Char) :=
  match cs with
  | 'Z' :: rest => some (0, rest)
  | 'z' :: rest => some (0, rest)
  | _ =>
    (offsetWith? (expect ':') cs).filter fun (n, _) => n.natAbs < 86400

/-- Reads the internet layout: numbers of fixed width, one of the two letters T or a space in the
middle, an optional fraction and an offset. -/
def internet? (cs : List Char) : Option Reading := do
  let (year, cs) ← digits? 4 4 cs
  let cs ← expect '-' cs
  let (month, cs) ← digits? 2 2 cs
  let cs ← expect '-' cs
  let (day, cs) ← digits? 2 2 cs
  let cs ← match cs with
    | c :: rest => if c = 'T' ∨ c = 't' ∨ c = ' ' then some rest else none
    | [] => none
  let (hour, cs) ← digits? 2 2 cs
  let cs ← expect ':' cs
  let (minute, cs) ← digits? 2 2 cs
  let cs ← expect ':' cs
  let (second, cs) ← digits? 2 2 cs
  let (nanos, cs) ← fraction? cs
  let (offset, cs) ← internetOffset? cs
  if cs = [] then
    pure ⟨year, month, day, hour, minute, second, nanos, offset⟩
  else
    none

end BoundSql.Layout
