import BoundSql.Calendar.Day
import BoundSql.Text.Numeral

/-!
# Dates and times in a settings document

A document may hold a date, a time of day, or both with an optional offset behind them. As a setting
each is a text: the date, a capital T, and the time, whose fraction keeps nine digits at most and no
zeros at its end.
-/

namespace BoundSql.Timestamp

/-- Reads a fixed number of digits whose value lies in a range. -/
def number? (width least most : Nat) (cs : List Char) : Option (Nat × List Char) :=
  let run := cs.take width
  let n := Numeral.value run
  if run.length = width ∧ run.all Numeral.isDigit ∧ least ≤ n ∧ n ≤ most then
    some (n, cs.drop width)
  else
    none

/-- Reads a character that stands for itself. -/
def mark? (c : Char) : List Char → Option (List Char)
  | [] => none
  | d :: rest => if d = c then some rest else none

/-- Reads a date that exists, and gives back its text and what follows it. -/
def date? (cs : List Char) : Option (List Char × List Char) := do
  let (year, rest) ← number? 4 0 9999 cs
  let rest ← mark? '-' rest
  let (month, rest) ← number? 2 1 12 rest
  let rest ← mark? '-' rest
  let (day, rest) ← number? 2 1 31 rest
  let _ ← Day.of? year month day
  pure (cs.take 10, rest)

/-- The fraction of a second as it is written. -/
def fractionText (digits : List Char) : List Char :=
  match ((digits.take 9).reverse.dropWhile (· == '0')).reverse with
  | [] => ".0".toList
  | kept => '.' :: kept

/-- Reads an optional fraction of a second, and gives back its text and what follows it. -/
def fraction? : List Char → Option (List Char × List Char)
  | '.' :: rest =>
    let (run, after) := Numeral.spanDigits rest
    if run = [] then none else some (fractionText run, after)
  | cs => some ([], cs)

/-- Reads a time of day, whose seconds may be left out, and gives back its text and what follows
it. -/
def clock? (cs : List Char) : Option (List Char × List Char) := do
  let (_, rest) ← number? 2 0 23 cs
  let rest ← mark? ':' rest
  let (_, rest) ← number? 2 0 59 rest
  match rest with
  | ':' :: seconds => do
    let (_, rest) ← number? 2 0 60 seconds
    let (fraction, rest) ← fraction? rest
    pure (cs.take 8 ++ fraction, rest)
  | _ => pure (cs.take 5, rest)

/-- Reads an optional offset up to the end of the text, and gives back its text. No hours and no
minutes are an offset to the east. -/
def offset? : List Char → Option (List Char)
  | [] => some []
  | ['Z'] => some ['Z']
  | ['z'] => some ['Z']
  | sign :: cs => do
    let (hours, rest) ← number? 2 0 23 cs
    let rest ← mark? ':' rest
    let (minutes, rest) ← number? 2 0 59 rest
    if rest = [] ∧ (sign = '+' ∨ sign = '-') then
      pure ((if hours = 0 ∧ minutes = 0 then '+' else sign) :: cs)
    else none

/-- Whether a character may stand between a date and a time. -/
def isSeparator (c : Char) : Bool :=
  c == 'T' || c == 't' || c == ' '

/-- The text of a date, of a time of day, or of both, when a word is one. -/
def text? (cs : List Char) : Option (List Char) :=
  match date? cs with
  | some (date, []) => some date
  | some (date, c :: rest) => do
    let (clock, rest) ← clock? rest
    let offset ← offset? rest
    if isSeparator c then pure (date ++ 'T' :: (clock ++ offset)) else none
  | none => do
    let (clock, rest) ← clock? cs
    if rest = [] then pure clock else none

end BoundSql.Timestamp
