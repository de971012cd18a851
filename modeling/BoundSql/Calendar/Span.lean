import BoundSql.Text.Numeral

/-!
# Spans of time

A span is a whole number of nanoseconds. It is shown in the largest of the four units that it
reaches, with the exact decimal fraction and no zeros at its end.
-/

namespace BoundSql

/-- A length of time. -/
structure Span where
  /-- Its nanoseconds. -/
  nanos : Nat
  deriving DecidableEq

namespace Span

/-- A number of milliseconds. -/
def ofMillis (n : Nat) : Span := ⟨n * 1000000⟩

/-- A fraction with a fixed number of places, without the zeros at its end and without its point
when nothing is left. -/
def fractionText (places n : Nat) : List Char :=
  let kept := ((Numeral.padded places n).reverse.dropWhile (· == '0')).reverse
  if kept = [] then [] else '.' :: kept

/-- A span in the unit of `10 ^ places` nanoseconds. -/
def inUnit (nanos places : Nat) (unit : String) : String :=
  let whole := Numeral.digits (nanos / 10 ^ places)
  let fraction := if places = 0 then [] else fractionText places (nanos % 10 ^ places)
  String.ofList (whole ++ fraction) ++ unit

/-- The span as text. -/
def text (s : Span) : String :=
  if s.nanos ≥ 10 ^ 9 then inUnit s.nanos 9 "s"
  else if s.nanos ≥ 10 ^ 6 then inUnit s.nanos 6 "ms"
  else if s.nanos ≥ 10 ^ 3 then inUnit s.nanos 3 "µs"
  else inUnit s.nanos 0 "ns"

end Span

end BoundSql
