import BoundSql.Number.FloatFormat
import BoundSql.Text.Numeral

/-!
# The fewest digits that read back

A positive finite word stands for every number nearer to it than to its neighbours. The shortest
decimal in that interval is found by trying one digit, two digits, and so on: on each decimal grid
only the two neighbours of the word's own number can lie in the interval, and the nearer one wins;
of two that are equally near the greater one does.
-/

namespace BoundSql.Shortest

/-- A decimal `0.d₁d₂… · 10 ^ point`, its digits read as one number. -/
structure Digits where
  /-- The significant digits, most significant first. -/
  digits : List Char
  /-- How many places the point stands to the right of the front of the digits. -/
  point : Int
  deriving DecidableEq

/-- The exponent `k` with `10 ^ (k - 1) ≤ num / den < 10 ^ k`. -/
def decimalExponent (num den : Nat) : Int :=
  if den ≤ num then (Numeral.digits (num / den)).length
  else 1 - (Numeral.digits ((den - 1) / num)).length

/-- A positive interval whose ends are quotients over one denominator. -/
structure Interval where
  /-- The numerator of the lower end. -/
  low : Nat
  /-- The numerator of the upper end. -/
  high : Nat
  /-- The denominator of both ends. -/
  den : Nat
  /-- Whether the ends belong to the interval. -/
  closed : Bool

/-- Whether `count · 10 ^ unit` lies in an interval. -/
def Interval.holds (i : Interval) (count : Nat) (unit : Int) : Bool :=
  let num := count * 10 ^ unit.toNat * i.den
  let scale := 10 ^ (-unit).toNat
  if i.closed then i.low * scale ≤ num && num ≤ i.high * scale
  else i.low * scale < num && num < i.high * scale

/-- The multiple of `10 ^ unit` in the interval that is nearest to `mid / den`, if any is in it; the
greater of two that are equally near. -/
def nearestIn (i : Interval) (mid : Nat) (unit : Int) : Option Nat :=
  let num := mid * 10 ^ (-unit).toNat
  let den := i.den * 10 ^ unit.toNat
  let below := num / den
  let nearer := if 2 * (num % den) < den then [below, below + 1] else [below + 1, below]
  nearer.find? fun count => count != 0 && i.holds count unit

/-- The numbers that round to a positive finite word, every numerator four times the number's own
so that the halves and quarters of the last place are whole. -/
def interval (f : FloatFormat) (word : Nat) : Interval :=
  let m := f.significand word
  let q := f.power word - 2
  let scale := 2 ^ q.toNat
  let below := if f.fraction word = 0 && f.field word > 1 then 1 else 2
  ⟨(4 * m - below) * scale, (4 * m + 2) * scale, 2 ^ (-q).toNat, m % 2 == 0⟩

/-- The fewest digits that read back as a positive finite word, and of those the nearest. A
neighbour that is a power of ten sheds its zeros. -/
def ofWord (f : FloatFormat) (word : Nat) : Digits :=
  let i := interval f word
  let mid := 4 * f.significand word * 2 ^ (f.power word - 2).toNat
  let k := decimalExponent mid i.den
  let found := (List.range (f.fractionBits / 3 + 1)).findSome? fun n =>
    let unit := k - (n + 1 : Nat)
    (nearestIn i mid unit).map fun count => (count, unit)
  match found with
  | some (count, unit) =>
    let ds := Numeral.digits count
    ⟨(ds.reverse.dropWhile (· == '0')).reverse, unit + ds.length⟩
  | none => ⟨[], 0⟩

/-- Digits written out by position, without an exponent. -/
def Digits.positional (d : Digits) : List Char :=
  if d.point ≤ 0 then
    '0' :: '.' :: (List.replicate (-d.point).toNat '0' ++ d.digits)
  else
    let whole := d.point.toNat
    let head := d.digits.take whole ++ List.replicate (whole - d.digits.length) '0'
    match d.digits.drop whole with
    | [] => head
    | tail => head ++ '.' :: tail

end BoundSql.Shortest
