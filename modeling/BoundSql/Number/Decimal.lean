import BoundSql.Number.Binary64

/-!
# Decimal numbers

A decimal is an integer scaled by a power of ten and keeps the scale it was given. Two decimals
are equal when they are the same number, whatever their scales. Conversions to integers round
halves to even; the exact number of a floating-point value is always a decimal.
-/

namespace BoundSql

/-- The number `unscaled / 10 ^ scale`; the scale may be negative. -/
structure Decimal where
  /-- The integer that the scale divides. -/
  unscaled : Int
  /-- How many places the point stands from the right. -/
  scale : Int
  deriving DecidableEq

namespace Decimal

/-- An integer as a decimal of scale zero. -/
def ofInt (n : Int) : Decimal := ⟨n, 0⟩

/-- Divides by ten as long as the quotient is exact, counting the divisions. -/
def stripTens (n : Nat) : Nat × Nat :=
  if _h : n ≠ 0 ∧ n % 10 = 0 then
    let (m, k) := stripTens (n / 10)
    (m, k + 1)
  else
    (n, 0)
termination_by n
decreasing_by omega

/-- The same number with the least scale; zero has scale zero. -/
def normal (d : Decimal) : Decimal :=
  if d.unscaled = 0 then ⟨0, 0⟩
  else
    let (m, k) := stripTens d.unscaled.natAbs
    ⟨if d.unscaled < 0 then -(m : Int) else m, d.scale - k⟩

/-- Numeric equality. -/
def same (a b : Decimal) : Bool :=
  a.normal == b.normal

/-- Whether a decimal is at least ten to the thirtieth, and so far outside the range of a word. -/
def isVast (d : Decimal) : Bool :=
  d.unscaled != 0 && (Numeral.digits d.unscaled.natAbs).length - d.scale > 30

/-- A decimal rounded to the nearest integer, halves to even. Zero, and a number below one tenth, is
zero whatever its scale. -/
def round (d : Decimal) : Int :=
  if d.unscaled = 0 || d.scale > (Numeral.digits d.unscaled.natAbs).length then 0
  else Rounding.halfEvenInt (d.unscaled * 10 ^ (-d.scale).toNat) (10 ^ d.scale.toNat)

/-- A decimal rounded to a signed word, when the rounded integer is in range. -/
def word? (d : Decimal) : Option Int64 :=
  if d.isVast then none else Numeral.word? d.round

/-- The exact number of a finite floating-point value. A fraction in lowest terms has a power of
two for its denominator, and five to the same power turns it into a power of ten; the least
numbers are scaled without being put in lowest terms. -/
def ofBinary? (x : Binary64) : Option Decimal :=
  if !x.isFinite then none
  else
    let sign : Int := if x.negative then -1 else 1
    let m := x.significand
    if m = 0 then some ⟨0, 0⟩
    else if FloatFormat.double.field x.word = 0 then some ⟨sign * (m * 5 ^ 1074 : Nat), 1074⟩
    else if 0 ≤ x.power then some ⟨sign * (m * 2 ^ x.power.toNat : Nat), 0⟩
    else
      let g := Nat.gcd m (2 ^ (-x.power).toNat)
      let k := (-x.power).toNat - g.log2
      some ⟨sign * (m / g * 5 ^ k : Nat), k⟩

/-- Ten raised to a natural power by repeated squaring, every product rounded once. -/
def tenPower (n : Nat) : Binary64 :=
  go n (Binary64.ofInt 1) (Binary64.ofInt 10)
where
  /-- Multiplies the squares that belong to the binary digits of the exponent. -/
  go (n : Nat) (product square : Binary64) : Binary64 :=
    let product := if n % 2 = 1 then product.mul square else product
    if h : n < 2 then product else go (n / 2) product (square.mul square)
  termination_by n
  decreasing_by omega

/-- How many decimal digits a positive number has, by its bits and one bit more. Each bit brings the
logarithm of two to base ten; the answer is off by one at most. -/
def estimatedDigits (n : Nat) : Nat :=
  (n.log2 + 2) * 301029995664 / 10 ^ 12

/-- How often nineteen digits can be dropped while about twenty-five are left. -/
def spareRuns (n : Nat) : Nat :=
  (estimatedDigits n - 25) / 19

/-- Scales up to this size in either direction belong to some power of ten; beyond them a number is
taken to be infinite. -/
def scaleLimit : Int := 2 ^ 31 - 1

/-- The floating-point value of a magnitude. Digits that cannot count are dropped first. A scale
that is then negative multiplies the rounded integer by a rounded power of ten; a positive one
rounds the quotient. -/
def magnitudeToBinary (negative : Bool) (n : Nat) (scale : Int) : Binary64 :=
  let runs := spareRuns n
  let m := n / 10 ^ (19 * runs)
  let scale := scale - 19 * runs
  if scale < -scaleLimit || scaleLimit < scale then Binary64.infinity negative
  else if scale ≤ 0 then (Binary64.nearest negative m 1).mul (tenPower (-scale).toNat)
  else Binary64.ofDigits negative (Numeral.digits m) (-scale)

/-- The floating-point value of a decimal. -/
def toBinary (d : Decimal) : Binary64 :=
  if d.unscaled = 0 then Binary64.zero
  else if d.scale = 0 then Binary64.ofInt d.unscaled
  else magnitudeToBinary (d.unscaled < 0) d.unscaled.natAbs d.scale

end Decimal

end BoundSql
