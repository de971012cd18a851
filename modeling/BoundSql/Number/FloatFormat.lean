import BoundSql.Text.Numeral

/-!
# Rounding and binary floating-point words

A quotient is rounded to the nearest integer, and one that lies halfway between two integers goes
to the even one.

A binary interchange format lays a sign, an exponent field and a fraction out in one word. A
finite word stands for the exact number `significand · 2 ^ power`, with its sign; the other way
round, a quotient of natural numbers is rounded to the nearest word, ties to the even significand,
with gradual underflow and overflow to infinity. All of it is arithmetic on natural numbers.
-/

namespace BoundSql.Rounding

/-- The quotient of two natural numbers rounded to the nearest integer, halves to even. -/
def halfEven (num den : Nat) : Nat :=
  let floor := num / den
  let twice := 2 * (num % den)
  if twice < den then floor
  else if den < twice then floor + 1
  else if floor % 2 = 0 then floor
  else floor + 1

/-- The same rounding for a signed numerator: it is symmetric about zero. -/
def halfEvenInt (num : Int) (den : Nat) : Int :=
  if num < 0 then -(halfEven num.natAbs den : Int) else halfEven num.natAbs den

/-- The quotient rounded to the nearest integer, halves away from zero. -/
def halfUp (num den : Nat) : Nat :=
  (2 * num + den) / (2 * den)

end BoundSql.Rounding

namespace BoundSql

/-- The widths of the two fields that lie below the sign. -/
structure FloatFormat where
  /-- The width of the fraction field. -/
  fractionBits : Nat
  /-- The width of the exponent field. -/
  exponentBits : Nat
  deriving DecidableEq

namespace FloatFormat

/-- The format with words of sixty-four bits. -/
def double : FloatFormat := ⟨52, 11⟩

/-- The format with words of thirty-two bits. -/
def single : FloatFormat := ⟨23, 8⟩

/-- The power of two of the last place of the least numbers: -1074 for the wide format. -/
def leastPower (f : FloatFormat) : Int :=
  2 - 2 ^ (f.exponentBits - 1) - f.fractionBits

/-- The exponent field of infinities and of words that are not numbers. -/
def topField (f : FloatFormat) : Nat :=
  2 ^ f.exponentBits - 1

/-- The fraction field of a word. -/
def fraction (f : FloatFormat) (word : Nat) : Nat :=
  word % 2 ^ f.fractionBits

/-- The exponent field of a word. -/
def field (f : FloatFormat) (word : Nat) : Nat :=
  word / 2 ^ f.fractionBits % 2 ^ f.exponentBits

/-- The sign bit of a word. -/
def negative (f : FloatFormat) (word : Nat) : Bool :=
  word / 2 ^ (f.fractionBits + f.exponentBits) % 2 == 1

/-- The integer that a finite word scales by a power of two. -/
def significand (f : FloatFormat) (word : Nat) : Nat :=
  if f.field word = 0 then f.fraction word else 2 ^ f.fractionBits + f.fraction word

/-- The power of two that scales the significand of a finite word. -/
def power (f : FloatFormat) (word : Nat) : Int :=
  if f.field word = 0 then f.leastPower else f.leastPower + (f.field word - 1)

/-- Whether a word stands for a number. -/
def isFinite (f : FloatFormat) (word : Nat) : Bool :=
  f.field word != f.topField

/-- Whether a word is not a number. -/
def isNaN (f : FloatFormat) (word : Nat) : Bool :=
  f.field word == f.topField && f.fraction word != 0

/-- The word of the positive infinity. -/
def infinity (f : FloatFormat) : Nat :=
  f.topField * 2 ^ f.fractionBits

/-- The word that is not a number and carries no further mark. -/
def quietNaN (f : FloatFormat) : Nat :=
  f.infinity + 2 ^ (f.fractionBits - 1)

/-- The weight of the sign bit. -/
def signWeight (f : FloatFormat) : Nat :=
  2 ^ (f.fractionBits + f.exponentBits)

/-- Puts a sign on a word without one. -/
def withSign (f : FloatFormat) (negative : Bool) (magnitude : Nat) : Nat :=
  if negative then f.signWeight + magnitude else magnitude

/-- The exponent `e` with `2 ^ e ≤ num / den < 2 ^ (e + 1)`. -/
def binaryExponent (num den : Nat) : Int :=
  let guess : Int := (num.log2 : Int) - den.log2
  if num * 2 ^ (-guess).toNat < den * 2 ^ guess.toNat then guess - 1 else guess

/-- The power of two of the last place of the numbers around a positive quotient. -/
def lastPlace (f : FloatFormat) (num den : Nat) : Int :=
  max f.leastPower (binaryExponent num den - f.fractionBits)

/-- The word nearest to a quotient of natural numbers. The significand is added on top of the
exponent field below it, so that a significand rounded up to the next power of two carries. -/
def nearestMagnitude (f : FloatFormat) (num den : Nat) : Nat :=
  if num = 0 then 0
  else
    let place := f.lastPlace num den
    let rounded := Rounding.halfEven (num * 2 ^ (-place).toNat) (den * 2 ^ place.toNat)
    min f.infinity ((place - f.leastPower).toNat * 2 ^ f.fractionBits + rounded)

/-- The word nearest to a signed quotient. -/
def nearest (f : FloatFormat) (negative : Bool) (num den : Nat) : Nat :=
  f.withSign negative (f.nearestMagnitude num den)

end FloatFormat

end BoundSql
