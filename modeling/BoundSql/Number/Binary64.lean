import BoundSql.Number.Shortest

/-!
# Floating-point values

A floating-point value is a word of sixty-four bits; the narrow form has thirty-two. A value is
written with the fewest digits that read back, never with an exponent. Reading takes a sign, the
words for infinity and for what is not a number in any case, or digits with an optional point and
an optional exponent, and rounds what they denote once.
-/

namespace BoundSql

/-- A floating-point value of double precision. -/
structure Binary64 where
  /-- The word of the value. -/
  bits : UInt64
  deriving DecidableEq

/-- A floating-point value of single precision. -/
structure Binary32 where
  /-- The word of the value. -/
  bits : UInt32
  deriving DecidableEq

namespace Binary64

/-- The word as a natural number. -/
def word (x : Binary64) : Nat :=
  x.bits.toNat

/-- The value of a word given as a natural number. -/
def ofWord (word : Nat) : Binary64 :=
  ⟨UInt64.ofNat word⟩

/-- Whether the sign bit is set. -/
def negative (x : Binary64) : Bool :=
  FloatFormat.double.negative x.word

/-- Whether the value is a number. -/
def isFinite (x : Binary64) : Bool :=
  FloatFormat.double.isFinite x.word

/-- Whether the value is not a number, nor an infinity. -/
def isNaN (x : Binary64) : Bool :=
  FloatFormat.double.isNaN x.word

/-- The integer that the value scales by a power of two, without its sign. -/
def significand (x : Binary64) : Nat :=
  FloatFormat.double.significand x.word

/-- The power of two that scales the significand. -/
def power (x : Binary64) : Int :=
  FloatFormat.double.power x.word

/-- Whether the value is a zero of either sign. -/
def isZero (x : Binary64) : Bool :=
  x.isFinite && x.significand == 0

/-- The value nearest to a signed quotient. -/
def nearest (negative : Bool) (num den : Nat) : Binary64 :=
  ofWord (FloatFormat.double.nearest negative num den)

/-- The value nearest to an integer. -/
def ofInt (n : Int) : Binary64 :=
  nearest (n < 0) n.natAbs 1

/-- The positive zero. -/
def zero : Binary64 := ofWord 0

/-- The infinity of a sign. -/
def infinity (negative : Bool) : Binary64 :=
  ofWord (FloatFormat.double.withSign negative FloatFormat.double.infinity)

/-- Numeric equality: the two zeros are equal, and what is not a number equals nothing. -/
def same (x y : Binary64) : Bool :=
  !x.isNaN && !y.isNaN && (x == y || (x.isZero && y.isZero))

/-- A finite value rounded to the nearest integer, halves to even. -/
def round? (x : Binary64) : Option Int :=
  if x.isFinite then
    let n := Rounding.halfEven (x.significand * 2 ^ x.power.toNat) (2 ^ (-x.power).toNat)
    some (if x.negative then -(n : Int) else n)
  else
    none

/-- The numerator and the denominator of a finite value's magnitude. -/
def magnitude (x : Binary64) : Nat × Nat :=
  (x.significand * 2 ^ x.power.toNat, 2 ^ (-x.power).toNat)

/-- The nearest unsigned word of sixty-four bits: halves go away from zero, what lies outside the
range goes to its nearer end, and what is not a number goes to zero. -/
def toUnsigned (x : Binary64) : UInt64 :=
  if x.isNaN || x.negative then 0
  else if x.isFinite then
    let (num, den) := x.magnitude
    UInt64.ofNat (min (Rounding.halfUp num den) (2 ^ 64 - 1))
  else UInt64.ofNat (2 ^ 64 - 1)

/-- The product of two finite values, rounded once. -/
def mul (x y : Binary64) : Binary64 :=
  if x.isFinite && y.isFinite then
    let (a, b) := x.magnitude
    let (c, d) := y.magnitude
    nearest (x.negative != y.negative) (a * c) (b * d)
  else
    infinity (x.negative != y.negative)

/-- The value rounded to single precision; what is not a number stays so. -/
def narrow (x : Binary64) : Binary32 :=
  let f := FloatFormat.single
  let magnitude :=
    if x.isNaN then f.quietNaN
    else if x.isFinite then f.nearestMagnitude x.magnitude.1 x.magnitude.2
    else f.infinity
  ⟨UInt32.ofNat (f.withSign x.negative magnitude)⟩

/-- The value written with the fewest digits that read back. -/
def text (x : Binary64) : List Char :=
  if x.isNaN then "NaN".toList
  else
    let body :=
      if !x.isFinite then "inf".toList
      else if x.significand = 0 then ['0']
      else
        let magnitude := FloatFormat.double.withSign false (x.word % FloatFormat.double.signWeight)
        (Shortest.ofWord FloatFormat.double magnitude).positional
    if x.negative then '-' :: body else body

/-- Splits an exponent mark and the exponent behind it off a text of digits, if there is one. -/
def splitExponent (cs : List Char) : Option (List Char × Int) :=
  let mantissa := cs.takeWhile fun c => c != 'e' && c != 'E'
  match cs.drop mantissa.length with
  | [] => some (mantissa, 0)
  | _ :: rest => (Numeral.integer? rest).map fun e => (mantissa, e)

/-- The value nearest to the number of some digits times `10 ^ exponent`. What lies far outside the
range of the format is cut off before the number or a power of ten is formed. -/
def ofDigits (negative : Bool) (digits : List Char) (exponent : Int) : Binary64 :=
  let digits := digits.dropWhile (· == '0')
  let places : Int := digits.length + exponent
  if digits = [] || places < -400 then nearest negative 0 1
  else if places > 400 then infinity negative
  else
    let n := Numeral.value digits
    nearest negative (n * 10 ^ exponent.toNat) (10 ^ (-exponent).toNat)

/-- Reads digits with an optional point among them and an optional exponent behind them. -/
def readNumber? (negative : Bool) (cs : List Char) : Option Binary64 := do
  let (mantissa, exponent) ← splitExponent cs
  let (whole, rest) := Numeral.spanDigits mantissa
  let fraction ← match rest with
    | [] => some []
    | '.' :: tail => if tail.all Numeral.isDigit then some tail else none
    | _ => none
  if whole = [] ∧ fraction = [] then
    none
  else
    pure (ofDigits negative (whole ++ fraction) (exponent - fraction.length))

/-- Reads a value without its sign. -/
def readMagnitude? (negative : Bool) (cs : List Char) : Option Binary64 :=
  let small := cs.map fun c => if 'A' ≤ c ∧ c ≤ 'Z' then Char.ofNat (c.toNat + 32) else c
  let f := FloatFormat.double
  if small = "inf".toList ∨ small = "infinity".toList then
    some (infinity negative)
  else if small = "nan".toList then
    some (ofWord (f.withSign negative f.quietNaN))
  else
    readNumber? negative cs

/-- Reads a value that takes up the whole text. -/
def read? : List Char → Option Binary64
  | '-' :: rest => readMagnitude? true rest
  | '+' :: rest => readMagnitude? false rest
  | cs => readMagnitude? false cs

end Binary64

namespace Binary32

/-- Whether the value is not a number, nor an infinity. -/
def isNaN (x : Binary32) : Bool :=
  FloatFormat.single.isNaN x.bits.toNat

/-- The value in double precision, which holds every number of single precision. -/
def widen (x : Binary32) : Binary64 :=
  let f := FloatFormat.single
  let g := FloatFormat.double
  let w := x.bits.toNat
  let magnitude :=
    if f.isNaN w then g.quietNaN
    else if f.isFinite w then
      g.nearestMagnitude (f.significand w * 2 ^ (f.power w).toNat) (2 ^ (-f.power w).toNat)
    else g.infinity
  Binary64.ofWord (g.withSign (f.negative w) magnitude)

end Binary32

end BoundSql
