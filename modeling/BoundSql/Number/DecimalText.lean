import BoundSql.Number.Decimal

/-!
# Decimals as text

A decimal is written with all of its digits, so that its scale can be read off: plainly when the
point falls within or close to the digits, with an exponent otherwise. Zero loses its scale.
Reading takes a mantissa with an optional point and an optional exponent.
-/

namespace BoundSql.Decimal

/-- At most this many zeros stand between the point and the first digit of a plain numeral. -/
def leadingZeroLimit : Nat := 5

/-- At most this many zeros are written in place of a negative scale. -/
def trailingZeroLimit : Nat := 15

/-- The digits of a magnitude with a point before the last `scale` of them. -/
def plainFraction (ds : List Char) (scale : Nat) : List Char :=
  if ds.length ≤ scale then
    '0' :: '.' :: (List.replicate (scale - ds.length) '0' ++ ds)
  else
    ds.take (ds.length - scale) ++ '.' :: ds.drop (ds.length - scale)

/-- One digit before the point, all others behind it, and the exponent of the first digit. -/
def scientific (ds : List Char) (exponent : Int) : List Char :=
  let mantissa := match ds with
    | [] => []
    | [d] => [d]
    | d :: rest => d :: '.' :: rest
  mantissa ++ 'E' :: ((if exponent < 0 then [] else ['+']) ++ Numeral.signed exponent)

/-- The numeral of a magnitude. -/
def magnitudeText (n : Nat) (scale : Int) : List Char :=
  let ds := Numeral.digits n
  if scale - ds.length > leadingZeroLimit then
    scientific ds (ds.length - 1 - scale)
  else if scale < -(trailingZeroLimit : Int) then
    ds ++ 'e' :: '+' :: Numeral.digits (-scale).toNat
  else if scale ≤ 0 then
    ds ++ List.replicate (-scale).toNat '0'
  else
    plainFraction ds scale.toNat

/-- The numeral of a decimal. -/
def text (d : Decimal) : List Char :=
  if d.unscaled = 0 then ['0']
  else
    let body := magnitudeText d.unscaled.natAbs d.scale
    if d.unscaled < 0 then '-' :: body else body

/-- Reads digits that may be grouped by underscores behind the first one. -/
def grouped? : List Char → Option Nat
  | [] => none
  | '_' :: _ => none
  | cs =>
    if cs.all fun c => Numeral.isDigit c || c == '_' then
      some (Numeral.value (cs.filter Numeral.isDigit))
    else none

/-- Reads an unsigned integer with an optional plus sign that no other one follows. -/
def unsigned? : List Char → Option Nat
  | '+' :: rest => if rest.head? = some '+' then none else grouped? rest
  | cs => grouped? cs

/-- Reads an integer: a minus sign that no plus sign follows, or an unsigned one. -/
def wide? : List Char → Option Int
  | '-' :: rest =>
    if rest.head? = some '+' then none else (unsigned? rest).map fun n => -(n : Int)
  | cs => (unsigned? cs).map fun n => (n : Int)

/-- The digits of a mantissa with its point taken out, and how many places stood behind it. A
point at the very end counts for nothing. -/
def mantissa (cs : List Char) : List Char × Nat :=
  let lead := cs.takeWhile (· != '.')
  match cs.drop lead.length with
  | [] => (lead, 0)
  | _ :: trail => (lead ++ trail, (trail.filter (· != '_')).length)

/-- Whether an exponent can be held while it is read: a signed word of 128 bits. -/
def exponentFits (n : Int) : Bool :=
  -(2 ^ 127) ≤ n && n < 2 ^ 127

/-- Reads a decimal that takes up the whole text. The scale is a signed word. -/
def read? (cs : List Char) : Option Decimal := do
  let base := cs.takeWhile fun c => c != 'e' && c != 'E'
  let exponent ← match cs.drop base.length with
    | [] => some 0
    | _ :: rest => (Numeral.integer? rest).filter exponentFits
  let (digits, places) := mantissa base
  let scale : Int := places - exponent
  if -(2 ^ 63) ≤ scale ∧ scale < 2 ^ 63 then
    (wide? digits).map fun n => ⟨n, scale⟩
  else
    none

end BoundSql.Decimal
