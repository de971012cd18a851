import BoundSql.Number.Binary64
import BoundSql.Text.Name

/-!
# Plain values of settings

A setting holds a truth value, an integer, a floating-point number or a text. A text from the
environment is read as the first of these that it can be. A setting that asks for a text takes any
plain value written out; one that asks for an unsigned word takes the numbers that round to one, and
the usual words for on and off.
-/

namespace BoundSql

/-- A plain value of a setting. -/
inductive Scalar where
  /-- A truth value. -/
  | flag (b : Bool)
  /-- An integer. -/
  | integer (n : Int64)
  /-- A floating-point number. -/
  | real (x : Binary64)
  /-- A text. -/
  | text (s : String)
  deriving DecidableEq

namespace Scalar

/-- A text from the environment as a plain value: a truth value in any case, else an integer, else a
floating-point number, else the text itself. Nothing is trimmed. -/
def ofText (s : String) : Scalar :=
  let small := CaseFold.fold s.toList
  if small = "true".toList then flag true
  else if small = "false".toList then flag false
  else match Numeral.readWord? s.toList with
    | some n => integer n
    | none => match Binary64.read? s.toList with
      | some x => real x
      | none => text s

/-- A plain value written out. -/
def shown : Scalar → String
  | flag b => if b then "true" else "false"
  | integer n => String.ofList (Numeral.signed n.toInt)
  | real x => String.ofList x.text
  | text s => s

/-- The words for on, in small letters. -/
def onWords : List (List Char) :=
  ["true".toList, "on".toList, "yes".toList]

/-- The words for off, in small letters. -/
def offWords : List (List Char) :=
  ["false".toList, "off".toList, "no".toList]

/-- A plain value as an unsigned word. A floating-point number is rounded into the range, but a
negative integer is refused. -/
def unsigned? : Scalar → Option UInt64
  | flag b => some (if b then 1 else 0)
  | integer n => if 0 ≤ n.toInt then some (UInt64.ofNat n.toInt.toNat) else none
  | real x => some x.toUnsigned
  | text s =>
    let small := CaseFold.fold s.toList
    if small ∈ onWords then some 1
    else if small ∈ offWords then some 0
    else Numeral.readUnsigned? s.toList

end Scalar

end BoundSql
