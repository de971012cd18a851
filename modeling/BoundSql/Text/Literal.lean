/-!
# Hexadecimal text and quoted literals

A byte is written as two hexadecimal digits, the high half first. Reading accepts digits of either
case.

A string literal stands between two single quotes, and a quote inside it is written twice. The
scanner on the other side reads a literal from the front of a text: a quote opens it, a doubled
quote stands for one, and a single quote closes it.
-/

namespace BoundSql.Hex

/-- The digit of a number below sixteen, its letters counted up from the given one. -/
def digit (a : Char) (n : Nat) : Char :=
  if n < 10 then Char.ofNat (48 + n) else Char.ofNat (a.toNat + (n - 10))

/-- The two digits of a byte, with capital or small letters as the first letter says. -/
def pair (a : Char) (byte : UInt8) : List Char :=
  [digit a (byte.toNat / 16), digit a (byte.toNat % 16)]

/-- The bytes of a blob in capital letters. -/
def upper (bytes : List UInt8) : List Char :=
  bytes.flatMap (pair 'A')

/-- The bytes of a blob in small letters. -/
def lower (bytes : List UInt8) : List Char :=
  bytes.flatMap (pair 'a')

/-- The number a hexadecimal digit of either case stands for. -/
def digitValue? (c : Char) : Option Nat :=
  if '0' ≤ c ∧ c ≤ '9' then some (c.toNat - 48)
  else if 'a' ≤ c ∧ c ≤ 'f' then some (c.toNat - 87)
  else if 'A' ≤ c ∧ c ≤ 'F' then some (c.toNat - 55)
  else none

/-- Reads pairs of digits up to the end of the text. -/
def bytes? : List Char → Option (List UInt8)
  | [] => some []
  | [_] => none
  | h :: l :: rest => do
    let high ← digitValue? h
    let low ← digitValue? l
    let tail ← bytes? rest
    pure (UInt8.ofNat (16 * high + low) :: tail)

end BoundSql.Hex

namespace BoundSql.Quoted

/-- The characters between the quotes: each quote of the text is written twice. -/
def doubled : List Char → List Char
  | [] => []
  | c :: rest => if c = '\'' then '\'' :: '\'' :: doubled rest else c :: doubled rest

/-- The literal that denotes a text. -/
def literal (cs : List Char) : List Char :=
  '\'' :: (doubled cs ++ ['\''])

/-- Reads the inside of a literal up to its closing quote, and gives back what follows it. -/
def scanInside : List Char → Option (List Char × List Char)
  | [] => none
  | '\'' :: '\'' :: rest => (scanInside rest).map fun (inside, after) => ('\'' :: inside, after)
  | '\'' :: rest => some ([], rest)
  | c :: rest => (scanInside rest).map fun (inside, after) => (c :: inside, after)

/-- Reads one literal from the front of a text. -/
def scan : List Char → Option (List Char × List Char)
  | '\'' :: rest => scanInside rest
  | _ => none

end BoundSql.Quoted
