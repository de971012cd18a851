import BoundSql.Text.Literal

/-!
# Globally unique identifiers

An identifier is sixteen bytes. It is written as five groups of small hexadecimal digits, and read
in that form, in that form within braces or behind the name of its URN space, or as thirty-two
digits in a row.
-/

namespace BoundSql

/-- An identifier of sixteen bytes. -/
structure Guid where
  /-- The bytes in the order in which they are written. -/
  bytes : List UInt8
  /-- There are sixteen of them. -/
  length_eq : bytes.length = 16
  deriving DecidableEq

namespace Guid

/-- The identifier made of some bytes, if there are sixteen. -/
def ofBytes? (bytes : List UInt8) : Option Guid :=
  if h : bytes.length = 16 then some ⟨bytes, h⟩ else none

/-- The identifier whose bytes are all zero. -/
def zero : Guid := ⟨List.replicate 16 0, by decide⟩

/-- The lengths of the five groups of digits. -/
def groups : List Nat := [8, 4, 4, 4, 12]

/-- Digits in groups of the given lengths, with a hyphen before each group but the first. -/
def hyphenate : List Nat → List Char → List Char
  | [], cs => cs
  | [_], cs => cs
  | n :: rest, cs => cs.take n ++ '-' :: hyphenate rest (cs.drop n)

/-- Takes the hyphens out of digits in groups of the given lengths. -/
def joinGroups? : List Nat → List Char → Option (List Char)
  | [], cs => if cs = [] then some [] else none
  | [n], cs => if cs.length = n then some cs else none
  | n :: rest, cs =>
    match cs.drop n with
    | '-' :: tail => (joinGroups? rest tail).map (cs.take n ++ ·)
    | _ => none

/-- The identifier as text. -/
def text (g : Guid) : List Char :=
  hyphenate groups (Hex.lower g.bytes)

/-- Reads thirty-two digits in a row. -/
def readDigits? (cs : List Char) : Option Guid :=
  (Hex.bytes? cs).bind ofBytes?

/-- Reads five groups of digits. -/
def readGroups? (cs : List Char) : Option Guid :=
  (joinGroups? groups cs).bind readDigits?

/-- The name of the URN space of identifiers. -/
def urnSpace : List Char := "urn:uuid:".toList

/-- Reads an identifier in any of its forms; the length of the text decides which. -/
def read? (cs : List Char) : Option Guid :=
  if cs.length = 32 then readDigits? cs
  else if cs.length = 36 then readGroups? cs
  else if cs.length = 38 then
    if cs.head? = some '{' ∧ cs.getLast? = some '}' then readGroups? (cs.tail.dropLast) else none
  else if cs.length = 45 then
    let lead := (cs.take 9).map fun c => if 'A' ≤ c ∧ c ≤ 'Z' then Char.ofNat (c.toNat + 32) else c
    if lead = urnSpace then readGroups? (cs.drop 9) else none
  else none

end Guid

end BoundSql
