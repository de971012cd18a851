import BoundSql.Text.Numeral

/-!
# Kinds

A kind is the declared type of a place that a value goes to. Integer kinds are kept apart by width
and sign, so that a value can be checked against the range before it is stored. Enumerations carry
their table of names and ordinals, and a custom kind has a name and nothing else.
-/

namespace BoundSql

/-- The integer types by width and sign. -/
inductive IntegerKind where
  /-- Eight bits with a sign. -/
  | int8
  /-- Sixteen bits with a sign. -/
  | int16
  /-- Thirty-two bits with a sign. -/
  | int32
  /-- Sixty-four bits with a sign. -/
  | int64
  /-- Eight bits without a sign. -/
  | uint8
  /-- Sixteen bits without a sign. -/
  | uint16
  /-- Thirty-two bits without a sign. -/
  | uint32
  /-- Sixty-four bits without a sign. -/
  | uint64
  deriving DecidableEq

namespace IntegerKind

/-- The least integer of a type. -/
def least : IntegerKind → Int
  | int8 => -(2 ^ 7)
  | int16 => -(2 ^ 15)
  | int32 => -(2 ^ 31)
  | int64 => -(2 ^ 63)
  | _ => 0

/-- The greatest integer of a type. -/
def greatest : IntegerKind → Int
  | int8 => 2 ^ 7 - 1
  | int16 => 2 ^ 15 - 1
  | int32 => 2 ^ 31 - 1
  | int64 => 2 ^ 63 - 1
  | uint8 => 2 ^ 8 - 1
  | uint16 => 2 ^ 16 - 1
  | uint32 => 2 ^ 32 - 1
  | uint64 => 2 ^ 64 - 1

/-- Whether an integer belongs to a type. -/
def holds (k : IntegerKind) (n : Int) : Bool :=
  k.least ≤ n && n ≤ k.greatest

/-- The name of a type. -/
def name : IntegerKind → String
  | int8 => "Int8"
  | int16 => "Int16"
  | int32 => "Int32"
  | int64 => "Int64"
  | uint8 => "UInt8"
  | uint16 => "UInt16"
  | uint32 => "UInt32"
  | uint64 => "UInt64"

end IntegerKind

/-- The names of an enumeration with their ordinals, in the order of declaration. -/
abbrev Ordinals := List (String × Int64)

/-- The declared type of a place that a value goes to. -/
inductive Kind where
  /-- The kind of the missing value alone. -/
  | null
  /-- Truth values. -/
  | bool
  /-- Integers of some width. -/
  | integer (k : IntegerKind)
  /-- Floating-point numbers of single precision. -/
  | float32
  /-- Floating-point numbers of double precision. -/
  | float64
  /-- Decimal numbers. -/
  | decimal
  /-- Text. -/
  | text
  /-- Bytes. -/
  | blob
  /-- Dates. -/
  | date
  /-- Dates with a time of day. -/
  | dateTime
  /-- Date-times with a clock offset. -/
  | dateTimeOffset
  /-- Globally unique identifiers. -/
  | guid
  /-- Members of an enumeration. -/
  | enumeration (ordinals : Ordinals)
  /-- Whatever a coercer registered under the name produces. -/
  | custom (name : String)
  deriving DecidableEq

namespace Kind

/-- The name under which coercers for a kind are registered. -/
def name : Kind → String
  | null => "Null"
  | bool => "Bool"
  | integer k => k.name
  | float32 => "Float32"
  | float64 => "Float64"
  | decimal => "Decimal"
  | text => "Text"
  | blob => "Blob"
  | date => "Date"
  | dateTime => "DateTime"
  | dateTimeOffset => "DateTimeOffset"
  | guid => "Guid"
  | enumeration _ => "Enum"
  | custom name => name

/-- Whether a kind is one of the integer types. -/
def isInteger : Kind → Bool
  | integer _ => true
  | _ => false

/-- Whether a kind is an integer type that an integer belongs to. -/
def holds : Kind → Int → Bool
  | integer k, n => k.holds n
  | _, _ => false

end Kind

end BoundSql
