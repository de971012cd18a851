import BoundSql.Coercion.Engine

/-!
# Targets

A target is the type of a place that a coerced value is put into. It declares the kind that values
are coerced to, and unwraps a value of that kind into what the place holds. An optional target holds
a presence mark around what its inner target holds.
-/

namespace BoundSql

/-- The type of a place that values are put into. -/
inductive Target where
  /-- Truth values. -/
  | bool
  /-- Integers of some width. -/
  | integer (k : IntegerKind)
  /-- Floating-point numbers of single precision. -/
  | float32
  /-- Floating-point numbers of double precision. -/
  | float64
  /-- Decimal numbers. -/
  | decimal
  /-- Text. -/
  | text
  /-- Bytes. -/
  | blob
  /-- Dates. -/
  | date
  /-- Date-times. -/
  | dateTime
  /-- Date-times with a clock offset. -/
  | dateTimeOffset
  /-- Date-times in universal time. -/
  | utc
  /-- Globally unique identifiers. -/
  | guid
  /-- Members of an enumeration. -/
  | enumeration (ordinals : Ordinals)
  /-- Whatever the coercer of a custom kind produces. -/
  | custom (name : String)
  /-- What another target holds, or nothing. -/
  | optional (inner : Target)
  deriving DecidableEq

/-- What a place holds. -/
inductive Cell where
  /-- A truth value. -/
  | bool (b : Bool)
  /-- An integer. -/
  | integer (n : Int64)
  /-- A floating-point number of single precision. -/
  | float32 (x : Binary32)
  /-- A floating-point number of double precision. -/
  | float64 (x : Binary64)
  /-- A decimal number. -/
  | decimal (d : Decimal)
  /-- A text. -/
  | text (s : String)
  /-- Bytes. -/
  | blob (bytes : List UInt8)
  /-- A date. -/
  | date (d : Date)
  /-- A date-time. -/
  | dateTime (d : DateTime)
  /-- A date-time with a clock offset. -/
  | dateTimeOffset (d : OffsetDateTime)
  /-- A date-time in universal time. -/
  | utc (d : DateTime)
  /-- A globally unique identifier. -/
  | guid (g : Guid)
  /-- A member of an enumeration. -/
  | enumerator (name : String) (ordinal : Int64)
  /-- A value taken as it is. -/
  | value (v : Value)
  /-- Nothing, in an optional place. -/
  | absent
  /-- Something, in an optional place. -/
  | present (inner : Cell)
  deriving DecidableEq

/-- The member of an enumeration with an ordinal. -/
def Ordinals.enumerator? (ordinals : Ordinals) (n : Int64) : Option Cell :=
  (ordinals.find? fun p => p.2 = n).map fun p => .enumerator p.1 p.2

namespace Target

/-- The kind that values are coerced to. -/
def kind : Target → Kind
  | bool => .bool
  | integer k => .integer k
  | float32 => .float32
  | float64 => .float64
  | decimal => .decimal
  | text => .text
  | blob => .blob
  | date => .date
  | dateTime => .dateTime
  | dateTimeOffset => .dateTimeOffset
  | utc => .dateTimeOffset
  | guid => .guid
  | enumeration ordinals => .enumeration ordinals
  | custom name => .custom name
  | optional inner => inner.kind

/-- Whether the place can hold the absence of a value. -/
def isNullable : Target → Bool
  | custom _ => true
  | optional _ => true
  | _ => false

/-- Unwraps a coerced value; nothing, when it is of another variant or out of range. -/
def unwrap? : Target → Value → Option Cell
  | bool, .bool b => some (.bool b)
  | integer k, .int n => if k.holds n.toInt then some (.integer n) else none
  | float32, .float x => some (.float32 x.narrow)
  | float64, .float x => some (.float64 x)
  | decimal, .decimal d => some (.decimal d)
  | text, .text s => some (.text s)
  | blob, .blob bytes => some (.blob bytes)
  | date, .date d => some (.date d)
  | dateTime, .dateTime d => some (.dateTime d)
  | dateTimeOffset, .dateTimeOffset d => some (.dateTimeOffset d)
  | utc, .dateTimeOffset d => some (.utc d.utc)
  | guid, .guid g => some (.guid g)
  | enumeration ordinals, .int n => ordinals.enumerator? n
  | custom _, v => some (.value v)
  | optional inner, v => (inner.unwrap? v).map .present
  | _, _ => none

/-- The start of 1970. -/
def epoch : Date :=
  ⟨⟨1970, 1, 1, by decide⟩, by decide⟩

/-- What a place holds before anything is put into it. An enumeration starts with its first
member. -/
def initial : Target → Cell
  | bool => .bool false
  | integer _ => .integer 0
  | float32 => .float32 ⟨0⟩
  | float64 => .float64 ⟨0⟩
  | decimal => .decimal ⟨0, 0⟩
  | text => .text ""
  | blob => .blob []
  | date => .date epoch
  | dateTime => .dateTime (DateTime.atMidnight epoch)
  | dateTimeOffset => .dateTimeOffset (OffsetDateTime.ofUtc (DateTime.atMidnight epoch))
  | utc => .utc (DateTime.atMidnight epoch)
  | guid => .guid Guid.zero
  | enumeration ((name, ordinal) :: _) => .enumerator name ordinal
  | enumeration [] => .value .null
  | custom _ => .value .null
  | optional _ => .absent

end Target

/-- A raw value put through an engine and unwrapped for a target. -/
def Engine.cell? (e : Engine) (target : Target) (raw : Value) : Option Cell :=
  (e.coerce target.kind raw).bind target.unwrap?

end BoundSql
