import BoundSql.Coercion.Temporal
import BoundSql.Text.Name

/-!
# Converting values

The conversions from a raw value to a kind, lenient in what they accept: numbers are read from text
and rounded to integers with halves going to even, words are read as truth values, and dates and
times are read in several layouts. A conversion that is not possible gives nothing.
-/

namespace BoundSql.Convert

/-- The words for the true value. -/
def truthyWords : List String := ["1", "on", "true", "yes"]

/-- Whether the text of a value is one of the words for the true value, up to blanks and case. -/
def truthy (v : Value) : Bool :=
  match v.toText? with
  | some s => truthyWords.any fun w => CaseFold.asciiSame w.toList (Text.trimmed s.toList)
  | none => false

/-- The signed word that a value denotes or rounds to. -/
def word? : Value → Option Int64
  | .int n => some n
  | .bool b => some (if b then 1 else 0)
  | .float x => x.round?.bind Numeral.word?
  | .decimal d => d.word?
  | .text s => Numeral.readWord? (Text.trimmed s.toList)
  | _ => none

/-- The floating-point number that a value denotes. -/
def float? : Value → Option Binary64
  | .int n => some (Binary64.ofInt n.toInt)
  | .bool b => some (Binary64.ofInt (if b then 1 else 0))
  | .float x => some x
  | .decimal d => some d.toBinary
  | .text s => Binary64.read? (Text.trimmed s.toList)
  | _ => none

/-- The decimal number that a value denotes. -/
def decimal? : Value → Option Decimal
  | .int n => some (Decimal.ofInt n.toInt)
  | .bool b => some (Decimal.ofInt (if b then 1 else 0))
  | .float x => Decimal.ofBinary? x
  | .text s => Decimal.read? (Text.trimmed s.toList)
  | _ => none

/-- The identifier that a value denotes. -/
def guid? : Value → Option Guid
  | .text s => Guid.read? (Text.trimmed s.toList)
  | .blob bytes => Guid.ofBytes? bytes
  | _ => none

/-- The bytes that a value denotes. -/
def blob? : Value → Option (List UInt8)
  | .text s => some s.toUTF8.data.toList
  | .guid g => some g.bytes
  | _ => none

/-- The ordinal that a value denotes in an enumeration: a number, or the name of a member up to
case. The number need not be the ordinal of a member. -/
def ordinal? (ordinals : Ordinals) : Value → Option Int64
  | .text s =>
    let cs := Text.trimmed s.toList
    match Numeral.readWord? cs with
    | some n => some n
    | none => (ordinals.find? fun p => CaseFold.asciiSame p.1.toList cs).map Prod.snd
  | v => word? v

/-- The conversion of a value to a built-in kind. -/
def value? (kind : Kind) (v : Value) : Option Value :=
  match kind with
  | .integer k => ((word? v).filter fun n => k.holds n.toInt).map .int
  | .float32 | .float64 => (float? v).map .float
  | .decimal => (decimal? v).map .decimal
  | .text => v.toText?.map .text
  | .blob => (blob? v).map .blob
  | .date => (Temporal.dateTime? v).map fun d => .date d.date
  | .dateTime => (Temporal.dateTime? v).map .dateTime
  | .dateTimeOffset => (Temporal.offsetDateTime? v).map .dateTimeOffset
  | .null | .bool | .guid | .enumeration _ | .custom _ => none

end BoundSql.Convert
