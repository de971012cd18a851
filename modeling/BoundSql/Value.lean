import BoundSql.Calendar.Moment
import BoundSql.Guid
import BoundSql.Kind
import BoundSql.Number.DecimalText
import BoundSql.Text.Literal

/-!
# Values

Values are what a database takes and gives back: parameters on the way out, cells of rows on the
way in. Each value has a kind, a plain text, a literal for diagnostics, a JSON form, and a form in
which it is stored. Equality of values is numeric and by instant, not by representation.
-/

namespace BoundSql

/-- A value that travels to or from a database. -/
inductive Value where
  /-- The missing value. -/
  | null
  /-- A truth value. -/
  | bool (b : Bool)
  /-- A signed integer of sixty-four bits. -/
  | int (n : Int64)
  /-- A floating-point number. -/
  | float (x : Binary64)
  /-- A decimal number. -/
  | decimal (d : Decimal)
  /-- A text. -/
  | text (s : String)
  /-- Bytes. -/
  | blob (bytes : List UInt8)
  /-- A date. -/
  | date (d : Date)
  /-- A date with a time of day. -/
  | dateTime (d : DateTime)
  /-- A date-time with a clock offset. -/
  | dateTimeOffset (d : OffsetDateTime)
  /-- A globally unique identifier. -/
  | guid (g : Guid)
  deriving DecidableEq

/-- The JSON forms that values have. -/
inductive JsonScalar where
  /-- The JSON null. -/
  | null
  /-- A truth value. -/
  | bool (b : Bool)
  /-- An integer. -/
  | int (n : Int64)
  /-- A number that is not written as an integer. -/
  | float (x : Binary64)
  /-- A string. -/
  | text (s : String)
  deriving DecidableEq

namespace Value

/-- The kind of a value. -/
def kind : Value → Kind
  | null => .null
  | bool _ => .bool
  | int _ => .integer .int64
  | float _ => .float64
  | decimal _ => .decimal
  | text _ => .text
  | blob _ => .blob
  | date _ => .date
  | dateTime _ => .dateTime
  | dateTimeOffset _ => .dateTimeOffset
  | guid _ => .guid

/-- Whether a value is the missing one. -/
def isNull : Value → Bool
  | null => true
  | _ => false

/-- The string of a text value. -/
def string? : Value → Option String
  | text s => some s
  | _ => none

/-- A value written out plainly. -/
def shown : Value → String
  | null => "NULL"
  | bool b => if b then "true" else "false"
  | int n => String.ofList (Numeral.signed n.toInt)
  | float x => String.ofList x.text
  | decimal d => String.ofList d.text
  | text s => s
  | blob bytes => String.ofList (Hex.upper bytes)
  | date d => String.ofList d.text
  | dateTime d => String.ofList d.text
  | dateTimeOffset d => String.ofList d.text
  | guid g => String.ofList g.text

/-- The plain text of a value; the missing value has none. -/
def toText? : Value → Option String
  | null => none
  | v => some v.shown

/-- A value as a literal of the query language, for diagnostics only. -/
def literal : Value → String
  | null => "NULL"
  | bool b => if b then "1" else "0"
  | int n => (int n).shown
  | float x => (float x).shown
  | decimal d => (decimal d).shown
  | blob bytes => "X'" ++ String.ofList (Hex.upper bytes) ++ "'"
  | v => String.ofList (Quoted.literal v.shown.toList)

/-- The JSON form of a value. A number that JSON cannot write becomes null. -/
def json : Value → JsonScalar
  | null => .null
  | bool b => .bool b
  | int n => .int n
  | float x => if x.isFinite then .float x else .null
  | v => .text v.shown

/-- Equality of values. Values of different variants are never equal. -/
def same : Value → Value → Bool
  | null, null => true
  | bool a, bool b => a == b
  | int a, int b => a == b
  | float a, float b => a.same b
  | decimal a, decimal b => a.same b
  | text a, text b => a == b
  | blob a, blob b => a == b
  | date a, date b => a == b
  | dateTime a, dateTime b => a == b
  | dateTimeOffset a, dateTimeOffset b => a.same b
  | guid a, guid b => a == b
  | _, _ => false

/-- The form in which a value is stored: missing, an integer, a floating-point number, a text or
bytes. What has no such form of its own is stored as text, and what is not a number as missing. -/
def stored : Value → Value
  | null => null
  | bool b => int (if b then 1 else 0)
  | int n => int n
  | float x => if x.isNaN then null else float x
  | text s => text s
  | blob bytes => blob bytes
  | v => text v.shown

/-- The value of an optional thing: nothing is the missing value. -/
def ofOption {α : Type} (convert : α → Value) : Option α → Value
  | none => null
  | some a => convert a

/-- The value of a number of single precision. -/
def ofSingle (x : Binary32) : Value := float x.widen

/-- The value of a date-time in universal time. -/
def ofUtc (d : DateTime) : Value := dateTimeOffset (OffsetDateTime.ofUtc d)

/-- Whether a value is a least date or instant, which stands for one that was never entered. -/
def isAbsent : Value → Bool
  | date d => d == Date.least
  | dateTime d => d == DateTime.least
  | dateTimeOffset d => d.utc == DateTime.least
  | _ => false

/-- The missing value in place of an absent one. -/
def cleared (v : Value) : Value :=
  if v.isAbsent then null else v

end Value

end BoundSql
