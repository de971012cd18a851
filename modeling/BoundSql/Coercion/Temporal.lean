import BoundSql.Calendar.Layout
import BoundSql.Value

/-!
# Reading dates and times leniently

Texts are tried against a short list of layouts, in order. A date-time may be written with an
offset, and is then taken in universal time; an offset date-time may be written without one, and is
then taken to be in universal time.
-/

namespace BoundSql.Temporal

open Layout.Part in
/-- The layouts of dates, in the order in which they are tried. -/
def dateLayouts : List (List Layout.Part) :=
  [[year, mark '-', month, mark '-', day],
   [year, mark '/', month, mark '/', day],
   [month, mark '/', day, mark '/', year],
   [day, mark '.', month, mark '.', year]]

open Layout.Part in
/-- The layouts of date-times, in the order in which they are tried. -/
def dateTimeLayouts : List (List Layout.Part) :=
  [[year, mark '-', month, mark '-', day, blanks, hour, mark ':', minute, mark ':', second,
    fraction],
   [year, mark '-', month, mark '-', day, mark 'T', hour, mark ':', minute, mark ':', second,
    fraction],
   [year, mark '-', month, mark '-', day, blanks, hour, mark ':', minute],
   [year, mark '-', month, mark '-', day, mark 'T', hour, mark ':', minute],
   [year, mark '/', month, mark '/', day, blanks, hour, mark ':', minute, mark ':', second],
   [month, mark '/', day, mark '/', year, blanks, hour, mark ':', minute, mark ':', second]]

open Layout.Part in
/-- The layouts of offset date-times that are tried after the internet layout. -/
def offsetLayouts : List (List Layout.Part) :=
  [[year, mark '-', month, mark '-', day, blanks, hour, mark ':', minute, mark ':', second,
    fraction, offset],
   [year, mark '-', month, mark '-', day, blanks, hour, mark ':', minute, mark ':', second,
    fraction, blanks, offset]]

/-- What the first layout that fits makes of a text. -/
def firstFit {α : Type} (layouts : List (List Layout.Part)) (make : Layout.Reading → Option α)
    (cs : List Char) : Option α :=
  layouts.findSome? fun layout => (Layout.read? layout {} cs).bind make

/-- Reads a trimmed text as an offset date-time. -/
def readOffset? (cs : List Char) : Option OffsetDateTime :=
  ((Layout.internet? cs).bind Layout.Reading.offsetDateTime?).or
    (firstFit offsetLayouts Layout.Reading.offsetDateTime? cs)

/-- Reads a trimmed text as a date-time: as one, as a date, or as an offset date-time. -/
def readDateTime? (cs : List Char) : Option DateTime :=
  ((firstFit dateTimeLayouts Layout.Reading.dateTime? cs).or
    ((firstFit dateLayouts Layout.Reading.date? cs).map DateTime.atMidnight)).or
    ((readOffset? cs).map OffsetDateTime.utc)

/-- The date-time that a value denotes. An integer counts seconds from the start of 1970. -/
def dateTime? : Value → Option DateTime
  | .text s => readDateTime? (Text.trimmed s.toList)
  | .date d => some (DateTime.atMidnight d)
  | .dateTime d => some d
  | .dateTimeOffset d => some d.utc
  | .int n => DateTime.ofEpochSeconds? n.toInt
  | _ => none

/-- The offset date-time that a value denotes. What has no offset of its own is in universal
time. -/
def offsetDateTime? : Value → Option OffsetDateTime
  | .text s =>
    let cs := Text.trimmed s.toList
    (readOffset? cs).or ((readDateTime? cs).map OffsetDateTime.ofUtc)
  | v => (dateTime? v).map OffsetDateTime.ofUtc

end BoundSql.Temporal
