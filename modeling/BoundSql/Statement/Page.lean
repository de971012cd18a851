import BoundSql.Statement.Draft

/-!
# Pages of rows

A page is a run of rows by row number, which counts from one. The rows of a page lie strictly
between its two bounds. A draft that projects its row number is wrapped so that one page comes back.
-/

namespace BoundSql

/-- A page of rows. -/
structure Page where
  /-- How many rows the page has. -/
  size : UInt32
  /-- The place of the page, from zero. -/
  index : UInt32
  deriving DecidableEq

namespace Page

/-- The row number that the rows of the page lie above. -/
def lower (p : Page) : UInt64 :=
  p.size.toUInt64 * p.index.toUInt64

/-- The row number that the rows of the page lie below. -/
def upper (p : Page) : UInt64 :=
  p.lower + p.size.toUInt64 + 1

/-- The statement that brings back one page of a draft's rows. -/
def wrap (p : Page) (b : Draft) : Statement :=
  let lower := String.ofList (Numeral.digits p.lower.toNat)
  let upper := String.ofList (Numeral.digits p.upper.toNat)
  ⟨"SELECT * FROM ( " ++ Text.trim b.text ++ " ) AS PagedResult WHERE RowNumber > " ++ lower ++
    " AND RowNumber < " ++ upper, b.parameters.entries⟩

/-- The column that numbers rows in a given order. -/
def rowNumberColumn (orderBy : String) : String :=
  "ROW_NUMBER() OVER (ORDER BY " ++ orderBy ++ ") AS RowNumber"

end Page

end BoundSql
