import BoundSql.Coercion.Target
import BoundSql.Text.Name

/-!
# Records

A record is one row with the names of its columns, in order. A column is looked up by name without
regard to case, and the first match counts. Values are coerced with the engine that the record was
read with.
-/

namespace BoundSql

/-- One row with the names of its columns. -/
structure Record where
  /-- The names of the columns. -/
  columns : List String
  /-- The values of the columns; there may be fewer or more of them. -/
  values : List Value
  /-- The engine that values are coerced with. -/
  engine : Engine

namespace Record

/-- The record without columns. -/
def empty : Record := ⟨[], [], Engine.standard⟩

/-- How many columns there are. -/
def size (r : Record) : Nat := r.columns.length

/-- The columns with their values, as far as both go. -/
def pairs (r : Record) : List (String × Value) :=
  r.columns.zip r.values

/-- The value of the first column whose name matches. -/
def get? (r : Record) (column : String) : Option Value :=
  (Name.position? r.columns column).bind fun i => r.values[i]?

/-- The value of a column, coerced and unwrapped for a target. -/
def getAs? (r : Record) (target : Target) (column : String) : Option Cell :=
  (r.get? column).bind (r.engine.cell? target)

/-- Equality of values, place by place. -/
def sameValues : List Value → List Value → Bool
  | [], [] => true
  | a :: as, b :: bs => a.same b && sameValues as bs
  | _, _ => false

/-- Equality of records: the same column names and equal values, whatever the engines. -/
def same (a b : Record) : Bool :=
  a.columns == b.columns && sameValues a.values b.values

/-- Puts a member into an object with sorted keys, unless its key is taken. -/
def insertMember (key : String) (member : JsonScalar) :
    List (String × JsonScalar) → List (String × JsonScalar)
  | [] => [(key, member)]
  | (k, m) :: rest =>
    if key = k then (k, m) :: rest
    else if key < k then (key, member) :: (k, m) :: rest
    else (k, m) :: insertMember key member rest

/-- The record as an object with sorted keys; of columns with one name the first counts. -/
def json (r : Record) : List (String × JsonScalar) :=
  r.pairs.foldl (fun object (column, value) => insertMember column value.json object) []

end Record

end BoundSql
