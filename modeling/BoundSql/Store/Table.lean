import BoundSql.Statement.Page
import BoundSql.Store.Basic

/-!
# A database of one table

A database that holds one table, and the statements that it knows: creating the table, adding,
assigning and deleting rows, and bringing back all rows, their number, a page of them, or one row of
given values. Columns have no types, so a value comes back in the form in which it is stored, and
rows stay in the order in which they were added.
-/

namespace BoundSql

/-- A table without column types. -/
structure Table where
  /-- The name of the table. -/
  name : String
  /-- The names of the columns. -/
  columns : List String
  /-- The rows, in the order in which they were added. -/
  rows : List (List Value)
  deriving DecidableEq

/-- A database that holds at most one table. -/
abbrev Database := Option Table

/-- Where the value of a column comes from. -/
inductive Source where
  /-- From the placeholder of a name. -/
  | placeholder (name : String)
  /-- It is the missing value. -/
  | missing
  deriving DecidableEq

/-- The values of columns, each with its source. -/
abbrev Sources := List (String × Source)

/-- What a statement on a table asks for. -/
inductive Plan where
  /-- The table is created. -/
  | create (columns : List String)
  /-- A row is added. -/
  | insert (cells : Sources)
  /-- Columns are assigned to in every row. -/
  | update (cells : Sources)
  /-- All rows are deleted. -/
  | delete
  /-- All rows are brought back. -/
  | all
  /-- The number of rows is brought back. -/
  | count
  /-- A page of rows is brought back, each row with its number. -/
  | page (p : Page)
  /-- One row of given values is brought back. -/
  | row (cells : Sources)
  deriving DecidableEq

/-- The value that a source stands for. -/
def Source.value (slots : Slots) : Source → Value
  | placeholder name => slots.value name
  | missing => .null

/-- The sources of assigned values. A missing value is written out, and every other value takes the
next of the given names. -/
def Sources.ofAssignments : List (String × Value) → List String → Sources
  | (column, .null) :: rest, names => (column, .missing) :: ofAssignments rest names
  | (column, _) :: rest, name :: names =>
    (column, .placeholder name) :: ofAssignments rest names
  | _, _ => []

/-- The names of the placeholders among sources. -/
def Sources.placeholders (cells : Sources) : List String :=
  (cells.filterMap fun
    | (_, .placeholder name) => some name
    | (_, .missing) => none).eraseDups

namespace Table

/-- The place of a column. Capital letters count as small ones. -/
def position? (t : Table) (column : String) : Option Nat :=
  t.columns.findIdx? fun c => CaseFold.asciiSame c.toList column.toList

/-- Assigns a source's value to a column of a row. -/
def assigned (t : Table) (slots : Slots) (row : List Value) (cell : String × Source) :
    List Value :=
  match t.position? cell.1 with
  | some place => row.set place (cell.2.value slots)
  | none => row

/-- Assigns the values of sources to columns of a row. -/
def assignedAll (t : Table) (slots : Slots) (cells : Sources) (row : List Value) : List Value :=
  cells.foldl (t.assigned slots) row

/-- Fails unless the table has the columns that are assigned to. -/
def checkColumns (t : Table) (cells : Sources) : Except Error Unit :=
  match cells.find? fun cell => (t.position? cell.1).isNone with
  | some (column, _) => .error (.driver ("no such column: " ++ column))
  | none => .ok ()

/-- The rows with their numbers as a last column. -/
def numbered (t : Table) : List (List Value × Nat) :=
  t.rows.zipIdx 1

/-- The rows whose numbers lie strictly between the bounds of a page. -/
def pageRows (t : Table) (p : Page) : List (List Value) :=
  (t.numbered.filter fun (_, n) => p.lower.toNat < n && n < p.upper.toNat).map fun (row, n) =>
    row ++ [.int (Int64.ofNat n)]

end Table

namespace Plan

/-- The names of the placeholders of a plan. -/
def placeholders : Plan → List String
  | insert cells | update cells | row cells => cells.placeholders
  | _ => []

/-- The table of a name in a database. -/
def table (name : String) (d : Database) : Except Error Table :=
  match d with
  | some t => if t.name = name then .ok t else .error (.driver ("no such table: " ++ name))
  | none => .error (.driver ("no such table: " ++ name))

/-- The first name that stands behind one that is the same but for capital letters. -/
def repeated? : List String → List String → Option String
  | _, [] => none
  | before, c :: rest =>
    if before.any fun b => CaseFold.asciiSame b.toList c.toList then some c
    else repeated? (c :: before) rest

/-- Carries out a change to the table of a name and counts the rows affected. -/
def execute (name : String) (slots : Slots) (d : Database) :
    Plan → Except Error (Nat × Database)
  | create columns =>
    if d.isSome then .error (.driver ("table " ++ name ++ " already exists"))
    else
      match repeated? [] columns with
      | some column => .error (.driver ("duplicate column name: " ++ column))
      | none => .ok (0, some ⟨name, columns, []⟩)
  | insert cells => do
    let t ← table name d
    t.checkColumns cells
    let row := t.assignedAll slots cells (t.columns.map fun _ => .null)
    pure (1, some { t with rows := t.rows ++ [row] })
  | update cells => do
    let t ← table name d
    t.checkColumns cells
    pure (t.rows.length, some { t with rows := t.rows.map (t.assignedAll slots cells) })
  | delete => do
    let t ← table name d
    pure (t.rows.length, some { t with rows := [] })
  | _ => .error (.driver "Execute returned results - did you mean to call query?")

/-- Brings back the rows that a plan asks for; a change asks for none. -/
def query (name : String) (slots : Slots) (d : Database) : Plan → Except Error Rows
  | all => do
    let t ← table name d
    pure ⟨t.columns, t.rows⟩
  | count => do
    let t ← table name d
    pure ⟨["COUNT(*)"], [[.int (Int64.ofNat t.rows.length)]]⟩
  | page p => do
    let t ← table name d
    pure ⟨t.columns ++ ["RowNumber"], t.pageRows p⟩
  | row cells => .ok ⟨cells.map Prod.fst, [cells.map fun cell => cell.2.value slots]⟩
  | _ => .ok ⟨[], []⟩

/-- A plan for the table of a name as a prepared statement. -/
def prepared (p : Plan) (name : String) : Prepared Database :=
  ⟨p.placeholders, fun slots d => p.execute name slots d, fun slots d => p.query name slots d⟩

/-- Why the text of a statement cannot be read, if that is so: a row without cells leaves a bracket
where a name has to stand, and other statements without cells stop short. -/
def flaw? (sql : String) : Plan → Option Error
  | create [] | insert [] =>
    let before := String.ofList (sql.toList.takeWhile (· ≠ ')'))
    some (.driver ("near \")\": syntax error in " ++ sql ++ " at offset " ++
      String.ofList (Numeral.digits before.utf8ByteSize)))
  | update [] | row [] => some (.driver "incomplete input")
  | _ => none

end Plan

end BoundSql
