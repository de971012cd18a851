import BoundSql.Statement.Clauses
import BoundSql.Store.Table

/-!
# Requests to a table

A request is a statement, built by the clauses of this library, together with the plan that a
database makes of it. It is answered through a session, and the store afterwards is the one that the
session's steps lead to.
-/

namespace BoundSql

/-- What comes of an operation that runs on its own. -/
abbrev Outcome := Job.Course Statement Item (Except Error Answer)

/-- Performs an operation through a session: the store afterwards and what came of it. -/
def Store.perform {δ : Type} (s : Store δ) (op : Operation) (statement : Statement) :
    Store δ × Outcome :=
  let session : Session := ⟨s.driver, Engine.standard, none⟩
  let course := (session.blocking op statement).run false
  (s.after course.trace, course)

/-- A statement with the plan that a database makes of it. -/
structure Request where
  /-- The name of the table. -/
  table : String
  /-- The statement. -/
  statement : Statement
  /-- What it asks for. -/
  plan : Plan

namespace Request

/-- The dialect that knows the request's statement. -/
def dialect (r : Request) : Dialect Database :=
  match r.plan.flaw? r.statement.sql with
  | some e => fun _ _ => .error e
  | none => .ofList [(r.statement.sql, r.plan.prepared r.table)]

/-- Performs an operation with a request, on a store that knows the request's statement. -/
def perform (r : Request) (op : Operation) (s : Store Database) : Store Database × Outcome :=
  { s with dialect := r.dialect }.perform op r.statement

/-- Creates a table. -/
def create (table : String) (columns : List String) : Request :=
  ⟨table, ⟨"CREATE TABLE " ++ table ++ " (" ++ Spacing.commas columns ++ ")", []⟩, .create columns⟩

/-- Adds a row; every value is bound. -/
def insert (supply : Supply) (table : String) (row : List (String × Value)) : Request :=
  let statement := ((Draft.empty supply).insertInto table row).finish
  let names := statement.parameters.map fun p => Source.placeholder p.name
  ⟨table, statement, .insert ((row.map Prod.fst).zip names)⟩

/-- Assigns values to columns of every row. -/
def update (supply : Supply) (table : String) (row : List (String × Value)) : Request :=
  let draft := row.foldl (fun b cell => b.set cell.1 cell.2) ((Draft.empty supply).update table)
  let statement := draft.finish
  ⟨table, statement, .update (.ofAssignments row (statement.parameters.map Parameter.name))⟩

/-- Deletes all rows. -/
def delete (supply : Supply) (table : String) : Request :=
  ⟨table, ((Draft.empty supply).deleteFrom table).finish, .delete⟩

/-- Brings back columns of a table. -/
def selection (supply : Supply) (table : String) (columns : List String) : Draft :=
  ((Draft.empty supply).select columns).fromTable table

/-- Brings back all rows. -/
def all (supply : Supply) (table : String) : Request :=
  ⟨table, (selection supply table []).finish, .all⟩

/-- Brings back the number of rows. -/
def count (supply : Supply) (table : String) : Request :=
  ⟨table, (selection supply table ["COUNT(*)"]).finish, .count⟩

/-- Brings back a page of rows in the order in which they were added. -/
def page (supply : Supply) (table : String) (p : Page) : Request :=
  ⟨table, p.wrap (selection supply table ["*", Page.rowNumberColumn "rowid"]), .page p⟩

/-- Brings back one row with what placeholders hold, in columns that are numbered from zero. -/
def row (parameters : ParameterSet) (names : List String) : Request :=
  let columns := (List.range names.length).map fun i => "c" ++ String.ofList (Numeral.digits i)
  let cells := names.zip columns
  ⟨"", ⟨"SELECT " ++
      Spacing.commas (cells.map fun (name, column) => "@" ++ name ++ " AS " ++ column),
      parameters.entries⟩,
    .row (columns.zip (names.map fun name => .placeholder ("@" ++ name)))⟩

end Request

end BoundSql
