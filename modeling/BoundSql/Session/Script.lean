import BoundSql.Session.Driver

/-!
# Scripted drivers

A script says everything about a driver in advance: the rows under its cursors, where a read fails,
breaks off, waits or cancels the token, how often a query lends a cursor, and how connecting,
executing and querying end. A scripted driver needs no database, so the course of a call can be
followed step by step.
-/

namespace BoundSql

/-- What a driver does. -/
structure Script where
  /-- The names of the columns. -/
  columns : List String := []
  /-- The rows under every cursor. -/
  rows : List (List Value) := []
  /-- The place of a read that fails, and its error. -/
  rowError : Option (Nat × Error) := none
  /-- The place of a read that breaks off. -/
  panicAt : Option Nat := none
  /-- The place of a read that waits for an interrupt. -/
  blockAt : Option Nat := none
  /-- The place of a read that cancels the token first. -/
  cancelAt : Option Nat := none
  /-- Whether connecting cancels the token, once there is a connection. -/
  cancelsConnect : Bool := false
  /-- Why there is no connection, if there is none. -/
  refusal : Option Error := none
  /-- The error of every statement before it gets to its rows, if there is one. -/
  error : Option Error := none
  /-- The error of a query after its visits, if there is one. -/
  lateError : Option Error := none
  /-- How many rows a statement without rows affects. -/
  affected : Nat := 0
  /-- How often a query lends a cursor. -/
  visits : Nat := 1
  /-- Whether a running statement can be interrupted. -/
  hasHandle : Bool := true

namespace Script

/-- The error of a wait that an interrupt has ended. -/
def interrupted : Error := .driver "interrupted"

/-- A reply that is nothing but a possible error. -/
def outcome : Option Error → Reply Unit
  | some e => .fail e
  | none => .value ()

/-- What a read meets where nothing unusual happens before the row is due. -/
def plainRead (s : Script) (k : Nat) : Read :=
  match s.rowError with
  | some (i, e) => if i = k then .fail e else .value s.rows[k]?
  | none => .value s.rows[k]?

/-- What the read at a place meets. -/
def read (s : Script) (k : Nat) : Read :=
  if s.panicAt = some k then .panic
  else if s.blockAt = some k then .block interrupted
  else if s.cancelAt = some k then .cancelling (s.plainRead k)
  else s.plainRead k

/-- The cursor that every visit gets. -/
def cursor (s : Script) : Cursor :=
  ⟨s.columns, (List.range (s.rows.length + 1)).map s.read⟩

/-- How a statement without rows ends. A script that waits anywhere waits here. -/
def execution (s : Script) : Reply Nat :=
  match s.error with
  | some e => .fail e
  | none => if s.blockAt.isSome then .block interrupted else .value s.affected

/-- How a query goes. -/
def query (s : Script) : Query :=
  match s.error with
  | some e => .finish (.fail e)
  | none => .lending (.value s.cursor) (outcome s.lateError) s.visits

/-- The connection of a script. -/
def connection (s : Script) : Connection :=
  ⟨s.hasHandle, fun _ => s.execution, fun _ => s.query⟩

/-- The driver of a script. -/
def driver (s : Script) : Driver where
  connect := match s.refusal with
    | some e => .fail e
    | none => if s.cancelsConnect then .cancelling (.value s.connection) else .value s.connection

end Script

end BoundSql
