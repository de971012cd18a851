import BoundSql.Error
import BoundSql.Parameter.Basic
import BoundSql.Session.Operation

/-!
# Placeholders and stores

A prepared statement has placeholders, and each placeholder holds one value, the missing one at
first. Binding goes through the parameters in order and puts the stored form of each into the
placeholder of exactly its name; a parameter without a placeholder is passed over. Only input
parameters can be bound, and the first other one ends the binding.

A store is a database at a location: its data, what becomes of a statement that is prepared against
the data, and the supplier that is asked for a key whenever a file is opened. A store is used
through a driver, which answers by the data of the moment; what the driver's connections have been
seen to do gives the store afterwards.
-/

namespace BoundSql

/-- The placeholders of a statement with the values that they hold. -/
abbrev Slots := List (String × Value)

/-- Why a parameter that does not travel to the database cannot be bound. -/
def Parameter.refusal (p : Parameter) : Error :=
  .unsupported (p.direction.name ++ " parameter " ++ p.name ++
    " (sqlite binds input parameters only)")

namespace Slots

/-- Placeholders that nothing has been bound to. -/
def blank (placeholders : List String) : Slots :=
  placeholders.map fun name => (name, .null)

/-- The value that a placeholder holds. -/
def value (slots : Slots) (name : String) : Value :=
  (slots.lookup name).getD .null

/-- Puts a value into the placeholder of a name, if there is one. -/
def assign (slots : Slots) (name : String) (value : Value) : Slots :=
  slots.map fun slot => if slot.1 = name then (name, value) else slot

/-- Binds parameters one after the other. -/
def bind (slots : Slots) : List Parameter → Except Error Slots
  | [] => .ok slots
  | p :: rest =>
    if p.direction = .input then (slots.assign p.name p.value.stored).bind rest
    else .error p.refusal

end Slots

/-! ## Stores -/

/-- Where a database is kept. -/
inductive Location where
  /-- In memory, for as long as the store lasts. -/
  | memory
  /-- In a file. -/
  | file (path : String)
  deriving DecidableEq

/-- The rows that a statement brings back, with the names of their columns. -/
structure Rows where
  /-- The names of the columns. -/
  columns : List String
  /-- The rows. -/
  rows : List (List Value)
  deriving DecidableEq

/-- A statement prepared against data of a type. -/
structure Prepared (δ : Type) where
  /-- The names of the placeholders. -/
  placeholders : List String
  /-- Changes the data and counts the rows affected. -/
  execute : Slots → δ → Except Error (Nat × δ)
  /-- Brings back rows. -/
  query : Slots → δ → Except Error Rows

/-- What a database makes of the text of a statement. -/
abbrev Dialect (δ : Type) := String → δ → Except Error (Prepared δ)

/-- The dialect that knows the texts of a list only. -/
def Dialect.ofList {δ : Type} (known : List (String × Prepared δ)) : Dialect δ := fun sql _ =>
  match known.lookup sql with
  | some prepared => .ok prepared
  | none => .error (.driver "syntax error")

/-- A database that is reached through a driver. -/
structure Store (δ : Type) where
  /-- Where the database is kept. -/
  location : Location
  /-- What the supplier of keys answers, if there is one: an error, or perhaps a key. -/
  credential : Option (Except Error (Option String))
  /-- How long a connection waits for a locked database. -/
  busyTimeout : Span
  /-- What the database makes of statements. -/
  dialect : Dialect δ
  /-- The data. -/
  data : δ
  /-- How often the supplier has been asked for a key. -/
  asked : Nat

namespace Store

variable {δ : Type}

/-- The time that a connection waits for a locked database, unless it is told otherwise. -/
def defaultBusyTimeout : Span := .ofMillis 5000

/-- A store that has not been used yet. -/
def fresh (location : Location) (dialect : Dialect δ) (data : δ) : Store δ :=
  ⟨location, none, defaultBusyTimeout, dialect, data, 0⟩

/-- Whether the supplier is asked for a key when a connection is opened. -/
def asksForKey (s : Store δ) : Bool :=
  match s.location with
  | .memory => false
  | .file path => path != "" && s.credential.isSome

/-- Why no connection can be opened, if that is so. The path is looked at before the supplier is
asked. -/
def refusal? (s : Store δ) : Option Error :=
  match s.location with
  | .memory => none
  | .file path =>
    if path = "" then some (.config "The database path is empty")
    else match s.credential with
      | some (.error e) => some e
      | _ => none

/-- Prepares a statement and binds its parameters. -/
def ready (s : Store δ) (statement : Statement) : Except Error (Prepared δ × Slots) := do
  let prepared ← s.dialect statement.sql s.data
  let slots ← (Slots.blank prepared.placeholders).bind statement.parameters
  pure (prepared, slots)

/-- Executes a statement: the count of rows affected and the data afterwards. -/
def execute (s : Store δ) (statement : Statement) : Except Error (Nat × δ) := do
  let (prepared, slots) ← s.ready statement
  prepared.execute slots s.data

/-- The rows that a statement brings back. -/
def query (s : Store δ) (statement : Statement) : Except Error Rows := do
  let (prepared, slots) ← s.ready statement
  prepared.query slots s.data

/-- A connection to the data of the moment. -/
def connection (s : Store δ) : Connection where
  hasHandle := true
  execute statement := match s.execute statement with
    | .ok (count, _) => .value count
    | .error e => .fail e
  query statement := match s.query statement with
    | .ok rows => .lending (.value (Cursor.ofRows rows.columns rows.rows)) (.value ()) 1
    | .error e => .finish (.fail e)

/-- The driver of a store. -/
def driver (s : Store δ) : Driver where
  connect := match s.refusal? with
    | some e => .fail e
    | none => .value s.connection

/-- The store after one step that its driver has been seen to take. -/
def afterAction (s : Store δ) : Action Statement → Store δ
  | .connect => if s.asksForKey then { s with asked := s.asked + 1 } else s
  | .execute statement => match s.execute statement with
    | .ok (_, data) => { s with data }
    | .error _ => s
  | _ => s

/-- The store after the steps that its driver has been seen to take. -/
def after (s : Store δ) (trace : List (Action Statement)) : Store δ :=
  trace.foldl afterAction s

end Store

end BoundSql
