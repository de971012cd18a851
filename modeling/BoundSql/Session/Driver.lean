import BoundSql.Row.Fill
import BoundSql.Session.Job
import BoundSql.Statement.Draft

/-!
# Drivers

A driver opens connections; a connection executes a statement, or lends a cursor over its rows to a
visitor for as long as a query lasts. What a driver does is given as data: what becomes of every
call to it, what each request for a row meets, how often a query lends a cursor and what it makes of
the visitor's answer.
-/

namespace BoundSql

/-- What becomes of a call to a driver. -/
inductive Reply (α : Type) where
  /-- A result. -/
  | value (result : α)
  /-- A failure. -/
  | fail (e : Error)
  /-- A breakdown. -/
  | panic
  /-- A wait for an interrupt, and then a failure. -/
  | block (e : Error)
  /-- A while of work that an interrupt turns into a failure, and then something else. -/
  | slow (e : Error) (next : Reply α)
  /-- The cancel token is cancelled, and then something else. -/
  | cancelling (next : Reply α)

/-- What a request for a row meets: a row, the end of the rows, or something else. -/
abbrev Read := Reply (Option (List Value))

/-- A cursor over rows. -/
structure Cursor where
  /-- The names of the columns. -/
  columns : List String
  /-- What the requests for rows meet; behind the last of them the rows are at their end. -/
  reads : List Read

/-- A cursor that delivers rows and finds their end. -/
def Cursor.ofRows (columns : List String) (rows : List (List Value)) : Cursor :=
  ⟨columns, rows.map fun values => .value (some values)⟩

/-- What a query does: it lends cursors, each time going on by the visitor's answer, and ends. -/
inductive Query where
  /-- The query ends. -/
  | finish (reply : Reply Unit)
  /-- The query lends a cursor, if it gets that far. -/
  | visit (lent : Reply Cursor) (next : Except Error Unit → Query)

/-- A query that lends the same cursor a number of times, passes a visitor's error on, and then
ends. -/
def Query.lending (lent : Reply Cursor) (reply : Reply Unit) : Nat → Query
  | 0 => .finish reply
  | n + 1 => .visit lent fun answer =>
    match answer with
    | .ok () => lending lent reply n
    | .error e => .finish (.fail e)

/-- A connection. -/
structure Connection where
  /-- Whether a running statement can be interrupted. -/
  hasHandle : Bool
  /-- Executes a statement without rows, for the count of affected rows. -/
  execute : Statement → Reply Nat
  /-- Executes a statement with rows. -/
  query : Statement → Query

/-- A driver. -/
structure Driver where
  /-- Opens a connection. -/
  connect : Reply Connection

/-- The column of a cursor with a name, up to case. -/
def Cursor.columnIndex? (c : Cursor) (name : String) : Option Nat :=
  Name.position? c.columns name

/-- A job against a database with statements of this library. -/
abbrev Work (ι ρ : Type) := Job Statement ι (Except Error ρ)

namespace Work

variable {ι ρ τ : Type}

/-- Goes on with what a successful job gives; a failure ends it. -/
def andThen (j : Work ι ρ) (k : ρ → Work ι τ) : Work ι τ :=
  j.bind fun
    | .ok r => k r
    | .error e => .done (.error e)

/-- The job of waiting for what becomes of a call. -/
def replying : Reply ρ → Work ι ρ
  | .value result => .done (.ok result)
  | .fail e => .done (.error e)
  | .panic => .panic
  | .block e => .wait (.done (.error e))
  | .slow e next => .busy (.done (.error e)) (replying next)
  | .cancelling next => .cancel (replying next)

/-- What comes of a request for a row: the row, or nothing at the end. -/
def reading (r : Read) : Work ι (Option (List Value)) :=
  (replying r).andThen fun row => .act .read (.done (.ok row))

/-- A request for a row. A watched cursor refuses it once the token is cancelled. -/
def request (watched : Bool) (r : Read) : Work ι (Option (List Value)) :=
  if watched then
    .poll fun cancelled => if cancelled then .done (.error .cancelled) else reading r
  else
    reading r

/-- The first request of a cursor. -/
def first (watched : Bool) (c : Cursor) : Work ι (Option (List Value)) :=
  request watched (c.reads.head?.getD (.value none))

/-- What one row brings: a state, perhaps an item to hand over, and whether to stop. -/
structure Visit (ς ι : Type) where
  /-- The state after the row. -/
  state : ς
  /-- The item to hand over, if any. -/
  item : Option ι
  /-- Whether no further row is asked for. -/
  stop : Bool

/-- Hands over an item, if there is one, and goes on. -/
def handing (item : Option ι) (next : Work ι ρ) : Work ι ρ :=
  match item with
  | some i => .hand i next
  | none => next

/-- Asks for row after row until the end, a failure, or a visit that stops. -/
def walk {ς : Type} (watched : Bool) (visit : ς → List Value → Visit ς ι) (state : ς) :
    List Read → Work ι ς
  | [] => (request watched (.value none)).andThen fun _ => .done (.ok state)
  | r :: rest => (request watched r).andThen fun
    | none => .done (.ok state)
    | some values =>
      let v := visit state values
      handing v.item (if v.stop then .done (.ok v.state) else walk watched visit v.state rest)

/-- Hands every filled row over and counts them, until the end or until the callback, which may go
by all it has seen, stops. -/
def forEach (watched : Bool) (shape : Shape) (engine : Engine) (stop : List Item → Bool)
    (c : Cursor) : Work Item Nat :=
  let plan := shape.plan c.columns
  (walk watched (fun (seen : List Item) values =>
    let item := shape.fillPlanned engine plan values
    ⟨seen ++ [item], some item, stop (seen ++ [item])⟩) [] c.reads).andThen fun seen =>
  .done (.ok seen.length)

/-- Fills an item from every row. -/
def fillMany (watched : Bool) (shape : Shape) (engine : Engine) (c : Cursor) :
    Work ι (List Item) :=
  let plan := shape.plan c.columns
  walk watched (fun (seen : List Item) values =>
    ⟨seen ++ [shape.fillPlanned engine plan values], none, false⟩) [] c.reads

/-- Makes a record of every row. -/
def records (watched : Bool) (engine : Engine) (c : Cursor) : Work ι (List Record) :=
  walk watched (fun (seen : List Record) values =>
    ⟨seen ++ [⟨c.columns, values, engine⟩], none, false⟩) [] c.reads

/-- The error of a query that succeeds without having lent a cursor that could be used. -/
def noCursor : Error :=
  .driver "The driver returned without a cursor"

/-- Follows a query whose first cursor has been used, with what that gave: later cursors are given
back at once. -/
def follow (kept : Option ρ) : Query → Work ι ρ
  | .finish reply => (replying reply).andThen fun () =>
    match kept with
    | some r => .done (.ok r)
    | none => .done (.error noCursor)
  | .visit lent next => (replying lent).andThen fun _ =>
    .act .lend (.act .giveBack (follow kept (next (.ok ()))))

/-- Uses the first cursor that a query lends. -/
def withCursor (use : Cursor → Work ι ρ) : Query → Work ι ρ
  | .finish reply => (replying reply).andThen fun () => .done (.error noCursor)
  | .visit lent next => (replying lent).andThen fun cursor =>
    .act .lend ((use cursor).bind fun
      | .ok r => .act .giveBack (follow (some r) (next (.ok ())))
      | .error e => .act .giveBack (follow none (next (.error e))))

end Work

end BoundSql
