import BoundSql.Session.Driver

/-!
# Operations of a session

The operations that a session offers, each as the job it runs on a connection: a statement without
rows, the first value, the first row or all rows, as items of a shape or as records, and the rows
one by one. Blocking calls run the job on its own; background calls watch the cancel token.
-/

namespace BoundSql

/-- What is fetched from the rows of a statement. -/
inductive Fetch where
  /-- The first value of the first row. -/
  | scalar (target : Target)
  /-- The first row as an item. -/
  | one (shape : Shape)
  /-- All rows as items. -/
  | many (shape : Shape)
  /-- The first row as a record. -/
  | record
  /-- All rows as records. -/
  | records
  /-- The rows one by one as items, until the callback stops. -/
  | each (shape : Shape) (stop : List Item → Bool)

/-- What a session runs a statement for. -/
inductive Operation where
  /-- The count of affected rows. -/
  | nonQuery
  /-- Something from the rows. -/
  | fetch (f : Fetch)

/-- What an operation gives back. -/
inductive Answer where
  /-- A count of rows. -/
  | count (n : Nat)
  /-- A value, or nothing. -/
  | scalar (cell : Option Cell)
  /-- An item, or nothing. -/
  | one (item : Option Item)
  /-- Items. -/
  | many (items : List Item)
  /-- A record, or nothing. -/
  | record (record : Option Record)
  /-- Records. -/
  | records (records : List Record)

/-- The job of fetching from a cursor. -/
def Fetch.fromCursor (f : Fetch) (engine : Engine) (watched : Bool) (c : Cursor) :
    Work Item Answer :=
  match f with
  | scalar target => (Work.first watched c).andThen fun row =>
    .done (.ok (.scalar (row.bind (engine.scalar? target))))
  | one shape => (Work.first watched c).andThen fun row =>
    .done (.ok (.one (row.map (shape.fillOne engine c.columns))))
  | many shape => (Work.fillMany watched shape engine c).andThen fun items =>
    .done (.ok (.many items))
  | record => (Work.first watched c).andThen fun row =>
    .done (.ok (.record (row.map fun values => ⟨c.columns, values, engine⟩)))
  | records => (Work.records watched engine c).andThen fun records =>
    .done (.ok (.records records))
  | each shape stop => (Work.forEach watched shape engine stop c).andThen fun n =>
    .done (.ok (.count n))

namespace Operation

/-- The job of executing a statement without rows. -/
def executing (affected : Reply Nat) : Work Item Answer :=
  (Work.replying affected).andThen fun n => .done (.ok (.count n))

/-- The job of an operation on a connection. -/
def onConnection (op : Operation) (engine : Engine) (watched : Bool) (statement : Statement)
    (c : Connection) : Work Item Answer :=
  match op with
  | nonQuery => .act (.execute statement) (executing (c.execute statement))
  | fetch f =>
    .act (.query statement) (Work.withCursor (f.fromCursor engine watched) (c.query statement))

end Operation

/-- Opens a connection and goes on with it. -/
def Driver.connecting {ι ρ : Type} (d : Driver) (k : Connection → Work ι ρ) : Work ι ρ :=
  .act .connect ((Work.replying d.connect).andThen k)

/-- A session: a driver, the engine that rows are filled with, and the time limit of background
calls. -/
structure Session where
  /-- The driver. -/
  driver : Driver
  /-- The engine that rows are filled with. -/
  engine : Engine
  /-- The greatest length of a background call, connecting included. -/
  limit : Option Span

namespace Session

/-- The job of a blocking call. -/
def blocking (s : Session) (op : Operation) (statement : Statement) : Work Item Answer :=
  s.driver.connecting (op.onConnection s.engine false statement)

/-- The job of a background call. It makes the interrupt handle public and looks at the token before
it starts the statement. -/
def background (s : Session) (op : Operation) (statement : Statement) : Work Item Answer :=
  s.driver.connecting fun c =>
    .publish c.hasHandle (.poll fun cancelled =>
      if cancelled then .done (.error .cancelled)
      else op.onConnection s.engine true statement c)

/-- The job of the reader of a stream, which hands over all rows as items. -/
def streaming (s : Session) (shape : Shape) (statement : Statement) : Work Item Nat :=
  s.driver.connecting fun c =>
    .publish c.hasHandle (.act (.query statement)
      (Work.withCursor (Work.forEach true shape s.engine fun _ => false) (c.query statement)))

end Session

end BoundSql
