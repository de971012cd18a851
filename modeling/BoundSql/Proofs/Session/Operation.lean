import BoundSql.Proofs.Session.Course

/-!
# What the operations of a session answer

An operation that fetches from rows asks for the first row or for all of them, and its answer is
made of the rows that it has got. So the way it ends is the way of its driver, with the answer in
the place of a success. An operation on the first row is the very same job whatever stands behind
that row.
-/

namespace BoundSql

open Job (Ending)

/-! ## Cursors with other reads -/

/-- A reply with its result changed. -/
def Reply.map {α β : Type} (f : α → β) : Reply α → Reply β
  | .value result => .value (f result)
  | .fail e => .fail e
  | .panic => .panic
  | .block e => .block e
  | .slow e next => .slow e (next.map f)
  | .cancelling next => .cancelling (next.map f)

/-- A query whose cursors are changed before they are lent. -/
def Query.mapCursors (f : Cursor → Cursor) : Query → Query
  | .finish reply => .finish reply
  | .visit lent next => .visit (lent.map f) fun answer => (next answer).mapCursors f

/-- A connection whose cursors are changed before they are lent. -/
def Connection.mapCursors (f : Cursor → Cursor) (c : Connection) : Connection :=
  { c with query := fun statement => (c.query statement).mapCursors f }

/-- A driver whose cursors are changed before they are lent. -/
def Driver.mapCursors (f : Cursor → Cursor) (d : Driver) : Driver :=
  ⟨d.connect.map (Connection.mapCursors f)⟩

/-- A session whose driver's cursors are changed before they are lent. -/
def Session.mapCursors (f : Cursor → Cursor) (s : Session) : Session :=
  { s with driver := s.driver.mapCursors f }

namespace Work

variable {ι ρ τ : Type}

/-- What follows a changed reply follows the reply. -/
theorem replying_map_andThen {α : Type} (f : α → ρ) (r : Reply α) (k : ρ → Work ι τ) :
    (replying (r.map f)).andThen k = (replying r).andThen fun result => k (f result) := by
  induction r with
  | value result => rfl
  | fail e => rfl
  | panic => rfl
  | block e => rfl
  | slow e next ih => exact congrArg (Job.busy _) ih
  | cancelling next ih => exact congrArg Job.cancel ih

/-- Once the first cursor has been used, it does not matter how cursors are changed. -/
theorem follow_mapCursors (f : Cursor → Cursor) (kept : Option ρ) (q : Query) :
    (follow kept (q.mapCursors f) : Work ι ρ) = follow kept q := by
  induction q with
  | finish reply => rfl
  | visit lent next ih => simp only [Query.mapCursors, follow, replying_map_andThen, ih]

/-- A query whose cursors are changed in a way that their use does not notice makes the same job. -/
theorem withCursor_mapCursors {f : Cursor → Cursor} {use : Cursor → Work ι ρ}
    (h : ∀ c, use (f c) = use c) (q : Query) :
    withCursor use (q.mapCursors f) = withCursor use q := by
  cases q with
  | finish reply => rfl
  | visit lent next =>
    simp only [Query.mapCursors, withCursor, replying_map_andThen, follow_mapCursors, h]

end Work

/-- An operation that does not notice how the cursors are changed is the same job. -/
theorem Session.blocking_mapCursors (s : Session) (statement : Statement) {f : Cursor → Cursor}
    {x : Fetch} (h : ∀ c, x.fromCursor s.engine false (f c) = x.fromCursor s.engine false c) :
    (s.mapCursors f).blocking (.fetch x) statement = s.blocking (.fetch x) statement := by
  simp only [blocking, mapCursors, Driver.connecting, Driver.mapCursors,
    Work.replying_map_andThen, Operation.onConnection, Connection.mapCursors,
    Work.withCursor_mapCursors h]
  rfl

/-! ## How a fetch ends -/

namespace Fetch

/-- Whether only the first row is asked for. -/
def wantsFirst : Fetch → Bool
  | scalar _ => true
  | one _ => true
  | record => true
  | _ => false

/-- Whether the rows so far are enough for a fetch. -/
def enough (engine : Engine) (columns : List String) : Fetch → List (List Value) → Bool
  | each shape stop, rows => stop (rows.map (shape.fillOne engine columns))
  | f, _ => f.wantsFirst

/-- The rows that a fetch gets. -/
def rows (f : Fetch) (engine : Engine) (c : Cursor) : List (List Value) :=
  Cursor.rowsUntil (f.enough engine c.columns) [] c.reads

/-- How the requests for the rows that a fetch wants end. -/
def reach (f : Fetch) (engine : Engine) (c : Cursor) : Ending (Except Error Unit) :=
  Cursor.endUntil (f.enough engine c.columns) [] c.reads

/-- The answer that rows make. -/
def answer (engine : Engine) (columns : List String) (rows : List (List Value)) : Fetch → Answer
  | scalar target => .scalar (rows.head?.bind (engine.scalar? target))
  | one shape => .one (rows.head?.map (shape.fillOne engine columns))
  | many shape => .many (rows.map (shape.fillOne engine columns))
  | record => .record (rows.head?.map fun values => ⟨columns, values, engine⟩)
  | records => .records (rows.map fun values => ⟨columns, values, engine⟩)
  | each _ _ => .count rows.length

/-- When the requests for all rows end well, so do those of every fetch. -/
theorem reach_of_ending (f : Fetch) (engine : Engine) {c : Cursor}
    (h : c.ending = .returned (.ok ())) : f.reach engine c = .returned (.ok ()) :=
  Cursor.endUntil_of_endOf (f.enough engine c.columns) h []

end Fetch

namespace Work

variable {ι τ : Type}

/-- What follows the first request of a cursor ends by the first row. -/
theorem ending_first_andThen (token : Bool) (c : Cursor) {k : Option (List Value) → Work ι τ}
    {x : Option (List Value) → Except Error τ} (h : ∀ row, k row = .done (x row)) :
    (((first false c).andThen k).run token).ending =
      (Cursor.endUntil (fun _ => true) [] c.reads).andThen fun _ =>
        .returned (x (Cursor.rowsUntil (fun _ => true) [] c.reads).head?) := by
  obtain ⟨columns, reads⟩ := c
  cases reads with
  | nil => exact congrArg (fun j => (Job.run token j).ending) (h none)
  | cons r rest =>
    have hfirst : first false ⟨columns, r :: rest⟩ = (reading r : Work ι _) := rfl
    rw [hfirst, run_reading_andThen, Cursor.endUntil, Cursor.rowsUntil]
    cases r.ending with
    | panicked => rfl
    | stuck => rfl
    | returned result =>
      cases result with
      | error e => rfl
      | ok row => cases row <;> simp [h, Job.run]

end Work

/-- A fetch from a cursor ends as the requests do, with the answer that its rows make. -/
theorem Fetch.ending_fromCursor (f : Fetch) (engine : Engine) (token : Bool) (c : Cursor) :
    ((f.fromCursor engine false c).run token).ending =
      (f.reach engine c).andThen fun _ =>
        .returned (.ok (f.answer engine c.columns (f.rows engine c))) := by
  cases f with
  | scalar target => exact Work.ending_first_andThen token c fun _ => rfl
  | one shape => exact Work.ending_first_andThen token c fun _ => rfl
  | record => exact Work.ending_first_andThen token c fun _ => rfl
  | many shape =>
    have hwalk := (Work.run_walk_collecting (ι := Item) (shape.fillOne engine c.columns)
      (fun _ => none) (fun _ => false) token [] c.reads).1
    rw [fromCursor, Work.ending_andThen]
    exact (congrArg (Ending.andThen · _) hwalk).trans (Ending.andThen_assoc ..)
  | records =>
    have hwalk := (Work.run_walk_collecting (ι := Item)
      (fun values => (⟨c.columns, values, engine⟩ : Record)) (fun _ => none) (fun _ => false)
      token [] c.reads).1
    rw [fromCursor, Work.ending_andThen]
    exact (congrArg (Ending.andThen · _) hwalk).trans (Ending.andThen_assoc ..)
  | each shape stop =>
    have hwalk := (Work.run_walk_collecting (shape.fillOne engine c.columns) some stop token []
      c.reads).1
    have hcount : ((Work.forEach false shape engine stop c).run token).ending =
        ((each shape stop).reach engine c).andThen fun _ =>
          .returned (.ok ((each shape stop).rows engine c).length) := by
      rw [Work.forEach, Work.ending_andThen]
      refine (congrArg (Ending.andThen · _) hwalk).trans ?_
      have henough : enough engine c.columns (each shape stop) =
          fun rows => stop (rows.map (shape.fillOne engine c.columns)) := rfl
      rw [Ending.andThen_assoc]
      simp [Job.run, reach, rows, henough]
    rw [fromCursor, Work.ending_andThen, hcount]
    exact Ending.andThen_assoc ..

/-- A walk that hands every filled row over hands over the rows it gets, in their order. -/
theorem Fetch.handed_each (shape : Shape) (stop : List Item → Bool) (engine : Engine) (c : Cursor)
    (token : Bool) :
    (((each shape stop).fromCursor engine false c).run token).handed =
      ((each shape stop).rows engine c).map (shape.fillOne engine c.columns) := by
  have hwalk := (Work.run_walk_collecting (shape.fillOne engine c.columns) some stop token []
    c.reads).2
  rw [List.filterMap_some] at hwalk
  rw [fromCursor, Work.run_andThen_done, Work.forEach, Work.run_andThen_done]
  exact hwalk

namespace Session

/-- A fetch ends as its driver does, with the answer in the place of a success. -/
theorem ending_blocking_fetch (s : Session) (statement : Statement) (f : Fetch) (token : Bool) :
    ((s.blocking (.fetch f) statement).run token).ending =
      s.driver.serving statement fun c => (f.reach s.engine c).andThen fun _ =>
        .returned (.ok (f.answer s.engine c.columns (f.rows s.engine c))) := by
  refine Work.ending_replying_andThen token s.driver.connect fun c t => ?_
  exact Work.ending_withCursor (fun cursor t => f.ending_fromCursor s.engine t cursor)
    (c.query statement) t

/-- What a fetch hands over and reads is what the use of the first cursor does. -/
theorem seen_blocking_fetch (s : Session) (statement : Statement) {f : Fetch} (token : Bool)
    {P : Cursor → List Item → Nat → Prop}
    (h : ∀ c t, P c ((f.fromCursor s.engine false c).run t).handed
      (((f.fromCursor s.engine false c).run t).trace.count .read)) :
    (s.driver.cursor? statement = none ∧
        ((s.blocking (.fetch f) statement).run token).handed = [] ∧
        ((s.blocking (.fetch f) statement).run token).trace.count .read = 0) ∨
      ∃ c, s.driver.cursor? statement = some c ∧
        P c ((s.blocking (.fetch f) statement).run token).handed
          (((s.blocking (.fetch f) statement).run token).trace.count .read) := by
  have hconnect : s.blocking (.fetch f) statement = .act .connect
      ((Work.replying s.driver.connect).andThen fun c => .act (.query statement)
        (Work.withCursor (f.fromCursor s.engine false) (c.query statement))) := rfl
  rw [hconnect]
  simp only [Job.run, Work.run_replying_andThen, Driver.cursor?]
  cases s.driver.connect.ending with
  | panicked => exact .inl ⟨rfl, rfl, rfl⟩
  | stuck => exact .inl ⟨rfl, rfl, rfl⟩
  | returned result =>
    cases result with
    | error e => exact .inl ⟨rfl, rfl, rfl⟩
    | ok c =>
      have hquery := Work.seen_withCursor h (c.query statement) (s.driver.connect.cancels || token)
      simpa using hquery

end Session

/-! ## One row only -/

namespace Fetch

/-- A fetch of the first row does not notice what stands behind that row. -/
theorem fromCursor_congr {f : Fetch} (hf : f.wantsFirst = true) (engine : Engine) (watched : Bool)
    {c d : Cursor} (hcolumns : c.columns = d.columns) (hfirst : c.firstRead = d.firstRead) :
    f.fromCursor engine watched c = f.fromCursor engine watched d := by
  have hrequest : Work.first watched c = (Work.first watched d : Work Item _) :=
    congrArg (Work.request watched) hfirst
  cases f with
  | scalar target => simp only [fromCursor, hrequest]
  | one shape => simp only [fromCursor, hrequest, hcolumns]
  | record => simp only [fromCursor, hrequest, hcolumns]
  | many shape => cases hf
  | records => cases hf
  | each shape stop => cases hf

end Fetch

/-- The first request of a cursor reads once at most, and once when it gets an answer. -/
theorem Work.reads_first_andThen {ι τ : Type} (token : Bool) (c : Cursor)
    (x : Option (List Value) → Except Error τ) :
    (((first false c).andThen fun row => (.done (x row) : Work ι τ)).run token).trace.count
        .read ≤ 1 ∧
      (Cursor.endUntil (fun _ => true) [] c.reads = .returned (.ok ()) →
        (((first false c).andThen fun row => (.done (x row) : Work ι τ)).run token).trace.count
          .read = 1) := by
  obtain ⟨columns, reads⟩ := c
  cases reads with
  | nil => exact ⟨Nat.le_refl 1, fun _ => rfl⟩
  | cons r rest =>
    have hfirst : first false ⟨columns, r :: rest⟩ = (reading r : Work ι _) := rfl
    rw [hfirst, run_reading_andThen, Cursor.endUntil]
    cases r.ending with
    | panicked => exact ⟨Nat.zero_le 1, fun hno => by cases hno⟩
    | stuck => exact ⟨Nat.zero_le 1, fun hno => by cases hno⟩
    | returned result =>
      cases result with
      | error e => exact ⟨Nat.zero_le 1, fun hno => by cases hno⟩
      | ok row => exact ⟨Nat.le_refl 1, fun _ => rfl⟩

/-- A fetch of the first row reads once at most, and once when it gets an answer. -/
theorem Fetch.reads_fromCursor {f : Fetch} (hf : f.wantsFirst = true) (engine : Engine)
    (c : Cursor) (token : Bool) :
    ((f.fromCursor engine false c).run token).trace.count .read ≤ 1 ∧
      (f.reach engine c = .returned (.ok ()) →
        ((f.fromCursor engine false c).run token).trace.count .read = 1) := by
  cases f with
  | scalar target => exact Work.reads_first_andThen token c _
  | one shape => exact Work.reads_first_andThen token c _
  | record => exact Work.reads_first_andThen token c _
  | many shape => cases hf
  | records => cases hf
  | each shape stop => cases hf

end BoundSql
