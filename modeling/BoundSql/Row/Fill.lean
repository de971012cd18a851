import BoundSql.Row.Record

/-!
# Filling members from rows

A shape lists the members that a row can fill, each with the name of its column and what its place
holds. Every column fills the first member that its name matches, unless an earlier column has
claimed that member; a value that cannot be coerced or unwrapped leaves the member as it was.
-/

namespace BoundSql

/-- A place that a column can fill. -/
structure Member where
  /-- The name of the column that fills it. -/
  name : String
  /-- The type of the place. -/
  target : Target
  /-- What the place holds when no column fills it. -/
  initial : Cell
  deriving DecidableEq

/-- A member that starts with the usual contents of its target. -/
def Member.ofTarget (name : String) (target : Target) : Member :=
  ⟨name, target, target.initial⟩

/-- The members that a row can fill. -/
abbrev Shape := List Member

/-- What the members of a shape hold, in the order of the members. -/
abbrev Item := List Cell

namespace Shape

/-- The place of the first member whose name matches. -/
def position? (shape : Shape) (name : String) : Option Nat :=
  Name.position? (shape.map Member.name) name

/-- The first member whose name matches. -/
def find? (shape : Shape) (name : String) : Option Member :=
  (shape.position? name).bind fun i => shape[i]?

/-- For each column the place of the member that it fills, when some members are claimed already. -/
def planFrom (shape : Shape) (claimed : List Nat) : List String → List (Option Nat)
  | [] => []
  | column :: rest =>
    match shape.position? column with
    | none => none :: planFrom shape claimed rest
    | some i =>
      if i ∈ claimed then none :: planFrom shape claimed rest
      else some i :: planFrom shape (i :: claimed) rest

/-- For each column the place of the member that it fills. -/
def plan (shape : Shape) (columns : List String) : List (Option Nat) :=
  shape.planFrom [] columns

/-- What the members hold before any row. -/
def initial (shape : Shape) : Item :=
  shape.map Member.initial

/-- Puts a raw value into one member. -/
def assign (shape : Shape) (engine : Engine) (item : Item) (place : Option Nat) (raw : Value) :
    Item :=
  match place.bind fun i => (shape[i]?).map fun m => (i, m) with
  | some (i, m) =>
    match engine.cell? m.target raw with
    | some cell => item.set i cell
    | none => item
  | none => item

/-- A fresh item filled from one row by a plan. -/
def fillPlanned (shape : Shape) (engine : Engine) (plan : List (Option Nat)) (values : List Value) :
    Item :=
  (plan.zip values).foldl (fun item (place, raw) => shape.assign engine item place raw)
    shape.initial

/-- A fresh item filled from one row. -/
def fillOne (shape : Shape) (engine : Engine) (columns : List String) (values : List Value) :
    Item :=
  shape.fillPlanned engine (shape.plan columns) values

end Shape

/-- The first value of a row, coerced and unwrapped. -/
def Engine.scalar? (e : Engine) (target : Target) (values : List Value) : Option Cell :=
  values.head?.bind (e.cell? target)

end BoundSql
