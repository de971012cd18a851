import BoundSql.Row.Fill

/-!
# The cache of shapes

The shape of a type is described once and kept. Callers look a type up under a shared lock and
return at once when it is there. Otherwise they take the exclusive lock, look again, describe the
type, count the description and keep the shape. The steps of any number of callers may fall in any
order that the lock allows; one caller on its own goes straight through them. A description is the
work of the caller that makes it, and two descriptions of one type need not be the same.
-/

namespace BoundSql

/-- The shapes described so far. -/
structure ShapeCache where
  /-- The types with their shapes. -/
  shapes : List (String × Shape)
  /-- How often a type was described. -/
  discoveries : Nat
  deriving DecidableEq

namespace ShapeCache

/-- The cache without types. -/
def empty : ShapeCache := ⟨[], 0⟩

/-- The shape kept for a type. -/
def find? (c : ShapeCache) (type : String) : Option Shape :=
  c.shapes.lookup type

/-- Keeps a shape for a type; a shape that was kept for the type before is gone. -/
def keep (c : ShapeCache) (type : String) (shape : Shape) : ShapeCache :=
  { c with shapes := c.shapes.filter (·.1 != type) ++ [(type, shape)] }

/-- How many types have a shape. -/
def size (c : ShapeCache) : Nat := c.shapes.length

/-- The cache at a glance. -/
def summary (c : ShapeCache) : String :=
  "FieldCache \x7b types: " ++ String.ofList (Numeral.digits c.size) ++ ", discoveries: " ++
    String.ofList (Numeral.digits c.discoveries) ++ " \x7d"

/-- Where a caller stands. -/
inductive Caller where
  /-- About to look the type up under the shared lock. -/
  | looking (type : String)
  /-- Waiting for the exclusive lock. -/
  | waiting (type : String)
  /-- Holding the exclusive lock, about to look again. -/
  | locked (type : String)
  /-- Holding the exclusive lock, with no shape found. -/
  | describing (type : String)
  /-- Holding the exclusive lock, with the shape described. -/
  | described (type : String) (shape : Shape)
  /-- Holding the exclusive lock, with the description counted. -/
  | counted (type : String) (shape : Shape)
  /-- Gone, with the shape. -/
  | returned (type : String) (shape : Shape)
  deriving DecidableEq

/-- Whether a caller holds the exclusive lock. -/
def Caller.isLocked : Caller → Bool
  | .locked _ | .describing _ | .described _ _ | .counted _ _ => true
  | _ => false

/-- One step of a caller that may take either lock, by a table of descriptions. -/
def Caller.step (describe : String → Shape) (c : ShapeCache) : Caller → ShapeCache × Caller
  | .looking type =>
    match c.find? type with
    | some shape => (c, .returned type shape)
    | none => (c, .waiting type)
  | .waiting type => (c, .locked type)
  | .locked type =>
    match c.find? type with
    | some shape => (c, .returned type shape)
    | none => (c, .describing type)
  | .describing type => (c, .described type (describe type))
  | .described type shape => ({ c with discoveries := c.discoveries + 1 }, .counted type shape)
  | .counted type shape => (c.keep type shape, .returned type shape)
  | .returned type shape => (c, .returned type shape)

/-- The callers at work on one cache. -/
structure Crowd where
  /-- The cache. -/
  cache : ShapeCache
  /-- The callers. -/
  callers : List Caller
  deriving DecidableEq

/-- Whether another caller than the one at a place holds the exclusive lock. -/
def Crowd.lockedByOther (s : Crowd) (i : Nat) : Bool :=
  (s.callers.eraseIdx i).any Caller.isLocked

/-- One step of the caller at a place, by what the caller at each place makes of a type when it
describes it. A caller that needs a lock waits while another one holds the exclusive lock. -/
def Crowd.step (describe : Nat → String → Shape) (s : Crowd) (i : Nat) : Option Crowd :=
  match s.callers[i]? with
  | none => none
  | some caller =>
    if s.lockedByOther i then none
    else
      let (cache, caller) := caller.step (describe i) s.cache
      some ⟨cache, s.callers.set i caller⟩

/-- The callers after a number of steps in a given order; a step that cannot be taken is skipped. -/
def Crowd.run (describe : Nat → String → Shape) (s : Crowd) (order : List Nat) : Crowd :=
  order.foldl (fun s i => (s.step describe i).getD s) s

/-- One caller that asks for a type and is given all the steps it needs. -/
def members (describe : String → Shape) (c : ShapeCache) (type : String) : ShapeCache × Shape :=
  let after := Crowd.run (fun _ => describe) ⟨c, [.looking type]⟩ (List.replicate 6 0)
  match after.callers with
  | [.returned _ shape] => (after.cache, shape)
  | _ => (after.cache, [])

end ShapeCache

end BoundSql
