import BoundSql.Parameter.Basic
import BoundSql.Parameter.Suffix

/-!
# Sets of parameters

A set of parameters is a map from canonical names that keeps the order of insertion. Adding under a
name that is taken replaces the entry where it stands. A generated name carries the set's counter,
which grows with every draw and never falls behind when another set is taken in.
-/

namespace BoundSql

/-- Parameters in the order in which their names first came up. -/
structure ParameterSet where
  /-- The suffixes of generated names, by the value of the counter. -/
  supply : Supply
  /-- The parameters. -/
  entries : List Parameter
  /-- How many names were generated, here and in the sets that were taken in. -/
  counter : Nat

namespace ParameterSet

/-- The set without parameters. -/
def empty (supply : Supply) : ParameterSet :=
  ⟨supply, [], 0⟩

/-- The names in order. -/
def names (s : ParameterSet) : List String :=
  s.entries.map Parameter.name

/-- The entry under a canonical name. -/
def find? (s : ParameterSet) (name : String) : Option Parameter :=
  s.entries.find? (·.name == name)

/-- The parameter with a name, however the name is marked. -/
def get? (s : ParameterSet) (name : String) : Option Parameter :=
  s.find? (Parameter.canonical name)

/-- Whether there is a parameter with a name. -/
def contains (s : ParameterSet) (name : String) : Bool :=
  (s.get? name).isSome

/-- How many parameters there are. -/
def size (s : ParameterSet) : Nat :=
  s.entries.length

/-- Replaces the entry of the same name where it stands, or adds a new entry at the end. -/
def put (p : Parameter) : List Parameter → List Parameter
  | [] => [p]
  | q :: rest => if q.name = p.name then p :: rest else q :: put p rest

/-- Adds a parameter under a name; gives back the name that refers to it. -/
def addNamed (s : ParameterSet) (name : String) (value : Value)
    (direction : Direction := .input) : ParameterSet × String :=
  let canonical := Parameter.canonical name
  let p : Parameter := ⟨canonical, value.cleared, value.kind, direction⟩
  ({ s with entries := put p s.entries }, canonical)

/-- The name generated from a hint, a counter and a suffix. -/
def generatedName (hint : String) (counter : Nat) (suffix : Suffix) : String :=
  String.ofList
    (Parameter.hintWord hint ++ '_' :: (Numeral.digits counter ++ '_' :: suffix.chars))

/-- Adds a parameter under a generated name; gives back the name that refers to it. -/
def addTemp (s : ParameterSet) (value : Value) (hint : String) : ParameterSet × String :=
  let counter := s.counter + 1
  { s with counter }.addNamed (generatedName hint counter (s.supply counter)) value

/-- Adds parameters under generated names one after the other; gives back their names. -/
def addTemps (s : ParameterSet) : List (String × Value) → ParameterSet × List String
  | [] => (s, [])
  | (hint, value) :: rest =>
    let (s, name) := s.addTemp value hint
    let (s, names) := addTemps s rest
    (s, name :: names)

/-- Adds a parameter at the end unless its name is taken. -/
def importOne (s : ParameterSet) (p : Parameter) : ParameterSet :=
  if s.contains p.name then s else { s with entries := s.entries ++ [p] }

/-- Takes in the parameters of another set; names that are taken keep their entries. -/
def extend (s other : ParameterSet) : ParameterSet :=
  let joined := other.entries.foldl importOne s
  { joined with counter := s.counter + other.counter }

end ParameterSet

end BoundSql
