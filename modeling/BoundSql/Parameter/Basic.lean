import BoundSql.Parameter.Token
import BoundSql.Value

/-!
# Parameters and their names

A parameter is a named value that travels beside a statement. Its name is canonical: an at sign
and characters that a token can carry. A caller may write a name with any run of markers in front
of it, and characters that a token cannot carry become underscores.
-/

namespace BoundSql

/-- Which way a parameter's value travels. -/
inductive Direction where
  /-- To the database. -/
  | input
  /-- From the database. -/
  | output
  /-- Both ways. -/
  | inputOutput
  /-- From the database, as the result of a routine. -/
  | returnValue
  deriving DecidableEq

/-- The name of a direction. -/
def Direction.name : Direction → String
  | input => "Input"
  | output => "Output"
  | inputOutput => "InputOutput"
  | returnValue => "ReturnValue"

/-- A named value that travels beside a statement. -/
structure Parameter where
  /-- The canonical name, at sign included. -/
  name : String
  /-- The value; an absent date has become the missing value. -/
  value : Value
  /-- The kind of the value as it was given. -/
  kind : Kind
  /-- Which way the value travels. -/
  direction : Direction
  deriving DecidableEq

namespace Parameter

/-- The markers that a caller may put in front of a name. -/
def isMarker (c : Char) : Bool :=
  c == '@' || c == ':' || c == '$' || c == '?'

/-- A character that a token can carry, in place of any character. -/
def safe (c : Char) : Char :=
  if Token.isWord c then c else '_'

/-- The characters of the canonical name behind its at sign. -/
def canonicalWord (cs : List Char) : List Char :=
  match cs.dropWhile isMarker with
  | [] => ['p']
  | bare => bare.map safe

/-- The canonical form of a name. -/
def canonical (name : String) : String :=
  String.ofList ('@' :: canonicalWord name.toList)

/-- What a hint contributes to a generated name: the characters of it that a token can carry. -/
def hintWord (hint : String) : List Char :=
  match hint.toList.filter Token.isWord with
  | [] => ['p']
  | word => word

end Parameter

end BoundSql
