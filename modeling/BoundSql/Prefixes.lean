/-!
# Table prefixes

Statements name tables behind tokens that stand for the owner and the qualifier of a deployment.
A token in single braces is replaced by the owner or the qualifier; in double braces the qualifier
carries the module qualifier as well. Tokens are replaced in one pass from left to right, and what
takes their place is not looked at again.
-/

namespace BoundSql

/-- The names that tokens stand for. -/
structure Prefixes where
  /-- The owner of the tables. -/
  owner : String
  /-- The qualifier in front of table names. -/
  qualifier : String
  /-- The further qualifier of a module's tables. -/
  moduleQualifier : String
  deriving DecidableEq

namespace Prefixes

/-- No prefixes at all. -/
def none : Prefixes := ⟨"", "", ""⟩

/-- The tokens by what they stand for. -/
inductive Slot where
  /-- The owner. -/
  | owner
  /-- The qualifier. -/
  | qualifier
  /-- The owner, in double braces. -/
  | moduleOwner
  /-- The qualifier together with the module qualifier, in double braces. -/
  | moduleQualifier
  deriving DecidableEq

/-- How a token is written. -/
def Slot.spelling : Slot → List Char
  | owner => "\x7bowner\x7d".toList
  | qualifier => "\x7bqualifier\x7d".toList
  | moduleOwner => "\x7b\x7bowner\x7d\x7d".toList
  | moduleQualifier => "\x7b\x7bqualifier\x7d\x7d".toList

/-- The tokens in the order in which they are tried. -/
def Slot.all : List Slot := [moduleOwner, moduleQualifier, owner, qualifier]

/-- A name with a separator behind it; no name needs no separator. -/
def part (name : String) (separator : Char) : List Char :=
  if name.isEmpty then [] else name.toList ++ [separator]

/-- What takes the place of a token. -/
def replacement (p : Prefixes) : Slot → List Char
  | .owner | .moduleOwner => part p.owner '.'
  | .qualifier => part p.qualifier '_'
  | .moduleQualifier => part p.qualifier '_' ++ part p.moduleQualifier '_'

/-- The token at the front of a text. -/
def front? (cs : List Char) : Option Slot :=
  Slot.all.find? fun t => t.spelling.isPrefixOf cs

/-- No token is written with nothing. -/
theorem Slot.spelling_length_pos (t : Slot) : 0 < t.spelling.length := by
  cases t <;> decide

/-- A text with every token replaced. -/
def substituted (p : Prefixes) (cs : List Char) : List Char :=
  match cs with
  | [] => []
  | c :: rest =>
    match front? (c :: rest) with
    | some t => p.replacement t ++ substituted p ((c :: rest).drop t.spelling.length)
    | Option.none => c :: substituted p rest
termination_by cs.length
decreasing_by
  · have := t.spelling_length_pos
    simp only [List.length_drop, List.length_cons]
    omega
  · simp

/-- A string with every token replaced. -/
def substitute (p : Prefixes) (s : String) : String :=
  String.ofList (p.substituted s.toList)

end Prefixes

end BoundSql
