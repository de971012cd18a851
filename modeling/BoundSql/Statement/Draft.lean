import BoundSql.Parameter.Set
import BoundSql.Prefixes
import BoundSql.Text.Blank

/-!
# Drafts of statements

Pieces of a statement are joined by one space, unless a blank is there already or the next piece
begins with a comma, which belongs to what comes before it. An empty piece changes nothing.

A draft is a statement in the making: its text so far and the parameters that the text refers to.
Values never enter the text; a value is bound to a parameter and the text names the parameter. Text
is appended piece by piece, each piece with the table prefixes put in, and a whole draft can be
merged into another one.

A finished statement is a text without blanks at its ends and the parameters in order, ready for one
execution. For diagnostics the parameters can be written into the text as literals.
-/

namespace BoundSql.Spacing

/-- Whether a space is needed between a text and the piece that follows it. -/
def needed (text piece : List Char) : Bool :=
  match text.getLast?, piece.head? with
  | some last, some first => !(Text.isBlank last || Text.isBlank first || first == ',')
  | _, _ => false

/-- A text with a piece behind it. -/
def joined (text piece : String) : String :=
  if needed text.toList piece.toList then text ++ " " ++ piece else text ++ piece

/-- Names with a separator between neighbours. -/
def separated (separator : String) : List String → String
  | [] => ""
  | [s] => s
  | s :: rest => s ++ separator ++ separated separator rest

/-- Names with commas between neighbours. -/
def commas (names : List String) : String :=
  separated ", " names

end BoundSql.Spacing

namespace BoundSql

/-- The clause that a draft ends in, as far as the next call can continue it with a comma. -/
inductive Clause where
  /-- Nothing that can be continued. -/
  | other
  /-- A list of assignments. -/
  | set
  /-- A list of sort keys. -/
  | orderBy
  deriving DecidableEq

/-- A statement in the making. -/
structure Draft where
  /-- The text so far. -/
  text : String
  /-- The parameters that the text refers to. -/
  parameters : ParameterSet
  /-- The table prefixes that are put into every piece, if any. -/
  prefixes : Option Prefixes
  /-- The clause that the text ends in. -/
  clause : Clause

namespace Draft

/-- A draft without text. -/
def empty (supply : Supply) (prefixes : Option Prefixes := none) : Draft :=
  ⟨"", ParameterSet.empty supply, prefixes, .other⟩

/-- Whether the text holds nothing but blanks. -/
def isEmpty (b : Draft) : Bool :=
  Text.trimmed b.text.toList == []

/-- A piece with the table prefixes put in. -/
def prefixed (b : Draft) (piece : String) : String :=
  match b.prefixes with
  | some p => p.substitute piece
  | none => piece

/-- Without table prefixes a piece stays as it is. -/
theorem prefixed_of_none {b : Draft} (h : b.prefixes = none) (piece : String) :
    b.prefixed piece = piece := by
  rw [prefixed, h]

/-- Table prefixes are put into every piece. -/
theorem prefixed_of_some {b : Draft} {p : Prefixes} (h : b.prefixes = some p) (piece : String) :
    b.prefixed piece = p.substitute piece := by
  rw [prefixed, h]

/-- Appends a piece of text. -/
def append (b : Draft) (piece : String) : Draft :=
  { b with clause := .other, text := Spacing.joined b.text (b.prefixed piece) }

/-- Adds a parameter under a name; the text stays as it is. -/
def addNamed (b : Draft) (name : String) (value : Value) : Draft × String :=
  let (parameters, reference) := b.parameters.addNamed name value
  ({ b with parameters }, reference)

/-- Adds a parameter under a generated name; the text stays as it is. -/
def addTemp (b : Draft) (value : Value) (hint : String) : Draft × String :=
  let (parameters, reference) := b.parameters.addTemp value hint
  ({ b with parameters }, reference)

/-- Adds parameters under generated names. -/
def addTemps (b : Draft) (bindings : List (String × Value)) : Draft × List String :=
  let (parameters, references) := b.parameters.addTemps bindings
  ({ b with parameters }, references)

/-- The form of a comparison with the missing value. -/
def nullForm (isAssignment : Bool) : String :=
  if isAssignment then "= NULL" else "IS NULL"

/-- Appends a comparison of a column with a value, or the form for the missing value, which needs
no parameter. -/
def compare (b : Draft) (column operator : String) (value : Value)
    (isAssignment : Bool := false) : Draft :=
  if value.isNull then
    b.append (column ++ " " ++ nullForm isAssignment)
  else
    let (b, reference) := b.addTemp value column
    b.append (column ++ " " ++ operator ++ " " ++ reference)

/-- Appends the trimmed text of another draft, with this draft's table prefixes put in, and takes in
its parameters. -/
def merge (b other : Draft) : Draft :=
  let piece := b.prefixed (Text.trim other.text)
  { b with
    clause := .other
    text := Spacing.joined b.text piece
    parameters := b.parameters.extend other.parameters }

end Draft

/-! ## Finished statements -/

/-- A statement ready for one execution. -/
structure Statement where
  /-- The text. -/
  sql : String
  /-- The parameters that the text refers to. -/
  parameters : List Parameter
  deriving DecidableEq

/-- The literal that stands for a parameter in a text for diagnostics. -/
def literal? (parameters : List Parameter) (name : String) : Option String :=
  (parameters.find? (·.name == name)).map fun p => p.value.literal

/-- A text with every parameter written out as a literal. -/
def inlined (sql : String) (parameters : List Parameter) : String :=
  Token.replace (literal? parameters) sql

/-- The statement with every parameter written out, for diagnostics only. -/
def Statement.debugText (s : Statement) : String :=
  inlined s.sql s.parameters

/-- The draft with every parameter written out, for diagnostics only. -/
def Draft.debugText (b : Draft) : String :=
  inlined b.text b.parameters.entries

/-- The finished statement of a draft. -/
def Draft.finish (b : Draft) : Statement :=
  ⟨Text.trim b.text, b.parameters.entries⟩

end BoundSql
