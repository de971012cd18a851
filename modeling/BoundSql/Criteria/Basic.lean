import BoundSql.Criteria.Field
import BoundSql.Text.Numeral

/-!
# Criteria

Criteria are a row of tokens: groups that open and close, conjunctions, field criteria and raw text.
They compile from left to right into a draft. Sort keys and a limit on the number of records travel
along for the caller and are not compiled.

Raw text can be written as a template. A place in a template is a number in braces. It is replaced
by the argument of that number, counted from zero, and stays as it is when there is no such
argument. Places are filled in one pass, and what is filled in is not looked at again.
-/

namespace BoundSql.Template

/-- What a template is made of. -/
inductive Segment where
  /-- A character outside every place. -/
  | plain (c : Char)
  /-- A place, given by the digits between its braces. -/
  | place (digits : List Char)
  deriving DecidableEq

/-- The digits of the place at the front of a text whose opening brace has been read. -/
def place? (cs : List Char) : Option (List Char) :=
  let (run, rest) := Numeral.spanDigits cs
  if run ≠ [] ∧ rest.head? = some '}' then some run else none

/-- A template cut into its places and the characters between them. -/
def segments : List Char → List Segment
  | [] => []
  | c :: rest =>
    match if c = '{' then place? rest else none with
    | some run => .place run :: segments (rest.drop (run.length + 1))
    | none => .plain c :: segments rest
termination_by cs => cs.length
decreasing_by
  · simp only [List.length_drop, List.length_cons]
    omega
  · simp

/-- How a segment is written. -/
def Segment.chars : Segment → List Char
  | plain c => [c]
  | place digits => '{' :: (digits ++ ['}'])

/-- A segment with the argument in the place. -/
def Segment.filled (arguments : List String) : Segment → List Char
  | plain c => [c]
  | place digits =>
    match arguments[Numeral.value digits]? with
    | some argument => argument.toList
    | none => (place digits).chars

/-- A template with its places filled. -/
def fill (template : String) (arguments : List String) : String :=
  String.ofList ((segments template.toList).flatMap (Segment.filled arguments))

end BoundSql.Template

namespace BoundSql

/-- One token of criteria. -/
inductive CriteriaToken where
  /-- A group opens. -/
  | openGroup
  /-- A group closes. -/
  | closeGroup
  /-- Both sides must hold. -/
  | and
  /-- One side must hold. -/
  | or
  /-- A field criterion. -/
  | field (f : FieldCriterion)
  /-- Raw text. -/
  | literal (text : String)

/-- A row of tokens, with the sort keys and the limit that travel along. -/
structure Criteria where
  /-- The tokens in the order in which they were pushed. -/
  tokens : List CriteriaToken := []
  /-- The sort keys in order. -/
  orderBy : List String := []
  /-- The greatest number of records wanted. -/
  maxRecords : Option UInt32 := none

namespace Criteria

/-- Criteria without tokens. -/
def empty : Criteria := {}

/-- Pushes a token. -/
def push (c : Criteria) (t : CriteriaToken) : Criteria :=
  { c with tokens := c.tokens ++ [t] }

/-- Pushes a field criterion with one comparison. -/
def compare (c : Criteria) (field : String) (comparison : Comparison) : Criteria :=
  c.push (.field ((FieldCriterion.ofField field).setting comparison))

/-- Pushes raw text that is a template with its places filled. -/
def literalWith (c : Criteria) (template : String) (arguments : List Value) : Criteria :=
  c.push (.literal (Template.fill template (arguments.map Value.shown)))

/-- Field criteria with a conjunction between neighbours. -/
def conjoined (conjunction : CriteriaToken) : List FieldCriterion → List CriteriaToken
  | [] => []
  | [f] => [.field f]
  | f :: rest => .field f :: conjunction :: conjoined conjunction rest

/-- Pushes the field criteria that are not empty, with a conjunction between neighbours. -/
def pushConjoined (c : Criteria) (conjunction : CriteriaToken) (fields : List FieldCriterion) :
    Criteria :=
  { c with tokens := c.tokens ++ conjoined conjunction (fields.filter (!·.isEmpty)) }

/-- Asks for all of some field criteria. -/
def matchAll (c : Criteria) (fields : List FieldCriterion) : Criteria :=
  c.pushConjoined .and fields

/-- Asks for one of some field criteria. -/
def matchOne (c : Criteria) (fields : List FieldCriterion) : Criteria :=
  c.pushConjoined .or fields

/-- Adds a sort key. -/
def addOrderBy (c : Criteria) (expression : String) : Criteria :=
  { c with orderBy := c.orderBy ++ [expression] }

/-- Sets the limit on the number of records. -/
def setMaxRecords (c : Criteria) (n : UInt32) : Criteria :=
  { c with maxRecords := some n }

/-- Whether there are no tokens. -/
def isEmpty (c : Criteria) : Bool :=
  c.tokens.isEmpty

/-- The clause that the sort keys make, if there are any. -/
def orderByClause? (c : Criteria) : Option String :=
  if c.orderBy = [] then none else some ("ORDER BY " ++ Spacing.commas c.orderBy)

end Criteria

/-- Appends one token of criteria to a draft. -/
def Draft.criteriaToken (b : Draft) : CriteriaToken → Draft
  | .openGroup => b.openGroup
  | .closeGroup => b.closeGroup
  | .and => b.append "AND"
  | .or => b.append "OR"
  | .field f => b.criterion f
  | .literal text => b.append text

/-- Compiles criteria into a draft, token by token. -/
def Criteria.compile (c : Criteria) (b : Draft) : Draft :=
  c.tokens.foldl Draft.criteriaToken b

end BoundSql
