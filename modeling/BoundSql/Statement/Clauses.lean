import BoundSql.Statement.Draft

/-!
# Clauses and predicates

The clauses of a statement and the predicates of its conditions, each appended to a draft by one
call. Assignments and sort keys continue the list that the draft ends in with a comma. A test for
membership in an empty list matches nothing.
-/

namespace BoundSql

/-- The order of a sort key. -/
inductive SortOrder where
  /-- From the least to the greatest. -/
  | ascending
  /-- From the greatest to the least. -/
  | descending
  deriving DecidableEq

/-- The keyword of a sort order. -/
def SortOrder.keyword : SortOrder → String
  | ascending => "ASC"
  | descending => "DESC"

/-- Where a text is to occur in a column. -/
inductive LikeMode where
  /-- At the front. -/
  | startsWith
  /-- At the back. -/
  | endsWith
  /-- Anywhere. -/
  | contains
  deriving DecidableEq

/-- A pattern with its wildcards around it. -/
def LikeMode.decorate (mode : LikeMode) (pattern : String) : String :=
  match mode with
  | startsWith => pattern ++ "%"
  | endsWith => "%" ++ pattern
  | contains => "%" ++ pattern ++ "%"

namespace Draft

/-- A list of columns, all of them when none is named. -/
def columnList (columns : List String) : String :=
  if columns = [] then "*" else Spacing.commas columns

/-- Selects columns. -/
def select (b : Draft) (columns : List String) : Draft :=
  b.append ("SELECT " ++ columnList columns)

/-- Selects columns without repeated rows. -/
def selectDistinct (b : Draft) (columns : List String) : Draft :=
  b.append ("SELECT DISTINCT " ++ columnList columns)

/-- Names the table that rows come from. -/
def fromTable (b : Draft) (table : String) : Draft :=
  b.append ("FROM " ++ table)

/-- Inserts one row; every value is bound, the missing value included. -/
def insertInto (b : Draft) (table : String) (row : List (String × Value)) : Draft :=
  let (b, references) := b.addTemps row
  b.append ("INSERT INTO " ++ table ++ " (" ++ Spacing.commas (row.map Prod.fst) ++ ") VALUES (" ++
    Spacing.commas references ++ ")")

/-- Names the table to update. -/
def update (b : Draft) (table : String) : Draft :=
  b.append ("UPDATE " ++ table)

/-- Assigns a value to a column, behind the keyword or behind the assignment before it. -/
def set (b : Draft) (column : String) (value : Value) : Draft :=
  let lead := if b.clause = .set then "," else "SET"
  { (b.append lead).compare column "=" value true with clause := .set }

/-- Names the table to delete from. -/
def deleteFrom (b : Draft) (table : String) : Draft :=
  b.append ("DELETE FROM " ++ table)

/-- The keywords that a comparison can stand behind. -/
inductive Connective where
  /-- Opens the conditions. -/
  | first
  /-- Adds a condition that must hold as well. -/
  | and
  /-- Adds a condition that may hold instead. -/
  | or
  /-- Gives the condition of a join. -/
  | on
  deriving DecidableEq

/-- The keyword as it is written. -/
def Connective.keyword : Connective → String
  | .first => "WHERE"
  | .and => "AND"
  | .or => "OR"
  | .on => "ON"

/-- Appends a keyword and a comparison. -/
def condition (b : Draft) (connective : Connective) (column operator : String)
    (value : Value) : Draft :=
  (b.append connective.keyword).compare column operator value

/-- Appends a keyword and a condition given as text. -/
def rawCondition (b : Draft) (connective : Connective) (text : String) : Draft :=
  (b.append connective.keyword).append text

/-- Joins a table, keeping matching rows only. -/
def innerJoin (b : Draft) (table : String) : Draft :=
  b.append ("INNER JOIN " ++ table)

/-- Joins a table, keeping every row of the left side. -/
def leftJoin (b : Draft) (table : String) : Draft :=
  b.append ("LEFT JOIN " ++ table)

/-- Gives the condition of a join between two columns. -/
def onColumns (b : Draft) (left operator right : String) : Draft :=
  b.append ("ON " ++ left ++ " " ++ operator ++ " " ++ right)

/-- Adds a sort key, behind the keyword or behind the sort key before it. -/
def orderBy (b : Draft) (column : String) (order : SortOrder) : Draft :=
  let lead := if b.clause = .orderBy then "," else "ORDER BY"
  { (b.append lead).append (column ++ " " ++ order.keyword) with clause := .orderBy }

/-- Groups rows by columns. -/
def groupBy (b : Draft) (columns : List String) : Draft :=
  b.append ("GROUP BY " ++ Spacing.commas columns)

/-- Opens a group of conditions. -/
def openGroup (b : Draft) : Draft :=
  b.append "("

/-- Closes a group of conditions. -/
def closeGroup (b : Draft) : Draft :=
  b.append ")"

/-- Tests a column for being missing. -/
def isNull (b : Draft) (column : String) : Draft :=
  b.append (column ++ " IS NULL")

/-- Tests a column for being present. -/
def isNotNull (b : Draft) (column : String) : Draft :=
  b.append (column ++ " IS NOT NULL")

/-- Tests a column for equality with a value. -/
def equalTo (b : Draft) (column : String) (value : Value) : Draft :=
  b.compare column "=" value

/-- Tests a column for being different from a value, or for being present. -/
def notEqualTo (b : Draft) (column : String) (value : Value) : Draft :=
  if value.isNull then b.isNotNull column else b.compare column "<>" value

/-- Tests a column for being greater than a value. -/
def greaterThan (b : Draft) (column : String) (value : Value) : Draft :=
  b.compare column ">" value

/-- Tests a column for being at least a value. -/
def greaterOrEqual (b : Draft) (column : String) (value : Value) : Draft :=
  b.compare column ">=" value

/-- Tests a column for being less than a value. -/
def lessThan (b : Draft) (column : String) (value : Value) : Draft :=
  b.compare column "<" value

/-- Tests a column for being at most a value. -/
def lessOrEqual (b : Draft) (column : String) (value : Value) : Draft :=
  b.compare column "<=" value

/-- Tests a column for a word anywhere in it. -/
def likeWord (b : Draft) (column : String) (word : List Char) : Draft :=
  b.compare column "LIKE" (.text (LikeMode.contains.decorate (String.ofList word)))

/-- Tests a column for each of some words, in any order. -/
def likeWords (b : Draft) (column : String) : List (List Char) → Draft
  | [] => b
  | [word] => b.likeWord column word
  | word :: rest => likeWords ((b.likeWord column word).append "AND") column rest

/-- Tests a column for a pattern. A full-text test asks for every word of the pattern anywhere in
the column, and for nothing when the pattern has no words. -/
def like (b : Draft) (column pattern : String) (mode : LikeMode) (fullText : Bool) : Draft :=
  if fullText then
    match Text.words pattern.toList with
    | [] => b.compare column "LIKE" (.text "%%")
    | words => (b.openGroup.likeWords column words).closeGroup
  else
    b.compare column "LIKE" (.text (mode.decorate pattern))

/-- Tests a column for membership in a list of values. -/
def inList (b : Draft) (column : String) (values : List Value) : Draft :=
  let (b, references) := b.addTemps (values.map fun v => (column, v))
  if references = [] then b.append "1 = 0"
  else b.append (column ++ " IN (" ++ Spacing.commas references ++ ")")

/-- Tests a column for membership in the result of another statement. -/
def inSubquery (b : Draft) (column : String) (subquery : Draft) : Draft :=
  ((b.append (column ++ " IN (")).merge subquery).append ")"

/-- Tests a column for lying between two values. -/
def between (b : Draft) (column : String) (low high : Value) : Draft :=
  let (b, lowReference) := b.addTemp low column
  let (b, highReference) := b.addTemp high column
  b.append (column ++ " BETWEEN " ++ lowReference ++ " AND " ++ highReference)

end Draft

end BoundSql
