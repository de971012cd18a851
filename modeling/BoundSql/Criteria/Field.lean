import BoundSql.Statement.Clauses

/-!
# Criteria on one field

A field criterion names a column and holds at most one comparison; setting another one replaces it.
A criterion without a comparison contributes nothing to a statement.
-/

namespace BoundSql

/-- A comparison of a column, with what it is compared with. -/
inductive Comparison where
  /-- Equal to a value. -/
  | equal (value : Value)
  /-- Different from a value. -/
  | notEqual (value : Value)
  /-- Greater than a value. -/
  | greaterThan (value : Value)
  /-- At least a value. -/
  | greaterOrEqual (value : Value)
  /-- Less than a value. -/
  | lessThan (value : Value)
  /-- At most a value. -/
  | lessOrEqual (value : Value)
  /-- Like a pattern. -/
  | like (pattern : String) (mode : LikeMode) (fullText : Bool)
  /-- Member of a list of values. -/
  | inList (values : List Value)
  /-- Member of the result of a statement. -/
  | inSubquery (subquery : Draft)
  /-- Between two values. -/
  | between (low high : Value)
  /-- Missing. -/
  | isNull
  /-- Present. -/
  | isNotNull

/-- The comparison for being different from a value: being present, for the missing value. -/
def Comparison.differentFrom (value : Value) : Comparison :=
  if value.isNull then isNotNull else notEqual value

/-- A column with at most one comparison. -/
structure FieldCriterion where
  /-- The column. -/
  field : String
  /-- The comparison, if one is set. -/
  comparison : Option Comparison

namespace FieldCriterion

/-- A criterion without a comparison. -/
def ofField (field : String) : FieldCriterion := ⟨field, none⟩

/-- A criterion with another comparison in place of its own. -/
def setting (f : FieldCriterion) (comparison : Comparison) : FieldCriterion :=
  { f with comparison := some comparison }

/-- A criterion without its comparison. -/
def cleared (f : FieldCriterion) : FieldCriterion :=
  { f with comparison := none }

/-- Whether no comparison is set. -/
def isEmpty (f : FieldCriterion) : Bool :=
  f.comparison.isNone

end FieldCriterion

/-- Appends a comparison of a column to a draft. -/
def Draft.comparing (b : Draft) (column : String) : Comparison → Draft
  | .equal v => b.equalTo column v
  | .notEqual v => b.notEqualTo column v
  | .greaterThan v => b.greaterThan column v
  | .greaterOrEqual v => b.greaterOrEqual column v
  | .lessThan v => b.lessThan column v
  | .lessOrEqual v => b.lessOrEqual column v
  | .like pattern mode fullText => b.like column pattern mode fullText
  | .inList values => b.inList column values
  | .inSubquery subquery => b.inSubquery column subquery
  | .between low high => b.between column low high
  | .isNull => b.isNull column
  | .isNotNull => b.isNotNull column

/-- Appends a field criterion to a draft. -/
def Draft.criterion (b : Draft) (f : FieldCriterion) : Draft :=
  match f.comparison with
  | some comparison => b.comparing f.field comparison
  | none => b

end BoundSql
