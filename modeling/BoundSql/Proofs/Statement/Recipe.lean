import BoundSql.Criteria.Basic
import BoundSql.Statement.Page

/-!
# Recipes for statements

A recipe is a sequence of calls that builds a draft from an empty one, with places where the calls
take their values. Drafts that are merged or asked for as subqueries, and criteria that are
compiled, have recipes of their own. Two fillings of the places give two runs of the same calls.
-/

namespace BoundSql

/-- What the places of a recipe are filled with. -/
structure Filling (H : Type) where
  /-- The value at a place. -/
  value : H → Value
  /-- The pattern at a place that is sought as it stands. -/
  pattern : H → String
  /-- The pattern at a place that is sought word by word. -/
  phrase : H → String

/-- A test of a column. -/
inductive Test (H : Type) where
  /-- Equal to a value. -/
  | equal (value : H)
  /-- Different from a value. -/
  | notEqual (value : H)
  /-- Greater than a value. -/
  | greaterThan (value : H)
  /-- At least a value. -/
  | greaterOrEqual (value : H)
  /-- Less than a value. -/
  | lessThan (value : H)
  /-- At most a value. -/
  | lessOrEqual (value : H)
  /-- Like a pattern as it stands. -/
  | like (pattern : H) (mode : LikeMode)
  /-- Like every word of a pattern; the mode has no effect. -/
  | likeWords (phrase : H) (mode : LikeMode)
  /-- Member of a list of values. -/
  | inList (values : List H)
  /-- Between two values. -/
  | between (low high : H)
  /-- Missing. -/
  | isNull
  /-- Present. -/
  | isNotNull

/-- A call that takes neither a draft nor criteria. -/
inductive Call (H : Type) where
  /-- Appends a piece of text. -/
  | append (text : String)
  /-- Appends a comparison or an assignment. -/
  | compare (column operator : String) (value : H) (isAssignment : Bool)
  /-- Selects columns. -/
  | select (columns : List String)
  /-- Selects columns without repeated rows. -/
  | selectDistinct (columns : List String)
  /-- Names the table that rows come from. -/
  | fromTable (table : String)
  /-- Inserts one row. -/
  | insertInto (table : String) (row : List (String × H))
  /-- Names the table to update. -/
  | update (table : String)
  /-- Assigns a value to a column. -/
  | set (column : String) (value : H)
  /-- Names the table to delete from. -/
  | deleteFrom (table : String)
  /-- Appends a keyword and a comparison. -/
  | condition (connective : Draft.Connective) (column operator : String) (value : H)
  /-- Appends a keyword and a condition given as text. -/
  | rawCondition (connective : Draft.Connective) (text : String)
  /-- Joins a table, keeping matching rows only. -/
  | innerJoin (table : String)
  /-- Joins a table, keeping every row of the left side. -/
  | leftJoin (table : String)
  /-- Gives the condition of a join between two columns. -/
  | onColumns (left operator right : String)
  /-- Adds a sort key. -/
  | orderBy (column : String) (order : SortOrder)
  /-- Groups rows by columns. -/
  | groupBy (columns : List String)
  /-- Opens a group of conditions. -/
  | openGroup
  /-- Closes a group of conditions. -/
  | closeGroup
  /-- Tests a column. -/
  | test (column : String) (t : Test H)
  /-- Adds a parameter under a name, without text. -/
  | addNamed (name : String) (value : H)
  /-- Adds a parameter under a generated name, without text. -/
  | addTemp (value : H) (hint : String)

/-- A call on criteria that takes no field criteria. -/
inductive CriteriaCall where
  /-- Opens a group. -/
  | openGroup
  /-- Closes a group. -/
  | closeGroup
  /-- Both sides must hold. -/
  | and
  /-- One side must hold. -/
  | or
  /-- Raw text. -/
  | literal (text : String)
  /-- Raw text that is a template with its places filled. -/
  | literalWith (template : String) (arguments : List Value)
  /-- Adds a sort key. -/
  | addOrderBy (expression : String)
  /-- Sets the limit on the number of records. -/
  | setMaxRecords (n : UInt32)

mutual

/-- The calls that build a draft, the last one outermost. -/
inductive Recipe (H : Type) where
  /-- The empty draft. -/
  | empty (supply : Supply) (prefixes : Option Prefixes)
  /-- A further call. -/
  | call (r : Recipe H) (c : Call H)
  /-- Another draft is merged. -/
  | merge (r other : Recipe H)
  /-- A column is tested for membership in the result of another draft. -/
  | inSubquery (r : Recipe H) (column : String) (subquery : Recipe H)
  /-- Criteria are compiled. -/
  | compile (r : Recipe H) (criteria : CriteriaRecipe H)

/-- The calls that build criteria, the last one outermost. -/
inductive CriteriaRecipe (H : Type) where
  /-- Criteria without tokens. -/
  | empty
  /-- A further call. -/
  | call (r : CriteriaRecipe H) (c : CriteriaCall)
  /-- A field criterion is pushed. -/
  | push (r : CriteriaRecipe H) (field : FieldRecipe H)
  /-- All of some field criteria are asked for, or one of them. -/
  | conjoin (r : CriteriaRecipe H) (all : Bool) (fields : FieldRecipes H)

/-- The calls that build a field criterion, the last one outermost. -/
inductive FieldRecipe (H : Type) where
  /-- A field criterion without a comparison. -/
  | ofField (field : String)
  /-- A test is set. -/
  | test (r : FieldRecipe H) (t : Test H)
  /-- Membership in the result of a draft is set. -/
  | inSubquery (r : FieldRecipe H) (subquery : Recipe H)
  /-- The comparison is taken away. -/
  | cleared (r : FieldRecipe H)

/-- A row of field criteria. -/
inductive FieldRecipes (H : Type) where
  /-- No field criteria. -/
  | nil
  /-- A field criterion in front of others. -/
  | cons (first : FieldRecipe H) (rest : FieldRecipes H)

end

variable {H : Type}

/-- A test with its places filled. -/
def Test.comparison (f : Filling H) : Test H → Comparison
  | equal v => .equal (f.value v)
  | notEqual v => .notEqual (f.value v)
  | greaterThan v => .greaterThan (f.value v)
  | greaterOrEqual v => .greaterOrEqual (f.value v)
  | lessThan v => .lessThan (f.value v)
  | lessOrEqual v => .lessOrEqual (f.value v)
  | like p mode => .like (f.pattern p) mode false
  | likeWords p mode => .like (f.phrase p) mode true
  | inList vs => .inList (vs.map f.value)
  | between low high => .between (f.value low) (f.value high)
  | isNull => .isNull
  | isNotNull => .isNotNull

/-- What a field criterion holds when a test is set. -/
def Test.held (f : Filling H) : Test H → Comparison
  | notEqual v => .differentFrom (f.value v)
  | t => t.comparison f

/-- A draft after a call. -/
def Draft.call (f : Filling H) (b : Draft) : Call H → Draft
  | .append text => b.append text
  | .compare column operator v isAssignment => b.compare column operator (f.value v) isAssignment
  | .select columns => b.select columns
  | .selectDistinct columns => b.selectDistinct columns
  | .fromTable table => b.fromTable table
  | .insertInto table row => b.insertInto table (row.map fun entry => (entry.1, f.value entry.2))
  | .update table => b.update table
  | .set column v => b.set column (f.value v)
  | .deleteFrom table => b.deleteFrom table
  | .condition connective column operator v => b.condition connective column operator (f.value v)
  | .rawCondition connective text => b.rawCondition connective text
  | .innerJoin table => b.innerJoin table
  | .leftJoin table => b.leftJoin table
  | .onColumns left operator right => b.onColumns left operator right
  | .orderBy column order => b.orderBy column order
  | .groupBy columns => b.groupBy columns
  | .openGroup => b.openGroup
  | .closeGroup => b.closeGroup
  | .test column t => b.comparing column (t.comparison f)
  | .addNamed name v => (b.addNamed name (f.value v)).1
  | .addTemp v hint => (b.addTemp (f.value v) hint).1

/-- Criteria after a call. -/
def Criteria.call (c : Criteria) : CriteriaCall → Criteria
  | .openGroup => c.push .openGroup
  | .closeGroup => c.push .closeGroup
  | .and => c.push .and
  | .or => c.push .or
  | .literal text => c.push (.literal text)
  | .literalWith template arguments => c.literalWith template arguments
  | .addOrderBy expression => c.addOrderBy expression
  | .setMaxRecords n => c.setMaxRecords n

mutual

/-- The draft that a recipe builds. -/
def Recipe.draft (f : Filling H) : Recipe H → Draft
  | .empty supply prefixes => Draft.empty supply prefixes
  | .call r c => (r.draft f).call f c
  | .merge r other => (r.draft f).merge (other.draft f)
  | .inSubquery r column subquery => (r.draft f).inSubquery column (subquery.draft f)
  | .compile r criteria => (criteria.criteria f).compile (r.draft f)

/-- The criteria that a recipe builds. -/
def CriteriaRecipe.criteria (f : Filling H) : CriteriaRecipe H → Criteria
  | .empty => Criteria.empty
  | .call r c => (r.criteria f).call c
  | .push r field => (r.criteria f).push (.field (field.criterion f))
  | .conjoin r all fields =>
    if all then (r.criteria f).matchAll (fields.criteria f)
    else (r.criteria f).matchOne (fields.criteria f)

/-- The field criterion that a recipe builds. -/
def FieldRecipe.criterion (f : Filling H) : FieldRecipe H → FieldCriterion
  | .ofField field => FieldCriterion.ofField field
  | .test r t => (r.criterion f).setting (t.held f)
  | .inSubquery r subquery => (r.criterion f).setting (.inSubquery (subquery.draft f))
  | .cleared r => (r.criterion f).cleared

/-- The field criteria that a row of recipes builds. -/
def FieldRecipes.criteria (f : Filling H) : FieldRecipes H → List FieldCriterion
  | .nil => []
  | .cons first rest => first.criterion f :: rest.criteria f

end

/-- The column that a field criterion is about. -/
def FieldRecipe.field : FieldRecipe H → String
  | ofField field => field
  | test r _ => r.field
  | inSubquery r _ => r.field
  | cleared r => r.field

/-- Calls on a field criterion leave its column as it is. -/
theorem FieldRecipe.field_criterion (f : Filling H) :
    (r : FieldRecipe H) → (r.criterion f).field = r.field
  | .ofField _ => rfl
  | .test r _ => field_criterion f r
  | .inSubquery r _ => field_criterion f r
  | .cleared r => field_criterion f r

/-- The recipes of the drafts after each call, from the empty draft on. -/
def Recipe.stages : Recipe H → List (Recipe H)
  | empty supply prefixes => [empty supply prefixes]
  | call r c => r.stages ++ [call r c]
  | merge r other => r.stages ++ [merge r other]
  | inSubquery r column subquery => r.stages ++ [inSubquery r column subquery]
  | compile r criteria => r.stages ++ [compile r criteria]

/-- The draft after the last call is the draft of the recipe itself. -/
theorem Recipe.mem_stages (r : Recipe H) : r ∈ r.stages := by
  cases r <;> simp [stages]

/-- A date that was never entered, or a number, and a phrase of two words. -/
def Filling.sample : Filling Bool where
  value absent := if absent then .date Date.least else .int 5
  pattern _ := "A"
  phrase _ := "annual  report"

/-- The users of a name, among the owners of documents of a number, whose titles have some words. -/
def Recipe.sample : Recipe Bool :=
  let documents := .call (.empty (.series 1) none) (.test "Number" (.equal false))
  let users := .call (.empty (.series 2) (some ⟨"dbo", "app", ""⟩))
    (.condition .first "\x7bowner\x7dName" "=" true)
  .call (.inSubquery users "Id" documents) (.test "Title" (.likeWords true .contains))

end BoundSql
