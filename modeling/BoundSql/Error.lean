import BoundSql.Calendar.Span

/-!
# Errors

Whatever goes wrong between a caller and a database is one of seven kinds of error. Each has a
message, except that of a background task that failed, which depends on the task.
-/

namespace BoundSql

/-- What can go wrong. -/
inductive Error where
  /-- The settings cannot be used. -/
  | config (reason : String)
  /-- The database reports a failure. -/
  | driver (reason : String)
  /-- The criteria are not well formed. -/
  | criteria (reason : String)
  /-- The database cannot do what is asked. -/
  | unsupported (reason : String)
  /-- The caller cancelled the execution. -/
  | cancelled
  /-- The execution took longer than allowed. -/
  | timeout (limit : Span)
  /-- A background task broke off. -/
  | join
  deriving DecidableEq

namespace Error

/-- The message that goes with an error, if it has one of its own. -/
def message? : Error → Option String
  | config reason => some ("Config error: " ++ reason)
  | driver reason => some ("Driver error: " ++ reason)
  | criteria reason => some ("Criteria error: " ++ reason)
  | unsupported reason => some ("Unsupported: " ++ reason)
  | cancelled => some "Execution cancelled"
  | timeout limit => some ("Execution timed out after " ++ limit.text)
  | join => none

end Error

end BoundSql
