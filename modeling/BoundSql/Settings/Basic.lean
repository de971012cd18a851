import BoundSql.Prefixes
import BoundSql.Settings.Document
import BoundSql.Store.Basic

/-!
# Settings

Settings come from three layers: what holds by default, a document that need not be there, and the
environment. Each layer overrides the one before it, setting by setting. Settings say where the
database is kept, how long to wait for a lock and for a background call, what to log, and which
prefixes tables have.

A variable of the environment is a setting when its name, in small letters, begins with a fixed
mark. What follows the mark is the key of the setting, and a double underscore in it separates the
names of a path. A name in brackets stands for a place in a list.

A document is a text in TOML, the format of the file that settings are kept in. A file tells its
format by the ending of its name, and files in other formats are not covered here.
-/

namespace BoundSql.Environment

/-- A variable with its value. -/
abbrev Variable := String × String

/-- The beginning of the names of variables that are settings, in small letters. -/
def mark : List Char := "sqlforge_".toList

/-- A text with every double underscore replaced by a full stop, from left to right. -/
def dotted : List Char → List Char
  | '_' :: '_' :: rest => '.' :: dotted rest
  | c :: rest => c :: dotted rest
  | [] => []

/-- The path of the setting that a variable's name stands for, if it stands for one. -/
def path? (name : String) : Option Path :=
  let small := CaseFold.fold name.toList
  if mark.isPrefixOf small then some (Path.ofKey (dotted (small.drop mark.length))) else none

/-- The setting that a variable stands for, if it stands for one. -/
def assignment? (v : Variable) : Option Assignment :=
  (path? v.1).map fun path => ⟨path, .value (Scalar.ofText v.2)⟩

/-- The settings of an environment. -/
def assignments (env : List Variable) : List Assignment :=
  env.filterMap assignment?

end BoundSql.Environment

namespace BoundSql

/-- The settings of a program that uses a database. -/
structure Settings where
  /-- The word for a database in memory, or the path of a file. -/
  database : String
  /-- How many milliseconds a connection waits for a locked database. -/
  busyMillis : UInt64
  /-- How many milliseconds a background call may take, if there is a limit. -/
  queryMillis : Option UInt64
  /-- What to log. -/
  logFilter : String
  /-- The prefixes of tables. -/
  prefixes : Prefixes
  deriving DecidableEq

namespace Settings

/-- Why settings cannot be loaded. -/
inductive Fault where
  /-- The text is not a document. -/
  | document
  /-- A setting has a value that it cannot take. -/
  | setting (path : Path)
  deriving DecidableEq

/-- The word for a database in memory. -/
def memoryWord : String := "memory"

/-- The settings that hold by default. -/
def defaults : List Assignment :=
  [⟨[.name "database"], .value (.text memoryWord)⟩,
    ⟨[.name "busy_timeout_ms"], .value (.integer 5000)⟩,
    ⟨[.name "log_filter"], .value (.text "info")⟩]

/-- The setting at a path through a reading of plain values; a setting that is not there is
nothing. -/
def field? {α : Type} (read? : Scalar → Option α) (t : Tree) (path : Path) :
    Except Fault (Option α) :=
  match t.find? path with
  | none => .ok none
  | some (.leaf value) => match read? value with
    | some a => .ok (some a)
    | none => .error (.setting path)
  | some _ => .error (.setting path)

/-- A setting that must be there. -/
def required {α : Type} (path : Path) : Option α → Except Fault α
  | some a => .ok a
  | none => .error (.setting path)

/-- The text at a path. -/
def text? (t : Tree) (path : Path) : Except Fault (Option String) :=
  field? (fun value => some value.shown) t path

/-- One of the prefixes of tables, which is empty unless it is set. -/
def prefixPart (t : Tree) (step : PathStep) : Except Fault String := do
  pure ((← text? t [.name "prefixes", step]).getD "")

/-- The prefixes of tables at the three steps below theirs. -/
def prefixesAt (t : Tree) (owner qualifier moduleQualifier : PathStep) : Except Fault Prefixes := do
  let owner ← prefixPart t owner
  let qualifier ← prefixPart t qualifier
  let moduleQualifier ← prefixPart t moduleQualifier
  pure { owner, qualifier, moduleQualifier }

/-- The prefixes of tables, which stand in a table of their own, or one after the other in a list.
-/
def prefixesOf (t : Tree) : Except Fault Prefixes :=
  match t.find? [.name "prefixes"] with
  | none => .ok ⟨"", "", ""⟩
  | some (.table _) => prefixesAt t (.name "owner") (.name "qualifier") (.name "module_qualifier")
  | some (.list _) => prefixesAt t (.place 0) (.place 1) (.place 2)
  | some _ => .error (.setting [.name "prefixes"])

/-- The settings in a tree. -/
def ofTree (t : Tree) : Except Fault Settings := do
  let database ← required [.name "database"] (← text? t [.name "database"])
  let busyMillis ← required [.name "busy_timeout_ms"]
    (← field? Scalar.unsigned? t [.name "busy_timeout_ms"])
  let queryMillis ← field? Scalar.unsigned? t [.name "query_timeout_ms"]
  let logFilter ← required [.name "log_filter"] (← text? t [.name "log_filter"])
  let prefixes ← prefixesOf t
  pure { database, busyMillis, queryMillis, logFilter, prefixes }

/-- The settings of a document; a document that is not there has none. -/
def documentAssignments : Option String → Except Fault (List Assignment)
  | none => .ok []
  | some text => match Document.read? text with
    | some assignments => .ok assignments
    | none => .error .document

/-- Loads settings from a TOML document, if there is one, and the environment. -/
def load (document : Option String) (env : List Environment.Variable) :
    Except Fault Settings := do
  let assignments ← documentAssignments document
  ofTree (Tree.ofAssignments (defaults ++ assignments ++ Environment.assignments env))

/-- Where the database is kept. Blanks at the ends do not count, nor does the case of the word for a
database in memory. -/
def location (s : Settings) : Except Error Location :=
  let word := Text.trim s.database
  if word = "" then .error (.config "No database has been configured")
  else if CaseFold.asciiSame word.toList memoryWord.toList then .ok .memory
  else .ok (.file word)

/-- How long a connection waits for a locked database. -/
def busyTimeout (s : Settings) : Span :=
  .ofMillis s.busyMillis.toNat

/-- How long a background call may take, if there is a limit. -/
def limit (s : Settings) : Option Span :=
  s.queryMillis.map fun n => .ofMillis n.toNat

/-- The store at the configured location. -/
def store {δ : Type} (s : Settings) (dialect : Dialect δ) (data : δ) : Except Error (Store δ) := do
  let location ← s.location
  pure { Store.fresh location dialect data with busyTimeout := s.busyTimeout }

/-- A session over the store at the configured location. -/
def session {δ : Type} (s : Settings) (dialect : Dialect δ) (data : δ) : Except Error Session := do
  let store ← s.store dialect data
  pure ⟨store.driver, Engine.standard, s.limit⟩

end Settings

end BoundSql
