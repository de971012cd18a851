import BoundSql.Settings.Tree

/-!
# What a settings document has made of its paths

Every value and every table of a document is given once: a path has at most one value, a table is
headed at most once, and a table that dotted keys made cannot be headed, nor a headed table be
reached into by dotted keys. A table that is there only because something below it was headed can
still be headed, until dotted keys reach into it and so make it theirs. A list of tables gets one
more table at each of its heads, and stands for the last of them on the way to other paths.
-/

namespace BoundSql

/-- What a path has been made. -/
inductive Claim where
  /-- It has a value. -/
  | value
  /-- It is a table with a head of its own. -/
  | headed
  /-- It is a table that dotted keys made, or made theirs. -/
  | dotted
  /-- It is a table because something below it was headed. -/
  | implied
  /-- It is a list of tables, this many of them after the first. -/
  | tables (more : Nat)
  deriving DecidableEq

/-- The paths that have been made something, the latest first. -/
abbrev Claims := List (Path × Claim)

namespace Claims

/-- The way to a table below another one for the head of something further below. -/
def imply (claims : Claims) (path : Path) : Option (Claims × Path) :=
  match claims.lookup path with
  | none => some ((path, .implied) :: claims, path)
  | some .value => none
  | some (.tables more) => some (claims, path ++ [.place more])
  | some _ => some (claims, path)

/-- The way to a table below another one for a dotted key. The last table of a list lets the key
through, but cannot be the one that will hold the value. -/
def dot (holds : Bool) (claims : Claims) (path : Path) : Option (Claims × Path) :=
  match claims.lookup path with
  | none | some .implied => some ((path, .dotted) :: claims, path)
  | some .dotted => some (claims, path)
  | some (.tables more) => if holds then none else some (claims, path ++ [.place more])
  | some _ => none

/-- The way along names for a head. -/
def way (claims : Claims) (base : Path) : List String → Option (Claims × Path)
  | [] => some (claims, base)
  | name :: rest => do
    let (claims, path) ← claims.imply (base ++ [.name name])
    way claims path rest

/-- The way along names for a dotted key. -/
def dottedWay (claims : Claims) (base : Path) : List String → Option (Claims × Path)
  | [] => some (claims, base)
  | name :: rest => do
    let (claims, path) ← claims.dot rest.isEmpty (base ++ [.name name])
    dottedWay claims path rest

/-- Claims a table for its head. -/
def head (claims : Claims) (path : Path) : Option Claims :=
  match claims.lookup path with
  | none => some ((path, .headed) :: claims)
  | some .implied => some ((path, .headed) :: claims)
  | some _ => none

/-- Claims one more table of a list for its head, and gives back which one it is. -/
def headItem (claims : Claims) (path : Path) : Option (Claims × Nat) :=
  match claims.lookup path with
  | none => some ((path, .tables 0) :: claims, 0)
  | some (.tables more) => some ((path, .tables (more + 1)) :: claims, more + 1)
  | some _ => none

/-- Claims a path for a value. -/
def give (claims : Claims) (path : Path) : Option Claims :=
  match claims.lookup path with
  | none => some ((path, .value) :: claims)
  | some _ => none

end Claims

/-- What has been read of a document. -/
structure Progress where
  /-- The path of the table headed last. -/
  base : Path
  /-- What paths have been made. -/
  claims : Claims
  /-- The settings, the latest first. -/
  settings : List Assignment

namespace Progress

/-- The start of a document. -/
def start : Progress := ⟨[], [], []⟩

/-- Goes on by the head of a table. -/
def head (p : Progress) (names : List String) : Option Progress := do
  let (claims, base) ← p.claims.way [] names.dropLast
  let path := base ++ (names.getLast?.map PathStep.name).toList
  let claims ← claims.head path
  pure ⟨path, claims, ⟨path, .openTable⟩ :: p.settings⟩

/-- Goes on by the head of one more table of a list. -/
def headItem (p : Progress) (names : List String) : Option Progress := do
  let (claims, base) ← p.claims.way [] names.dropLast
  let path := base ++ (names.getLast?.map PathStep.name).toList
  let (claims, index) ← claims.headItem path
  let item := path ++ [.place index]
  let opened := if index = 0 then [⟨path, .emptyList⟩] else []
  pure ⟨item, claims, ⟨item, .openTable⟩ :: (opened ++ p.settings)⟩

/-- Goes on by a key and the settings of its value. -/
def enter (p : Progress) (names : List String) (value : List Assignment) : Option Progress := do
  let (claims, base) ← p.claims.dottedWay p.base names.dropLast
  let path := base ++ (names.getLast?.map PathStep.name).toList
  let claims ← claims.give path
  pure { p with claims, settings := (value.map (.under path)).reverse ++ p.settings }

end Progress

end BoundSql
