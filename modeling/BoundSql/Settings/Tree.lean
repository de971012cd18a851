import BoundSql.Settings.Scalar

/-!
# Trees of settings

Settings form a tree: a plain value, a list, or a table of named subtrees. Layers of settings are
laid over one another by assignments, each of which puts something at a path. Whatever stands in the
way of a path gives place to a table or a list, and everything beside the path stays.
-/

namespace BoundSql

/-- One step of a path. -/
inductive PathStep where
  /-- The step into a table, to the subtree of a name. -/
  | name (word : String)
  /-- The step into a list, to a place counted from zero; a negative one counts from the end. -/
  | place (index : Int)
  deriving DecidableEq

/-- The steps that lead from the root of a tree to one of its nodes. -/
abbrev Path := List PathStep

/-- A tree of settings. -/
inductive Tree where
  /-- A plain value. -/
  | leaf (value : Scalar)
  /-- A place that nothing has been put into. -/
  | absent
  /-- A list of subtrees. -/
  | list (items : List Tree)
  /-- A table of named subtrees. -/
  | table (entries : List (String × Tree))

namespace Tree

/-- The tree without settings. -/
def empty : Tree := table []

/-- The entries of a table; every other tree has none. -/
def entries : Tree → List (String × Tree)
  | table es => es
  | _ => []

/-- The items of a list; every other tree has none. -/
def items : Tree → List Tree
  | list ts => ts
  | _ => []

/-- The subtree of a name. -/
def child? (t : Tree) (name : String) : Option Tree :=
  t.entries.lookup name

/-- Replaces the entry of a name where it stands, or adds one at the end. -/
def insert (name : String) (sub : Tree) : List (String × Tree) → List (String × Tree)
  | [] => [(name, sub)]
  | e :: rest => if e.1 = name then (name, sub) :: rest else e :: insert name sub rest

/-- A list that reaches as far as a place, and where the place is. Places that are missing are added
empty: behind the last item, or in front of the first one when the place counts from the end. -/
def reach (index : Int) (ts : List Tree) : List Tree × Nat :=
  if 0 ≤ index then
    (ts ++ List.replicate (index.toNat + 1 - ts.length) absent, index.toNat)
  else
    let back := index.natAbs
    (List.replicate (back - ts.length) absent ++ ts, ts.length - back)

/-- Changes the node at a path. A node that is not there yet is changed as an empty place. -/
def modify (change : Tree → Tree) : Path → Tree → Tree
  | [], t => change t
  | .name word :: rest, t =>
    table (insert word (modify change rest ((t.child? word).getD absent)) t.entries)
  | .place index :: rest, t =>
    let (ts, k) := reach index t.items
    list (ts.modify k (modify change rest))

/-- The item at a place, if the list reaches that far. -/
def item? (t : Tree) (index : Int) : Option Tree :=
  if 0 ≤ index then t.items[index.toNat]?
  else if index.natAbs ≤ t.items.length then t.items[t.items.length - index.natAbs]?
  else none

/-- The node at a path. -/
def find? : Path → Tree → Option Tree
  | [], t => some t
  | .name word :: rest, t => (t.child? word).bind (find? rest)
  | .place index :: rest, t => (t.item? index).bind (find? rest)

end Tree

/-- What an assignment puts at its path. -/
inductive Content where
  /-- A plain value, instead of whatever is there. -/
  | value (value : Scalar)
  /-- A list without items, instead of whatever is there. -/
  | emptyList
  /-- A table, which keeps the entries of a table that is there. -/
  | openTable

/-- A step that lays a setting over a tree. -/
structure Assignment where
  /-- Where the setting belongs. -/
  path : Path
  /-- What is put there. -/
  content : Content

/-- The same setting seen from further up. -/
def Assignment.under (base : Path) (a : Assignment) : Assignment :=
  ⟨base ++ a.path, a.content⟩

/-- A tree with one more setting. -/
def Tree.assign (t : Tree) (a : Assignment) : Tree :=
  t.modify (fun node => match a.content with
    | .value value => .leaf value
    | .emptyList => .list []
    | .openTable => .table node.entries) a.path

/-- A tree of settings, the later ones laid over the earlier ones. -/
def Tree.ofAssignments (assignments : List Assignment) : Tree :=
  assignments.foldl Tree.assign Tree.empty

namespace Path

/-- Whether a character can stand in a name that is part of a key. -/
def isPlain (c : Char) : Bool :=
  ('A' ≤ c && c ≤ 'Z') || ('a' ≤ c && c ≤ 'z') || Numeral.isDigit c || c == '_' || c == '-'

/-- A text without the blanks in front of it. -/
def skip (cs : List Char) : List Char :=
  cs.dropWhile fun c => c == ' ' || c == '\t'

/-- Reads a place: digits that may have a minus sign in front, and whose number fits a word. -/
def index? (cs : List Char) : Option Int := do
  let n ← match cs with
    | '-' :: rest => (Numeral.natural? rest).map fun n => -(n : Int)
    | cs => (Numeral.natural? cs).map fun n => (n : Int)
  (Numeral.word? n).map fun _ => n

/-- Reads a number of steps up to the end of a text. A full stop stands before every name, and
brackets stand around every place. -/
def steps? : Nat → List Char → Option Path
  | _, [] => some []
  | n + 1, '.' :: rest => do
    let word := rest.takeWhile isPlain
    if word = [] then none
    else
      let steps ← steps? n (rest.drop word.length)
      pure (.name (String.ofList word) :: steps)
  | n + 1, '[' :: rest => do
    let rest := skip rest
    let word := rest.takeWhile isPlain
    match skip (rest.drop word.length) with
    | ']' :: after => do
      let index ← index? word
      let steps ← steps? n after
      pure (.place index :: steps)
    | _ => none
  | _, _ => none

/-- The path that a key denotes: a name, and further names and places behind it. A key that is not
written so is a single name. -/
def ofKey (key : List Char) : Path :=
  (steps? (key.length + 1) ('.' :: key)).getD [.name (String.ofList key)]

end Path

end BoundSql
