import BoundSql.Settings.Claim
import BoundSql.Settings.Lexeme

/-!
# Settings documents

A document of settings is read line by line. A line is empty but for a comment, or it heads a table,
or it gives a value to a key of the table headed last. A value is plain, a list of values between
brackets, or a table of keys with values between braces; lists and braces may go over several lines.
The settings of a document are assignments, in the order in which it makes them.
-/

namespace BoundSql.Document

/-- Reads a number of items with commas between them up to a closing mark, and as many items as are
there when the number is large enough. A comma may stand behind the last item. -/
def items? {α : Type} (item? : List Char → Option (α × List Char)) (close : Char) :
    Nat → List Char → Option (List α × List Char)
  | 0, _ => none
  | n + 1, cs => do
    let cs ← Lexeme.gap? cs
    if cs.head? = some close then pure ([], cs.tail)
    else
      let (a, after) ← item? cs
      match ← Lexeme.gap? after with
      | ',' :: rest => do
        let (as, after) ← items? item? close n rest
        pure (a :: as, after)
      | c :: rest => if c = close then pure ([a], rest) else none
      | [] => none

/-- Reads a key with its value. -/
def keyed? (value? : List Char → Option (List Assignment × List Char)) (cs : List Char) :
    Option ((List String × List Assignment) × List Char) := do
  let (names, after) ← Lexeme.key? cs
  match Path.skip after with
  | '=' :: rest => do
    let (value, after) ← value? (Path.skip rest)
    pure ((names, value), after)
  | _ => none

/-- The settings of a list of values. -/
def listed (values : List (List Assignment)) : List Assignment :=
  ⟨[], .emptyList⟩ :: values.zipIdx.flatMap fun (value, i) => value.map (.under [.place i])

/-- The settings of a table of keys with values. -/
def braced? (entries : List (List String × List Assignment)) : Option (List Assignment) := do
  let p ← entries.foldlM (fun p (names, value) => p.enter names value) Progress.start
  pure (⟨[], .openTable⟩ :: p.settings.reverse)

/-- Reads a value in which lists and tables stand inside one another up to a depth, and gives back
its settings. -/
def value? : Nat → List Char → Option (List Assignment × List Char)
  | depth + 1, '[' :: rest => do
    let (values, after) ← items? (value? depth) ']' (rest.length + 1) rest
    pure (listed values, after)
  | depth + 1, '\x7b' :: rest => do
    let (entries, after) ← items? (keyed? (value? depth)) '\x7d' (rest.length + 1) rest
    let settings ← braced? entries
    pure (settings, after)
  | _, cs => (Lexeme.scalar? cs).map fun (value, after) => ([⟨[], .value value⟩], after)

/-- How deep lists and tables may stand inside one another. -/
def depthLimit : Nat := 80

/-- Reads the key of a head up to its closing bracket. -/
def headKey? (cs : List Char) : Option (List String × List Char) := do
  let (names, after) ← Lexeme.key? (Path.skip cs)
  match Path.skip after with
  | ']' :: rest => pure (names, rest)
  | _ => none

/-- Goes on by one line that is not empty, and gives back what is left of it. -/
def line? (p : Progress) : List Char → Option (Progress × List Char)
  | '[' :: '[' :: rest => do
    let (names, after) ← headKey? rest
    match after with
    | ']' :: after => do
      let p ← p.headItem names
      pure (p, after)
    | _ => none
  | '[' :: rest => do
    let (names, after) ← headKey? rest
    let p ← p.head names
    pure (p, after)
  | cs => do
    let ((names, value), after) ← keyed? (value? depthLimit) cs
    let p ← p.enter names value
    pure (p, after)

/-- Goes on by a number of lines, and to the end of the text when the number is large enough. -/
def lines? : Nat → Progress → List Char → Option Progress
  | 0, _, _ => none
  | n + 1, p, cs => do
    let cs ← Lexeme.gap? cs
    if cs = [] then pure p
    else
      let (p, after) ← line? p cs
      lines? n p (← Lexeme.lineEnd? after)

/-- A setting of a document with the name at its root read as a key of its own right, which may
stand for a path. -/
def rooted (a : Assignment) : Assignment :=
  match a.path with
  | .name word :: rest => ⟨Path.ofKey word.toList ++ rest, a.content⟩
  | _ => a

/-- A text without the mark of its byte order, which may stand in front of it. -/
def unmarked : List Char → List Char
  | '\uFEFF' :: rest => rest
  | cs => cs

/-- The settings of a document, in order, or nothing when the text is not a document. Two byte order
marks are dropped: one belongs to the file and one to the document. -/
def read? (text : String) : Option (List Assignment) := do
  let cs := unmarked (unmarked text.toList)
  let p ← lines? (cs.length + 1) .start cs
  pure (p.settings.reverse.map rooted)

end BoundSql.Document
