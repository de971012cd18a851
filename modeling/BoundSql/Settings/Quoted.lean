import BoundSql.Text.Literal

/-!
# Quoted strings of a settings document

A string stands between double quotes, with escapes, or between single quotes, without any. Three
quotes instead of one allow it to go over several lines: a line end right behind the opening quotes
does not count, up to two quotes may stand before the closing ones, and between double quotes a
backslash at the end of a line drops the blanks and line ends behind it.
-/

namespace BoundSql.DocumentString

/-- Whether a character may stand in a document as it is: a tab, or any character that is not a
control character. -/
def isShown (c : Char) : Bool :=
  c == '\t' || (0x20 ≤ c.toNat && c.toNat != 0x7F)

/-- The character that stands behind a backslash for another one. -/
def escape? : Char → Option Char
  | 'b' => some (Char.ofNat 8)
  | 't' => some '\t'
  | 'n' => some '\n'
  | 'f' => some (Char.ofNat 12)
  | 'r' => some '\r'
  | 'e' => some (Char.ofNat 27)
  | '"' => some '"'
  | '\\' => some '\\'
  | _ => none

/-- How many hexadecimal digits of a code point a letter behind a backslash announces. -/
def escapeWidth? : Char → Option Nat
  | 'x' => some 2
  | 'u' => some 4
  | 'U' => some 8
  | _ => none

/-- The character with a code point given by hexadecimal digits. -/
def codePoint? (digits : List Char) : Option Char := do
  let ns ← digits.mapM Hex.digitValue?
  let n := ns.foldl (fun n d => 16 * n + d) 0
  if n.isValidChar then pure (Char.ofNat n) else none

/-- Reads what stands behind a backslash, and gives back how many characters that was. -/
def escaped? : List Char → Option (Char × Nat)
  | [] => none
  | c :: rest => match escapeWidth? c with
    | none => (escape? c).map (·, 1)
    | some width =>
      if rest.length < width then none else (codePoint? (rest.take width)).map (·, width + 1)

/-- Reads the inside of a string with escapes up to its closing quote, and gives back what follows
it. -/
def basic? : List Char → Option (List Char × List Char)
  | [] => none
  | '"' :: rest => some ([], rest)
  | '\\' :: rest => do
    let (x, width) ← escaped? rest
    let (inside, after) ← basic? (rest.drop width)
    pure (x :: inside, after)
  | c :: rest => do
    let (inside, after) ← basic? rest
    if isShown c then pure (c :: inside, after) else none
termination_by cs => cs.length
decreasing_by all_goals (simp only [List.length_cons, List.length_drop]; omega)

/-- Reads the inside of a string without escapes up to its closing quote, and gives back what
follows it. -/
def literal? : List Char → Option (List Char × List Char)
  | [] => none
  | '\'' :: rest => some ([], rest)
  | c :: rest => do
    let (inside, after) ← literal? rest
    if isShown c then pure (c :: inside, after) else none

/-- Whether a text begins with the end of a line, blanks in front of it aside. -/
def endsLine (cs : List Char) : Bool :=
  match cs.dropWhile fun c => c == ' ' || c == '\t' with
  | '\n' :: _ => true
  | '\r' :: '\n' :: _ => true
  | _ => false

/-- What is left of a text once the blanks and line ends in front of it are dropped. A line end has
a line feed in it. -/
def dropBreaks : List Char → List Char
  | '\r' :: '\n' :: rest => dropBreaks rest
  | c :: rest => if c == ' ' || c == '\t' || c == '\n' then dropBreaks rest else c :: rest
  | [] => []

/-- Dropping what stands in front leaves no more than there was. -/
theorem length_dropBreaks_le (cs : List Char) : (dropBreaks cs).length ≤ cs.length := by
  fun_induction dropBreaks cs with
  | case1 rest ih => simp only [List.length_cons]; omega
  | case2 c rest _ _ ih => simp only [List.length_cons]; omega
  | case3 => simp
  | case4 => simp

/-- The quotes at the very end of a string over several lines, and what follows it. -/
def closing? (quote : Char) (cs : List Char) : Option (List Char × List Char) :=
  let run := (cs.take 5).takeWhile (· == quote)
  if run.length < 3 then none else some (run.drop 3, cs.drop run.length)

/-- Reads the inside of a string with escapes over several lines. -/
def longBasic? (cs : List Char) : Option (List Char × List Char) :=
  match closing? '"' cs with
  | some found => some found
  | none => match cs with
    | [] => none
    | '\\' :: rest =>
      if endsLine rest then longBasic? (dropBreaks rest)
      else do
        let (x, width) ← escaped? rest
        let (inside, after) ← longBasic? (rest.drop width)
        pure (x :: inside, after)
    | '\r' :: '\n' :: rest => do
      let (inside, after) ← longBasic? rest
      pure ('\r' :: '\n' :: inside, after)
    | c :: rest => do
      let (inside, after) ← longBasic? rest
      if isShown c || c == '\n' then pure (c :: inside, after) else none
termination_by cs.length
decreasing_by
  all_goals simp only [List.length_cons, List.length_drop]
  · have := length_dropBreaks_le rest
    omega
  all_goals omega

/-- Reads the inside of a string without escapes over several lines. -/
def longLiteral? (cs : List Char) : Option (List Char × List Char) :=
  match closing? '\'' cs with
  | some found => some found
  | none => match cs with
    | [] => none
    | '\r' :: '\n' :: rest => do
      let (inside, after) ← longLiteral? rest
      pure ('\r' :: '\n' :: inside, after)
    | c :: rest => do
      let (inside, after) ← longLiteral? rest
      if isShown c || c == '\n' then pure (c :: inside, after) else none

/-- A text without the line end in front of it. -/
def dropLineEnd : List Char → List Char
  | '\n' :: rest => rest
  | '\r' :: '\n' :: rest => rest
  | cs => cs

/-- Reads a string that begins with a single quote or a double quote. -/
def short? : List Char → Option (List Char × List Char)
  | '"' :: rest => basic? rest
  | '\'' :: rest => literal? rest
  | _ => none

/-- Reads a string of any kind. -/
def read? : List Char → Option (List Char × List Char)
  | '"' :: '"' :: '"' :: rest => longBasic? (dropLineEnd rest)
  | '\'' :: '\'' :: '\'' :: rest => longLiteral? (dropLineEnd rest)
  | cs => short? cs

end BoundSql.DocumentString
