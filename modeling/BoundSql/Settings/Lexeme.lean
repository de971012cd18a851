import BoundSql.Settings.Quoted
import BoundSql.Settings.Timestamp
import BoundSql.Settings.Tree

/-!
# Words of a settings document

The words that a document of settings is made of: what stands between them, keys, and plain values.
Numbers may be grouped by single underscores between digits, and have no zeros in front. A word
without quotes ends at a blank or at a mark of punctuation, but a single space may stand between a
date and a time.
-/

namespace BoundSql.Lexeme

/-- What is left of a text once the blanks, line ends and comments in front of it are dropped, if
the comments hold no control characters. -/
def gapFrom? (inComment : Bool) : List Char → Option (List Char)
  | [] => some []
  | '\n' :: rest => gapFrom? false rest
  | '\r' :: '\n' :: rest => gapFrom? false rest
  | c :: rest =>
    if inComment then
      if DocumentString.isShown c then gapFrom? true rest else none
    else if c = ' ' ∨ c = '\t' then gapFrom? false rest
    else if c = '#' then gapFrom? true rest
    else some (c :: rest)

/-- What is left of a text once everything in front of its next word is dropped. -/
def gap? (cs : List Char) : Option (List Char) :=
  gapFrom? false cs

/-- What is left of a text that begins with the rest of a line: blanks, a comment, and the line end
or the end of the text. -/
def lineEnd? (cs : List Char) : Option (List Char) :=
  match Path.skip cs with
  | [] => some []
  | '#' :: rest => some ('#' :: rest)
  | '\n' :: rest => some rest
  | '\r' :: '\n' :: rest => some rest
  | _ => none

/-- Reads one name of a key. -/
def name? (cs : List Char) : Option (String × List Char) :=
  match DocumentString.short? cs with
  | some (inside, after) => some (String.ofList inside, after)
  | none =>
    let bare := cs.takeWhile Path.isPlain
    if bare = [] then none else some (String.ofList bare, cs.drop bare.length)

/-- Reads names with full stops between them, at most a number of them. -/
def names? : Nat → List Char → Option (List String × List Char)
  | 0, _ => none
  | n + 1, cs => do
    let (name, after) ← name? cs
    match Path.skip after with
    | '.' :: rest => do
      let (names, after) ← names? n (Path.skip rest)
      pure (name :: names, after)
    | _ => pure ([name], after)

/-- How many names a key may have. -/
def nameLimit : Nat := 80

/-- Reads a key: names with full stops between them. -/
def key? (cs : List Char) : Option (List String × List Char) :=
  names? nameLimit cs

/-- The digits of a run, without the single underscores that may stand between two of them. -/
def grouped? (isDigit : Char → Bool) : List Char → Option (List Char)
  | [] => none
  | [c] => if isDigit c then some [c] else none
  | c :: '_' :: rest => if isDigit c then (grouped? isDigit rest).map (c :: ·) else none
  | c :: rest => if isDigit c then (grouped? isDigit rest).map (c :: ·) else none

/-- Reads a natural number without zeros in front. -/
def natural? (cs : List Char) : Option Nat := do
  let digits ← grouped? Numeral.isDigit cs
  if digits.head? = some '0' ∧ digits.length ≠ 1 then none else pure (Numeral.value digits)

/-- Reads a natural number in a base of at most sixteen. -/
def based? (base : Nat) (cs : List Char) : Option Nat := do
  let digits ← grouped? (fun c => (Hex.digitValue? c).any (· < base)) cs
  pure (digits.foldl (fun n c => base * n + (Hex.digitValue? c).getD 0) 0)

/-- Reads an integer: in base ten with an optional sign, or in another base behind its mark. -/
def integer? : List Char → Option Int
  | '0' :: 'x' :: rest => (based? 16 rest).map fun n => (n : Int)
  | '0' :: 'o' :: rest => (based? 8 rest).map fun n => (n : Int)
  | '0' :: 'b' :: rest => (based? 2 rest).map fun n => (n : Int)
  | '-' :: rest => (natural? rest).map fun n => -(n : Int)
  | '+' :: rest => (natural? rest).map fun n => (n : Int)
  | cs => (natural? cs).map fun n => (n : Int)

/-- A text without the sign in front of it. -/
def unsigned : List Char → List Char
  | '-' :: rest => rest
  | '+' :: rest => rest
  | cs => cs

/-- Whether a character can stand in a run of digits. -/
def inRun (c : Char) : Bool :=
  Numeral.isDigit c || c == '_'

/-- Whether a text is an exponent: a mark, an optional sign and digits. -/
def isExponent : List Char → Bool
  | 'e' :: rest => (grouped? Numeral.isDigit (unsigned rest)).isSome
  | 'E' :: rest => (grouped? Numeral.isDigit (unsigned rest)).isSome
  | _ => false

/-- Whether a text is a fraction, an exponent, or the one behind the other. -/
def isTail : List Char → Bool
  | '.' :: rest =>
    let run := rest.takeWhile inRun
    let after := rest.drop run.length
    (grouped? Numeral.isDigit run).isSome && (after.isEmpty || isExponent after)
  | cs => isExponent cs

/-- Whether a text is written as a floating-point number. -/
def isReal (cs : List Char) : Bool :=
  let body := unsigned cs
  let whole := body.takeWhile inRun
  body == "inf".toList || body == "nan".toList ||
    ((natural? whole).isSome && isTail (body.drop whole.length))

/-- Reads a floating-point number. One too large for the format is refused. -/
def real? (cs : List Char) : Option Binary64 :=
  if isReal cs then
    (Binary64.read? (cs.filter (· != '_'))).filter fun x =>
      x.isFinite || unsigned cs == "inf".toList || unsigned cs == "nan".toList
  else none

/-- The plain value that a bare word stands for. -/
def bare? (cs : List Char) : Option Scalar :=
  if cs = "true".toList then some (.flag true)
  else if cs = "false".toList then some (.flag false)
  else match Timestamp.text? cs with
    | some text => some (.text (String.ofList text))
    | none => match integer? cs with
      | some n => (Numeral.word? n).map .integer
      | none => (real? cs).map .real

/-- Whether a character can stand in a word without quotes. -/
def isBare (c : Char) : Bool :=
  c ∉ [' ', '\t', '\r', '\n', '#', ',', '[', ']', '\x7b', '\x7d', '=', '"', '\'']

/-- Reads a date and a time with a space between them. -/
def spaced? (cs : List Char) : Option (Scalar × List Char) :=
  let date := cs.takeWhile isBare
  match cs.drop date.length with
  | ' ' :: rest =>
    let clock := rest.takeWhile isBare
    (Timestamp.text? (date ++ ' ' :: clock)).map fun text =>
      (.text (String.ofList text), rest.drop clock.length)
  | _ => none

/-- Reads a plain value without quotes. -/
def unquoted? (cs : List Char) : Option (Scalar × List Char) :=
  match spaced? cs with
  | some found => some found
  | none =>
    let word := cs.takeWhile isBare
    (bare? word).map fun value => (value, cs.drop word.length)

/-- Reads a plain value. -/
def scalar? (cs : List Char) : Option (Scalar × List Char) :=
  match cs with
  | '"' :: _ | '\'' :: _ =>
    (DocumentString.read? cs).map fun (inside, after) => (.text (String.ofList inside), after)
  | _ => unquoted? cs

end BoundSql.Lexeme
