/-!
# Blank characters, trimming and words

A blank is a character with the Unicode property White_Space. Texts are trimmed and split into
words by this one class; every rule works on the list of characters of a text, and the last
section lifts trimming to strings.
-/

namespace BoundSql.Text

/-- The characters with the Unicode property White_Space, twenty-five in all. -/
def isBlank (c : Char) : Bool :=
  let n := c.toNat
  (0x9 ≤ n && n ≤ 0xD) || n == 0x20 || n == 0x85 || n == 0xA0 || n == 0x1680 ||
    (0x2000 ≤ n && n ≤ 0x200A) || n == 0x2028 || n == 0x2029 || n == 0x202F ||
    n == 0x205F || n == 0x3000

/-- What is left of a text once the blanks at its front are dropped. -/
def trimStart (cs : List Char) : List Char :=
  cs.dropWhile isBlank

/-- What is left of a text once the blanks at its back are dropped. -/
def trimEnd (cs : List Char) : List Char :=
  (cs.reverse.dropWhile isBlank).reverse

/-- A text without the blanks at either end. -/
def trimmed (cs : List Char) : List Char :=
  trimEnd (trimStart cs)

/-- The maximal runs of characters that are not blank, from left to right. A character joins the
first word of what follows unless a blank or the end of the text comes directly after it. -/
def words : List Char → List (List Char)
  | [] => []
  | c :: rest =>
    if isBlank c then
      words rest
    else
      match rest, words rest with
      | [], _ => [[c]]
      | d :: _, found =>
        if isBlank d then
          [c] :: found
        else
          match found with
          | [] => [[c]]
          | w :: ws => (c :: w) :: ws

/-- A string without the blanks at either end. -/
def trim (s : String) : String :=
  String.ofList (trimmed s.toList)

/-- Trimming a string trims its characters. -/
@[simp] theorem toList_trim (s : String) : (trim s).toList = trimmed s.toList := by
  simp [trim]

end BoundSql.Text
