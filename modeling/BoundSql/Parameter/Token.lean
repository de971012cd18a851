/-!
# Parameter tokens in a text

A statement refers to a parameter by a token: the at sign and as many ASCII letters, digits and
underscores as follow it, at least one. Tokens are always taken whole, so a name that another name
begins with is never mistaken for it.
-/

namespace BoundSql.Token

/-- Whether a character can be part of a token behind its at sign. -/
def isWord (c : Char) : Bool :=
  ('A' ≤ c && c ≤ 'Z') || ('a' ≤ c && c ≤ 'z') || ('0' ≤ c && c ≤ '9') || c == '_'

/-- A piece of a text: a token, or one character outside every token. -/
inductive Piece where
  /-- A character outside every token. -/
  | plain (c : Char)
  /-- A token, given by the characters behind its at sign. -/
  | token (word : List Char)
  deriving DecidableEq

/-- A text cut into its tokens and the characters between them. -/
def pieces : List Char → List Piece
  | [] => []
  | c :: rest =>
    if c = '@' ∧ rest.takeWhile isWord ≠ [] then
      .token (rest.takeWhile isWord) :: pieces (rest.dropWhile isWord)
    else
      .plain c :: pieces rest
termination_by cs => cs.length
decreasing_by
  · have := (List.dropWhile_sublist isWord (l := rest)).length_le
    simp only [List.length_cons]
    omega
  · simp

/-- The characters that a piece stands for. -/
def Piece.chars : Piece → List Char
  | plain c => [c]
  | token word => '@' :: word

/-- The name of a token, at sign included. -/
def Piece.name? : Piece → Option String
  | plain _ => none
  | token word => some (String.ofList ('@' :: word))

/-- The names of the tokens of a text, from left to right. -/
def names (s : String) : List String :=
  (pieces s.toList).filterMap Piece.name?

/-- A piece with the text found for its token in the token's place, if there is one. -/
def Piece.replaced (find : String → Option String) (p : Piece) : List Char :=
  match p.name?.bind find with
  | some found => found.toList
  | none => p.chars

/-- A text with every token replaced by what is found for it. What takes a token's place is not
looked at again. -/
def replace (find : String → Option String) (s : String) : String :=
  String.ofList ((pieces s.toList).flatMap (Piece.replaced find))

/-- The pieces of a text make up the text. -/
theorem flatMap_chars_pieces (cs : List Char) : (pieces cs).flatMap Piece.chars = cs := by
  fun_induction pieces cs with
  | case1 => rfl
  | case2 c rest h ih =>
    simp only [List.flatMap_cons, ih, Piece.chars, h.1, List.cons_append]
    rw [List.takeWhile_append_dropWhile]
  | case3 c rest h ih => simp [ih, Piece.chars]

end BoundSql.Token
