import BoundSql.Criteria.Basic
import BoundSql.Proofs.Text.Numeral

/-!
# Places are filled in one pass

A template is written piece by piece: texts without an opening brace, and places, which are digits
in braces. Filling it goes through the same pieces again. A place ends at its own closing brace, so
what stands behind it is cut as if nothing stood in front, and an argument is never cut at all. What
an argument holds, places of its own included, therefore makes no difference to the rest.
-/

namespace BoundSql

namespace Template

/-- A piece of which templates are written. -/
inductive Piece where
  /-- A text without an opening brace. -/
  | text (s : String) (plain : '\x7b' ∉ s.toList)
  /-- A place with any number of digits between its braces. -/
  | place (digits : String) (isPlace : ∀ c ∈ digits.toList, Numeral.isDigit c = true)

/-- How a piece is written. -/
def Piece.written : Piece → String
  | text s _ => s
  | place digits _ => "\x7b" ++ digits ++ "\x7d"

/-- The argument whose number digits denote by place, counted from zero. No digits denote none. -/
def named? (arguments : List String) (digits : String) : Option String :=
  if digits = "" then none
  else arguments[Nat.ofDigits 10 (digits.toList.map Numeral.digitValue).reverse]?

/-- A piece with the argument in its place, if its digits name one. -/
def Piece.filled (arguments : List String) : Piece → String
  | text s _ => s
  | place digits isPlace => (named? arguments digits).getD (place digits isPlace).written

variable {cs ds rest : List Char}

/-- Digits in front of a closing brace are those of a place, and there is at least one of them. -/
theorem place?_append (h : ∀ c ∈ ds, Numeral.isDigit c = true) :
    place? (ds ++ '\x7d' :: rest) = if ds = [] then none else some ds := by
  have hclose : ∀ c ∈ ('\x7d' :: rest).head?, Numeral.isDigit c = false := by
    intro c hc
    cases hc
    decide
  simp only [place?, Numeral.spanDigits_append h hclose, List.head?_cons, and_true, ne_eq,
    ite_not]

/-- A character that opens no place is a segment of its own. -/
theorem segments_cons_plain {c : Char} (h : c ≠ '\x7b') (rest : List Char) :
    segments (c :: rest) = .plain c :: segments rest := by
  rw [segments, if_neg h]

/-- A text without an opening brace is cut character by character. -/
theorem segments_append_plain (h : '\x7b' ∉ cs) (rest : List Char) :
    segments (cs ++ rest) = cs.map .plain ++ segments rest := by
  induction cs with
  | nil => rfl
  | cons c cs ih =>
    obtain ⟨hc, hcs⟩ := not_or.mp (mt List.mem_cons.mpr h)
    rw [List.cons_append, segments_cons_plain (Ne.symm hc), ih hcs, List.map_cons,
      List.cons_append]

/-- Digits in braces are cut as one place, and the cut goes on behind the closing brace. -/
theorem segments_place (hne : ds ≠ []) (h : ∀ c ∈ ds, Numeral.isDigit c = true)
    (rest : List Char) :
    segments ('\x7b' :: (ds ++ '\x7d' :: rest)) = .place ds :: segments rest := by
  have hrest : (ds ++ '\x7d' :: rest).drop (ds.length + 1) = rest := by
    rw [List.drop_append]
    simp
  rw [segments, if_pos rfl, place?_append h, if_neg hne]
  simp only [hrest]

/-- Braces without digits between them are cut as two characters. -/
theorem segments_braces (rest : List Char) :
    segments ('\x7b' :: '\x7d' :: rest) = .plain '\x7b' :: .plain '\x7d' :: segments rest := by
  have hnodigits : ∀ c ∈ ([] : List Char), Numeral.isDigit c = true := by simp
  have hnone : place? ('\x7d' :: rest) = none := place?_append hnodigits
  rw [segments, if_pos rfl, hnone]
  exact congrArg _ (segments_cons_plain (by decide) rest)

/-- A text with its places filled. -/
def filledChars (arguments : List String) (cs : List Char) : List Char :=
  (segments cs).flatMap (Segment.filled arguments)

/-- Characters outside every place stay as they are. -/
theorem flatMap_filled_plain (arguments : List String) (cs : List Char) :
    (cs.map Segment.plain).flatMap (Segment.filled arguments) = cs := by
  rw [List.flatMap_map]
  exact List.flatMap_singleton' cs

/-- A place is filled with the argument that its digits name, and stays as it is when they name
none. -/
theorem filled_place (arguments : List String) (digits : String) (hne : digits ≠ "")
    (h : ∀ c ∈ digits.toList, Numeral.isDigit c = true) :
    Segment.filled arguments (.place digits.toList) =
      (Piece.filled arguments (.place digits h)).toList := by
  rw [Piece.filled, named?, if_neg hne, ← Numeral.value_eq_ofDigits]
  cases hargument : arguments[Numeral.value digits.toList]? with
  | some argument => simp [Segment.filled, hargument]
  | none => simp [Segment.filled, hargument, Segment.chars, Piece.written]

/-- A piece in front of a text is filled on its own, and the text as if the piece were not there. -/
theorem filledChars_written_append (arguments : List String) (p : Piece) (rest : List Char) :
    filledChars arguments (p.written.toList ++ rest) =
      (p.filled arguments).toList ++ filledChars arguments rest := by
  cases p with
  | text s plain =>
    simp only [Piece.written, Piece.filled, filledChars, segments_append_plain plain,
      List.flatMap_append, flatMap_filled_plain]
  | place digits isPlace =>
    have hwritten : (Piece.place digits isPlace).written.toList ++ rest =
        '\x7b' :: (digits.toList ++ '\x7d' :: rest) := by
      simp [Piece.written]
    rw [hwritten]
    by_cases hempty : digits = ""
    · subst hempty
      simp only [String.toList_empty, List.nil_append, filledChars, segments_braces, Piece.filled,
        named?, if_true, Option.getD_none, Piece.written, String.toList_append, List.flatMap_cons,
        Segment.filled]
      rfl
    · have hne : digits.toList ≠ [] := fun hnil => hempty (String.toList_eq_nil_iff.mp hnil)
      rw [filledChars, segments_place hne isPlace, List.flatMap_cons,
        filled_place arguments digits hempty isPlace]
      rfl

/-- A template is filled piece by piece. -/
theorem fill_written (arguments : List String) (pieces : List Piece) :
    fill (String.join (pieces.map Piece.written)) arguments =
      String.join (pieces.map (Piece.filled arguments)) := by
  have hchars : filledChars arguments (String.join (pieces.map Piece.written)).toList =
      (String.join (pieces.map (Piece.filled arguments))).toList := by
    induction pieces with
    | nil => simp [filledChars, segments]
    | cons p pieces ih =>
      rw [List.map_cons, String.join_cons, String.toList_append, filledChars_written_append, ih,
        List.map_cons, String.join_cons, String.toList_append]
  exact (congrArg String.ofList hchars).trans String.ofList_toList

end Template

namespace Criteria

/-- Raw text from a template and arguments: whatever the pieces of the template and the plain texts
of the arguments are, the pushed literal is made of the texts as they stand, of the plain text of an
argument in every place that names one, and of the other places as they stand. Leading zeros do not
count, and no number is too long. -/
theorem literalWith_pieces (c : Criteria) (pieces : List Template.Piece) (arguments : List Value) :
    c.literalWith (String.join (pieces.map Template.Piece.written)) arguments =
      c.push (.literal (String.join
        (pieces.map (Template.Piece.filled (arguments.map Value.shown))))) := by
  rw [literalWith, Template.fill_written]

/-- What an argument holds is not a place, and neighbouring places are filled one by one. -/
example : (empty.literalWith "\x7b01\x7d\x7b2\x7d = \x7b0\x7d" [.int 5, .text "\x7b0\x7d"]).tokens =
    [.literal "\x7b0\x7d\x7b2\x7d = 5"] := by
  cbv

end Criteria

end BoundSql
