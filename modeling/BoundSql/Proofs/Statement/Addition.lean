import BoundSql.Proofs.Statement.Spacing
import BoundSql.Statement.Draft

/-!
# What is added to a text stays

A draft without table prefixes takes in pieces of text one after the other, appended as they are or
merged from other drafts without the blanks at their ends. Each text is the front of the next one.
The characters that are not blank are those of the pieces in order, and so are the words as long as
no piece begins with a comma: the spaces between pieces run no words together and cut none.
-/

namespace BoundSql.Draft

/-- A call that adds a piece to the text of a draft. -/
inductive Addition where
  /-- A piece of text is appended. -/
  | append (piece : String)
  /-- Another draft is merged. -/
  | merge (other : Draft)

/-- The piece that a call adds: the text as it is given, or the text of the draft that is merged
without the blanks at either end. -/
def Addition.piece : Addition → String
  | append piece => piece
  | merge other => Text.trim other.text

/-- A draft after a call that adds a piece. -/
def add (b : Draft) : Addition → Draft
  | .append piece => b.append piece
  | .merge other => b.merge other

/-- A draft without table prefixes joins a piece to its text as it is. -/
theorem text_add {b : Draft} (hb : b.prefixes = none) (a : Addition) :
    (b.add a).text = Spacing.joined b.text a.piece := by
  cases a with
  | append piece => rw [add, append, prefixed_of_none hb, Addition.piece]
  | merge other => rw [add, merge, prefixed_of_none hb, Addition.piece]

/-- A draft whose text has gained some pieces. -/
structure Gains (b d : Draft) (pieces : List (List Char)) : Prop where
  /-- The table prefixes are the same. -/
  prefixes_eq : d.prefixes = b.prefixes
  /-- The text before is the front of the text now. -/
  grows : b.text.toList <+: d.text.toList
  /-- But for blanks, the text has gained the characters of the pieces. -/
  solid_eq : Text.solid d.text.toList = Text.solid b.text.toList ++ pieces.flatMap Text.solid
  /-- The text has gained the words of the pieces unless a piece begins with a comma. -/
  words_eq : (∀ piece ∈ pieces, piece.head? ≠ some ',') →
    Text.words d.text.toList = Text.words b.text.toList ++ pieces.flatMap Text.words

/-- A draft has gained nothing over itself. -/
theorem Gains.refl (b : Draft) : b.Gains b [] where
  prefixes_eq := rfl
  grows := List.prefix_refl _
  solid_eq := (List.append_nil _).symm
  words_eq _ := (List.append_nil _).symm

/-- What is gained in turn is gained in all. -/
theorem Gains.trans {b c d : Draft} {pieces more : List (List Char)} (h : b.Gains c pieces)
    (h' : c.Gains d more) : b.Gains d (pieces ++ more) where
  prefixes_eq := h'.prefixes_eq.trans h.prefixes_eq
  grows := h.grows.trans h'.grows
  solid_eq := by rw [h'.solid_eq, h.solid_eq, List.flatMap_append, List.append_assoc]
  words_eq hcomma := by
    obtain ⟨hpieces, hmore⟩ := List.forall_mem_append.mp hcomma
    rw [h'.words_eq hmore, h.words_eq hpieces, List.flatMap_append, List.append_assoc]

/-- A call gains the piece that it adds. -/
theorem gains_add {b : Draft} (hb : b.prefixes = none) (a : Addition) :
    b.Gains (b.add a) [a.piece.toList] where
  prefixes_eq := by cases a <;> rfl
  grows := text_add hb a ▸ Spacing.prefix_joined _ _
  solid_eq := by rw [text_add hb, Spacing.solid_joined, List.flatMap_singleton]
  words_eq hcomma := by
    have hpiece := hcomma _ (List.mem_singleton_self _)
    rw [text_add hb, Spacing.words_joined _ hpiece, List.flatMap_singleton]

/-- A row of calls gains the pieces that they add, in order. -/
theorem gains_foldl_add {b : Draft} (hb : b.prefixes = none) (additions : List Addition) :
    b.Gains (additions.foldl add b) (additions.map fun a => a.piece.toList) := by
  induction additions generalizing b with
  | nil => exact .refl b
  | cons a rest ih =>
    have hfirst := gains_add hb a
    exact hfirst.trans (ih (hfirst.prefixes_eq.trans hb))

/-- Whatever pieces are added to a draft without table prefixes, every earlier text is the front of
the text; the text without its blanks is what the draft had before followed by the pieces without
theirs; and unless one of the pieces begins with a comma, the words of the text are those that the
draft had before followed by the words of the pieces. -/
theorem additions_intact {b : Draft} (hb : b.prefixes = none) (additions : List Addition) :
    let text := (additions.foldl add b).text.toList
    let pieces := additions.map fun a => a.piece.toList
    (∀ earlier, earlier <+: additions → (earlier.foldl add b).text.toList <+: text) ∧
      Text.solid text = Text.solid b.text.toList ++ pieces.flatMap Text.solid ∧
      ((∀ piece ∈ pieces, piece.head? ≠ some ',') →
        Text.words text = Text.words b.text.toList ++ pieces.flatMap Text.words) := by
  intro text pieces
  have hgains : b.Gains (additions.foldl add b) pieces := gains_foldl_add hb additions
  refine ⟨?_, hgains.solid_eq, hgains.words_eq⟩
  rintro earlier ⟨later, rfl⟩
  -- The later calls go on from the draft that the earlier ones leave.
  have hbare := (gains_foldl_add hb earlier).prefixes_eq.trans hb
  have hlater := gains_foldl_add hbare later
  rw [← List.foldl_append] at hlater
  exact hlater.grows

/-- Pieces that begin or end in blanks of several kinds, or hold nothing else. -/
def Addition.samples : List Addition :=
  [.append "SELECT A\u2003", .append "\u3000", .merge ((Draft.empty (.series 2)).append " B "),
    .append " , C", .append "", .append "FROM T"]

/-- A comma behind a blank is a word of its own, and a blank of any kind is enough between words. -/
theorem additions_intact_samples :
    ((Draft.empty (.series 1)).prefixes = none ∧
      ∀ piece ∈ Addition.samples.map fun a => a.piece.toList, piece.head? ≠ some ',') ∧
      Text.words (Addition.samples.foldl add (Draft.empty (.series 1))).text.toList =
        ["SELECT", "A", "B", ",", "C", "FROM", "T"].map String.toList := by
  have hbare : (Draft.empty (.series 1)).prefixes = none := rfl
  have hcomma : ∀ piece ∈ Addition.samples.map fun a => a.piece.toList,
      piece.head? ≠ some ',' := by
    decide
  obtain ⟨-, -, hwords⟩ := additions_intact hbare Addition.samples
  refine ⟨⟨hbare, hcomma⟩, (hwords hcomma).trans ?_⟩
  decide

end BoundSql.Draft
