import BoundSql.Proofs.Text.Hex
import BoundSql.Text.Literal
import BoundSql.Value
import Mathlib.Data.Option.Basic

/-!
# Literals are scanned back

The scanner takes a literal and what it denotes from the front of a text, and nothing else: every
quote inside has another one behind it, and the quote that closes has none. So a literal ends where
it was written to end, whatever it denotes, unless what follows begins with a quote.

A value that is written between quotes is scanned back from its literal, whatever it is and whatever
follows, so no value can end its literal early or run past its end. The digits between the quotes of
a blob denote its bytes.
-/

namespace BoundSql.Quoted

/-- A character that is no quote stands for itself. -/
theorem scanInside_cons_of_ne {c : Char} (h : c ≠ '\'') (rest : List Char) :
    scanInside (c :: rest) =
      (scanInside rest).map fun (inside, after) => (c :: inside, after) := by
  rw [scanInside]
  · exact fun _ hquote => absurd hquote h
  · exact h

/-- A quote that no other one follows closes the literal. -/
theorem scanInside_quote {after : List Char} (h : after.head? ≠ some '\'') :
    scanInside ('\'' :: after) = some ([], after) := by
  rw [scanInside]
  rintro rest rfl
  exact h rfl

/-- The inside of a literal is scanned up to the quote that closes it. -/
theorem scanInside_doubled (cs : List Char) {after : List Char}
    (hafter : after.head? ≠ some '\'') :
    scanInside (doubled cs ++ '\'' :: after) = some (cs, after) := by
  induction cs with
  | nil => exact scanInside_quote hafter
  | cons c rest ih =>
    by_cases hquote : c = '\''
    · rw [doubled, if_pos hquote, List.cons_append, List.cons_append, scanInside, ih, hquote]
      rfl
    · rw [doubled, if_neg hquote, List.cons_append, scanInside_cons_of_ne hquote, ih]
      rfl

/-- What is scanned as the inside of a literal is one, with the quote that closes it, and no other
quote follows. -/
theorem eq_of_scanInside {cs inside after : List Char}
    (h : scanInside cs = some (inside, after)) :
    cs = doubled inside ++ '\'' :: after ∧ after.head? ≠ some '\'' := by
  fun_induction scanInside cs generalizing inside with
  | case1 => exact nomatch h
  | case2 rest ih =>
    obtain ⟨⟨front, back⟩, hscan, hsame⟩ := Option.map_eq_some_iff.mp h
    obtain ⟨rfl, rfl⟩ := Prod.mk.inj hsame
    obtain ⟨hrest, hafter⟩ := ih hscan
    exact ⟨by rw [doubled, if_pos rfl, hrest]; rfl, hafter⟩
  | case3 rest hquote =>
    obtain ⟨rfl, rfl⟩ := Prod.mk.inj (Option.some.inj h)
    refine ⟨rfl, fun hhead => ?_⟩
    obtain ⟨more, hmore⟩ := List.head?_eq_some_iff.mp hhead
    exact hquote more hmore
  | case4 c rest hdoubled hquote ih =>
    obtain ⟨⟨front, back⟩, hscan, hsame⟩ := Option.map_eq_some_iff.mp h
    obtain ⟨rfl, rfl⟩ := Prod.mk.inj hsame
    obtain ⟨hrest, hafter⟩ := ih hscan
    exact ⟨by rw [doubled, if_neg hquote, hrest]; rfl, hafter⟩

/-- A text is scanned exactly when it is a literal with a text behind it that does not begin with a
quote; what is scanned is what the literal denotes. -/
theorem scan_eq_some_iff {cs inside after : List Char} :
    scan cs = some (inside, after) ↔ cs = literal inside ++ after ∧ after.head? ≠ some '\'' := by
  constructor
  · intro h
    unfold scan at h
    split at h
    · obtain ⟨hrest, hafter⟩ := eq_of_scanInside h
      exact ⟨by rw [hrest, literal]; simp, hafter⟩
    · exact nomatch h
  · rintro ⟨rfl, hafter⟩
    have hliteral : literal inside ++ after = '\'' :: (doubled inside ++ '\'' :: after) := by
      simp [literal]
    rw [hliteral]
    exact scanInside_doubled inside hafter

/-- A text without quotes stands in a literal as it is. -/
theorem doubled_of_not_mem {cs : List Char} (h : '\'' ∉ cs) : doubled cs = cs := by
  induction cs with
  | nil => rfl
  | cons c rest ih =>
    obtain ⟨hc, hrest⟩ := not_or.mp (mt List.mem_cons.mpr h)
    rw [doubled, if_neg (Ne.symm hc), ih hrest]

end BoundSql.Quoted

namespace BoundSql.Value

/-- Whether a value is one whose literal is its plain text between quotes: a text, a date, a
date-time with or without an offset, or an identifier. -/
def isQuoted : Value → Bool
  | text _ | date _ | dateTime _ | dateTimeOffset _ | guid _ => true
  | _ => false

/-- The literal of such a value is the literal of its plain text. -/
theorem toList_literal {v : Value} (h : v.isQuoted = true) :
    v.literal.toList = Quoted.literal v.shown.toList := by
  cases v with
  | text | date | dateTime | dateTimeOffset | guid => exact String.toList_ofList
  | null | bool | int | float | decimal | blob => exact Bool.noConfusion h

/-- A blob is written as its digits between quotes, behind a letter. -/
theorem toList_literal_blob (bytes : List UInt8) :
    (blob bytes).literal.toList = 'X' :: '\'' :: (Hex.upper bytes ++ ['\'']) := by
  simp [literal]

/-- No value escapes from its literal. Started on a text, the scanner yields the plain text of a
value that is written between quotes and leaves what follows exactly when the text is the literal of
the value with that behind it; a text value is its own plain text. What stands between the quotes of
a blob's literal holds no quote, is all that the scanner yields behind the letter, and denotes the
bytes. -/
theorem scan_literal {after : List Char} (hafter : after.head? ≠ some '\'') :
    (∀ (v : Value) (cs : List Char), v.isQuoted = true →
      (Quoted.scan cs = some (v.shown.toList, after) ↔ cs = v.literal.toList ++ after)) ∧
      (∀ s : String, Quoted.scan ((text s).literal.toList ++ after) = some (s.toList, after)) ∧
      ∀ bytes : List UInt8, ∃ digits : List Char,
        (blob bytes).literal.toList = 'X' :: '\'' :: (digits ++ ['\'']) ∧ '\'' ∉ digits ∧
          Quoted.scan ((blob bytes).literal.toList.tail ++ after) = some (digits, after) ∧
          Hex.bytes? digits = some bytes := by
  have hscan (inside cs : List Char) :
      Quoted.scan cs = some (inside, after) ↔ cs = Quoted.literal inside ++ after :=
    Quoted.scan_eq_some_iff.trans (and_iff_left hafter)
  refine ⟨fun v cs hquoted => ?_, fun s => ?_, fun bytes => ?_⟩
  · rw [toList_literal hquoted]
    exact hscan _ cs
  · rw [toList_literal rfl]
    exact (hscan s.toList _).mpr rfl
  · have hquote : '\'' ∉ Hex.upper bytes := Hex.quote_not_mem_flatMap_pair (by decide) bytes
    refine ⟨Hex.upper bytes, toList_literal_blob bytes, hquote, ?_, ?_⟩
    · rw [toList_literal_blob, List.tail_cons, hscan, Quoted.literal,
        Quoted.doubled_of_not_mem hquote]
    · exact Hex.bytes?_flatMap_pair (by decide) bytes

/-- Quotes at both ends and two in a row are scanned back, in front of a closing parenthesis. -/
theorem scan_literal_quotes :
    (")".toList.head? ≠ some '\'' ∧ (text "'a''b'").isQuoted = true) ∧
      (text "'a''b'").literal = "'''a''''b'''" ∧
      Quoted.scan ((text "'a''b'").literal.toList ++ ")".toList) =
        some ("'a''b'".toList, ")".toList) := by
  have hafter : ")".toList.head? ≠ some '\'' := by decide
  have hquoted : (text "'a''b'").isQuoted = true := by decide
  exact ⟨⟨hafter, hquoted⟩, by decide, ((scan_literal hafter).1 (text "'a''b'") _ hquoted).mpr rfl⟩

end BoundSql.Value
