import BoundSql.Number.Binary64
import BoundSql.Number.DecimalText
import BoundSql.Proofs.Text.Numeral

/-!
# The characters of numbers

Integers, decimals and floating-point numbers are written with digits, signs, points and a few
letters, and with at least one of these. Nothing that is written as a number holds a blank or a
comma.
-/

namespace BoundSql

namespace Numeral

/-- Whether a character is one that numbers are written with: a digit, a sign, the point, the mark
of an exponent, or a letter of the words for what is no finite number. -/
def isFigure (c : Char) : Bool :=
  isDigit c || ['+', '-', '.', 'E', 'e', 'N', 'a', 'i', 'n', 'f'].contains c

/-- A text that is made of such characters. -/
def Figures (cs : List Char) : Prop :=
  ∀ c ∈ cs, isFigure c = true

/-- A digit is a character that numbers are written with. -/
theorem isFigure_of_isDigit {c : Char} (h : isDigit c = true) : isFigure c = true := by
  rw [isFigure, h, Bool.true_or]

/-- No character that numbers are written with is blank. -/
theorem isBlank_of_isFigure {c : Char} (h : isFigure c = true) : Text.isBlank c = false := by
  rcases Bool.or_eq_true_iff.mp h with hdigit | hmark
  · exact isBlank_of_isDigit hdigit
  · have hall :
        ['+', '-', '.', 'E', 'e', 'N', 'a', 'i', 'n', 'f'].all (!Text.isBlank ·) = true := by
      decide
    simpa using List.all_eq_true.mp hall c (List.contains_iff_mem.mp hmark)

variable {cs ds : List Char}

/-- A character comes in front of others. -/
@[simp] theorem figures_cons {c : Char} : Figures (c :: cs) ↔ isFigure c = true ∧ Figures cs :=
  List.forall_mem_cons

/-- One text comes behind another. -/
@[simp] theorem figures_append : Figures (cs ++ ds) ↔ Figures cs ∧ Figures ds :=
  List.forall_mem_append

/-- What is left of a text is made of characters of it. -/
theorem Figures.subset (h : Figures cs) (hsub : ds ⊆ cs) : Figures ds :=
  fun c hc => h c (hsub hc)

/-- The empty text is made of no characters at all. -/
@[simp] theorem figures_nil : Figures [] :=
  fun _ hc => absurd hc List.not_mem_nil

/-- A natural number is written with digits. -/
@[simp] theorem figures_digits (n : Nat) : Figures (digits n) :=
  fun _ hc => isFigure_of_isDigit (isDigit_of_mem_digits hc)

/-- A row of zeros is made of digits. -/
@[simp] theorem figures_zeros (k : Nat) : Figures (List.replicate k '0') := by
  intro c hc
  rw [List.eq_of_mem_replicate hc]
  decide

/-- An integer is written with digits and a sign. -/
@[simp] theorem figures_signed (n : Int) : Figures (signed n) := by
  have hminus : isFigure '-' = true := by decide
  unfold signed
  split
  · exact figures_cons.mpr ⟨hminus, figures_digits _⟩
  · exact figures_digits _

end Numeral

open Numeral

namespace Decimal

/-- Digits are written with an exponent. -/
theorem figures_scientific {ds : List Char} (h : Figures ds) (exponent : Int) :
    Figures (scientific ds exponent) := by
  have hpoint : isFigure '.' = true := by decide
  have hmark : isFigure 'E' = true := by decide
  have hplus : isFigure '+' = true := by decide
  unfold scientific
  dsimp only
  refine figures_append.mpr ⟨?_, ?_⟩
  · split
    · exact figures_nil
    · exact h
    · simpa [hpoint] using h
  · split <;> simp [hmark, hplus]

/-- Digits are written with a point. -/
theorem figures_plainFraction {ds : List Char} (h : Figures ds) (scale : Nat) :
    Figures (plainFraction ds scale) := by
  have hpoint : isFigure '.' = true := by decide
  have hzero : isFigure '0' = true := by decide
  unfold plainFraction
  split
  · simp [hpoint, hzero, h]
  · simp [hpoint, h.subset (List.take_subset _ ds), h.subset (List.drop_subset _ ds)]

/-- A magnitude is written with or without a point, zeros and an exponent. -/
theorem figures_magnitudeText (n : Nat) (scale : Int) : Figures (magnitudeText n scale) := by
  have hmark : isFigure 'e' = true := by decide
  have hplus : isFigure '+' = true := by decide
  unfold magnitudeText
  dsimp only
  split_ifs
  · exact figures_scientific (figures_digits n) _
  · simp [hmark, hplus]
  · simp
  · exact figures_plainFraction (figures_digits n) _

/-- A decimal is written as a magnitude behind a sign. -/
theorem figures_text (d : Decimal) : Figures d.text := by
  have hzero : isFigure '0' = true := by decide
  have hminus : isFigure '-' = true := by decide
  unfold text
  dsimp only
  split_ifs
  · simp [hzero]
  · simp [hminus, figures_magnitudeText]
  · exact figures_magnitudeText _ _

/-- A decimal is written with at least one character. -/
theorem text_ne_nil (d : Decimal) : d.text ≠ [] := by
  have hmagnitude (n : Nat) (scale : Int) : magnitudeText n scale ≠ [] := by
    have hdigits := Numeral.digits_ne_nil n
    unfold magnitudeText plainFraction scientific
    dsimp only
    split_ifs
    all_goals simp [hdigits]
  unfold text
  dsimp only
  split_ifs
  · exact List.cons_ne_nil _ _
  · exact List.cons_ne_nil _ _
  · exact hmagnitude _ _

end Decimal

namespace Shortest

/-- The digits that are found for a word are digits. -/
theorem figures_ofWord (f : FloatFormat) (word : Nat) : Figures (ofWord f word).digits := by
  unfold ofWord
  dsimp only
  split
  · rename_i count unit hfound
    refine (figures_digits count).subset fun c hc => ?_
    have hkept := (List.dropWhile_sublist _).subset (List.mem_reverse.mp hc)
    exact List.mem_reverse.mp hkept
  · exact figures_nil

/-- Digits are written out with a point and zeros where they are needed. -/
theorem Digits.figures_positional {d : Digits} (h : Figures d.digits) :
    Figures d.positional := by
  have hpoint : isFigure '.' = true := by decide
  have hzero : isFigure '0' = true := by decide
  have hhead := h.subset (List.take_subset d.point.toNat d.digits)
  have htail := h.subset (List.drop_subset d.point.toNat d.digits)
  unfold positional
  dsimp only
  split
  · simp [hpoint, hzero, h]
  · split
    · simp [hhead]
    · simp [hpoint, hhead, htail]

/-- Digits are written out with at least one character. -/
theorem Digits.positional_ne_nil (d : Digits) : d.positional ≠ [] := by
  unfold positional
  split
  · exact List.cons_ne_nil _ _
  · rename_i hpoint
    have hhead : d.digits.take d.point.toNat ++
        List.replicate (d.point.toNat - d.digits.length) '0' ≠ [] := by
      intro hnil
      have hlength := congrArg List.length hnil
      simp only [List.length_append, List.length_take, List.length_replicate,
        List.length_nil] at hlength
      omega
    dsimp only
    split
    · exact hhead
    · exact List.append_ne_nil_of_left_ne_nil hhead _

end Shortest

namespace Binary64

/-- A floating-point number is written by position, or as the word for what is no finite number. -/
theorem figures_text (x : Binary64) : Figures x.text := by
  have hletters : isFigure 'N' = true ∧ isFigure 'a' = true ∧ isFigure 'i' = true ∧
      isFigure 'n' = true ∧ isFigure 'f' = true := by decide
  have hzero : isFigure '0' = true := by decide
  have hminus : isFigure '-' = true := by decide
  have hpositional (word : Nat) : Figures (Shortest.ofWord FloatFormat.double word).positional :=
    Shortest.Digits.figures_positional (Shortest.figures_ofWord _ word)
  unfold text
  dsimp only
  split_ifs
  all_goals simp [hletters, hzero, hminus, hpositional]

/-- A floating-point number is written with at least one character. -/
theorem text_ne_nil (x : Binary64) : x.text ≠ [] := by
  unfold text
  dsimp only
  split_ifs
  all_goals first | exact List.cons_ne_nil _ _ | exact Shortest.Digits.positional_ne_nil _

end Binary64

end BoundSql
