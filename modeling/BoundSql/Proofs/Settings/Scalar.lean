import BoundSql.Proofs.Text.Numeral
import BoundSql.Settings.Scalar

/-!
# Texts that come through a reading unchanged

A text from the environment is read before it is used, and a setting that asks for a text is given
what was read, written out. The way there and back leaves a text as it is when it is written the way
its reading is written: truth values in small letters, integers without a plus sign and without
zeros in front, floating-point numbers with the fewest digits.
-/

namespace BoundSql

namespace Scalar

/-- Whether a text is one of the words for the truth values, in any case. -/
def IsTruth (s : String) : Prop :=
  CaseFold.fold s.toList ∈ ["true".toList, "false".toList]

/-- Whether a text is a numeral of a signed word. -/
def IsWord (s : String) : Prop :=
  ∃ n : Int64, Numeral.IsNumeral s.toList n.toInt

/-- What a text is read as: a truth value, else an integer, else a floating-point number, else the
text itself. -/
inductive Reading (s : String) : Scalar → Prop where
  /-- A truth value. -/
  | flag (b : Bool) (h : CaseFold.fold s.toList = (if b then "true" else "false").toList) :
      Reading s (.flag b)
  /-- An integer. -/
  | integer {n : Int64} (htruth : ¬IsTruth s) (h : Numeral.IsNumeral s.toList n.toInt) :
      Reading s (.integer n)
  /-- A floating-point number. -/
  | real {x : Binary64} (htruth : ¬IsTruth s) (hword : ¬IsWord s)
      (h : Binary64.read? s.toList = some x) : Reading s (.real x)
  /-- The text itself. -/
  | text (htruth : ¬IsTruth s) (hword : ¬IsWord s) (h : Binary64.read? s.toList = none) :
      Reading s (.text s)

/-- A text is a numeral of a signed word when one is read from it. -/
theorem isWord_iff (s : String) : IsWord s ↔ (Numeral.readWord? s.toList).isSome = true := by
  simp only [IsWord, Option.isSome_iff_exists, Numeral.readWord?_eq_some_iff]

/-- Every text is read as one of these. -/
theorem reading_ofText (s : String) : Reading s (ofText s) := by
  unfold ofText
  dsimp only
  split
  · rename_i htrue
    exact .flag true htrue
  · rename_i htrue
    split
    · rename_i hfalse
      exact .flag false hfalse
    · rename_i hfalse
      have htruth : ¬IsTruth s := fun hmem => (List.mem_pair.mp hmem).elim htrue hfalse
      cases hread : Numeral.readWord? s.toList with
      | some n => exact .integer htruth (Numeral.readWord?_eq_some_iff.mp hread)
      | none =>
        have hword : ¬IsWord s := by simp [isWord_iff, hread]
        cases hreal : Binary64.read? s.toList with
        | some x => exact .real htruth hword hreal
        | none => exact .text htruth hword hreal

/-- A word for a truth value is no number. -/
theorem not_number_of_mem {s : String} (h : s ∈ ["true", "false"]) :
    ¬IsWord s ∧ Binary64.read? s.toList = none := by
  rw [isWord_iff]
  rcases List.mem_pair.mp h with rfl | rfl
  · decide
  · decide

/-- What a text has to be so that reading it and writing out the reading gives it back. -/
structure Verbatim (s : String) : Prop where
  /-- The words for the truth values are in small letters. -/
  truth : IsTruth s → s ∈ ["true", "false"]
  /-- A numeral of a signed word is the one that the word is written with. -/
  integer : ∀ n : Int64, Numeral.IsNumeral s.toList n.toInt → s.toList = Numeral.signed n.toInt
  /-- What else is read as a floating-point number is what that number is written with. -/
  real : ¬IsWord s → ∀ x, Binary64.read? s.toList = some x → s.toList = x.text

/-- Exactly these texts come through reading and writing unchanged. -/
theorem shown_ofText_eq_iff (s : String) : (ofText s).shown = s ↔ Verbatim s := by
  have hofList (cs : List Char) : String.ofList cs = s ↔ s.toList = cs := by
    rw [← String.toList_inj, String.toList_ofList]
    exact eq_comm
  have hreading := reading_ofText s
  generalize ofText s = v at hreading ⊢
  cases hreading with
  | flag b h =>
    constructor
    · intro hshown
      have hmem : s ∈ ["true", "false"] := by
        rw [← hshown, shown]
        cases b <;> decide
      obtain ⟨hword, hreal⟩ := not_number_of_mem hmem
      refine ⟨fun _ => hmem, fun n hn => absurd ⟨n, hn⟩ hword, fun _ x hx => ?_⟩
      rw [hreal] at hx
      cases hx
    · intro hverbatim
      have htruth : IsTruth s := by
        rw [IsTruth, h]
        cases b <;> decide
      rcases List.mem_pair.mp (hverbatim.truth htruth) with rfl | rfl
      · cases b with
        | true => rfl
        | false => exact absurd h (by decide)
      · cases b with
        | true => exact absurd h (by decide)
        | false => rfl
  | @integer n htruth h =>
    have hword : IsWord s := ⟨n, h⟩
    rw [shown, hofList]
    refine ⟨fun heq => ⟨fun ht => absurd ht htruth, fun k hk => ?_, fun hno => absurd hword hno⟩,
      fun hverbatim => hverbatim.integer n h⟩
    have hsame := (Numeral.readWord?_eq_some_iff.mpr h).symm.trans
      (Numeral.readWord?_eq_some_iff.mpr hk)
    rw [← Option.some.inj hsame]
    exact heq
  | @real x htruth hword h =>
    rw [shown, hofList]
    refine ⟨fun heq => ⟨fun ht => absurd ht htruth, fun n hn => absurd ⟨n, hn⟩ hword,
      fun _ y hy => ?_⟩, fun hverbatim => hverbatim.real hword x h⟩
    rw [← Option.some.inj (h.symm.trans hy)]
    exact heq
  | text htruth hword h =>
    refine iff_of_true rfl ⟨fun ht => absurd ht htruth, fun n hn => absurd ⟨n, hn⟩ hword,
      fun _ x hx => ?_⟩
    rw [h] at hx
    cases hx

end Scalar

end BoundSql
