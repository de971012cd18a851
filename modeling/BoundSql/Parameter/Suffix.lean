import BoundSql.Parameter.Token
import BoundSql.Text.Numeral

/-!
# Suffixes of generated names

A generated parameter name ends in six letters or digits that are drawn from outside. A set of
parameters is handed its suffixes as a function of its counter, which no two draws of one set share;
nothing about the names depends on which suffixes come.
-/

namespace BoundSql

/-- Whether a character is an ASCII letter or digit. -/
def isAlphanumeric (c : Char) : Bool :=
  Token.isWord c && c != '_'

/-- Six letters or digits. -/
structure Suffix where
  /-- The characters. -/
  chars : List Char
  /-- There are six of them. -/
  length_eq : chars.length = 6
  /-- Each is a letter or a digit. -/
  alphanumeric : ∀ c ∈ chars, isAlphanumeric c = true

/-- The suffixes handed to a set, by the value of its counter. -/
abbrev Supply := Nat → Suffix

namespace Suffix

/-- The digits with which numbers are spelled as suffixes. -/
def digit (n : Nat) : Char :=
  let k := n % 36
  if k < 10 then Char.ofNat (48 + k) else Char.ofNat (87 + k)

/-- Every spelling digit is a letter or a digit. -/
theorem isAlphanumeric_digit (n : Nat) : isAlphanumeric (digit n) = true := by
  have bound : ∀ k, k < 36 → isAlphanumeric (digit k) = true := by decide
  have same : digit n = digit (n % 36) := by simp [digit]
  rw [same]
  exact bound _ (Nat.mod_lt _ (by decide))

/-- The suffix that spells a number with its last six digits to the base thirty-six. -/
def ofNumber (n : Nat) : Suffix where
  chars := [digit (n / 36 ^ 5), digit (n / 36 ^ 4), digit (n / 36 ^ 3), digit (n / 36 ^ 2),
    digit (n / 36), digit n]
  length_eq := rfl
  alphanumeric := by
    intro c hc
    simp only [List.mem_cons, List.not_mem_nil, or_false] at hc
    rcases hc with rfl | rfl | rfl | rfl | rfl | rfl <;> exact isAlphanumeric_digit _

end Suffix

/-- Suffixes that spell consecutive numbers; those of different series differ for the first
thousands of draws. -/
def Supply.series (k : Nat) : Supply :=
  fun n => Suffix.ofNumber (k * 46656 + n)

end BoundSql
