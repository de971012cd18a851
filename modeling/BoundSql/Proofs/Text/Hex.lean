import BoundSql.Proofs.Text.Blank
import BoundSql.Text.Literal
import Mathlib.Algebra.GroupWithZero.Nat

/-!
# Hexadecimal digits are read back

Two digits of a byte denote it, in capital and in small letters alike, so the digits of bytes denote
the bytes. No blank and no quote is among them.
-/

namespace BoundSql.Hex

/-- The letters that digits above nine can be counted from. -/
def letters : List Char := ['a', 'A']

variable {a : Char}

/-- A hexadecimal digit stands for its number. -/
theorem digitValue?_digit (ha : a ∈ letters) {n : Nat} (h : n < 16) :
    digitValue? (digit a n) = some n := by
  have hsmall : ∀ k < 16, digitValue? (digit 'a' k) = some k := by decide
  have hcapital : ∀ k < 16, digitValue? (digit 'A' k) = some k := by decide
  rcases List.mem_pair.mp ha with rfl | rfl
  · exact hsmall n h
  · exact hcapital n h

/-- The digits of bytes denote them. -/
theorem bytes?_flatMap_pair (ha : a ∈ letters) (bytes : List UInt8) :
    bytes? (bytes.flatMap (pair a)) = some bytes := by
  induction bytes with
  | nil => rfl
  | cons byte rest ih =>
    have hlt := byte.toNat_lt
    have hhigh : digitValue? (digit a (byte.toNat / 16)) = some (byte.toNat / 16) :=
      digitValue?_digit ha (by omega)
    have hlow : digitValue? (digit a (byte.toNat % 16)) = some (byte.toNat % 16) :=
      digitValue?_digit ha (by omega)
    have hbyte : UInt8.ofNat (16 * (byte.toNat / 16) + byte.toNat % 16) = byte := by
      rw [Nat.div_add_mod, UInt8.ofNat_toNat]
    have hdigits : (byte :: rest).flatMap (pair a) =
        digit a (byte.toNat / 16) :: digit a (byte.toNat % 16) :: rest.flatMap (pair a) := rfl
    simp only [hdigits, bytes?, hhigh, hlow, ih, Option.bind_eq_bind, Option.bind_some,
      Option.pure_def, hbyte]

/-- Every byte has two digits. -/
theorem length_flatMap_pair (bytes : List UInt8) :
    (bytes.flatMap (pair a)).length = 2 * bytes.length := by
  induction bytes with
  | nil => rfl
  | cons byte rest ih =>
    have hlength : ((byte :: rest).flatMap (pair a)).length =
        (rest.flatMap (pair a)).length + 2 := rfl
    rw [hlength, ih, List.length_cons]
    omega

/-- What bytes are written with are hexadecimal digits. -/
theorem exists_of_mem_flatMap_pair {bytes : List UInt8} {c : Char}
    (h : c ∈ bytes.flatMap (pair a)) : ∃ n < 16, c = digit a n := by
  obtain ⟨byte, -, hc⟩ := List.mem_flatMap.mp h
  have hlt := byte.toNat_lt
  simp only [pair, List.mem_cons, List.not_mem_nil, or_false] at hc
  rcases hc with rfl | rfl
  · exact ⟨_, by omega, rfl⟩
  · exact ⟨_, by omega, rfl⟩

/-- The digits of bytes are not blank. -/
theorem isBlank_of_mem_flatMap_pair (ha : a ∈ letters) {bytes : List UInt8} {c : Char}
    (h : c ∈ bytes.flatMap (pair a)) : Text.isBlank c = false := by
  have hsmall : ∀ k < 16, Text.isBlank (digit 'a' k) = false := by decide
  have hcapital : ∀ k < 16, Text.isBlank (digit 'A' k) = false := by decide
  obtain ⟨n, hn, rfl⟩ := exists_of_mem_flatMap_pair h
  rcases List.mem_pair.mp ha with rfl | rfl
  · exact hsmall n hn
  · exact hcapital n hn

/-- The digits of bytes hold no quote, as a quote is no digit. -/
theorem quote_not_mem_flatMap_pair (ha : a ∈ letters) (bytes : List UInt8) :
    '\'' ∉ bytes.flatMap (pair a) := by
  intro hmem
  obtain ⟨n, hn, hquote⟩ := exists_of_mem_flatMap_pair hmem
  have hdigit := digitValue?_digit ha hn
  rw [← hquote] at hdigit
  have hnone : digitValue? '\'' = none := by decide
  exact Option.some_ne_none n (hdigit.symm.trans hnone)

end BoundSql.Hex
