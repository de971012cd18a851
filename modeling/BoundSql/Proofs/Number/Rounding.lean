import BoundSql.Number.Decimal
import BoundSql.Proofs.Text.Numeral
import Mathlib.Algebra.Order.Field.Power
import Mathlib.Algebra.Order.Round
import Mathlib.Data.Rat.Floor
import Mathlib.Tactic.FieldSimp
import Mathlib.Tactic.Linarith
import Mathlib.Tactic.NormNum
import Mathlib.Tactic.Positivity
import Mathlib.Tactic.Ring

/-!
# Numbers are rounded exactly once

A floating-point value and a decimal each stand for one rational number. An integer is such a
number rounded with halves to even when it lies within a half of it, and is even when it lies a half
away. There is one such integer, and it is the one that rounding gives: for the quotients of natural
numbers, and so for floating-point values and for decimals of any scale.
-/

namespace BoundSql

/-- An integer is a rational number rounded to the nearest integer, halves to even. -/
def IsHalfEven (q : ℚ) (n : ℤ) : Prop :=
  |q - n| ≤ 1 / 2 ∧ (|q - n| = 1 / 2 → Even n)

namespace IsHalfEven

/-- Rounding is symmetric about zero. -/
theorem neg {q : ℚ} {n : ℤ} (h : IsHalfEven q n) : IsHalfEven (-q) (-n) := by
  have hdistance : |-q - ((-n : ℤ) : ℚ)| = |q - n| := by
    rw [Int.cast_neg, neg_sub_neg, abs_sub_comm]
  rw [IsHalfEven, hdistance, even_neg]
  exact h

/-- A number is rounded to one integer only: two of them would be a half away on either side of it,
and of two neighbours one is odd. -/
theorem unique {q : ℚ} {m n : ℤ} (hm : IsHalfEven q m) (hn : IsHalfEven q n) : m = n := by
  wlog hlt : m < n generalizing m n
  · rcases lt_or_eq_of_le (not_lt.mp hlt) with hgt | heq
    · exact (this hn hm hgt).symm
    · exact heq.symm
  have hnext : (m : ℚ) + 1 ≤ n := by exact_mod_cast hlt
  have hbelow := (abs_le.mp hm.1).2
  have habove := (abs_le.mp hn.1).1
  have hhalf : q - m = 1 / 2 ∧ q - n = -(1 / 2) := by constructor <;> linarith
  have heq : n = m + 1 := by
    have hcast : (n : ℚ) = m + 1 := by linarith
    exact_mod_cast hcast
  have hmeven : Even m := hm.2 (by rw [hhalf.1]; norm_num)
  have hneven : Even n := hn.2 (by rw [hhalf.2]; norm_num)
  obtain ⟨a, ha⟩ := hmeven
  obtain ⟨b, hb⟩ := hneven
  omega

/-- An integer is rounded to itself. -/
theorem intCast (n : ℤ) : IsHalfEven n n := by
  simp [IsHalfEven]

/-- What lies closer than a half is what a number is rounded to. -/
theorem of_lt {q : ℚ} {n : ℤ} (h : |q - n| < 1 / 2) : IsHalfEven q n :=
  ⟨h.le, fun heq => absurd heq h.ne⟩

variable {n : ℤ} {share : ℚ}

/-- Less than a half behind the point is dropped. -/
theorem below (hnonneg : 0 ≤ share) (h : 2 * share < 1) : IsHalfEven (n + share) n := by
  refine of_lt ?_
  rw [add_sub_cancel_left, abs_of_nonneg hnonneg]
  linarith

/-- More than a half behind the point is filled up. -/
theorem above (hlt : share < 1) (h : 1 < 2 * share) : IsHalfEven (n + share) (n + 1 : ℤ) := by
  refine of_lt ?_
  have hdistance : (n : ℚ) + share - (n + 1 : ℤ) = share - 1 := by
    push_cast
    ring
  rw [hdistance, abs_of_neg (by linarith)]
  linarith

/-- A half behind an even integer is dropped. -/
theorem tie_even (heven : Even n) (h : 2 * share = 1) : IsHalfEven (n + share) n := by
  refine ⟨?_, fun _ => heven⟩
  rw [add_sub_cancel_left, abs_of_nonneg (by linarith)]
  linarith

/-- A half behind an odd integer is filled up. -/
theorem tie_odd (hodd : Odd n) (h : 2 * share = 1) : IsHalfEven (n + share) (n + 1 : ℤ) := by
  have hdistance : (n : ℚ) + share - (n + 1 : ℤ) = -(1 / 2) := by
    push_cast
    linarith
  refine ⟨?_, fun _ => hodd.add_one⟩
  rw [hdistance, abs_neg, abs_of_pos (by norm_num)]

end IsHalfEven

namespace Rounding

/-- A quotient of natural numbers is rounded with halves to even. -/
theorem isHalfEven_halfEven (num : ℕ) {den : ℕ} (hden : 0 < den) :
    IsHalfEven ((num : ℚ) / den) (halfEven num den : ℕ) := by
  have hpos : (0 : ℚ) < den := by exact_mod_cast hden
  have hsplit : (num : ℚ) / den = ((num / den : ℕ) : ℤ) + (num % den : ℕ) / (den : ℚ) := by
    have hdivision : (num : ℚ) = den * (num / den : ℕ) + (num % den : ℕ) := by
      exact_mod_cast (Nat.div_add_mod num den).symm
    rw [Int.cast_natCast, div_eq_iff hpos.ne', add_mul, div_mul_cancel₀ _ hpos.ne',
      mul_comm _ (den : ℚ)]
    exact hdivision
  -- The part behind the point is the remainder's share of the denominator.
  generalize hfloor : num / den = floor at hsplit
  generalize hrest : num % den = rest at hsplit
  have hrest_lt : rest < den := hrest ▸ Nat.mod_lt num hden
  have hnonneg : (0 : ℚ) ≤ rest / den := by positivity
  have hlt : (rest : ℚ) / den < 1 := (div_lt_one hpos).mpr (by exact_mod_cast hrest_lt)
  have htwice : 2 * ((rest : ℚ) / den) = ((2 * rest : ℕ) : ℚ) / den := by
    rw [Nat.cast_mul, Nat.cast_ofNat, mul_div_assoc]
  unfold halfEven
  dsimp only
  rw [hfloor, hrest, hsplit]
  split_ifs with hless hmore heven
  · refine IsHalfEven.below hnonneg ?_
    rw [htwice, div_lt_one hpos]
    exact_mod_cast hless
  · refine IsHalfEven.above hlt ?_
    rw [htwice, one_lt_div hpos]
    exact_mod_cast hmore
  all_goals
    have htie : 2 * ((rest : ℚ) / den) = 1 := by
      have heq : 2 * rest = den := by omega
      rw [htwice, heq, div_self hpos.ne']
  · exact IsHalfEven.tie_even ((Int.even_coe_nat floor).mpr (Nat.even_iff.mpr heven)) htie
  · have hodd : Odd (floor : ℤ) := (Int.odd_coe_nat floor).mpr (Nat.odd_iff.mpr (by omega))
    exact IsHalfEven.tie_odd hodd htie

/-- A quotient with a sign is rounded with halves to even. -/
theorem isHalfEven_halfEvenInt (num : ℤ) {den : ℕ} (hden : 0 < den) :
    IsHalfEven ((num : ℚ) / den) (halfEvenInt num den) := by
  have hmagnitude := isHalfEven_halfEven num.natAbs hden
  unfold halfEvenInt
  split
  · have hnum : (num : ℚ) / den = -((num.natAbs : ℚ) / den) := by
      rw [Nat.cast_natAbs, abs_of_neg (by omega), Int.cast_neg, neg_div, neg_neg]
    rw [hnum]
    exact hmagnitude.neg
  · have hnum : (num : ℚ) / den = (num.natAbs : ℚ) / den := by
      rw [Nat.cast_natAbs, abs_of_nonneg (by omega)]
    rw [hnum]
    exact hmagnitude

/-- A power with an exponent of either sign is a quotient of two natural powers, one of which
is one. -/
theorem zpow_eq_div (a : ℚ) (e : ℤ) : a ^ e = a ^ e.toNat / a ^ (-e).toNat := by
  rcases Int.le_total 0 e with h | h
  · obtain ⟨k, rfl⟩ := Int.eq_ofNat_of_zero_le h
    simp
  · obtain ⟨k, hk⟩ := Int.eq_ofNat_of_zero_le (Int.neg_nonneg_of_nonpos h)
    obtain rfl : e = -(k : ℤ) := by omega
    simp

end Rounding

namespace Binary64

/-- The rational number that a finite floating-point value stands for. -/
def exact (x : Binary64) : ℚ :=
  (if x.negative then -1 else 1) * x.significand * (2 : ℚ) ^ x.power

/-- A finite floating-point value is rounded with halves to even, and no other one is. -/
theorem round?_eq_some_iff (x : Binary64) (n : ℤ) :
    x.round? = some n ↔ x.isFinite = true ∧ IsHalfEven x.exact n := by
  have hmagnitude : (x.significand : ℚ) * (2 : ℚ) ^ x.power =
      (x.significand * 2 ^ x.power.toNat : ℕ) / (2 ^ (-x.power).toNat : ℕ) := by
    rw [Rounding.zpow_eq_div 2]
    push_cast
    ring
  have hrounded := Rounding.isHalfEven_halfEven (x.significand * 2 ^ x.power.toNat)
    (Nat.two_pow_pos (-x.power).toNat)
  rw [← hmagnitude] at hrounded
  generalize hn : Rounding.halfEven (x.significand * 2 ^ x.power.toNat)
    (2 ^ (-x.power).toNat) = rounded at hrounded
  have hexact : IsHalfEven x.exact (if x.negative then -(rounded : ℤ) else rounded) := by
    unfold exact
    split
    · rw [neg_one_mul, neg_mul]
      exact hrounded.neg
    · rw [one_mul]
      exact hrounded
  have hround : x.round? = if x.isFinite = true then
      some (if x.negative then -(rounded : ℤ) else rounded) else none := by
    rw [← hn]
    rfl
  rw [hround]
  split
  · rename_i hfinite
    rw [Option.some.injEq]
    exact ⟨fun heq => ⟨hfinite, heq ▸ hexact⟩, fun h => hexact.unique h.2⟩
  · rename_i hinfinite
    exact ⟨fun heq => (nomatch heq), fun h => absurd h.1 hinfinite⟩

end Binary64

namespace Decimal

/-- The rational number that a decimal stands for. -/
def exact (d : Decimal) : ℚ :=
  d.unscaled / (10 : ℚ) ^ d.scale

/-- The magnitude of a decimal lies between two powers of ten that differ by one place. -/
theorem abs_exact_bounds {d : Decimal} (h : d.unscaled ≠ 0) :
    (10 : ℚ) ^ (((Numeral.digits d.unscaled.natAbs).length : ℤ) - 1 - d.scale) ≤ |d.exact| ∧
      |d.exact| < (10 : ℚ) ^ (((Numeral.digits d.unscaled.natAbs).length : ℤ) - d.scale) := by
  have hscale : (0 : ℚ) < (10 : ℚ) ^ d.scale := by positivity
  have hbounds := Numeral.length_digits_bounds (Int.natAbs_ne_zero.mpr h)
  have hne := Numeral.digits_ne_nil d.unscaled.natAbs
  generalize Numeral.digits d.unscaled.natAbs = ds at hbounds hne ⊢
  have hlength : ((ds.length : ℤ) - 1) = ((ds.length - 1 : ℕ) : ℤ) := by
    have hpos := List.length_pos_of_ne_nil hne
    omega
  have habs : |d.exact| = (d.unscaled.natAbs : ℚ) / (10 : ℚ) ^ d.scale := by
    rw [exact, abs_div, abs_of_pos hscale, ← Int.cast_abs, Int.abs_eq_natAbs, Int.cast_natCast]
  rw [habs, hlength]
  constructor
  · rw [zpow_sub₀ (by norm_num), zpow_natCast]
    gcongr
    exact_mod_cast hbounds.1
  · rw [zpow_sub₀ (by norm_num), zpow_natCast]
    gcongr
    exact_mod_cast hbounds.2

/-- A decimal of any scale is rounded with halves to even. -/
theorem isHalfEven_round (d : Decimal) : IsHalfEven d.exact d.round := by
  by_cases hzero : d.unscaled = 0
  · have hround : d.round = 0 := by simp [round, hzero]
    have hexact : d.exact = ((0 : ℤ) : ℚ) := by simp [exact, hzero]
    rw [hround, hexact]
    exact IsHalfEven.intCast 0
  · by_cases hsmall : d.scale > (Numeral.digits d.unscaled.natAbs).length
    · have hround : d.round = 0 := by simp [round, hsmall]
      have hexponent : ((Numeral.digits d.unscaled.natAbs).length : ℤ) - d.scale ≤ -1 := by omega
      have htenth : |d.exact| < (10 : ℚ) ^ (-1 : ℤ) :=
        (abs_exact_bounds hzero).2.trans_le (zpow_le_zpow_right₀ (by norm_num) hexponent)
      rw [hround]
      refine IsHalfEven.of_lt ?_
      rw [Int.cast_zero, sub_zero]
      exact htenth.trans (by norm_num)
    · have hround : d.round = Rounding.halfEvenInt (d.unscaled * 10 ^ (-d.scale).toNat)
          (10 ^ d.scale.toNat) := by
        simp [round, hzero, hsmall]
      have hexact : d.exact =
          (d.unscaled * 10 ^ (-d.scale).toNat : ℤ) / (10 ^ d.scale.toNat : ℕ) := by
        rw [exact, Rounding.zpow_eq_div 10]
        push_cast
        field_simp
      rw [hround, hexact]
      exact Rounding.isHalfEven_halfEvenInt _ (Nat.pow_pos (by decide))

/-- A decimal that is told to be vast by its digits alone lies outside the signed words. -/
theorem word?_round_of_isVast {d : Decimal} (h : d.isVast = true) :
    Numeral.word? d.round = none := by
  simp only [isVast, Bool.and_eq_true, bne_iff_ne, decide_eq_true_eq] at h
  obtain ⟨hzero, hvast⟩ := h
  have hexponent :
      30 ≤ ((Numeral.digits d.unscaled.natAbs).length : ℤ) - 1 - d.scale := by omega
  have hmagnitude : (10 : ℚ) ^ (30 : ℤ) ≤ |d.exact| :=
    (zpow_le_zpow_right₀ (by norm_num) hexponent).trans (abs_exact_bounds hzero).1
  have hdistance := (isHalfEven_round d).1
  have hfar : (2 : ℚ) ^ 63 < |(d.round : ℚ)| := by
    have htriangle : |d.exact| ≤ |d.exact - d.round| + |(d.round : ℚ)| := by
      simpa using abs_add_le (d.exact - d.round) d.round
    have hpowers : (2 : ℚ) ^ 63 + 1 < (10 : ℚ) ^ (30 : ℤ) := by norm_num
    linarith
  have hout : 2 ^ 63 < |d.round| := by exact_mod_cast hfar
  rw [Numeral.word?_eq_none_iff]
  rintro ⟨hlow, hhigh⟩
  exact absurd (abs_le.mpr ⟨hlow, hhigh.le⟩) (not_le.mpr hout)

/-- A decimal is turned into the signed word that it is rounded to. -/
theorem word?_eq_word?_round (d : Decimal) : d.word? = Numeral.word? d.round := by
  unfold word?
  split
  · rename_i hvast
    exact (word?_round_of_isVast hvast).symm
  · rfl

end Decimal

end BoundSql
