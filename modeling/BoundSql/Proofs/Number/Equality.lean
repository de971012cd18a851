import BoundSql.Proofs.Number.DecimalText
import BoundSql.Proofs.Number.Figure
import BoundSql.Proofs.Number.Rounding

/-!
# Equal numbers

Decimals are equal when they are the same rational number, and floating-point values when they are
the same value or both zeros. What is made of a number is therefore the same for equal numbers; how
a number is written is not, and only one decimal is written as a single digit one.
-/

namespace BoundSql

namespace Decimal

/-- A number is what is left of it once powers of ten are stripped off, times those powers. -/
theorem stripTens_spec (n : Nat) : (stripTens n).1 * 10 ^ (stripTens n).2 = n := by
  fun_induction stripTens n with
  | case1 n h m k hstrip ih =>
    rw [hstrip] at ih
    dsimp only at ih ⊢
    rw [Nat.pow_succ, ← Nat.mul_assoc, ih]
    exact Nat.div_mul_cancel (Nat.dvd_of_mod_eq_zero h.2)
  | case2 n h => simp

/-- A decimal that is not zero has zeros behind the digits of its least scale. -/
theorem exists_eq_normal_mul_pow {d : Decimal} (h : d.unscaled ≠ 0) :
    ∃ k : ℕ, d = ⟨d.normal.unscaled * 10 ^ k, d.normal.scale + k⟩ := by
  have hstrip := stripTens_spec d.unscaled.natAbs
  refine ⟨(stripTens d.unscaled.natAbs).2, ?_⟩
  generalize hfound : stripTens d.unscaled.natAbs = found at hstrip ⊢
  have hmagnitude : (found.1 : ℤ) * 10 ^ found.2 = |d.unscaled| := by
    rw [Int.abs_eq_natAbs, ← hstrip]
    push_cast
    rfl
  have hnormal : d.normal =
      ⟨if d.unscaled < 0 then -(found.1 : ℤ) else found.1, d.scale - found.2⟩ := by
    simp only [normal, if_neg h, hfound]
  have hunscaled : d.unscaled = d.normal.unscaled * 10 ^ found.2 := by
    rw [hnormal]
    dsimp only
    split
    · rw [Int.neg_mul, hmagnitude, abs_of_neg (by assumption), Int.neg_neg]
    · rw [hmagnitude, abs_of_nonneg (by omega)]
  have hscale : d.scale = d.normal.scale + found.2 := by
    rw [hnormal]
    dsimp only
    omega
  rw [← hunscaled, ← hscale]

/-- Zeros behind the digits, with as many places more, leave the number as it is. -/
theorem exact_mul_pow (unscaled scale : ℤ) (k : ℕ) :
    exact ⟨unscaled * 10 ^ k, scale + k⟩ = exact ⟨unscaled, scale⟩ := by
  simp only [exact]
  rw [zpow_add₀ (by norm_num), zpow_natCast]
  push_cast
  field_simp

/-- The least scale belongs to the same number. -/
theorem exact_normal (d : Decimal) : d.normal.exact = d.exact := by
  by_cases hzero : d.unscaled = 0
  · simp [normal, exact, hzero]
  · obtain ⟨k, hk⟩ := exists_eq_normal_mul_pow hzero
    calc d.normal.exact = exact ⟨d.normal.unscaled * 10 ^ k, d.normal.scale + k⟩ :=
        (exact_mul_pow _ _ k).symm
      _ = d.exact := by rw [← hk]

/-- Decimals are equal exactly when they are the same number. -/
theorem same_iff_exact_eq (a b : Decimal) : a.same b = true ↔ a.exact = b.exact := by
  rw [same, beq_iff_eq]
  constructor
  · intro hnormal
    rw [← exact_normal a, hnormal, exact_normal]
  · intro hexact
    -- the one of the greater scale has the digits of the other and zeros behind them
    wlog hscale : b.scale ≤ a.scale generalizing a b
    · exact (this b a hexact.symm (by omega)).symm
    · obtain ⟨k, hk⟩ := Int.le.dest hscale
      have hunscaled : a.unscaled = b.unscaled * 10 ^ k := by
        have hpow : (10 : ℚ) ^ b.scale ≠ 0 := by positivity
        rw [exact, exact, ← hk, zpow_add₀ (by norm_num), zpow_natCast] at hexact
        field_simp at hexact
        rw [mul_comm]
        exact_mod_cast hexact
      calc a.normal = normal ⟨b.unscaled * 10 ^ k, b.scale + k⟩ := by rw [← hunscaled, hk]
        _ = b.normal := normal_mul_pow _ _ k

/-- Of the numerals of a magnitude, only that of one without places is the digit one. -/
theorem magnitudeText_eq_one {n : ℕ} {scale : ℤ} (h : magnitudeText n scale = ['1']) :
    n = 1 ∧ scale = 0 := by
  unfold magnitudeText at h
  dsimp only at h
  split_ifs at h with hsmall hlarge hzeros
  · have hmark : 'E' ∈ scientific (Numeral.digits n)
        ((Numeral.digits n).length - 1 - scale) := by
      simp [scientific]
    rw [h] at hmark
    exact absurd hmark (by decide)
  · have hmark : 'e' ∈ Numeral.digits n ++ 'e' :: '+' :: Numeral.digits (-scale).toNat := by simp
    rw [h] at hmark
    exact absurd hmark (by decide)
  · have hlength := congrArg List.length h
    have hpos := List.length_pos_of_ne_nil (Numeral.digits_ne_nil n)
    simp only [List.length_append, List.length_replicate, List.length_singleton] at hlength
    have hscale : (-scale).toNat = 0 := by omega
    rw [hscale, List.replicate_zero, List.append_nil] at h
    have hvalue := Numeral.value_digits n
    rw [h] at hvalue
    exact ⟨hvalue.symm, by omega⟩
  · have hpoint : '.' ∈ plainFraction (Numeral.digits n) scale.toNat := by
      unfold plainFraction
      split <;> simp
    rw [h] at hpoint
    exact absurd hpoint (by decide)

/-- Only the number one of scale zero is written as the digit one. -/
theorem text_eq_one_iff (d : Decimal) : d.text = ['1'] ↔ d = ⟨1, 0⟩ := by
  constructor
  · intro h
    unfold text at h
    dsimp only at h
    split_ifs at h with hzero hneg
    · exact absurd h (by decide)
    · exact absurd (List.cons.inj h).1 (by decide)
    · obtain ⟨hone, hscale⟩ := magnitudeText_eq_one h
      rw [← show (⟨d.unscaled, d.scale⟩ : Decimal) = d from rfl, Decimal.mk.injEq]
      omega
  · rintro rfl
    have hdigits : Numeral.digits 1 = ['1'] := Numeral.digits_of_lt (by decide)
    simp [text, magnitudeText, hdigits, leadingZeroLimit, trailingZeroLimit]

end Decimal

namespace Binary64

variable {x y : Binary64}

/-- Equal floating-point values are the same value, or both are zeros. -/
theorem eq_or_isZero_of_same (h : x.same y = true) : x = y ∨ x.isZero = true ∧ y.isZero = true := by
  simp only [same, Bool.and_eq_true, Bool.or_eq_true, beq_iff_eq] at h
  exact h.2

/-- A zero is a number without a significand. -/
theorem isZero_iff : x.isZero = true ↔ x.isFinite = true ∧ x.significand = 0 := by
  rw [isZero, Bool.and_eq_true, beq_iff_eq]

/-- What is a number is not what stands for none. -/
theorem not_isNaN_of_isFinite (h : x.isFinite = true) : x.isNaN = false := by
  simp only [isFinite, FloatFormat.isFinite, bne_iff_ne] at h
  simp [isNaN, FloatFormat.isNaN, h]

/-- A zero stands for the number zero. -/
theorem exact_of_isZero (h : x.isZero = true) : x.isFinite = true ∧ x.exact = 0 := by
  obtain ⟨hfinite, hsignificand⟩ := isZero_iff.mp h
  exact ⟨hfinite, by simp [exact, hsignificand]⟩

/-- A zero is the decimal zero, whatever its sign. -/
theorem ofBinary?_of_isZero (h : x.isZero = true) : Decimal.ofBinary? x = some ⟨0, 0⟩ := by
  obtain ⟨hfinite, hsignificand⟩ := isZero_iff.mp h
  simp [Decimal.ofBinary?, hfinite, hsignificand]

/-- A zero is written as the digit zero, behind a sign if it has one. -/
theorem text_of_isZero (h : x.isZero = true) : x.text = ['0'] ∨ x.text = ['-', '0'] := by
  obtain ⟨hfinite, hsignificand⟩ := isZero_iff.mp h
  simp only [text, not_isNaN_of_isFinite hfinite, hfinite, hsignificand]
  cases x.negative <;> simp

end Binary64

end BoundSql
