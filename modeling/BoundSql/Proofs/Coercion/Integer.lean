import BoundSql.Coercion.Target
import BoundSql.Proofs.Number.Rounding

/-!
# Integers come of exact rounding

A number stands for the integer that it is rounded to, halves to even, and a text for the integer
that it is a numeral of. An integer kind takes that integer when it lies in the range of the kind
and among the signed words, and takes nothing otherwise: no integer wraps around, and none is moved
to an end of a range.
-/

namespace BoundSql

/-- The integer that a raw value stands for: itself, zero or one for a truth value, a number rounded
with halves to even, or what a trimmed text is a numeral of. -/
def Value.RoundsTo : Value → ℤ → Prop
  | .int m, n => m.toInt = n
  | .bool b, n => (if b then 1 else 0) = n
  | .float x, n => x.isFinite = true ∧ IsHalfEven x.exact n
  | .decimal d, n => IsHalfEven d.exact n
  | .text s, n => Numeral.IsNumeral (Text.trimmed s.toList) n
  | .null, _ | .blob _, _ | .date _, _ | .dateTime _, _ | .dateTimeOffset _, _ | .guid _, _ => False

/-- An integer belongs to a kind when it lies between the ends of its range. -/
theorem IntegerKind.holds_iff (k : IntegerKind) (z : ℤ) :
    k.holds z = true ↔ k.least ≤ z ∧ z ≤ k.greatest := by
  simp only [holds, Bool.and_eq_true, decide_eq_true_eq]

/-- A signed word belongs to the kind of signed words. -/
theorem IntegerKind.holds_int64 (n : Int64) : int64.holds n.toInt = true := by
  have hlow := n.le_toInt
  have hhigh := n.toInt_lt
  simp only [holds_iff, least, greatest]
  omega

namespace Convert

/-- The word of a value is the integer that the value stands for. -/
theorem word?_eq_some_iff (v : Value) (n : Int64) : word? v = some n ↔ v.RoundsTo n.toInt := by
  cases v with
  | int m => rw [word?, Option.some.injEq, Value.RoundsTo, Int64.toInt_inj]
  | bool b =>
    have hbit : (if b then 1 else 0 : Int64).toInt = if b then 1 else 0 := by
      cases b <;> rfl
    rw [word?, Option.some.injEq, Value.RoundsTo, ← hbit, Int64.toInt_inj]
  | float x =>
    rw [word?, Option.bind_eq_some_iff, Value.RoundsTo, ← x.round?_eq_some_iff]
    constructor
    · rintro ⟨z, hround, hword⟩
      rw [Numeral.word?_eq_some_iff.mp hword]
      exact hround
    · exact fun hround => ⟨n.toInt, hround, Numeral.word?_eq_some_iff.mpr rfl⟩
  | decimal d =>
    rw [word?, d.word?_eq_word?_round, Numeral.word?_eq_some_iff, Value.RoundsTo]
    constructor
    · rintro hround
      rw [hround]
      exact d.isHalfEven_round
    · exact fun hround => hround.unique d.isHalfEven_round
  | text s =>
    rw [word?, Value.RoundsTo]
    exact Numeral.readWord?_eq_some_iff
  | null | blob | date | dateTime | dateTimeOffset | guid => simp [word?, Value.RoundsTo]

/-- A blank value has no word. -/
theorem word?_of_isBlank {v : Value} (h : Engine.isBlank v = true) : word? v = none := by
  cases v with
  | null => rfl
  | text s =>
    have hempty : s = "" := by simpa [Engine.isBlank] using h
    subst hempty
    rfl
  | _ => exact absurd h Bool.false_ne_true

end Convert

namespace Engine

/-- An integer kind takes the word of a value when it is in range, whether the value is converted or
of the kind already. -/
theorem coerce_integer (k : IntegerKind) (raw : Value) :
    standard.coerce (.integer k) raw =
      ((Convert.word? raw).filter fun n => k.holds n.toInt).map .int := by
  unfold coerce
  split
  · rename_i hblank
    rw [Convert.word?_of_isBlank hblank]
    rfl
  · split
    · rename_i hkind
      cases raw with
      | int n =>
        obtain rfl : IntegerKind.int64 = k := Kind.integer.inj hkind
        simp only [Convert.word?, Option.filter_some, IntegerKind.holds_int64, if_true,
          Option.map_some]
      | _ => exact absurd hkind (by simp [Value.kind])
    · rfl

/-- What an integer kind takes is an integer of its range that the value stands for. -/
theorem coerce_integer_eq_some_iff (k : IntegerKind) (raw v : Value) :
    standard.coerce (.integer k) raw = some v ↔
      ∃ n : Int64, v = .int n ∧ k.holds n.toInt = true ∧ raw.RoundsTo n.toInt := by
  simp only [coerce_integer, Option.map_eq_some_iff, Option.filter_eq_some_iff,
    Convert.word?_eq_some_iff]
  constructor
  · rintro ⟨n, ⟨hround, hholds⟩, rfl⟩
    exact ⟨n, rfl, hholds, hround⟩
  · rintro ⟨n, rfl, hholds, hround⟩
    exact ⟨n, ⟨hround, hholds⟩, rfl⟩

/-- An integer kind takes exactly the integers of its range, and of the signed words, that a raw
value stands for. It takes nothing else and nothing from any other value, and a place of the kind
holds the integer that was taken. -/
theorem coerce_integer_exact (k : IntegerKind) (raw : Value) :
    (∀ z : ℤ, (∃ n : Int64, n.toInt = z ∧ standard.coerce (.integer k) raw = some (.int n)) ↔
      (k.least ≤ z ∧ z ≤ k.greatest) ∧ (-(2 ^ 63) ≤ z ∧ z < 2 ^ 63) ∧ raw.RoundsTo z) ∧
    (standard.coerce (.integer k) raw = none ↔
      ∀ z : ℤ, raw.RoundsTo z →
        ¬((k.least ≤ z ∧ z ≤ k.greatest) ∧ (-(2 ^ 63) ≤ z ∧ z < 2 ^ 63))) ∧
    (∀ v, standard.coerce (.integer k) raw = some v →
      ∃ n : Int64, v = .int n ∧ (Target.integer k).unwrap? v = some (.integer n)) := by
  have htaken (z : ℤ) :
      (∃ n : Int64, n.toInt = z ∧ standard.coerce (.integer k) raw = some (.int n)) ↔
        (k.least ≤ z ∧ z ≤ k.greatest) ∧ (-(2 ^ 63) ≤ z ∧ z < 2 ^ 63) ∧ raw.RoundsTo z := by
    constructor
    · rintro ⟨n, rfl, hcoerce⟩
      obtain ⟨_, hn, hholds, hround⟩ := (coerce_integer_eq_some_iff k raw _).mp hcoerce
      obtain rfl := Value.int.inj hn
      exact ⟨(k.holds_iff _).mp hholds, ⟨n.le_toInt, n.toInt_lt⟩, hround⟩
    · rintro ⟨hrange, hword, hround⟩
      have hz : (Int64.ofInt z).toInt = z := Int64.toInt_ofInt_of_le hword.1 hword.2
      have hholds : k.holds (Int64.ofInt z).toInt = true := by rwa [hz, k.holds_iff]
      have hrounded : raw.RoundsTo (Int64.ofInt z).toInt := by rwa [hz]
      exact ⟨Int64.ofInt z, hz,
        (coerce_integer_eq_some_iff k raw _).mpr ⟨_, rfl, hholds, hrounded⟩⟩
  refine ⟨htaken, ?_, ?_⟩
  · rw [Option.eq_none_iff_forall_ne_some]
    constructor
    · intro hnone z hround hrange
      obtain ⟨n, -, hcoerce⟩ := (htaken z).mpr ⟨hrange.1, hrange.2, hround⟩
      exact hnone _ hcoerce
    · intro hnone v hcoerce
      obtain ⟨n, rfl, hholds, hround⟩ := (coerce_integer_eq_some_iff k raw v).mp hcoerce
      exact hnone _ hround ⟨(k.holds_iff _).mp hholds, n.le_toInt, n.toInt_lt⟩
  · intro v hcoerce
    obtain ⟨n, rfl, hholds, -⟩ := (coerce_integer_eq_some_iff k raw v).mp hcoerce
    exact ⟨n, rfl, by rw [Target.unwrap?, if_pos hholds]⟩

-- 126.5 is a tie and goes to the even side; so does 127.5, and the kind does not hold 128.
example : standard.coerce (.integer .int8) (.float ⟨0x405FA00000000000⟩) = some (.int 126) ∧
    standard.coerce (.integer .int8) (.float ⟨0x405FE00000000000⟩) = none := by
  decide

end Engine

end BoundSql
