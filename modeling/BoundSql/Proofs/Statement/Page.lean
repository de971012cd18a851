import BoundSql.Statement.Page
import Mathlib.Order.Interval.Finset.Nat

/-!
# Pages divide the rows

The bounds of a page are computed in words of sixty-four bits, and no page reaches their end. A row
stands on the page whose place is the number of whole pages in front of the row, so the pages of one
size share out the row numbers from one on: no row is left out and none comes twice.
-/

namespace BoundSql.Page

/-- The row numbers on a page, strictly between its bounds. -/
def rows (p : Page) : Finset ℕ :=
  Finset.Ioo p.lower.toNat p.upper.toNat

/-- As many pages of the greatest size as there are places do not fill a word. -/
theorem size_mul_index_le (p : Page) :
    p.size.toNat * p.index.toNat ≤ (2 ^ 32 - 1) * (2 ^ 32 - 1) := by
  have hsize := p.size.toNat_lt
  have hindex := p.index.toNat_lt
  exact Nat.mul_le_mul (by omega) (by omega)

/-- The lower bound is the number of rows on the pages before, without overflow. -/
theorem toNat_lower (p : Page) : p.lower.toNat = p.size.toNat * p.index.toNat := by
  have hbound := p.size_mul_index_le
  rw [lower, UInt64.toNat_mul, UInt32.toNat_toUInt64, UInt32.toNat_toUInt64]
  exact Nat.mod_eq_of_lt (by omega)

/-- The upper bound lies one beyond the last row of the page, without overflow. -/
theorem toNat_upper (p : Page) :
    p.upper.toNat = p.size.toNat * p.index.toNat + p.size.toNat + 1 := by
  have hbound := p.size_mul_index_le
  have hsize := p.size.toNat_lt
  have hsum : (p.lower + p.size.toUInt64).toNat = p.size.toNat * p.index.toNat + p.size.toNat := by
    rw [UInt64.toNat_add, p.toNat_lower, UInt32.toNat_toUInt64]
    exact Nat.mod_eq_of_lt (by omega)
  rw [upper, UInt64.toNat_add, hsum]
  exact Nat.mod_eq_of_lt (by simp; omega)

/-- A row is on a page exactly when the page is as many whole pages into the rows as the row. -/
theorem mem_rows_iff {p : Page} {r : ℕ} :
    r ∈ p.rows ↔ 0 < p.size.toNat ∧ 0 < r ∧ (r - 1) / p.size.toNat = p.index.toNat := by
  rw [rows, Finset.mem_Ioo, p.toNat_lower, p.toNat_upper]
  rcases Nat.eq_zero_or_pos p.size.toNat with hsize | hsize
  · rw [hsize]
    omega
  · rw [Nat.div_eq_iff hsize, Nat.mul_comm p.size.toNat]
    omega

/-- A page has as many rows as its size says. -/
theorem card_rows (p : Page) : p.rows.card = p.size.toNat := by
  rw [rows, Nat.card_Ioo, p.toNat_lower, p.toNat_upper]
  omega

/-- The pages of one size share out the rows. The bounds of every page are the numbers they stand
for, as no step of their computation leaves the word; every page has as many rows as its size says;
a row is on exactly one page if its number lies between one and the size times the number of places,
and on none otherwise; where one page ends the next one begins; and pages of size zero are empty. -/
theorem rows_partition (size : UInt32) :
    (∀ index : UInt32,
      (Page.mk size index).lower.toNat = size.toNat * index.toNat ∧
        (Page.mk size index).upper.toNat = size.toNat * index.toNat + size.toNat + 1 ∧
        (Page.mk size index).rows.card = size.toNat) ∧
      (∀ r : ℕ, (1 ≤ r ∧ r ≤ size.toNat * 2 ^ 32) ↔ ∃! index, r ∈ (Page.mk size index).rows) ∧
      (∀ index next : UInt32, next.toNat = index.toNat + 1 →
        (Page.mk size index).upper.toNat = (Page.mk size next).lower.toNat + 1) ∧
      (size = 0 → ∀ index, (Page.mk size index).rows = ∅) := by
  refine ⟨fun index => ⟨toNat_lower _, toNat_upper _, card_rows _⟩, fun r => ⟨?_, ?_⟩, ?_, ?_⟩
  · rintro ⟨hone, hlast⟩
    have hsize : 0 < size.toNat := by
      by_contra hzero
      omega
    have hplace : (r - 1) / size.toNat < 2 ^ 32 := by
      rw [Nat.div_lt_iff_lt_mul hsize, Nat.mul_comm]
      omega
    refine ⟨UInt32.ofNat ((r - 1) / size.toNat), ?_, fun index hindex => ?_⟩
    · exact mem_rows_iff.mpr ⟨hsize, hone, (UInt32.toNat_ofNat_of_lt' hplace).symm⟩
    · have hsame := (mem_rows_iff.mp hindex).2.2
      rw [hsame]
      exact UInt32.ofNat_toNat.symm
  · rintro ⟨index, hrow, -⟩
    have hplace : 0 < size.toNat ∧ 0 < r ∧ (r - 1) / size.toNat = index.toNat :=
      mem_rows_iff.mp hrow
    obtain ⟨hsize, hone, hplace⟩ := hplace
    have hlast : (r - 1) / size.toNat < 2 ^ 32 := hplace ▸ index.toNat_lt
    rw [Nat.div_lt_iff_lt_mul hsize, Nat.mul_comm] at hlast
    exact ⟨hone, by omega⟩
  · intro index next hnext
    rw [toNat_upper, toNat_lower, hnext, Nat.mul_add, Nat.mul_one]
  · rintro rfl index
    exact Finset.card_eq_zero.mp (card_rows _)

/-- The last page of the greatest size begins where the one before it ends, and ends within a word;
and no row is on a page of size zero. -/
theorem rows_partition_last :
    let last : UInt32 := 0xFFFFFFFF
    let before : UInt32 := 0xFFFFFFFE
    last.toNat = before.toNat + 1 ∧
      (Page.mk last before).upper.toNat = (Page.mk last last).lower.toNat + 1 ∧
      (Page.mk last last).upper = 0xFFFFFFFF00000001 ∧ (Page.mk 0 last).rows = ∅ := by
  intro last before
  have hnext : last.toNat = before.toNat + 1 := by decide
  have hmeet := (rows_partition last).2.2.1 before last hnext
  have hempty := (rows_partition 0).2.2.2 rfl last
  exact ⟨hnext, hmeet, by decide, hempty⟩

end BoundSql.Page
