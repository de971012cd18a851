import BoundSql.Text.Blank
import BoundSql.Text.Numeral
import Mathlib.Data.List.Basic
import Mathlib.Data.Nat.Digits.Lemmas

/-!
# Numerals denote what they were written for

The digits of a number are ASCII digits that denote it again, with or without zeros in front. A
number has as many digits as its size needs. An integer is read from its numerals and from no other
text, and it is a signed word when it lies in their range.
-/

namespace BoundSql.Numeral

/-- The code points of the digits. -/
theorem toNat_of_isDigit {c : Char} (h : isDigit c = true) : 48 ≤ c.toNat ∧ c.toNat ≤ 57 := by
  simp only [isDigit, Bool.and_eq_true, decide_eq_true_eq, Char.le_def,
    UInt32.le_iff_toNat_le] at h
  exact h

/-- No digit is blank. -/
theorem isBlank_of_isDigit {c : Char} (h : isDigit c = true) : Text.isBlank c = false := by
  have hrange := toNat_of_isDigit h
  simp only [Text.isBlank, Bool.or_eq_false_iff, Bool.and_eq_false_iff, decide_eq_false_iff_not,
    beq_eq_false_iff_ne]
  omega

/-- The digit of a number below ten is a digit. -/
theorem isDigit_digit {n : Nat} (h : n < 10) : isDigit (digit n) = true := by
  have hall : ∀ k < 10, isDigit (digit k) = true := by decide
  exact hall n h

/-- The digit of a number below ten stands for that number. -/
theorem digitValue_digit {n : Nat} (h : n < 10) : digitValue (digit n) = n := by
  have hall : ∀ k < 10, digitValue (digit k) = k := by decide
  exact hall n h

/-- Digits in front of a text are digits in front of nothing, and then the text. -/
theorem digitsOnto_eq_append (n : Nat) (rest : List Char) :
    digitsOnto n rest = digits n ++ rest := by
  rw [digits_eq_digitsOnto]
  induction n using Nat.strongRecOn generalizing rest with
  | ind n ih =>
    rw [digitsOnto, digitsOnto.eq_def n []]
    split
    · rfl
    · rw [ih (n / 10) (by omega), ih (n / 10) (by omega) [digit (n % 10)], List.append_assoc,
        List.singleton_append]

/-- A number below ten has one digit. -/
theorem digits_of_lt {n : Nat} (h : n < 10) : digits n = [digit n] := by
  rw [digits_eq_digitsOnto, digitsOnto, if_pos h]

/-- Any other number has its last digit behind the digits of the rest of it. -/
theorem digits_of_le {n : Nat} (h : 10 ≤ n) : digits n = digits (n / 10) ++ [digit (n % 10)] := by
  rw [digits_eq_digitsOnto, digitsOnto, if_neg (by omega), digitsOnto_eq_append]

/-- The digits of a number are digits. -/
theorem isDigit_of_mem_digits {n : Nat} {c : Char} (h : c ∈ digits n) : isDigit c = true := by
  induction n using Nat.strongRecOn with
  | ind n ih =>
    by_cases hn : n < 10
    · rw [digits_of_lt hn, List.mem_singleton] at h
      exact h ▸ isDigit_digit hn
    · rw [digits_of_le (by omega), List.mem_append, List.mem_singleton] at h
      rcases h with h | rfl
      · exact ih (n / 10) (by omega) h
      · exact isDigit_digit (by omega)

/-- Every number has a digit. -/
theorem digits_ne_nil (n : Nat) : digits n ≠ [] := by
  by_cases hn : n < 10
  · simp [digits_of_lt hn]
  · have hle : 10 ≤ n := by omega
    simp [digits_of_le hle]

/-- An integer is written with at least one character. -/
theorem signed_ne_nil (n : Int) : signed n ≠ [] := by
  unfold signed
  split
  · exact List.cons_ne_nil _ _
  · exact digits_ne_nil _

/-- The digits of a number, one by one behind another number, move that number to the left. -/
theorem valueFrom_digits (n : Nat) : valueFrom 0 (digits n) = n := by
  induction n using Nat.strongRecOn with
  | ind n ih =>
    by_cases hn : n < 10
    · simp [digits_of_lt hn, valueFrom, digitValue_digit hn]
    · have hlast : digitValue (digit (n % 10)) = n % 10 := digitValue_digit (by omega)
      rw [digits_of_le (by omega), valueFrom_append, ih (n / 10) (by omega)]
      simp only [valueFrom, List.foldl_cons, List.foldl_nil, List.length_singleton, Nat.mul_zero,
        Nat.zero_add, hlast]
      omega

/-- The digits of a number denote it. -/
theorem value_digits (n : Nat) : value (digits n) = n := by
  rw [value_eq_valueFrom, valueFrom_digits]

/-- The digits of a number are read as the number. -/
theorem natural?_digits (n : Nat) : natural? (digits n) = some n := by
  have hall : (digits n).all isDigit = true :=
    List.all_eq_true.mpr fun _ hc => isDigit_of_mem_digits hc
  rw [natural?, if_pos ⟨digits_ne_nil n, hall⟩, value_digits]

/-- An integer is read back. -/
theorem integer?_signed (n : Int) : integer? (signed n) = some n := by
  unfold signed
  split
  · have hneg : -(n.natAbs : Int) = n := by omega
    rw [integer?, natural?_digits]
    exact congrArg some hneg
  · obtain ⟨c, rest, hdigits⟩ := List.exists_cons_of_ne_nil (digits_ne_nil n.natAbs)
    have hc : isDigit c = true := isDigit_of_mem_digits (n := n.natAbs) (by simp [hdigits])
    have hunsigned : integer? (digits n.natAbs) =
        (natural? (digits n.natAbs)).map fun k => (k : Int) := by
      rw [hdigits]
      unfold integer?
      split
      · rename_i heq
        rw [(List.cons.inj heq).1] at hc
        exact absurd hc (by decide)
      · rename_i heq
        rw [(List.cons.inj heq).1] at hc
        exact absurd hc (by decide)
      · rfl
    have hpos : (n.natAbs : Int) = n := by omega
    rw [hunsigned, natural?_digits]
    exact congrArg some hpos

/-- A number below a power of ten has no more digits than the power has zeros. -/
theorem length_digits_le {width n : Nat} (hwidth : 0 < width) (h : n < 10 ^ width) :
    (digits n).length ≤ width := by
  induction width generalizing n with
  | zero => omega
  | succ width ih =>
    by_cases hn : n < 10
    · simp [digits_of_lt hn]
    · have hpos : 0 < width := by
        rcases Nat.eq_zero_or_pos width with rfl | hpos
        · omega
        · exact hpos
      have hdiv : n / 10 < 10 ^ width := by
        rw [Nat.div_lt_iff_lt_mul (by decide), ← Nat.pow_succ]
        exact h
      rw [digits_of_le (by omega), List.length_append, List.length_singleton]
      exact Nat.succ_le_succ (ih hpos hdiv)

/-- Digits denote less than the power of ten with as many zeros. -/
theorem value_lt_pow_length {cs : List Char} (h : ∀ c ∈ cs, isDigit c = true) :
    value cs < 10 ^ cs.length := by
  rw [value_eq_valueFrom]
  induction cs using List.reverseRecOn with
  | nil => decide
  | append_singleton cs c ih =>
    have hrange := toNat_of_isDigit (h c (by simp))
    have hfront := ih fun d hd => h d (List.mem_append_left [c] hd)
    have hlast : valueFrom 0 [c] = digitValue c := by simp [valueFrom]
    rw [valueFrom_append, hlast, digitValue, List.length_append, List.length_singleton,
      Nat.pow_succ]
    omega

/-- The digits of a positive number are as many as its size needs. -/
theorem length_digits_bounds {n : Nat} (hn : n ≠ 0) :
    10 ^ ((digits n).length - 1) ≤ n ∧ n < 10 ^ (digits n).length := by
  constructor
  · rcases Nat.eq_zero_or_pos ((digits n).length - 1) with hone | hmany
    · rw [hone]
      omega
    · by_contra hlt
      have hle := length_digits_le hmany (Nat.lt_of_not_le hlt)
      omega
  · have hlt := value_lt_pow_length fun c (hc : c ∈ digits n) => isDigit_of_mem_digits hc
    rwa [value_digits] at hlt

/-- Zeros denote nothing. -/
theorem valueFrom_replicate (k : Nat) : valueFrom 0 (List.replicate k '0') = 0 := by
  induction k with
  | zero => rfl
  | succ k ih => exact ih

/-- Zeros in front of digits do not count. -/
theorem value_replicate_append (k : Nat) (cs : List Char) :
    value (List.replicate k '0' ++ cs) = value cs := by
  rw [value_eq_valueFrom, value_eq_valueFrom, valueFrom_append, valueFrom_replicate, Nat.zero_mul,
    Nat.zero_add]

/-- Zeros behind digits move them to the left. -/
theorem value_append_replicate (cs : List Char) (k : Nat) :
    value (cs ++ List.replicate k '0') = value cs * 10 ^ k := by
  rw [value_eq_valueFrom, value_eq_valueFrom, valueFrom_append, valueFrom_replicate,
    List.length_replicate, Nat.add_zero]

/-- The number that digits denote is the sum of the digits by place. -/
theorem value_eq_ofDigits (cs : List Char) :
    value cs = Nat.ofDigits 10 (cs.map digitValue).reverse := by
  rw [value_eq_valueFrom]
  induction cs using List.reverseRecOn with
  | nil => rfl
  | append_singleton cs c ih =>
    have hlast : valueFrom 0 [c] = digitValue c := by simp [valueFrom]
    rw [valueFrom_append, ih, hlast, List.map_append, List.map_singleton, List.reverse_concat,
      Nat.ofDigits_cons, List.length_singleton]
    omega

/-- A padded number is written with digits. -/
theorem isDigit_of_mem_padded {width n : Nat} {c : Char} (h : c ∈ padded width n) :
    isDigit c = true := by
  rcases List.mem_append.mp h with h | h
  · rw [List.eq_of_mem_replicate h]
    rfl
  · exact isDigit_of_mem_digits h

/-- A padded number denotes the number. -/
theorem value_padded (width n : Nat) : value (padded width n) = n :=
  (value_replicate_append _ _).trans (value_digits n)

/-- A number that fits is padded to the whole width. -/
theorem length_padded {width n : Nat} (hwidth : 0 < width) (h : n < 10 ^ width) :
    (padded width n).length = width := by
  have hle := length_digits_le hwidth h
  simp only [padded, List.length_append, List.length_replicate]
  omega

/-- The digits in front of a text are split off whole when the text does not go on with a digit. -/
theorem spanDigits_append {cs rest : List Char} (hcs : ∀ c ∈ cs, isDigit c = true)
    (hrest : ∀ c ∈ rest.head?, isDigit c = false) : spanDigits (cs ++ rest) = (cs, rest) := by
  have hstop : rest.takeWhile isDigit = [] ∧ rest.dropWhile isDigit = rest := by
    cases rest with
    | nil => exact ⟨rfl, rfl⟩
    | cons c rest =>
      have hneg : ¬isDigit c = true := by simp [hrest c rfl]
      exact ⟨List.takeWhile_cons_of_neg hneg, List.dropWhile_cons_of_neg hneg⟩
  rw [spanDigits, List.takeWhile_append_of_pos hcs, List.dropWhile_append_of_pos hcs, hstop.1,
    hstop.2, List.append_nil]

/-- A padded number in front of a text is split off whole when the text does not go on with a
digit. -/
theorem spanDigits_padded (width n : Nat) {rest : List Char}
    (hrest : ∀ c ∈ rest.head?, isDigit c = false) :
    spanDigits (padded width n ++ rest) = (padded width n, rest) :=
  spanDigits_append (fun _ hc => isDigit_of_mem_padded hc) hrest

/-- A padded number is a run of digits. -/
theorem takeWhile_padded (width n : Nat) : (padded width n).takeWhile isDigit = padded width n := by
  have hspan := @spanDigits_padded width n [] fun _ hc => nomatch hc
  rw [List.append_nil] at hspan
  exact congrArg Prod.fst hspan

/-- A padded number begins with a digit. -/
theorem exists_padded_eq_cons (width n : Nat) :
    ∃ c ds, padded width n = c :: ds ∧ isDigit c = true := by
  have hne : padded width n ≠ [] := by simp [padded, digits_ne_nil]
  obtain ⟨c, ds, hpadded⟩ := List.exists_cons_of_ne_nil hne
  have hmem : c ∈ padded width n := by simp [hpadded]
  exact ⟨c, ds, hpadded, isDigit_of_mem_padded hmem⟩

/-- A padded number ends with a digit. -/
theorem exists_padded_eq_concat (width n : Nat) :
    ∃ ds c, padded width n = ds ++ [c] ∧ isDigit c = true := by
  obtain ⟨c, ds, hpadded, -⟩ := exists_padded_eq_cons width n
  rcases List.eq_nil_or_concat' (padded width n) with hnil | ⟨front, last, hconcat⟩
  · rw [hpadded] at hnil
    exact absurd hnil (List.cons_ne_nil c ds)
  · have hmem : last ∈ padded width n := by simp [hconcat]
    exact ⟨front, last, hconcat, isDigit_of_mem_padded hmem⟩

/-- A text is a numeral of an integer: digits that denote its magnitude by place, behind a minus
sign when it is negated, and behind a plus sign or none otherwise. -/
inductive IsNumeral : List Char → ℤ → Prop where
  /-- Digits alone. -/
  | unsigned {ds : List Char} (hne : ds ≠ []) (hdigits : ∀ c ∈ ds, isDigit c = true) :
    IsNumeral ds (Nat.ofDigits 10 (ds.map digitValue).reverse : ℕ)
  /-- Digits behind a plus sign. -/
  | plus {ds : List Char} (hne : ds ≠ []) (hdigits : ∀ c ∈ ds, isDigit c = true) :
    IsNumeral ('+' :: ds) (Nat.ofDigits 10 (ds.map digitValue).reverse : ℕ)
  /-- Digits behind a minus sign. -/
  | minus {ds : List Char} (hne : ds ≠ []) (hdigits : ∀ c ∈ ds, isDigit c = true) :
    IsNumeral ('-' :: ds) (-(Nat.ofDigits 10 (ds.map digitValue).reverse : ℕ))

/-- A run of digits is read as the number that it denotes, and nothing else is read. -/
theorem natural?_eq_some_iff {cs : List Char} {n : ℕ} :
    natural? cs = some n ↔ cs ≠ [] ∧ (∀ c ∈ cs, isDigit c = true) ∧
      Nat.ofDigits 10 (cs.map digitValue).reverse = n := by
  rw [natural?, ← value_eq_ofDigits, ← List.all_eq_true]
  split
  · rename_i h
    simp only [h, ne_eq, not_false_eq_true, true_and, Option.some.injEq]
  · rename_i h
    exact ⟨fun heq => (nomatch heq), fun hrun => absurd ⟨hrun.1, hrun.2.1⟩ h⟩

/-- The text of an integer is read when it is one of its numerals, and nothing else is read. -/
theorem integer?_eq_some_iff {cs : List Char} {n : ℤ} :
    integer? cs = some n ↔ IsNumeral cs n := by
  constructor
  · intro h
    unfold integer? at h
    split at h
    all_goals
      obtain ⟨_, hcast, rfl⟩ := Option.map_eq_some_iff.mp h
      obtain ⟨k, hread, heq⟩ := Option.bind_eq_some_iff.mp hcast
      obtain rfl := Option.some.inj heq
      obtain ⟨hne, hdigits, rfl⟩ := natural?_eq_some_iff.mp hread
    · exact .minus hne hdigits
    · exact .plus hne hdigits
    · exact .unsigned hne hdigits
  · intro h
    cases h with
    | unsigned hne hdigits =>
      have hread := natural?_eq_some_iff.mpr ⟨hne, hdigits, rfl⟩
      unfold integer?
      split
      · exact absurd (hdigits '-' List.mem_cons_self) (by decide)
      · exact absurd (hdigits '+' List.mem_cons_self) (by decide)
      · rw [hread]
        rfl
    | plus hne hdigits =>
      rw [integer?, natural?_eq_some_iff.mpr ⟨hne, hdigits, rfl⟩]
      rfl
    | minus hne hdigits =>
      rw [integer?, natural?_eq_some_iff.mpr ⟨hne, hdigits, rfl⟩]
      rfl

/-- An integer within the range of signed words is the word with its value. -/
theorem word?_eq_some_iff {z : ℤ} {n : Int64} : word? z = some n ↔ n.toInt = z := by
  have hlow : -(2 ^ 63) ≤ n.toInt := n.le_toInt
  have hhigh : n.toInt < 2 ^ 63 := n.toInt_lt
  rw [word?]
  split
  · rename_i hrange
    rw [Option.some.injEq]
    constructor
    · rintro rfl
      exact Int64.toInt_ofInt_of_le hrange.1 hrange.2
    · rintro rfl
      exact Int64.ofInt_toInt n
  · rename_i hrange
    refine ⟨fun heq => (nomatch heq), ?_⟩
    rintro rfl
    exact absurd ⟨hlow, hhigh⟩ hrange

/-- An integer is a signed word when it lies in their range. -/
theorem word?_eq_none_iff {z : ℤ} : word? z = none ↔ ¬(-(2 ^ 63) ≤ z ∧ z < 2 ^ 63) := by
  rw [word?]
  split <;> simp_all

/-- A signed word is read from the numerals of its value and from nothing else. -/
theorem readWord?_eq_some_iff {cs : List Char} {n : Int64} :
    readWord? cs = some n ↔ IsNumeral cs n.toInt := by
  simp only [readWord?, Option.bind_eq_some_iff, integer?_eq_some_iff, word?_eq_some_iff]
  exact ⟨fun ⟨_, hread, heq⟩ => heq ▸ hread, fun hread => ⟨_, hread, rfl⟩⟩

end BoundSql.Numeral
