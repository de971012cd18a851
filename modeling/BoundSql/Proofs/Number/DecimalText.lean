import BoundSql.Number.DecimalText
import BoundSql.Proofs.Text.Numeral

/-!
# Decimals are read back

A numeral consists of a sign, digits, a point with further digits and an exponent, the last two of
which may be left out. Reading puts the digits together and moves the point by the exponent. Each of
the forms in which a decimal is written is such a numeral of the decimal itself, or of the same
number without a negative scale.
-/

namespace BoundSql.Decimal

/-- A minus sign in front of a negative number. -/
def withSign (negative : Bool) (cs : List Char) : List Char :=
  if negative then '-' :: cs else cs

/-- A magnitude with its sign. -/
def ofSign (negative : Bool) (n : Nat) : Int :=
  if negative then -(n : Int) else n

/-- A point with the given digits behind it, or nothing when there are none. -/
def IsPoint (cs trail : List Char) : Prop :=
  cs = '.' :: trail ∨ cs = [] ∧ trail = []

/-- An exponent with its letter, or nothing for the exponent zero. -/
def IsExponent (cs : List Char) (exponent : Int) : Prop :=
  cs = [] ∧ exponent = 0 ∨
    ∃ letter rest, cs = letter :: rest ∧ (letter = 'e' ∨ letter = 'E') ∧
      Numeral.integer? rest = some exponent ∧ exponentFits exponent = true

/-- A digit is none of the marks of a numeral. -/
theorem ne_of_isDigit {c d : Char} (h : Numeral.isDigit c = true)
    (hd : Numeral.isDigit d = false) : c ≠ d := by
  rintro rfl
  exact Bool.noConfusion (hd.symm.trans h)

/-- Digits are read as the number that they denote. -/
theorem grouped?_of_isDigit {cs : List Char} (hne : cs ≠ [])
    (h : ∀ c ∈ cs, Numeral.isDigit c = true) : grouped? cs = some (Numeral.value cs) := by
  obtain ⟨c, rest, rfl⟩ := List.exists_cons_of_ne_nil hne
  have hc : c ≠ '_' := ne_of_isDigit (h c List.mem_cons_self) (by decide)
  have hall : ((c :: rest).all fun d => Numeral.isDigit d || d == '_') = true :=
    List.all_eq_true.mpr fun d hd => by rw [h d hd, Bool.true_or]
  have hfilter : (c :: rest).filter Numeral.isDigit = c :: rest :=
    List.filter_eq_self.mpr h
  unfold grouped?
  split
  · rename_i heq
    exact absurd heq (List.cons_ne_nil c rest)
  · rename_i heq
    exact absurd (List.cons.inj heq).1 hc
  · rw [if_pos hall, hfilter]

/-- Digits without a plus sign are read as an unsigned number. -/
theorem unsigned?_of_isDigit {cs : List Char} (hne : cs ≠ [])
    (h : ∀ c ∈ cs, Numeral.isDigit c = true) : unsigned? cs = some (Numeral.value cs) := by
  unfold unsigned?
  split
  · rename_i rest
    exact absurd (h '+' List.mem_cons_self) (by decide)
  · exact grouped?_of_isDigit hne h

/-- Digits with a sign are read as the number with the sign. -/
theorem wide?_withSign (negative : Bool) {cs : List Char} (hne : cs ≠ [])
    (h : ∀ c ∈ cs, Numeral.isDigit c = true) :
    wide? (withSign negative cs) = some (ofSign negative (Numeral.value cs)) := by
  have hunsigned := unsigned?_of_isDigit hne h
  cases negative with
  | true =>
    have hplus : cs.head? ≠ some '+' := fun hhead =>
      absurd (h '+' (List.mem_of_mem_head? hhead)) (by decide)
    have hwide : wide? ('-' :: cs) = (unsigned? cs).map fun n => -(n : Int) := if_neg hplus
    rw [withSign, if_pos rfl, hwide, hunsigned]
    rfl
  | false =>
    have hwide : wide? cs = (unsigned? cs).map fun n => (n : Int) := by
      unfold wide?
      split
      · exact absurd (h '-' List.mem_cons_self) (by decide)
      · rfl
    rw [withSign, if_neg Bool.false_ne_true, hwide, hunsigned]
    rfl

/-- The point of a mantissa is taken out, and the digits behind it are counted. -/
theorem mantissa_withSign (negative : Bool) {lead trail point : List Char}
    (hpoint : IsPoint point trail) (hlead : ∀ c ∈ lead, Numeral.isDigit c = true)
    (htrail : ∀ c ∈ trail, Numeral.isDigit c = true) :
    mantissa (withSign negative (lead ++ point)) =
      (withSign negative (lead ++ trail), trail.length) := by
  have hsign (cs : List Char) : withSign negative (lead ++ cs) = withSign negative lead ++ cs := by
    cases negative <;> rfl
  have hnone : ∀ c ∈ withSign negative lead, (c != '.') = true := by
    intro c hc
    refine bne_iff_ne.mpr ?_
    cases negative with
    | true =>
      rcases List.mem_cons.mp hc with rfl | hc
      · decide
      · exact ne_of_isDigit (hlead c hc) (by decide)
    | false => exact ne_of_isDigit (hlead c hc) (by decide)
  have hgroups : trail.filter (· != '_') = trail :=
    List.filter_eq_self.mpr fun c hc => bne_iff_ne.mpr (ne_of_isDigit (htrail c hc) (by decide))
  rw [hsign, hsign]
  rcases hpoint with rfl | ⟨rfl, rfl⟩
  · have htake : (withSign negative lead ++ '.' :: trail).takeWhile (· != '.') =
        withSign negative lead := by
      rw [List.takeWhile_append_of_pos hnone, List.takeWhile_cons_of_neg (by decide),
        List.append_nil]
    simp only [mantissa, htake, List.drop_left, hgroups]
  · have htake : (withSign negative lead).takeWhile (· != '.') = withSign negative lead := by
      rw [← List.append_nil (withSign negative lead), List.takeWhile_append_of_pos hnone,
        List.takeWhile_nil]
    simp only [mantissa, List.append_nil, htake, List.drop_length, List.length_nil]

/-- A numeral is read as the number that its digits denote, with the point moved by the exponent. -/
theorem read?_parts (negative : Bool) {lead trail point suffix : List Char} {exponent : Int}
    (hne : lead ≠ []) (hlead : ∀ c ∈ lead, Numeral.isDigit c = true)
    (htrail : ∀ c ∈ trail, Numeral.isDigit c = true) (hpoint : IsPoint point trail)
    (hsuffix : IsExponent suffix exponent)
    (hscale : -(2 ^ 63) ≤ (trail.length : Int) - exponent ∧
      (trail.length : Int) - exponent < 2 ^ 63) :
    read? (withSign negative (lead ++ point) ++ suffix) =
      some ⟨ofSign negative (Numeral.value (lead ++ trail)), trail.length - exponent⟩ := by
  have hbase : ∀ c ∈ withSign negative (lead ++ point), (c != 'e' && c != 'E') = true := by
    have hdigit {c : Char} (hc : Numeral.isDigit c = true) : (c != 'e' && c != 'E') = true :=
      Bool.and_eq_true_iff.mpr ⟨bne_iff_ne.mpr (ne_of_isDigit hc (by decide)),
        bne_iff_ne.mpr (ne_of_isDigit hc (by decide))⟩
    have hbody : ∀ c ∈ lead ++ point, (c != 'e' && c != 'E') = true := by
      intro c hc
      rcases List.mem_append.mp hc with hc | hc
      · exact hdigit (hlead c hc)
      · rcases hpoint with rfl | ⟨rfl, -⟩
        · rcases List.mem_cons.mp hc with rfl | hc
          · decide
          · exact hdigit (htrail c hc)
        · exact absurd hc List.not_mem_nil
    cases negative with
    | true =>
      intro c hc
      rcases List.mem_cons.mp hc with rfl | hc
      · decide
      · exact hbody c hc
    | false => exact hbody
  have htake : (withSign negative (lead ++ point) ++ suffix).takeWhile
      (fun c => c != 'e' && c != 'E') = withSign negative (lead ++ point) := by
    rw [List.takeWhile_append_of_pos hbase]
    rcases hsuffix with ⟨rfl, -⟩ | ⟨letter, rest, rfl, hletter, -⟩
    · rw [List.takeWhile_nil, List.append_nil]
    · rw [List.takeWhile_cons_of_neg (by rcases hletter with rfl | rfl <;> decide),
        List.append_nil]
  have hwide := wide?_withSign negative (List.append_ne_nil_of_left_ne_nil hne trail)
    fun c hc => (List.mem_append.mp hc).elim (hlead c) (htrail c)
  have hmantissa := mantissa_withSign negative hpoint hlead htrail
  rcases hsuffix with ⟨rfl, rfl⟩ | ⟨letter, rest, rfl, -, hread, hfits⟩
  · unfold read?
    dsimp only
    rw [htake, List.drop_left]
    dsimp only
    rw [Option.bind_eq_bind, Option.bind_some, hmantissa]
    dsimp only
    rw [if_pos hscale, hwide]
    rfl
  · unfold read?
    dsimp only
    rw [htake, List.drop_left]
    dsimp only
    rw [hread, Option.filter_some, if_pos hfits, Option.bind_eq_bind, Option.bind_some, hmantissa]
    dsimp only
    rw [if_pos hscale, hwide]
    rfl

/-- A number is read back from scientific form when its first digit stands for a fraction. -/
theorem read?_scientific (negative : Bool) {n : Nat} {scale : Int} (hscale : scale < 2 ^ 63)
    (hsmall : scale - (Numeral.digits n).length > leadingZeroLimit) :
    read? (withSign negative
        (scientific (Numeral.digits n) ((Numeral.digits n).length - 1 - scale))) =
      some ⟨ofSign negative n, scale⟩ := by
  have hdigits : ∀ c ∈ Numeral.digits n, Numeral.isDigit c = true := fun c hc =>
    Numeral.isDigit_of_mem_digits hc
  have hvalue := Numeral.value_digits n
  have hne := Numeral.digits_ne_nil n
  generalize Numeral.digits n = ds at hsmall hdigits hvalue hne ⊢
  obtain ⟨d, rest, rfl⟩ := List.exists_cons_of_ne_nil hne
  generalize hexponent : ((d :: rest).length : Int) - 1 - scale = exponent
  simp only [List.length_cons, leadingZeroLimit] at hsmall hexponent
  obtain ⟨point, hpoint, htext⟩ : ∃ point, IsPoint point rest ∧
      withSign negative (scientific (d :: rest) exponent) =
        withSign negative ([d] ++ point) ++ 'E' :: Numeral.signed exponent := by
    have hneg : exponent < 0 := by omega
    cases rest with
    | nil =>
      refine ⟨[], Or.inr ⟨rfl, rfl⟩, ?_⟩
      cases negative <;> simp [scientific, withSign, hneg]
    | cons e rest =>
      refine ⟨'.' :: e :: rest, Or.inl rfl, ?_⟩
      cases negative <;> simp [scientific, withSign, hneg]
  have hfits : exponentFits exponent = true := by
    simp only [exponentFits, Bool.and_eq_true, decide_eq_true_eq]
    omega
  have hsuffix : IsExponent ('E' :: Numeral.signed exponent) exponent :=
    Or.inr ⟨'E', _, rfl, Or.inr rfl, Numeral.integer?_signed exponent, hfits⟩
  have hplace : (rest.length : Int) - exponent = scale := by omega
  have hread := read?_parts negative (List.cons_ne_nil d [])
    (fun c hc => hdigits c (List.mem_singleton.mp hc ▸ List.mem_cons_self))
    (fun c hc => hdigits c (List.mem_cons_of_mem d hc)) hpoint hsuffix (by omega)
  rw [htext, hread, hplace, List.singleton_append, hvalue]

/-- A number with many trailing zeros is read back from its digits and its exponent. -/
theorem read?_exponent (negative : Bool) (n : Nat) {scale : Int} (hneg : scale < 0)
    (hscale : -(2 ^ 63) ≤ scale) :
    read? (withSign negative
        (Numeral.digits n ++ 'e' :: '+' :: Numeral.digits (-scale).toNat)) =
      some ⟨ofSign negative n, scale⟩ := by
  have hexponent : ((-scale).toNat : Int) = -scale := by omega
  have hfits : exponentFits (-scale) = true := by
    simp only [exponentFits, Bool.and_eq_true, decide_eq_true_eq]
    omega
  have hinteger : Numeral.integer? ('+' :: Numeral.digits (-scale).toNat) = some (-scale) := by
    rw [Numeral.integer?, Numeral.natural?_digits]
    exact congrArg some hexponent
  have hsuffix : IsExponent ('e' :: '+' :: Numeral.digits (-scale).toNat) (-scale) :=
    Or.inr ⟨'e', _, rfl, Or.inl rfl, hinteger, hfits⟩
  have hread := read?_parts negative (Numeral.digits_ne_nil n)
    (fun c hc => Numeral.isDigit_of_mem_digits hc) (fun c hc => absurd hc List.not_mem_nil)
    (Or.inr ⟨rfl, rfl⟩) hsuffix (by simp only [List.length_nil]; omega)
  have htext : withSign negative
      (Numeral.digits n ++ 'e' :: '+' :: Numeral.digits (-scale).toNat) =
      withSign negative (Numeral.digits n ++ []) ++
        'e' :: '+' :: Numeral.digits (-scale).toNat := by
    cases negative <;> simp [withSign]
  have hplace : (([] : List Char).length : Int) - -scale = scale := by
    simp only [List.length_nil]
    omega
  rw [htext, hread, hplace, List.append_nil, Numeral.value_digits]

/-- Digits without a point and without an exponent are read as the number that they denote. -/
theorem read?_digits (negative : Bool) {cs : List Char} (hne : cs ≠ [])
    (hcs : ∀ c ∈ cs, Numeral.isDigit c = true) :
    read? (withSign negative cs) = some ⟨ofSign negative (Numeral.value cs), 0⟩ := by
  have hread := read?_parts negative hne hcs (fun c hc => absurd hc List.not_mem_nil)
    (Or.inr ⟨rfl, rfl⟩) (Or.inl ⟨rfl, rfl⟩) (by decide)
  simpa using hread

/-- A number with a point is read back. -/
theorem read?_plainFraction (negative : Bool) (n : Nat) {scale : Nat} (hscale : scale < 2 ^ 63) :
    read? (withSign negative (plainFraction (Numeral.digits n) scale)) =
      some ⟨ofSign negative n, scale⟩ := by
  have hdigits : ∀ c ∈ Numeral.digits n, Numeral.isDigit c = true := fun c hc =>
    Numeral.isDigit_of_mem_digits hc
  have hvalue := Numeral.value_digits n
  generalize Numeral.digits n = ds at hdigits hvalue ⊢
  -- Either way the digits behind the point are as many as the scale says.
  obtain ⟨lead, trail, htext, hne, hlead, htrail, hlength, hparts⟩ : ∃ lead trail,
      plainFraction ds scale = lead ++ '.' :: trail ∧ lead ≠ [] ∧
        (∀ c ∈ lead, Numeral.isDigit c = true) ∧ (∀ c ∈ trail, Numeral.isDigit c = true) ∧
        trail.length = scale ∧ Numeral.value (lead ++ trail) = n := by
    unfold plainFraction
    split
    · refine ⟨['0'], List.replicate (scale - ds.length) '0' ++ ds, rfl, List.cons_ne_nil _ _,
        List.forall_mem_singleton.mpr rfl, fun c hc => ?_, ?_, ?_⟩
      · rcases List.mem_append.mp hc with hc | hc
        · rw [List.eq_of_mem_replicate hc]
          decide
        · exact hdigits c hc
      · simp only [List.length_append, List.length_replicate]
        omega
      · rw [← List.append_assoc, ← List.replicate_one, List.replicate_append_replicate,
          Numeral.value_replicate_append, hvalue]
    · refine ⟨ds.take (ds.length - scale), ds.drop (ds.length - scale), rfl, ?_,
        fun c hc => hdigits c (List.mem_of_mem_take hc),
        fun c hc => hdigits c (List.mem_of_mem_drop hc), ?_, ?_⟩
      · intro hnil
        have hlen := congrArg List.length hnil
        simp only [List.length_take, List.length_nil] at hlen
        omega
      · rw [List.length_drop]
        omega
      · rw [List.take_append_drop, hvalue]
  have hread := read?_parts negative hne hlead htrail (Or.inl rfl) (Or.inl ⟨rfl, rfl⟩)
    (by rw [hlength]; omega)
  rw [htext]
  rw [List.append_nil, hparts, hlength] at hread
  simpa using hread

/-- Powers of ten are stripped off a number one by one. -/
theorem stripTens_mul {n : Nat} (hn : n ≠ 0) (k : Nat) :
    stripTens (n * 10 ^ k) = ((stripTens n).1, (stripTens n).2 + k) := by
  induction k with
  | zero => simp
  | succ k ih =>
    have hpow : n * 10 ^ (k + 1) = n * 10 ^ k * 10 := by rw [Nat.pow_succ, Nat.mul_assoc]
    have hpos : 0 < n * 10 ^ k := Nat.mul_pos (Nat.pos_of_ne_zero hn) (Nat.pow_pos (by decide))
    rw [hpow, stripTens, dif_pos ⟨by omega, by omega⟩, Nat.mul_div_cancel _ (by decide), ih]
    rfl

/-- Zeros behind the digits, with as many places more, leave the least scale as it is. -/
theorem normal_mul_pow (unscaled scale : Int) (k : Nat) :
    normal ⟨unscaled * 10 ^ k, scale + k⟩ = normal ⟨unscaled, scale⟩ := by
  have hpow : (0 : Int) < 10 ^ k := Int.pow_pos (by decide)
  by_cases hzero : unscaled = 0
  · simp [normal, hzero]
  · have hne : unscaled * 10 ^ k ≠ 0 := Int.mul_ne_zero hzero (Int.ne_of_gt hpow)
    have hsign : unscaled * 10 ^ k < 0 ↔ unscaled < 0 :=
      ⟨fun h => Int.lt_of_mul_lt_mul_right (by omega) (Int.le_of_lt hpow),
        fun h => Int.mul_neg_of_neg_of_pos h hpow⟩
    have hstrip : stripTens (unscaled * 10 ^ k).natAbs =
        ((stripTens unscaled.natAbs).1, (stripTens unscaled.natAbs).2 + k) := by
      rw [Int.natAbs_mul, Int.natAbs_pow]
      exact stripTens_mul (Int.natAbs_ne_zero.mpr hzero) k
    simp only [normal, if_neg hne, if_neg hzero, hsign, hstrip, Decimal.mk.injEq, true_and]
    omega

/-- Every decimal equals itself. -/
theorem same_refl (d : Decimal) : d.same d = true := by
  rw [same, beq_iff_eq]

/-- Zeros in place of a negative scale leave the number as it is. -/
theorem same_of_zeros (negative : Bool) (n k : Nat) :
    same ⟨ofSign negative (n * 10 ^ k), 0⟩ ⟨ofSign negative n, -k⟩ = true := by
  have hsigned : ofSign negative (n * 10 ^ k) = ofSign negative n * 10 ^ k := by
    cases negative <;> simp [ofSign]
  have hnormal := normal_mul_pow (ofSign negative n) (-k) k
  rw [Int.add_left_neg] at hnormal
  rw [same, hsigned, hnormal, beq_iff_eq]

/-- The numeral of a magnitude is read back with its sign as the same number. -/
theorem read?_magnitudeText (negative : Bool) (n : Nat) {scale : Int}
    (h : -(2 ^ 63) ≤ scale ∧ scale < 2 ^ 63) :
    ∃ e, read? (withSign negative (magnitudeText n scale)) = some e ∧
      e.same ⟨ofSign negative n, scale⟩ = true := by
  unfold magnitudeText
  dsimp only
  by_cases hsmall : scale - (Numeral.digits n).length > leadingZeroLimit
  · rw [if_pos hsmall]
    exact ⟨_, read?_scientific negative h.2 hsmall, same_refl _⟩
  by_cases hlarge : scale < -(trailingZeroLimit : Int)
  · rw [if_neg hsmall, if_pos hlarge]
    simp only [trailingZeroLimit] at hlarge
    exact ⟨_, read?_exponent negative n (by omega) h.1, same_refl _⟩
  by_cases hzeros : scale ≤ 0
  · rw [if_neg hsmall, if_neg hlarge, if_pos hzeros]
    have hdigits : ∀ c ∈ Numeral.digits n ++ List.replicate (-scale).toNat '0',
        Numeral.isDigit c = true := by
      intro c hc
      rcases List.mem_append.mp hc with hc | hc
      · exact Numeral.isDigit_of_mem_digits hc
      · rw [List.eq_of_mem_replicate hc]
        decide
    have hread := read?_digits negative
      (List.append_ne_nil_of_left_ne_nil (Numeral.digits_ne_nil n) _) hdigits
    rw [Numeral.value_append_replicate, Numeral.value_digits] at hread
    have hsame := same_of_zeros negative n (-scale).toNat
    have hscale : -((-scale).toNat : Int) = scale := by omega
    rw [hscale] at hsame
    exact ⟨_, hread, hsame⟩
  · rw [if_neg hsmall, if_neg hlarge, if_neg hzeros]
    have hscale : (scale.toNat : Int) = scale := by omega
    have hread := read?_plainFraction negative n (show scale.toNat < 2 ^ 63 by omega)
    rw [hscale] at hread
    exact ⟨_, hread, same_refl _⟩

/-- A decimal is read back as the same number when its scale is a signed word. -/
theorem read?_text {d : Decimal} (h : -(2 ^ 63) ≤ d.scale ∧ d.scale < 2 ^ 63) :
    ∃ e, read? d.text = some e ∧ e.same d = true := by
  obtain ⟨unscaled, scale⟩ := d
  by_cases hzero : unscaled = 0
  · subst hzero
    have hread := read?_digits false (List.cons_ne_nil '0' []) (List.forall_mem_singleton.mpr rfl)
    exact ⟨_, hread, rfl⟩
  · have hsign : ofSign (decide (unscaled < 0)) unscaled.natAbs = unscaled := by
      unfold ofSign
      by_cases hneg : unscaled < 0
      · rw [decide_eq_true hneg, if_pos rfl]
        omega
      · rw [decide_eq_false hneg, if_neg Bool.false_ne_true]
        omega
    have htext : text ⟨unscaled, scale⟩ =
        withSign (decide (unscaled < 0)) (magnitudeText unscaled.natAbs scale) := by
      simp only [text, if_neg hzero, withSign, decide_eq_true_eq]
    have hread := read?_magnitudeText (decide (unscaled < 0)) unscaled.natAbs h
    rw [hsign, ← htext] at hread
    exact hread

end BoundSql.Decimal
