import BoundSql.Proofs.Coercion.Instant
import BoundSql.Proofs.Number.Equality
import BoundSql.Proofs.Row.Unwrap
import BoundSql.Proofs.Text.Name

/-!
# Coercion and equal values

Equal values differ in how a number is scaled, in the sign of a zero and in the offset that an
instant is seen at. Integers, decimals, members of enumerations, dates and date-times are made of
what a value is, so equal values give equal ones. A truth value is made of words: among the numerals
there is one such word, the digit one, and it is the text of the decimal one without places and of
no other decimal.
-/

namespace BoundSql

/-- Truth values, integers, decimals, members of enumerations, dates, and date-times with or without
an offset. -/
def Kind.isMeasured : Kind → Bool
  | bool | integer _ | decimal | enumeration _ | date | dateTime | dateTimeOffset => true
  | _ => false

/-- A kind tells equal values apart when it is that of truth values and just one of the values is
the decimal one without places. -/
def Kind.TellsApart (kind : Kind) (a b : Value) : Prop :=
  kind = .bool ∧ ¬(a = .decimal ⟨1, 0⟩ ↔ b = .decimal ⟨1, 0⟩)

/-- The ways in which values are equal. -/
inductive Value.Alike : Value → Value → Prop where
  /-- A value is equal to itself. -/
  | refl (v : Value) : Alike v v
  /-- Zeros are equal whatever their signs. -/
  | zeros {x y : Binary64} (hx : x.isZero = true) (hy : y.isZero = true) :
    Alike (.float x) (.float y)
  /-- Decimals are equal when they are the same number. -/
  | decimals {d e : Decimal} (h : d.exact = e.exact) : Alike (.decimal d) (.decimal e)
  /-- Offset date-times are equal when they are the same instant. -/
  | instants {z w : OffsetDateTime} (h : z.utc = w.utc) :
    Alike (.dateTimeOffset z) (.dateTimeOffset w)

/-- What places hold is the same when it is made of equal values. -/
inductive Cell.Same : Cell → Cell → Prop where
  /-- What a place holds is the same as itself. -/
  | refl (c : Cell) : Same c c
  /-- Decimals are the same when they are equal. -/
  | decimal {d e : Decimal} (h : d.same e = true) : Same (.decimal d) (.decimal e)
  /-- Offset date-times are the same when they are equal. -/
  | dateTimeOffset {z w : OffsetDateTime} (h : z.same w = true) :
    Same (.dateTimeOffset z) (.dateTimeOffset w)
  /-- An optional place holds the same when its inner place does. -/
  | present {c d : Cell} (h : Same c d) : Same (.present c) (.present d)

namespace Value.Alike

variable {a b : Value}

/-- Equal values are equal in one of these ways. -/
theorem of_same (h : a.same b = true) : Alike a b := by
  unfold Value.same at h
  split at h
  case h_12 => cases h
  case h_4 x y =>
    rcases Binary64.eq_or_isZero_of_same h with rfl | ⟨hx, hy⟩
    · exact .refl _
    · exact .zeros hx hy
  case h_5 d e => exact .decimals ((d.same_iff_exact_eq e).mp h)
  case h_10 z w => exact .instants (beq_iff_eq.mp h)
  case h_1 => exact .refl _
  all_goals
    rw [beq_iff_eq] at h
    rw [h]
    exact .refl _

/-- Equal values are of one kind. -/
theorem kind_eq (h : Alike a b) : a.kind = b.kind := by
  cases h <;> rfl

/-- A value is blank when an equal one is. -/
theorem isBlank_eq (h : Alike a b) : Engine.isBlank a = Engine.isBlank b := by
  cases h <;> rfl

/-- Equal values stand for the same integers. -/
theorem roundsTo_iff (h : Alike a b) (n : ℤ) : a.RoundsTo n ↔ b.RoundsTo n := by
  cases h with
  | refl => rfl
  | zeros hx hy =>
    simp only [Value.RoundsTo, Binary64.exact_of_isZero hx, Binary64.exact_of_isZero hy]
  | decimals hexact => rw [Value.RoundsTo, Value.RoundsTo, hexact]
  | instants => rfl

/-- Equal values have the same word. -/
theorem word?_eq (h : Alike a b) : Convert.word? a = Convert.word? b := by
  ext n
  rw [Convert.word?_eq_some_iff, Convert.word?_eq_some_iff]
  exact h.roundsTo_iff n.toInt

/-- Equal values have the same ordinal. -/
theorem ordinal?_eq (h : Alike a b) (ordinals : Ordinals) :
    Convert.ordinal? ordinals a = Convert.ordinal? ordinals b := by
  cases h with
  | refl => rfl
  | zeros hx hy => exact word?_eq (.zeros hx hy)
  | decimals hexact => exact word?_eq (.decimals hexact)
  | instants hutc => exact word?_eq (.instants hutc)

/-- Equal values denote the same decimal. -/
theorem decimal?_eq (h : Alike a b) : Convert.decimal? a = Convert.decimal? b := by
  cases h with
  | zeros hx hy =>
    rw [Convert.decimal?, Convert.decimal?, Binary64.ofBinary?_of_isZero hx,
      Binary64.ofBinary?_of_isZero hy]
  | _ => rfl

/-- Equal values denote the same date-time. -/
theorem dateTime?_eq (h : Alike a b) : Temporal.dateTime? a = Temporal.dateTime? b := by
  cases h with
  | instants hutc => exact congrArg some hutc
  | _ => rfl

/-- Equal values denote the same offset date-time, as far as they are of another kind. -/
theorem offsetDateTime?_eq (h : Alike a b) :
    Temporal.offsetDateTime? a = Temporal.offsetDateTime? b := by
  cases h with
  | instants hutc => exact congrArg (fun d => some (OffsetDateTime.ofUtc d)) hutc
  | _ => rfl

end Value.Alike

/-! ## Words for the true value -/

namespace Convert

/-- A character of a number is not the first letter of a word, whether capital or small. -/
theorem asciiLower_of_isFigure {c : Char} (h : Numeral.isFigure c = true) :
    ['o', 't', 'y'].contains (CaseFold.asciiLower c) = false := by
  rcases Bool.or_eq_true_iff.mp h with hdigit | hmark
  · have hrange := Numeral.toNat_of_isDigit hdigit
    rw [CaseFold.asciiLower_of_lt (by omega), ← Bool.not_eq_true, List.contains_iff_mem]
    simp only [List.mem_cons, List.not_mem_nil, or_false]
    rintro (rfl | rfl | rfl)
    all_goals exact absurd hrange.2 (by decide)
  · have hall : ['+', '-', '.', 'E', 'e', 'N', 'a', 'i', 'n', 'f'].all
        (fun d => ['o', 't', 'y'].contains (CaseFold.asciiLower d) == false) = true := by
      decide
    exact beq_iff_eq.mp (List.all_eq_true.mp hall c (List.contains_iff_mem.mp hmark))

/-- Of the texts that numbers are written with, the digit one is the only word for the true value.
-/
theorem truthy_figures {v : Value} {cs : List Char} (htext : v.toText? = some (String.ofList cs))
    (h : Numeral.Figures cs) : truthy v = true ↔ cs = ['1'] := by
  have htrim : Text.trimmed cs = cs :=
    Text.trimmed_of_forall fun c hc => Numeral.isBlank_of_isFigure (h c hc)
  simp only [truthy, htext, String.toList_ofList, htrim, List.any_eq_true, CaseFold.asciiSame_iff]
  constructor
  · rintro ⟨w, hw, hsame⟩
    have hword : w = "1" ∨ ∃ c rest, w.toList.map CaseFold.asciiLower = c :: rest ∧
        ['o', 't', 'y'].contains c = true := by
      simp only [truthyWords, List.mem_cons, List.not_mem_nil, or_false] at hw
      rcases hw with rfl | rfl | rfl | rfl
      · exact .inl rfl
      · exact .inr ⟨'o', ['n'], by decide⟩
      · exact .inr ⟨'t', ['r', 'u', 'e'], by decide⟩
      · exact .inr ⟨'y', ['e', 's'], by decide⟩
    rcases hword with rfl | ⟨c, rest, hcons, hletter⟩
    · have hone : cs.map CaseFold.asciiLower = ['1'] := hsame.symm.trans (by decide)
      obtain ⟨d, hcs, hd⟩ := List.map_eq_singleton_iff.mp hone
      rw [hcs, CaseFold.eq_of_asciiLower_eq (by decide) hd]
    · rw [hcons] at hsame
      obtain ⟨d, tail, hcs, hd, -⟩ := List.map_eq_cons_iff.mp hsame.symm
      have hfigure : Numeral.isFigure d = true := h d (hcs ▸ List.mem_cons_self)
      rw [← hd, asciiLower_of_isFigure hfigure] at hletter
      exact absurd hletter Bool.false_ne_true
  · rintro rfl
    exact ⟨"1", by decide, rfl⟩

/-- A decimal counts as true when it is the number one without places. -/
theorem truthy_decimal (d : Decimal) : truthy (.decimal d) = true ↔ d = ⟨1, 0⟩ := by
  rw [truthy_figures rfl d.figures_text, d.text_eq_one_iff]

/-- A zero does not count as true. -/
theorem truthy_of_isZero {x : Binary64} (h : x.isZero = true) : truthy (.float x) = false := by
  refine Bool.eq_false_iff.mpr fun htrue => ?_
  rw [truthy_figures rfl x.figures_text] at htrue
  rcases x.text_of_isZero h with htext | htext
  · exact absurd (htext.symm.trans htrue) (by decide)
  · exact absurd (htext.symm.trans htrue) (by decide)

/-- An offset date-time does not count as true. -/
theorem truthy_dateTimeOffset (z : OffsetDateTime) : truthy (.dateTimeOffset z) = false := by
  have hcolon : ':' ∈ z.text := by
    simp [OffsetDateTime.text, offsetText]
  refine Bool.eq_false_iff.mpr fun htrue => ?_
  simp only [truthy, Value.toText?, Value.shown, String.toList_ofList, z.trimmed_text,
    List.any_eq_true, CaseFold.asciiSame_iff] at htrue
  obtain ⟨w, hw, hsame⟩ := htrue
  have hmark : ':' ∈ w.toList.map CaseFold.asciiLower :=
    hsame ▸ List.mem_map_of_mem hcolon
  have hwords : ∀ w ∈ truthyWords, ':' ∉ w.toList.map CaseFold.asciiLower := by decide
  exact hwords w hw hmark

end Convert

/-! ## Coercion -/

namespace Value

variable {a b v : Value} {kind : Kind}

/-- Equal values are both true or both not, unless just one of them is the decimal one without
places. -/
theorem Alike.truthy_eq_iff (h : Alike a b) :
    Convert.truthy a = Convert.truthy b ↔ (a = .decimal ⟨1, 0⟩ ↔ b = .decimal ⟨1, 0⟩) := by
  cases h with
  | refl => simp
  | zeros hx hy => simp [Convert.truthy_of_isZero hx, Convert.truthy_of_isZero hy]
  | decimals =>
    rw [Bool.eq_iff_iff, Convert.truthy_decimal, Convert.truthy_decimal, decimal.injEq,
      decimal.injEq]
  | instants => simp [Convert.truthy_dateTimeOffset]

/-- A value of such a kind is equal to itself. -/
theorem Fits.same_self (h : Fits kind v) (hkind : kind.isMeasured = true) : v.same v = true := by
  cases h with
  | decimal d => exact d.same_refl
  | dateTimeOffset z => exact beq_self_eq_true z.utc
  | float32 | float64 | text | blob | guid | custom => exact absurd hkind Bool.false_ne_true
  | _ => exact beq_self_eq_true _

end Value

namespace Engine

variable {kind : Kind} {a b : Value}

/-- Coercions that give the same give equal values. -/
theorem rel_same_of_eq (hkind : kind.isMeasured = true)
    (h : standard.coerce kind a = standard.coerce kind b) :
    Option.Rel (fun v w => v.same w = true) (standard.coerce kind a) (standard.coerce kind b) := by
  rw [← h]
  cases hcoerce : standard.coerce kind a with
  | none => exact .none
  | some v => exact .some ((fits_of_coerce hcoerce).same_self hkind)

/-- A value of another kind is converted to the same by such a kind, if that is not the kind of
truth values, when it is replaced by an equal one. -/
theorem convert_alike (hkind : kind.isMeasured = true) (hbool : kind ≠ .bool)
    (h : a.Alike b) : standard.convert kind a = standard.convert kind b := by
  cases kind with
  | bool => exact absurd rfl hbool
  | integer k => simp only [convert, standard, Convert.value?, h.word?_eq]
  | decimal => simp only [convert, standard, Convert.value?, h.decimal?_eq]
  | enumeration ordinals => simp only [convert, h.ordinal?_eq]
  | date => simp only [convert, standard, Convert.value?, h.dateTime?_eq]
  | dateTime => simp only [convert, standard, Convert.value?, h.dateTime?_eq]
  | dateTimeOffset => simp only [convert, standard, Convert.value?, h.offsetDateTime?_eq]
  | _ => exact absurd hkind Bool.false_ne_true

/-- The coercions of equal values give equal values, or nothing both of them, unless the kind tells
the values apart. -/
theorem coerce_rel_iff (hkind : kind.isMeasured = true) (h : a.same b = true) :
    Option.Rel (fun v w => v.same w = true) (standard.coerce kind a) (standard.coerce kind b) ↔
      ¬kind.TellsApart a b := by
  have halike := Value.Alike.of_same h
  by_cases hbool : kind = .bool
  · subst hbool
    by_cases heq : a = b
    · subst heq
      exact iff_of_true (rel_same_of_eq hkind rfl) fun hparts => hparts.2 Iff.rfl
    · have hother : isBlank a = false ∧ a.kind ≠ .bool := by
        cases halike with
        | refl => exact absurd rfl heq
        | _ => exact ⟨rfl, nofun⟩
      have hother' : isBlank b = false ∧ b.kind ≠ .bool :=
        ⟨halike.isBlank_eq ▸ hother.1, halike.kind_eq ▸ hother.2⟩
      rw [coerce_bool_eq hother.1 hother.2, coerce_bool_eq hother'.1 hother'.2,
        Option.rel_some_some, Value.same, beq_iff_eq, halike.truthy_eq_iff]
      simp [Kind.TellsApart]
  · refine iff_of_true ?_ fun hparts => hbool hparts.1
    by_cases hown : isBlank a = false ∧ a.kind = kind
    · have hown' : isBlank b = false ∧ b.kind = kind :=
        ⟨halike.isBlank_eq ▸ hown.1, halike.kind_eq ▸ hown.2⟩
      rw [← hown.2, standard.coerce_kind hown.1, hown.2, ← hown'.2, standard.coerce_kind hown'.1]
      exact .some h
    · refine rel_same_of_eq hkind ?_
      rw [coerce, coerce, ← halike.isBlank_eq, ← halike.kind_eq, convert_alike hkind hbool halike]
      split
      · rfl
      · rename_i hblank
        have hother : ¬a.kind = kind := fun hsame => hown ⟨Bool.eq_false_iff.mpr hblank, hsame⟩
        rw [if_neg hother, if_neg hother]

end Engine

/-- A target of such a kind unwraps equal values to the same, or declines them both. -/
theorem Target.unwrap?_rel (target : Target) (hkind : target.kind.isMeasured = true) {a b : Value}
    (h : a.Alike b) : Option.Rel Cell.Same (target.unwrap? a) (target.unwrap? b) := by
  have hself (found : Option Cell) : Option.Rel Cell.Same found found := by
    cases found with
    | none => exact .none
    | some c => exact .some (.refl c)
  induction target with
  | optional inner ih =>
    have hinner := ih hkind
    rw [unwrap?, unwrap?]
    generalize inner.unwrap? a = c at hinner ⊢
    generalize inner.unwrap? b = d at hinner ⊢
    cases hinner with
    | none => exact .none
    | some hsame => exact .some hsame.present
  | decimal =>
    cases h with
    | refl => exact hself _
    | decimals hexact => exact .some (.decimal ((Decimal.same_iff_exact_eq _ _).mpr hexact))
    | _ => exact .none
  | dateTimeOffset =>
    cases h with
    | refl => exact hself _
    | instants hutc => exact .some (.dateTimeOffset (beq_iff_eq.mpr hutc))
    | _ => exact .none
  | utc =>
    cases h with
    | refl => exact hself _
    | instants hutc =>
      rw [unwrap?, unwrap?, hutc]
      exact .some (.refl _)
    | _ => exact .none
  | bool | integer | date | dateTime | enumeration =>
    cases h with
    | refl => exact hself _
    | _ => exact .none
  | float32 | float64 | text | blob | guid | custom => exact absurd hkind Bool.false_ne_true

namespace Engine

variable {a b : Value}

/-- What is put into a place is the same for equal values, unless its kind tells the values apart.
-/
theorem cell?_rel {target : Target} (hkind : target.kind.isMeasured = true)
    (h : a.same b = true) (hparts : ¬target.kind.TellsApart a b) :
    Option.Rel Cell.Same (standard.cell? target a) (standard.cell? target b) := by
  have hcoerce := (coerce_rel_iff hkind h).mpr hparts
  unfold cell?
  generalize standard.coerce target.kind a = v at hcoerce ⊢
  generalize standard.coerce target.kind b = w at hcoerce ⊢
  cases hcoerce with
  | none => exact .none
  | some hsame => exact target.unwrap?_rel hkind (.of_same hsame)

/-- Equal values are coerced to equal values, or both to nothing, by the kinds of truth values,
integers, decimals, enumerations, dates and date-times, except where the kind is that of truth
values and just one of the values is the decimal one without places: there, and only there, the
coercions differ. So the member of a row does not depend on how a decimal is scaled, which sign a
zero has or at which offset an instant is seen, unless it is a truth value made of such decimals. -/
theorem coerce_respects_same {kind : Kind} (hkind : kind.isMeasured = true)
    (h : a.same b = true) :
    (Option.Rel (fun v w => v.same w = true) (standard.coerce kind a) (standard.coerce kind b) ↔
      ¬kind.TellsApart a b) ∧
    ∀ (shape : Shape) (i : Nat) (m : Member) (columns columns' : List String)
      (values values' : List Value), shape[i]? = some m → m.target.kind = kind →
      shape.firstMatch? i columns values = some a →
      shape.firstMatch? i columns' values' = some b → ¬kind.TellsApart a b →
        ∃ c d, (shape.fillOne standard columns values)[i]? = some c ∧
          (shape.fillOne standard columns' values')[i]? = some d ∧ c.Same d := by
  refine ⟨coerce_rel_iff hkind h, ?_⟩
  rintro shape i m columns columns' values values' hm rfl hfirst hfirst' hparts
  have hfill := shape.getElem?_fillOne standard hm columns values
  have hfill' := shape.getElem?_fillOne standard hm columns' values'
  rw [hfirst, Option.bind_some] at hfill
  rw [hfirst', Option.bind_some] at hfill'
  refine ⟨_, _, hfill, hfill', ?_⟩
  have hcell := cell?_rel hkind h hparts
  generalize standard.cell? m.target a = c at hcell ⊢
  generalize standard.cell? m.target b = d at hcell ⊢
  cases hcell with
  | none => exact .refl _
  | some hsame => exact hsame

/-- One and a half rounds to two however it is scaled. -/
theorem coerce_respects_same_scaled :
    ((Kind.integer .int32).isMeasured = true ∧
      (Value.decimal ⟨15, 1⟩).same (.decimal ⟨150, 2⟩) = true) ∧
    Option.Rel (fun v w => v.same w = true) (standard.coerce (.integer .int32) (.decimal ⟨15, 1⟩))
      (standard.coerce (.integer .int32) (.decimal ⟨150, 2⟩)) := by
  have hkind : (Kind.integer .int32).isMeasured = true := rfl
  have hsame : (Value.decimal ⟨15, 1⟩).same (.decimal ⟨150, 2⟩) = true :=
    (Decimal.same_iff_exact_eq _ _).mpr (by norm_num [Decimal.exact])
  refine ⟨⟨hkind, hsame⟩, (coerce_respects_same hkind hsame).1.mpr fun hparts => ?_⟩
  exact absurd hparts.1 (by decide)

/-- The decimal one counts as true without places and as false with one. -/
theorem coerce_bool_tells_apart :
    (Value.decimal ⟨1, 0⟩).same (.decimal ⟨10, 1⟩) = true ∧
      standard.coerce .bool (.decimal ⟨1, 0⟩) = some (.bool true) ∧
      standard.coerce .bool (.decimal ⟨10, 1⟩) = some (.bool false) := by
  have htrue : Convert.truthy (.decimal ⟨1, 0⟩) = true := (Convert.truthy_decimal _).mpr rfl
  have hfalse : Convert.truthy (.decimal ⟨10, 1⟩) = false :=
    Bool.eq_false_iff.mpr fun h => absurd ((Convert.truthy_decimal _).mp h) (by decide)
  refine ⟨(Decimal.same_iff_exact_eq _ _).mpr (by norm_num [Decimal.exact]), ?_, ?_⟩
  · rw [coerce_bool_eq rfl (by decide), htrue]
  · rw [coerce_bool_eq rfl (by decide), hfalse]

end Engine

end BoundSql
