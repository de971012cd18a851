import BoundSql.Criteria.Basic
import BoundSql.Proofs.Prefixes
import BoundSql.Proofs.Statement.Spacing

/-!
# One comparison, written in four ways

A comparison of a column with a value can be written behind its keyword by one call that takes the
operator as a text, by a call of its own, as a criterion on a field, or among criteria. The last
three agree for every value. The first agrees with them unless the comparison is the one for being
different and the value is missing: then it tests for a missing column where the others test for a
present one, whatever table prefixes do to the column.
-/

namespace BoundSql

/-- What a column is compared for. -/
inductive Comparator where
  /-- For being equal. -/
  | equal
  /-- For being different. -/
  | different
  /-- For being greater. -/
  | greater
  /-- For being greater or equal. -/
  | greaterOrEqual
  /-- For being less. -/
  | less
  /-- For being less or equal. -/
  | lessOrEqual
  deriving DecidableEq

/-- The operator that stands for a comparator. -/
def Comparator.operator : Comparator → String
  | equal => "="
  | different => "<>"
  | greater => ">"
  | greaterOrEqual => ">="
  | less => "<"
  | lessOrEqual => "<="

/-- The comparison that a criterion holds for a comparator. -/
def Comparator.held (v : Value) : Comparator → Comparison
  | equal => .equal v
  | different => .differentFrom v
  | greater => .greaterThan v
  | greaterOrEqual => .greaterOrEqual v
  | less => .lessThan v
  | lessOrEqual => .lessOrEqual v

/-- The call of its own that a comparator has. -/
def Draft.relate (b : Draft) (column : String) (v : Value) : Comparator → Draft
  | .equal => b.equalTo column v
  | .different => b.notEqualTo column v
  | .greater => b.greaterThan column v
  | .greaterOrEqual => b.greaterOrEqual column v
  | .less => b.lessThan column v
  | .lessOrEqual => b.lessOrEqual column v

namespace Draft

/-- Table prefixes leave alone what has no braces, behind the space that sets it off. -/
theorem prefixed_append (b : Draft) (piece tail : String)
    (htail : '\x7b' ∉ tail.toList) :
    b.prefixed (piece ++ " " ++ tail) = b.prefixed piece ++ " " ++ tail := by
  unfold prefixed
  cases b.prefixes with
  | none => rfl
  | some p =>
    apply String.toList_injective
    simp only [Prefixes.substitute, String.toList_append, String.toList_ofList, List.append_assoc]
    have htaken : p.substituted tail.toList = tail.toList := by
      have hne : ∀ c ∈ tail.toList, c ≠ '\x7b' := fun c hc hbrace => htail (hbrace ▸ hc)
      have hall := Prefixes.substituted_append_of_forall_ne p hne []
      rwa [List.append_nil, Prefixes.substituted, List.append_nil] at hall
    have hcut := Prefixes.substituted_append_cons p (c := ' ') (by decide) piece.toList tail.toList
    rw [htaken] at hcut
    exact hcut

/-- A comparison with the missing value is the test for a missing column, whatever the operator. -/
theorem compare_of_isNull (b : Draft) (column operator : String) {v : Value}
    (h : v.isNull = true) : b.compare column operator v = b.isNull column := by
  simp only [compare, if_pos h, isNull]
  rw [String.append_assoc]
  rfl

/-- Testing a column for being missing never writes what testing it for being present writes. -/
theorem isNull_text_ne (b : Draft) (column : String) :
    (b.isNull column).text ≠ (b.isNotNull column).text := by
  have hmissing : b.prefixed (column ++ " IS NULL") = b.prefixed column ++ " IS N" ++ "ULL" := by
    have hpiece := b.prefixed_append column "IS NULL" (by decide)
    simpa [String.append_assoc] using hpiece
  have hpresent :
      b.prefixed (column ++ " IS NOT NULL") = b.prefixed column ++ " IS N" ++ "OT NULL" := by
    have hpiece := b.prefixed_append column "IS NOT NULL" (by decide)
    simpa [String.append_assoc] using hpiece
  have hshared : b.prefixed column ++ " IS N" ≠ "" := by
    simp
  intro hsame
  simp only [isNull, isNotNull, append, hmissing, hpresent,
    Spacing.joined_append _ hshared] at hsame
  have hends := congrArg String.toList hsame
  simp at hends

/-- A call with a keyword is the keyword and the call of the comparator, except that it never tests
for a present column. -/
theorem condition_eq (b : Draft) (k : Connective) (column : String) (v : Value) (r : Comparator)
    (h : r = .different → v.isNull = false) :
    b.condition k column r.operator v = (b.append k.keyword).relate column v r := by
  cases r with
  | different =>
    have hpresent : ¬ v.isNull = true := by simp [h rfl]
    exact (if_neg hpresent).symm
  | _ => rfl

/-- A criterion on a field says what the call of its comparator says. -/
theorem comparing_held (b : Draft) (column : String) (v : Value) (r : Comparator) :
    b.comparing column (r.held v) = b.relate column v r := by
  cases r with
  | different =>
    by_cases hmissing : v.isNull = true
    · simp only [Comparator.held, Comparison.differentFrom, relate, notEqualTo, comparing,
        if_pos hmissing]
    · simp only [Comparator.held, Comparison.differentFrom, relate, comparing, if_neg hmissing]
  | _ => rfl

/-- A comparison pushed onto criteria is compiled behind them as the call of its comparator. -/
theorem compile_compare (b : Draft) (c : Criteria) (column : String) (v : Value) (r : Comparator) :
    (c.compare column (r.held v)).compile b = (c.compile b).relate column v r := by
  rw [← comparing_held]
  exact List.foldl_concat ..

/-- In which cases the ways to write a comparison leave the same text and the same parameters, the
names of the parameters included: the call of the comparator behind a keyword, a criterion on a
field and criteria always do, and the call that takes keyword and operator does unless it compares
for being different with the missing value. -/
theorem surfaces_agree_iff (b : Draft) (k : Connective) (column : String) (v : Value)
    (r : Comparator) :
    (b.append k.keyword).criterion ((FieldCriterion.ofField column).setting (r.held v)) =
        (b.append k.keyword).relate column v r ∧
      (Criteria.empty.compare column (r.held v)).compile (b.append k.keyword) =
        (b.append k.keyword).relate column v r ∧
      ((b.condition k column r.operator v).text = ((b.append k.keyword).relate column v r).text ∧
          (b.condition k column r.operator v).parameters =
            ((b.append k.keyword).relate column v r).parameters ↔
        (r = .different → v.isNull = false)) := by
  refine ⟨comparing_held _ column v r, compile_compare _ .empty column v r, ?_, ?_⟩
  · rintro ⟨htext, -⟩ rfl
    by_contra hmissing
    have hnull : v.isNull = true := by simpa using hmissing
    have hcall : b.condition k column Comparator.different.operator v =
        (b.append k.keyword).isNull column := compare_of_isNull _ column _ hnull
    have hown : (b.append k.keyword).relate column v .different =
        (b.append k.keyword).isNotNull column := if_pos hnull
    rw [hcall, hown] at htext
    exact isNull_text_ne _ column htext
  · intro h
    rw [condition_eq b k column v r h]
    exact ⟨rfl, rfl⟩

/-- For the missing value, the call that takes keyword and operator asks for the rows without an
address, and the call of the comparator for the rows with one. -/
theorem surfaces_disagree :
    ((empty (.series 1)).condition .first "Email" Comparator.different.operator .null).text =
        "WHERE Email IS NULL" ∧
      (((empty (.series 1)).append Connective.first.keyword).relate "Email" .null .different).text =
        "WHERE Email IS NOT NULL" :=
  ⟨by decide, by decide⟩

end Draft

end BoundSql
