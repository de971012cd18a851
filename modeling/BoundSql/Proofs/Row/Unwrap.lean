import BoundSql.Proofs.Coercion.Fit
import BoundSql.Proofs.Row.Agreement

/-!
# What is coerced is also unwrapped

The kind of a target decides what a raw value is coerced to, and the target decides what it takes of
that. The two are in step for every target but the enumerations and the custom ones: whatever fits
the kind is unwrapped, through any number of optional places. So a place stays unset only when the
coercion has declined the raw value.
-/

namespace BoundSql

namespace Target

/-- Whether a target comes with its own conversions: all targets but the enumerations, which take
only the ordinals of their members, the custom ones, and the optional places around these. -/
def isBuiltIn : Target → Bool
  | enumeration _ | custom _ => false
  | optional inner => inner.isBuiltIn
  | _ => true

/-- A built-in target takes every value that fits its kind. -/
theorem unwrap?_of_fits {target : Target} (hbuiltIn : target.isBuiltIn = true) {v : Value}
    (h : v.Fits target.kind) : ∃ cell, target.unwrap? v = some cell := by
  induction target with
  | optional inner ih =>
    obtain ⟨cell, hcell⟩ := ih hbuiltIn h
    exact ⟨.present cell, by rw [unwrap?, hcell, Option.map_some]⟩
  | integer k =>
    cases h with
    | @integer _ n hholds => exact ⟨.integer n, if_pos hholds⟩
  | enumeration | custom => exact absurd hbuiltIn Bool.false_ne_true
  | _ =>
    cases h
    exact ⟨_, rfl⟩

end Target

namespace Engine

/-- A built-in target is left without contents exactly when the coercion has declined. -/
theorem cell?_eq_none_iff {target : Target} (h : target.isBuiltIn = true) (raw : Value) :
    standard.cell? target raw = none ↔ standard.coerce target.kind raw = none := by
  rw [cell?, Option.bind_eq_none_iff]
  constructor
  · intro hdeclined
    cases hcoerce : standard.coerce target.kind raw with
    | none => rfl
    | some v =>
      obtain ⟨cell, hcell⟩ := Target.unwrap?_of_fits h (fits_of_coerce hcoerce)
      exact absurd (hdeclined v hcoerce) (by simp [hcell])
  · intro hnone v hcoerce
    exact nomatch hnone.symm.trans hcoerce

end Engine

/-- A row sets a member to the contents that its target gets of the first column that leads to it,
and keeps the initial contents when there are none. -/
theorem Shape.getElem?_fillOne (shape : Shape) (engine : Engine) {i : Nat} {m : Member}
    (hm : shape[i]? = some m) (columns : List String) (values : List Value) :
    (shape.fillOne engine columns values)[i]? =
      some (((shape.firstMatch? i columns values).bind
        (engine.cell? m.target)).getD m.initial) := by
  have hinitial : shape.initial[i]? = some m.initial := by simp [initial, hm]
  rw [fillOne_eq_fillFrom, getElem?_fillFrom shape engine hm List.not_mem_nil, hinitial,
    Option.map_some]

namespace Engine

/-- A coercion for a built-in target never gives the missing value, and the target unwraps all that
it gives. So a column of a record, the first value of a row and a member that a row fills are left
unset when the coercion has declined the raw value, and only then. -/
theorem coerce_unwraps (target : Target) (h : target.isBuiltIn = true) (raw : Value) :
    standard.coerce target.kind raw ≠ some .null ∧
    (∀ v, standard.coerce target.kind raw = some v → (target.unwrap? v).isSome = true) ∧
    (∀ (r : Record) (column : String), r.engine = standard → r.get? column = some raw →
      (r.getAs? target column = none ↔ standard.coerce target.kind raw = none)) ∧
    (∀ rest : List Value,
      standard.scalar? target (raw :: rest) = none ↔ standard.coerce target.kind raw = none) ∧
    (∀ (shape : Shape) (i : Nat) (m : Member) (columns : List String) (values : List Value),
      shape[i]? = some m → m.target = target → shape.firstMatch? i columns values = some raw →
        (standard.coerce target.kind raw = none →
          (shape.fillOne standard columns values)[i]? = some m.initial) ∧
        (∀ v, standard.coerce target.kind raw = some v → ∃ cell, target.unwrap? v = some cell ∧
          (shape.fillOne standard columns values)[i]? = some cell)) := by
  refine ⟨fun hnull => (fits_of_coerce hnull).ne_null rfl, ?_, ?_, ?_, ?_⟩
  · intro v hcoerce
    obtain ⟨cell, hcell⟩ := Target.unwrap?_of_fits h (fits_of_coerce hcoerce)
    rw [hcell, Option.isSome_some]
  · intro r column hengine hget
    rw [Record.getAs?, hget, hengine, Option.bind_some, cell?_eq_none_iff h]
  · intro rest
    rw [scalar?, List.head?_cons, Option.bind_some, cell?_eq_none_iff h]
  · rintro shape i m columns values hm rfl hfirst
    have hfill := shape.getElem?_fillOne standard hm columns values
    rw [hfirst, Option.bind_some] at hfill
    constructor
    · intro hnone
      rw [hfill, (cell?_eq_none_iff h raw).mpr hnone, Option.getD_none]
    · intro v hcoerce
      obtain ⟨cell, hcell⟩ := Target.unwrap?_of_fits h (fits_of_coerce hcoerce)
      exact ⟨cell, hcell, by rw [hfill, cell?, hcoerce, Option.bind_some, hcell, Option.getD_some]⟩

/-- A text is read into an optional place within an optional place. -/
theorem coerce_unwraps_optional :
    (Target.optional (.optional (.integer .uint8))).isBuiltIn = true ∧
      (∀ v, standard.coerce (.integer .uint8) (.text " 255 ") = some v →
        ((Target.optional (.optional (.integer .uint8))).unwrap? v).isSome = true) ∧
      standard.coerce (.integer .uint8) (.text " 255 ") = some (.int 255) :=
  ⟨rfl, (coerce_unwraps (.optional (.optional (.integer .uint8))) rfl (.text " 255 ")).2.1,
    by decide⟩

end Engine

end BoundSql
