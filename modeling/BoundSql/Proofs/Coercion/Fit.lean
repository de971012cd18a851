import BoundSql.Proofs.Coercion.Integer
import BoundSql.Proofs.Coercion.Storage

/-!
# What a coercion gives fits the kind

Every kind has its values: the variant of the kind, an integer within the range of an integer kind,
any integer for an enumeration. A coercion by the engine without coercers gives a value of the kind,
and a value of a kind is coerced to itself, whichever conversion it goes through. So a second
coercion changes nothing; only the empty text, which counts as unset, is not taken again, and it
comes of an empty blob alone.
-/

namespace BoundSql

/-- The values of each kind. A custom kind without a coercer has all values but the missing one. -/
inductive Value.Fits : Kind → Value → Prop where
  /-- Truth values. -/
  | bool (b : Bool) : Fits .bool (.bool b)
  /-- Integers within the range of the kind. -/
  | integer {k : IntegerKind} {n : Int64} (hholds : k.holds n.toInt = true) :
    Fits (.integer k) (.int n)
  /-- Floating-point numbers, which are narrowed only in their place. -/
  | float32 (x : Binary64) : Fits .float32 (.float x)
  /-- Floating-point numbers. -/
  | float64 (x : Binary64) : Fits .float64 (.float x)
  /-- Decimal numbers. -/
  | decimal (d : Decimal) : Fits .decimal (.decimal d)
  /-- Texts. -/
  | text (s : String) : Fits .text (.text s)
  /-- Bytes. -/
  | blob (bytes : List UInt8) : Fits .blob (.blob bytes)
  /-- Dates. -/
  | date (d : Date) : Fits .date (.date d)
  /-- Date-times. -/
  | dateTime (d : DateTime) : Fits .dateTime (.dateTime d)
  /-- Offset date-times. -/
  | dateTimeOffset (z : OffsetDateTime) : Fits .dateTimeOffset (.dateTimeOffset z)
  /-- Identifiers. -/
  | guid (g : Guid) : Fits .guid (.guid g)
  /-- Ordinals, whether a member of the enumeration has them or not. -/
  | enumeration (ordinals : Ordinals) (n : Int64) : Fits (.enumeration ordinals) (.int n)
  /-- Any value that is there. -/
  | custom (name : String) {v : Value} (hv : v ≠ .null) : Fits (.custom name) v

namespace Value.Fits

/-- The missing value fits no kind. -/
theorem ne_null {kind : Kind} {v : Value} (h : Fits kind v) : v ≠ .null := by
  cases h with
  | custom _ hv => exact hv
  | _ => exact Value.noConfusion

/-- A value that is there fits its own kind. -/
theorem kind {v : Value} (h : v ≠ .null) : Fits v.kind v := by
  cases v with
  | null => exact absurd rfl h
  | int n => exact .integer (IntegerKind.holds_int64 n)
  | bool b => exact .bool b
  | float x => exact .float64 x
  | decimal d => exact .decimal d
  | text s => exact .text s
  | blob bytes => exact .blob bytes
  | date d => exact .date d
  | dateTime d => exact .dateTime d
  | dateTimeOffset z => exact .dateTimeOffset z
  | guid g => exact .guid g

/-- What is made of something read fits a kind when everything made in this way does. -/
theorem of_map {α : Type} {kind : Kind} {make : α → Value} (hmake : ∀ a, (make a).Fits kind)
    {read : Option α} {v : Value} (h : read.map make = some v) : v.Fits kind := by
  obtain ⟨a, -, rfl⟩ := Option.map_eq_some_iff.mp h
  exact hmake a

end Value.Fits

/-- What a value is converted to fits the kind. -/
theorem Convert.fits_of_value? {kind : Kind} {raw v : Value} (h : value? kind raw = some v) :
    v.Fits kind := by
  cases kind with
  | integer k =>
    obtain ⟨n, hword, rfl⟩ := Option.map_eq_some_iff.mp h
    exact .integer (Option.filter_eq_some_iff.mp hword).2
  | float32 => exact .of_map .float32 h
  | float64 => exact .of_map .float64 h
  | decimal => exact .of_map .decimal h
  | text => exact .of_map .text h
  | blob => exact .of_map .blob h
  | date => exact .of_map (fun d : DateTime => .date d.date) h
  | dateTime => exact .of_map .dateTime h
  | dateTimeOffset => exact .of_map .dateTimeOffset h
  | null | bool | guid | enumeration | custom => exact nomatch h

namespace Engine

/-- A blank value is the missing one or the empty text. -/
theorem isBlank_iff (v : Value) : isBlank v = true ↔ v = .null ∨ v = .text "" := by
  cases v <;> simp [isBlank]

/-- What a coercion gives fits the kind. -/
theorem fits_of_coerce {kind : Kind} {raw v : Value} (h : standard.coerce kind raw = some v) :
    v.Fits kind := by
  unfold coerce at h
  split at h
  · exact nomatch h
  · rename_i hblank
    have hraw : raw ≠ .null := fun hnull => hblank ((isBlank_iff raw).mpr (Or.inl hnull))
    split at h
    · rename_i hkind
      obtain rfl := Option.some.inj h
      exact hkind ▸ Value.Fits.kind hraw
    · cases kind with
      | bool =>
        obtain rfl := Option.some.inj h
        exact .bool _
      | guid => exact .of_map .guid h
      | enumeration ordinals => exact .of_map (.enumeration ordinals) h
      | custom name =>
        obtain rfl := Option.some.inj h
        exact .custom name hraw
      | _ => exact @Convert.fits_of_value? _ raw v h

/-- A value of a kind is coerced to itself, also where the kind is not the value's own and the value
is converted once more. -/
theorem coerce_of_fits {kind : Kind} {v : Value} (h : v.Fits kind) (hblank : isBlank v = false) :
    standard.coerce kind v = some v := by
  cases h with
  | integer hholds =>
    simp only [coerce_integer, Convert.word?, Option.filter_some, hholds, if_true, Option.map_some]
  | float32 x => rfl
  | enumeration ordinals n => rfl
  | custom name hv =>
    have hother (hkind : v.kind = .custom name) : False := by
      cases v <;> simp [Value.kind] at hkind
    rw [coerce, hblank, if_neg Bool.false_ne_true, if_neg hother]
    rfl
  | _ => exact standard.coerce_kind hblank

end Engine

/-- The plain text of a value is the value written out. -/
theorem Value.shown_of_toText? {v : Value} {s : String} (h : v.toText? = some s) :
    v.shown = s := by
  cases v with
  | null => exact nomatch h
  | _ => exact Option.some.inj h

/-- Only an empty text and an empty blob are written out as nothing. -/
theorem Value.shown_eq_empty_iff (v : Value) : v.shown = "" ↔ v = .text "" ∨ v = .blob [] := by
  cases v with
  | null => simp [shown]
  | bool b => cases b <;> simp [shown]
  | int n => simp [shown, Numeral.signed_ne_nil]
  | float x => simp [shown, x.text_ne_nil]
  | decimal d => simp [shown, d.text_ne_nil]
  | text s => simp [shown]
  | blob bytes => cases bytes <;> simp [shown, Hex.upper, Hex.pair]
  | date d => simp [shown, Date.text, Day.text]
  | dateTime d => simp [shown, DateTime.text]
  | dateTimeOffset z => simp [shown, OffsetDateTime.text]
  | guid g =>
    have hne : g.text ≠ [] := by
      intro hnil
      have hread := g.read?_text
      have hnone : Guid.read? [] = none := rfl
      simp [hnil, hnone] at hread
    simp [shown, hne]

namespace Engine

/-- The empty text comes of an empty blob that is turned into text, and of nothing else. -/
theorem coerce_eq_empty_iff (kind : Kind) (raw : Value) :
    standard.coerce kind raw = some (.text "") ↔ kind = .text ∧ raw = .blob [] := by
  constructor
  · intro h
    have hfits := fits_of_coerce h
    unfold coerce at h
    split at h
    · exact nomatch h
    · rename_i hblank
      have hempty : raw ≠ .text "" := fun heq => hblank ((isBlank_iff raw).mpr (Or.inr heq))
      split at h
      · exact absurd (Option.some.inj h) hempty
      · cases hfits with
        | text =>
          obtain ⟨s, hwritten, hs⟩ := Option.map_eq_some_iff.mp h
          obtain rfl := Value.text.inj hs
          rcases (Value.shown_eq_empty_iff raw).mp (Value.shown_of_toText? hwritten) with heq | heq
          · exact absurd heq hempty
          · exact ⟨rfl, heq⟩
        | custom => exact absurd (Option.some.inj h) hempty
  · rintro ⟨rfl, rfl⟩
    rfl

/-- What a coercion gave is given again by a second one, bit for bit, unless it is the empty text;
and the empty text comes of an empty blob that is turned into text, and of nothing else. -/
theorem coerce_idempotent (kind : Kind) (raw v : Value)
    (h : standard.coerce kind raw = some v) :
    (v ≠ .text "" → standard.coerce kind v = some v) ∧
      (v = .text "" ↔ kind = .text ∧ raw = .blob []) := by
  have hfits := fits_of_coerce h
  constructor
  · intro hne
    have hblank : isBlank v = false := by
      rw [Bool.eq_false_iff, ne_eq, isBlank_iff]
      exact fun hor => hor.elim hfits.ne_null hne
    exact coerce_of_fits hfits hblank
  · rw [← coerce_eq_empty_iff, h, Option.some.injEq]

/-- A name of an enumeration in other letters becomes its ordinal, and the ordinal stays. -/
theorem coerce_idempotent_ordinal :
    standard.coerce (.enumeration [("Active", 1), ("Suspended", 2)]) (.text " sUSPENDED ") =
        some (.int 2) ∧
      standard.coerce (.enumeration [("Active", 1), ("Suspended", 2)]) (.int 2) =
        some (.int 2) := by
  have h : standard.coerce (.enumeration [("Active", 1), ("Suspended", 2)])
      (.text " sUSPENDED ") = some (.int 2) := by decide
  exact ⟨h, (coerce_idempotent _ _ _ h).1 (by decide)⟩

end Engine

end BoundSql
