import BoundSql.Coercion.Engine
import BoundSql.Proofs.Coercion.Temporal
import BoundSql.Proofs.Guid
import BoundSql.Proofs.Number.DecimalText
import BoundSql.Proofs.Number.Figure

/-!
# What is stored is read back

A value that has a storage form of its own kind is taken as it is. The others are stored as an
integer or as text; the engine without coercers reads that form back into the kind of the value.
What comes back is the same value, but for a leap second within a minute: its text is that of the
second behind it, and that is what comes back.
-/

namespace BoundSql

/-- The values whose storage form is read for their kind. The empty text counts as unset, an offset
is written in whole minutes with a local year of four digits, and the scale of a decimal is a signed
word. -/
def Value.Storable : Value → Prop
  | .null | .float _ => False
  | .decimal d => -(2 ^ 63) ≤ d.scale ∧ d.scale < 2 ^ 63
  | .text s => s ≠ ""
  | .dateTimeOffset z =>
    z.offset % 60 = 0 ∧ 0 ≤ z.localReading.1.year ∧ z.localReading.1.year ≤ 9999
  | .bool _ | .int _ | .blob _ | .date _ | .dateTime _ | .guid _ => True

/-- A leap second, if the value is in one, is the last second of its minute. -/
def Value.LeapIsLast : Value → Prop
  | .dateTime d => d.clock.LeapIsLast
  | .dateTimeOffset z => z.utc.clock.LeapIsLast
  | _ => True

/-- An offset date-time is the same instant as what its clock shows unless it is in a leap second
within a minute. -/
theorem OffsetDateTime.settled_same_iff (z : OffsetDateTime) :
    z.settled.same z = true ↔ z.utc.clock.LeapIsLast := by
  rw [same, beq_iff_eq]
  exact z.utc.settled_eq_iff

/-- The digit one stands for the true value and the digit zero for the other one. -/
theorem Convert.truthy_bit (b : Bool) : truthy (.int (if b then 1 else 0)) = b := by
  have htruthy {n : Int64} {cs : List Char} (hcs : Numeral.signed n.toInt = cs) :
      truthy (.int n) =
        truthyWords.any fun w => CaseFold.asciiSame w.toList (Text.trimmed cs) := by
    simp only [truthy, Value.toText?, Value.shown, hcs, String.toList_ofList]
  cases b with
  | false =>
    have hzero : Numeral.signed (0 : Int64).toInt = ['0'] :=
      @Numeral.digits_of_lt 0 (by decide)
    exact (htruthy hzero).trans (by decide)
  | true =>
    have hone : Numeral.signed (1 : Int64).toInt = ['1'] :=
      @Numeral.digits_of_lt 1 (by decide)
    exact (htruthy hone).trans (by decide)

namespace Engine

/-- A value that is not blank is taken as it is for its own kind. -/
theorem coerce_kind (e : Engine) {v : Value} (h : isBlank v = false) :
    e.coerce v.kind v = some v := by
  simp [coerce, h]

/-- A kind whose conversion reads texts, but not the empty one, takes what is read from a text that
has nothing to trim. -/
theorem coerce_ofList {α : Type} {kind : Kind} (hkind : kind ≠ .text)
    {read? : List Char → Option α} {make : α → Value} (hempty : read? [] = none)
    (hconvert : ∀ s : String,
      standard.convert kind (.text s) = (read? (Text.trimmed s.toList)).map make)
    {cs : List Char} (htrim : Text.trimmed cs = cs) {a : α} (hread : read? cs = some a) :
    standard.coerce kind (.text (String.ofList cs)) = some (make a) := by
  have hne : cs ≠ [] := by
    intro hnil
    rw [hnil, hempty] at hread
    exact nomatch hread
  have hblank : isBlank (.text (String.ofList cs)) = false := by
    simp [isBlank, hne]
  have hother : ¬(Value.text (String.ofList cs)).kind = kind := fun hsame => hkind hsame.symm
  rw [coerce, hblank, if_neg (by decide), if_neg hother, hconvert, String.toList_ofList, htrim,
    hread, Option.map_some]

/-- A value of another kind is turned into a truth value by its words. -/
theorem coerce_bool_eq {v : Value} (hblank : isBlank v = false) (hother : v.kind ≠ .bool) :
    standard.coerce .bool v = some (.bool (Convert.truthy v)) := by
  rw [coerce, hblank, if_neg Bool.false_ne_true, if_neg hother]
  rfl

/-- A truth value is read back from the integer that stands for it. -/
theorem coerce_bool (b : Bool) :
    standard.coerce .bool (.int (if b then 1 else 0)) = some (.bool b) := by
  rw [coerce_bool_eq rfl (by simp [Value.kind]), Convert.truthy_bit]

/-- An identifier is read back from its text. -/
theorem coerce_guid (g : Guid) :
    standard.coerce .guid (.text (String.ofList g.text)) = some (.guid g) :=
  coerce_ofList (by decide) rfl (fun _ => rfl) g.trimmed_text g.read?_text

/-- A decimal is read back from its text as the same number. -/
theorem coerce_decimal {d : Decimal} (h : -(2 ^ 63) ≤ d.scale ∧ d.scale < 2 ^ 63) :
    ∃ e, standard.coerce .decimal (.text (String.ofList d.text)) = some (.decimal e) ∧
      e.same d = true := by
  obtain ⟨e, hread, hsame⟩ := Decimal.read?_text h
  have htrim : Text.trimmed d.text = d.text :=
    Text.trimmed_of_forall fun c hc => Numeral.isBlank_of_isFigure (d.figures_text c hc)
  exact ⟨e, coerce_ofList (by decide) rfl (fun _ => rfl) htrim hread, hsame⟩

/-- A date is read back from its text. -/
theorem coerce_date (d : Date) :
    standard.coerce .date (.text (String.ofList d.text)) = some (.date d) := by
  have hconvert (s : String) : standard.convert .date (.text s) =
      (Temporal.readDateTime? (Text.trimmed s.toList)).map fun t => .date t.date := rfl
  exact coerce_ofList (by decide) rfl hconvert d.trimmed_text (Temporal.readDateTime?_date d)

/-- What the clock of a date-time shows is read back from its text. -/
theorem coerce_dateTime (d : DateTime) :
    standard.coerce .dateTime (.text (String.ofList d.text)) = some (.dateTime d.settled) := by
  have hread := Temporal.readDateTime?_dateTime d.settled d.clock.leapIsLast_settled
  rw [← d.text_settled]
  exact coerce_ofList (by decide) rfl (fun _ => rfl) d.settled.trimmed_text hread

/-- What the clock of an offset date-time of a four-digit local year shows is read back from its
text when its offset is a whole number of minutes. -/
theorem coerce_dateTimeOffset (z : OffsetDateTime) (hminutes : z.offset % 60 = 0)
    (hyear : 0 ≤ z.localReading.1.year ∧ z.localReading.1.year ≤ 9999) :
    standard.coerce .dateTimeOffset (.text (String.ofList z.text)) =
      some (.dateTimeOffset z.settled) := by
  let read? (cs : List Char) : Option OffsetDateTime :=
    (Temporal.readOffset? cs).or ((Temporal.readDateTime? cs).map OffsetDateTime.ofUtc)
  have hconvert (s : String) : standard.convert .dateTimeOffset (.text s) =
      (read? (Text.trimmed s.toList)).map .dateTimeOffset := rfl
  have hday : z.settled.localReading.1 = z.localReading.1 := by
    rw [z.localReading_settled hminutes]
  rw [← hday] at hyear
  have hread : read? z.settled.text = some z.settled := by
    simp only [read?, Option.some_or,
      Temporal.readOffset?_text z.settled z.utc.clock.leapIsLast_settled hminutes hyear]
  rw [← z.text_settled hminutes]
  exact coerce_ofList (by decide) rfl hconvert z.settled.trimmed_text hread

/-- The form in which a value is stored is read for its kind, and what is read is the same value
exactly when the value is not in a leap second within a minute. -/
theorem coerce_stored {v : Value} (h : v.Storable) :
    ∃ w, standard.coerce v.kind v.stored = some w ∧ (w.same v = true ↔ v.LeapIsLast) := by
  cases v with
  | null => exact absurd h id
  | float x => exact absurd h id
  | bool b => exact ⟨.bool b, coerce_bool b, iff_of_true (beq_self_eq_true _) trivial⟩
  | int n => exact ⟨.int n, standard.coerce_kind rfl, iff_of_true (beq_self_eq_true _) trivial⟩
  | decimal d =>
    obtain ⟨e, hcoerce, hsame⟩ := coerce_decimal h
    exact ⟨.decimal e, hcoerce, iff_of_true hsame trivial⟩
  | text s =>
    have hne : s ≠ "" := h
    have hblank : isBlank (.text s) = false := by simpa [isBlank] using hne
    exact ⟨.text s, standard.coerce_kind hblank, iff_of_true (beq_self_eq_true _) trivial⟩
  | blob bytes =>
    exact ⟨.blob bytes, standard.coerce_kind rfl, iff_of_true (beq_self_eq_true _) trivial⟩
  | date d => exact ⟨.date d, coerce_date d, iff_of_true (beq_self_eq_true _) trivial⟩
  | dateTime d =>
    refine ⟨.dateTime d.settled, coerce_dateTime d, ?_⟩
    simp only [Value.same, Value.LeapIsLast, beq_iff_eq, d.settled_eq_iff]
  | dateTimeOffset z =>
    exact ⟨.dateTimeOffset z.settled, coerce_dateTimeOffset z h.1 h.2, z.settled_same_iff⟩
  | guid g => exact ⟨.guid g, coerce_guid g, iff_of_true (beq_self_eq_true _) trivial⟩

/-- Half a second into a leap second, on a clock five hours behind. -/
def leapSample : Value :=
  let date : Date := ⟨⟨2016, 12, 31, by decide⟩, by decide⟩
  let clock : Clock := ⟨86399, 1500000000, by decide, by decide⟩
  .dateTimeOffset ⟨⟨date, clock⟩, -18000, by decide⟩

/-- A leap second at the end of a minute is read back, on a clock behind universal time too. -/
theorem coerce_stored_leapSample : leapSample.Storable ∧
    ∃ w, standard.coerce leapSample.kind leapSample.stored = some w ∧
      w.same leapSample = true := by
  have h : leapSample.Storable := ⟨by decide, by decide, by decide⟩
  have hlast : leapSample.LeapIsLast := fun _ => rfl
  obtain ⟨w, hcoerce, hsame⟩ := coerce_stored h
  exact ⟨h, w, hcoerce, hsame.mpr hlast⟩

/-- A third of a second into a leap second behind the sixteenth second of a minute. -/
def withinMinute : DateTime :=
  ⟨⟨⟨2024, 1, 1, by decide⟩, by decide⟩, ⟨45015, 1333333333, by decide, by decide⟩⟩

/-- A leap second within a minute is stored as the text of the second behind it and is not read
back. -/
theorem coerce_stored_withinMinute :
    (Value.dateTime withinMinute).Storable ∧
      (Value.dateTime withinMinute).stored = .text "2024-01-01 12:30:16.333333333" ∧
      ¬∃ w, standard.coerce .dateTime (Value.dateTime withinMinute).stored = some w ∧
        w.same (.dateTime withinMinute) = true := by
  refine ⟨trivial, by decide +kernel, ?_⟩
  rintro ⟨w, hcoerce, hsame⟩
  obtain rfl := Option.some.inj ((coerce_dateTime withinMinute).symm.trans hcoerce)
  exact absurd hsame (by decide)

end Engine

end BoundSql
