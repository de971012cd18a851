import BoundSql.Coercion.Engine
import BoundSql.Proofs.Calendar.Zone

/-!
# Dates, date-times and instants are read alike

A text with an offset fits no layout of dates and date-times, and a text without one fits no layout
of offset date-times, so it does not matter which of the two lists is tried first. All three kinds
take the same instant from a raw value: an offset date-time shows it with its offset, a date-time is
its reading in universal time, and a date is the date of that.
-/

namespace BoundSql

namespace Temporal

/-- Reads a trimmed text as a date-time without an offset or as a date. -/
def readNaive? (cs : List Char) : Option DateTime :=
  (firstFit dateTimeLayouts Layout.Reading.dateTime? cs).or
    ((firstFit dateLayouts Layout.Reading.date? cs).map DateTime.atMidnight)

/-- The instant that a value denotes. An offset date-time keeps its offset. -/
def instant? : Value → Option OffsetDateTime
  | .dateTimeOffset z => some z
  | v => offsetDateTime? v

/-- A layout of the list fits a text that the list makes something of. -/
theorem exists_of_firstFit {α : Type} {layouts : List (List Layout.Part)}
    {make : Layout.Reading → Option α} {cs : List Char} {a : α}
    (h : firstFit layouts make cs = some a) :
    ∃ layout ∈ layouts, ∃ r, Layout.read? layout {} cs = some r := by
  obtain ⟨layout, hmem, hbind⟩ := List.exists_of_findSome?_eq_some h
  obtain ⟨r, hread, -⟩ := Option.bind_eq_some_iff.mp hbind
  exact ⟨layout, hmem, r, hread⟩

/-- Layouts without an offset make something only of texts without one. -/
theorem isZoned_eq_false_of_readNaive? {cs : List Char} {d : DateTime}
    (h : readNaive? cs = some d) : Layout.isZoned cs = false := by
  have hlocal : ∀ layout ∈ dateTimeLayouts ++ dateLayouts, Layout.isLocal layout = true := by
    decide
  rcases Option.or_eq_some_iff.mp h with htimed | ⟨-, hdated⟩
  · obtain ⟨layout, hmem, r, hread⟩ := exists_of_firstFit htimed
    exact Layout.isZoned_eq_false_of_isLocal (hlocal layout (List.mem_append_left _ hmem)) hread
  · obtain ⟨date, hfit, -⟩ := Option.map_eq_some_iff.mp hdated
    obtain ⟨layout, hmem, r, hread⟩ := exists_of_firstFit hfit
    exact Layout.isZoned_eq_false_of_isLocal (hlocal layout (List.mem_append_right _ hmem)) hread

open Layout.Part in
/-- The layouts of offset date-times have their offset behind the time of day. -/
theorem offset_behind_colon {layout : List Layout.Part} (h : layout ∈ offsetLayouts) :
    ∃ after, offset ∈ after ∧
      layout = [year, mark '-', month, mark '-', day, blanks, hour] ++ mark ':' :: after := by
  simp only [offsetLayouts, List.mem_cons, List.not_mem_nil, or_false] at h
  rcases h with rfl | rfl
  · exact ⟨_, by decide, rfl⟩
  · exact ⟨_, by decide, rfl⟩

/-- Layouts with an offset make something only of texts with one. -/
theorem isZoned_of_readOffset? {cs : List Char} {z : OffsetDateTime} (h : readOffset? cs = some z) :
    Layout.isZoned cs = true := by
  rcases Option.or_eq_some_iff.mp h with hinternet | ⟨-, hfit⟩
  · obtain ⟨r, hread, -⟩ := Option.bind_eq_some_iff.mp hinternet
    exact Layout.isZoned_of_internet? hread
  · obtain ⟨layout, hmem, r, hread⟩ := exists_of_firstFit hfit
    obtain ⟨after, hoffset, rfl⟩ := offset_behind_colon hmem
    exact Layout.isZoned_of_offset hoffset hread

/-- No text is read both with an offset and without one. -/
theorem readNaive?_eq_none_or (cs : List Char) : readNaive? cs = none ∨ readOffset? cs = none := by
  cases hnaive : readNaive? cs with
  | none => exact Or.inl rfl
  | some d =>
    right
    cases hoffset : readOffset? cs with
    | none => rfl
    | some z =>
      have hzoned := isZoned_of_readOffset? hoffset
      rw [isZoned_eq_false_of_readNaive? hnaive] at hzoned
      exact absurd hzoned Bool.false_ne_true

/-- The layouts without an offset can be tried before those with one or after them. -/
theorem readNaive?_or_comm (cs : List Char) :
    (readNaive? cs).or ((readOffset? cs).map OffsetDateTime.utc) =
      ((readOffset? cs).map OffsetDateTime.utc).or (readNaive? cs) := by
  rcases readNaive?_eq_none_or cs with hnone | hnone
  · rw [hnone, Option.none_or, Option.or_none]
  · rw [hnone, Option.map_none, Option.or_none, Option.none_or]

/-- A date-time is read without an offset or else with one. -/
theorem readDateTime?_eq (cs : List Char) :
    readDateTime? cs = (readNaive? cs).or ((readOffset? cs).map OffsetDateTime.utc) := rfl

/-- An instant in universal time shows the date-time that it is made of. -/
theorem map_utc_map_ofUtc (found : Option DateTime) :
    (found.map OffsetDateTime.ofUtc).map OffsetDateTime.utc = found := by
  cases found <;> rfl

/-- A date-time is what an instant shows in universal time. -/
theorem map_utc_instant? (v : Value) : (instant? v).map OffsetDateTime.utc = dateTime? v := by
  cases v with
  | dateTimeOffset z => rfl
  | text s =>
    have hinstant : instant? (.text s) = (readOffset? (Text.trimmed s.toList)).or
        ((readDateTime? (Text.trimmed s.toList)).map OffsetDateTime.ofUtc) := rfl
    rw [hinstant, dateTime?]
    cases hoffset : readOffset? (Text.trimmed s.toList) with
    | some z =>
      rw [readDateTime?_eq, readNaive?_or_comm, hoffset]
      rfl
    | none => rw [Option.none_or, map_utc_map_ofUtc]
  | null | bool | int | float | decimal | blob | date | dateTime | guid =>
    simp only [instant?, offsetDateTime?, map_utc_map_ofUtc]

end Temporal

namespace Engine

/-- A text is converted to a kind of dates and times, and the empty text to nothing. -/
theorem coerce_temporal_text {kind : Kind}
    (hkind : kind = .date ∨ kind = .dateTime ∨ kind = .dateTimeOffset) (s : String) :
    standard.coerce kind (.text s) = Convert.value? kind (.text s) := by
  by_cases hs : s = ""
  · subst hs
    rcases hkind with rfl | rfl | rfl <;> decide
  · have hblank : isBlank (.text s) = false := by simpa [isBlank] using hs
    have hother : Value.kind (.text s) ≠ kind := by
      rcases hkind with rfl | rfl | rfl <;> exact nofun
    rw [coerce, hblank, if_neg Bool.false_ne_true, if_neg hother]
    rcases hkind with rfl | rfl | rfl <;> rfl

/-- An offset date-time is the instant that a value denotes. -/
theorem coerce_dateTimeOffset_eq (raw : Value) :
    standard.coerce .dateTimeOffset raw = (Temporal.instant? raw).map .dateTimeOffset := by
  cases raw with
  | text s => exact coerce_temporal_text (Or.inr (Or.inr rfl)) s
  | _ => rfl

/-- A date-time is the one that a value denotes. -/
theorem coerce_dateTime_eq (raw : Value) :
    standard.coerce .dateTime raw = (Temporal.dateTime? raw).map .dateTime := by
  cases raw with
  | text s => exact coerce_temporal_text (Or.inr (Or.inl rfl)) s
  | _ => rfl

/-- A date is that of the date-time that a value denotes. -/
theorem coerce_date_eq (raw : Value) :
    standard.coerce .date raw = (Temporal.dateTime? raw).map fun d => .date d.date := by
  cases raw with
  | text s => exact coerce_temporal_text (Or.inl rfl) s
  | _ => rfl

/-- The three kinds of dates and times take one instant from a raw value, or nothing together: the
instant itself, its date-time in universal time, and the date of that. It does not matter for a text
whether the layouts with an offset are tried first or those without. -/
theorem coerce_instant (raw : Value) :
    (∃ instant : Option OffsetDateTime,
      standard.coerce .dateTimeOffset raw = instant.map .dateTimeOffset ∧
      standard.coerce .dateTime raw = (instant.map fun z => .dateTime z.utc) ∧
      standard.coerce .date raw = instant.map fun z => .date z.utc.date) ∧
    ∀ cs : List Char,
      (Temporal.readNaive? cs).or ((Temporal.readOffset? cs).map OffsetDateTime.utc) =
        ((Temporal.readOffset? cs).map OffsetDateTime.utc).or (Temporal.readNaive? cs) := by
  refine ⟨⟨Temporal.instant? raw, coerce_dateTimeOffset_eq raw, ?_, ?_⟩,
    Temporal.readNaive?_or_comm⟩
  · rw [coerce_dateTime_eq, ← Temporal.map_utc_instant?, Option.map_map]
    rfl
  · rw [coerce_date_eq, ← Temporal.map_utc_instant?, Option.map_map]
    rfl

end Engine

end BoundSql
