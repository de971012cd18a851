import BoundSql.Coercion.Temporal
import BoundSql.Proofs.Calendar.Mark
import BoundSql.Proofs.Calendar.Moment
import BoundSql.Proofs.Calendar.Reading

/-!
# Dates and times are read in the layout in which they are written

A date-time is read by the first layout of its list. A date has no colon, so no layout of times
takes it before the layouts of dates are tried. An offset date-time whose local year has four digits
is read by the internet layout.
-/

namespace BoundSql

/-- A day is written with digits, dashes and a plus sign. -/
theorem Day.colon_not_mem_text (d : Day) : ':' ∉ d.text := by
  have hpadded (width n : Nat) : ':' ∉ Numeral.padded width n := fun hmem =>
    absurd (Numeral.isDigit_of_mem_padded hmem) (by decide)
  have hyear : ':' ∉ yearText d.year := by
    unfold yearText
    split
    · exact hpadded 4 _
    · split <;> simp [hpadded]
  simp [text, hyear, hpadded]

/-- A written time of day ends with a digit. -/
theorem Clock.exists_text_eq_concat (c : Clock) :
    ∃ cs d, c.text = cs ++ [d] ∧ Numeral.isDigit d = true := by
  have hbehind (front : List Char) (mark : Char) (width n : Nat) :
      ∃ cs d, front ++ mark :: Numeral.padded width n = cs ++ [d] ∧ Numeral.isDigit d = true := by
    obtain ⟨ds, d, hpadded, hd⟩ := Numeral.exists_padded_eq_concat width n
    exact ⟨front ++ mark :: ds, d, by simp [hpadded], hd⟩
  unfold text fractionText
  split
  · rw [List.append_nil]
    exact hbehind _ _ _ _
  · split
    · exact hbehind _ _ _ _
    · split
      · exact hbehind _ _ _ _
      · exact hbehind _ _ _ _

/-- A text that begins with a year and does not end with a blank has nothing to trim. -/
theorem trimmed_yearText_append (year : Int) {cs : List Char} {c : Char}
    (hc : Text.isBlank c = false) :
    Text.trimmed (yearText year ++ (cs ++ [c])) = yearText year ++ (cs ++ [c]) := by
  rw [Text.trimmed, Layout.trimStart_yearText, ← List.append_assoc]
  exact Text.trimEnd_concat_of_not_isBlank hc _

/-- A written date has nothing to trim. -/
theorem Date.trimmed_text (d : Date) : Text.trimmed d.text = d.text := by
  obtain ⟨ds, c, hpadded, hc⟩ := Numeral.exists_padded_eq_concat 2 d.day.day
  have htext : d.text = yearText d.day.year ++
      (('-' :: Numeral.padded 2 d.day.month ++ '-' :: ds) ++ [c]) := by
    simp [text, Day.text, hpadded]
  rw [htext]
  exact trimmed_yearText_append _ (Numeral.isBlank_of_isDigit hc)

/-- A written date-time has nothing to trim. -/
theorem DateTime.trimmed_text (d : DateTime) : Text.trimmed d.text = d.text := by
  obtain ⟨cs, c, hclock, hc⟩ := d.clock.exists_text_eq_concat
  have htext : d.text = yearText d.date.day.year ++
      (('-' :: Numeral.padded 2 d.date.day.month ++ '-' :: Numeral.padded 2 d.date.day.day ++
        ' ' :: cs) ++ [c]) := by
    simp [text, Date.text, Day.text, hclock]
  rw [htext]
  exact trimmed_yearText_append _ (Numeral.isBlank_of_isDigit hc)

/-- A written offset date-time has nothing to trim. -/
theorem OffsetDateTime.trimmed_text (z : OffsetDateTime) : Text.trimmed z.text = z.text := by
  obtain ⟨ds, c, hpadded, hc⟩ :=
    Numeral.exists_padded_eq_concat 2 ((z.offset.natAbs + 30) / 60 % 60)
  have hparts : z.text = z.localReading.1.text ++ 'T' :: z.localReading.2.text ++
      offsetText z.offset := rfl
  obtain ⟨cs, htext⟩ : ∃ cs, z.text = yearText z.localReading.1.year ++ (cs ++ [c]) := by
    refine ⟨'-' :: Numeral.padded 2 z.localReading.1.month ++
      '-' :: Numeral.padded 2 z.localReading.1.day ++ 'T' :: z.localReading.2.text ++
        (if z.offset < 0 then '-' else '+') ::
          (Numeral.padded 2 ((z.offset.natAbs + 30) / 60 / 60) ++ ':' :: ds), ?_⟩
    simp [hparts, Day.text, offsetText, hpadded]
  rw [htext]
  exact trimmed_yearText_append _ (Numeral.isBlank_of_isDigit hc)

namespace Temporal

/-- The first layout that fits decides. -/
theorem firstFit_cons_of_read? {α : Type} {layout : List Layout.Part}
    {make : Layout.Reading → Option α} {cs : List Char} {r : Layout.Reading} {a : α}
    (hread : Layout.read? layout {} cs = some r) (hmake : make r = some a)
    (layouts : List (List Layout.Part)) : firstFit (layout :: layouts) make cs = some a := by
  simp only [firstFit, List.findSome?_cons, hread, Option.bind_some, hmake]

/-- Layouts that need a character do not fit a text without it. -/
theorem firstFit_of_not_mem {α : Type} {layouts : List (List Layout.Part)} {c : Char}
    (hlayouts : ∀ layout ∈ layouts, Layout.Part.mark c ∈ layout)
    (make : Layout.Reading → Option α) {cs : List Char} (hcs : c ∉ cs) :
    firstFit layouts make cs = none := by
  refine List.findSome?_eq_none_iff.mpr fun layout hlayout => ?_
  cases hread : Layout.read? layout {} cs with
  | none => rfl
  | some r => exact absurd (Layout.mem_of_read? (hlayouts layout hlayout) hread) hcs

open Layout.Part in
/-- The first layout of date-times reads back a date-time. -/
theorem read?_dateTime (d : DateTime) :
    Layout.read? [year, mark '-', month, mark '-', day, blanks, hour, mark ':', minute, mark ':',
        second, fraction] {} d.text =
      some ⟨d.date.day.year, d.date.day.month, d.date.day.day, d.clock.hour, d.clock.minute,
        d.clock.shownSecond, d.clock.shownNanos, 0⟩ := by
  have htrim : Text.trimStart (' ' :: d.clock.text) = d.clock.text := by
    have hdrop : Text.trimStart (' ' :: d.clock.text) = Text.trimStart d.clock.text :=
      List.dropWhile_cons_of_pos (by decide)
    rw [hdrop, Clock.text, List.append_assoc, List.append_assoc]
    exact Layout.trimStart_padded 2 _ _
  have hblanks (got : Layout.Reading) :
      blanks.read? got (' ' :: d.clock.text) = some (got, d.clock.text ++ []) := by
    rw [Layout.Part.read?, htrim, List.append_nil]
  have htext : d.text = d.date.day.text ++ ' ' :: d.clock.text := rfl
  rw [htext, Layout.read?_day, Layout.read?_cons (hblanks _),
    Layout.read?_clock _ _ _ (by simp)]
  rfl

/-- A date-time without a leap second within a minute is read back. -/
theorem readDateTime?_dateTime (d : DateTime) (hleap : d.clock.LeapIsLast) :
    readDateTime? d.text = some d := by
  have hmake : Layout.Reading.dateTime? ⟨d.date.day.year, d.date.day.month, d.date.day.day,
      d.clock.hour, d.clock.minute, d.clock.shownSecond, d.clock.shownNanos, 0⟩ = some d := by
    rw [Layout.Reading.dateTime?, Layout.Reading.date?_eq rfl rfl rfl,
      Layout.Reading.clock?_eq hleap rfl rfl rfl rfl]
    rfl
  have hfit : firstFit dateTimeLayouts Layout.Reading.dateTime? d.text = some d :=
    firstFit_cons_of_read? (read?_dateTime d) hmake _
  rw [readDateTime?, hfit]
  rfl

open Layout.Part in
/-- A date is read back as its first instant. -/
theorem readDateTime?_date (d : Date) : readDateTime? d.text = some (DateTime.atMidnight d) := by
  have hlayouts : ∀ layout ∈ dateTimeLayouts, mark ':' ∈ layout := by decide
  have hnone : firstFit dateTimeLayouts Layout.Reading.dateTime? d.text = none :=
    firstFit_of_not_mem hlayouts _ d.day.colon_not_mem_text
  have hread : Layout.read? [year, mark '-', month, mark '-', day] {} (d.day.text ++ []) =
      some ⟨d.day.year, d.day.month, d.day.day, 0, 0, 0, 0, 0⟩ := Layout.read?_day _ _ _ _
  rw [List.append_nil] at hread
  have hfit : firstFit dateLayouts Layout.Reading.date? d.text = some d :=
    firstFit_cons_of_read? hread (Layout.Reading.date?_eq rfl rfl rfl) _
  rw [readDateTime?, hnone, hfit]
  rfl

/-- A year of four digits has no sign. -/
theorem yearText_of_le {year : Int} (h : 0 ≤ year ∧ year ≤ 9999) :
    yearText year = Numeral.padded 4 year.toNat :=
  if_pos h

/-- The internet layout reads back an offset date-time whose local year has four digits and whose
offset is a whole number of minutes. -/
theorem internet?_text (z : OffsetDateTime) (hminutes : z.offset % 60 = 0)
    (hyear : 0 ≤ z.localReading.1.year ∧ z.localReading.1.year ≤ 9999) :
    Layout.internet? z.text =
      some ⟨z.localReading.1.year, z.localReading.1.month, z.localReading.1.day,
        z.localReading.2.hour, z.localReading.2.minute, z.localReading.2.shownSecond,
        z.localReading.2.shownNanos, z.offset⟩ := by
  generalize hdate : z.localReading.1 = d at hyear
  generalize hclock : z.localReading.2 = c
  have htext : z.text = Numeral.padded 4 d.year.toNat ++ '-' :: (Numeral.padded 2 d.month ++
      '-' :: (Numeral.padded 2 d.day ++ 'T' :: (Numeral.padded 2 c.hour ++
        ':' :: (Numeral.padded 2 c.minute ++ ':' :: (Numeral.padded 2 c.shownSecond ++
          (fractionText c.shownNanos ++ offsetText z.offset)))))) := by
    have hparts : z.text = d.text ++ 'T' :: c.text ++ offsetText z.offset := by
      rw [← hdate, ← hclock]
      rfl
    simp [hparts, Day.text, Clock.text, yearText_of_le hyear]
  have hfour : d.year.toNat < 10 ^ 4 := by omega
  have htwo {n : Nat} (hn : n < 100) (rest : List Char) :=
    Layout.digits?_two (Nat.le_refl 2) hn rest
  have hfraction : Layout.fraction? (fractionText c.shownNanos ++ offsetText z.offset) =
      some (c.shownNanos, offsetText z.offset) := by
    refine Layout.fraction?_fractionText c.shownNanos_lt fun ch hch => ?_
    rw [offsetText, List.head?_cons] at hch
    rw [← Option.some.inj hch]
    split <;> decide
  have hoffset := Layout.internetOffset?_offsetText z.offset_lt hminutes
  have hnat : (d.year.toNat : Int) = d.year := by omega
  have hread := Layout.internet?_of_parts
    (Layout.digits?_padded (Nat.le_refl 4) (by decide) hfour _) (htwo d.month_lt _)
    (htwo d.day_lt _) (htwo c.hour_lt _) (htwo c.minute_lt _) (htwo c.shownSecond_lt _) hfraction
    hoffset
  rw [htext, hread, hnat]

/-- An offset date-time without a leap second within a minute is read back when its local year has
four digits and its offset is a whole number of minutes. -/
theorem readOffset?_text (z : OffsetDateTime) (hclock : z.utc.clock.LeapIsLast)
    (hminutes : z.offset % 60 = 0)
    (hyear : 0 ≤ z.localReading.1.year ∧ z.localReading.1.year ≤ 9999) :
    readOffset? z.text = some z := by
  have hsupported : z.localReading.1.isSupported = true := by
    simp only [Day.isSupported, Bool.and_eq_true, decide_eq_true_eq]
    omega
  have hleap : z.localReading.2.LeapIsLast := fun hnanos =>
    (OffsetDateTime.moved_second_mod z.utc.clock hminutes).trans (hclock hnanos)
  have hback := @OffsetDateTime.ofLocal?_localReading z ⟨z.localReading.1, hsupported⟩ rfl
  rw [readOffset?, internet?_text z hminutes hyear, Option.bind_some,
    Layout.Reading.offsetDateTime?,
    @Layout.Reading.date?_eq _ ⟨z.localReading.1, hsupported⟩ rfl rfl rfl,
    Layout.Reading.clock?_eq hleap rfl rfl rfl rfl]
  simp only [Option.bind_eq_bind, Option.bind_some, hback, Option.some_or]

end Temporal

end BoundSql
