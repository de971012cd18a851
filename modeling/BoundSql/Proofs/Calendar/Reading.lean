import BoundSql.Calendar.Layout
import BoundSql.Calendar.Moment
import BoundSql.Proofs.Calendar.Moment
import BoundSql.Proofs.Text.Blank
import BoundSql.Proofs.Text.Numeral

/-!
# Written dates and times are read back

Every part of a written date or time is read back by the part of a layout that it was written for,
whatever follows it, as long as the text does not go on with a digit where the width of a number is
open.
-/

namespace BoundSql

namespace Day

/-- A month has at most two digits. -/
theorem month_lt (d : Day) : d.month < 100 := by
  have hvalid := d.valid
  omega

/-- A day of a month has at most two digits. -/
theorem day_lt (d : Day) : d.day < 100 := by
  have hvalid := d.valid
  have hlength := monthLength_le d.year d.month
  omega

end Day

namespace Clock

/-- An hour has at most two digits. -/
theorem hour_lt (c : Clock) : c.hour < 100 := by
  have hsecond := c.second_lt
  unfold hour
  omega

/-- A minute has at most two digits. -/
theorem minute_lt (c : Clock) : c.minute < 100 := by
  unfold minute
  omega

/-- A second that is shown has at most two digits. -/
theorem shownSecond_lt (c : Clock) : c.shownSecond < 100 := by
  have hnanos := c.nanos_lt
  unfold shownSecond
  omega

/-- The nanoseconds that are shown have at most nine digits. -/
theorem shownNanos_lt (c : Clock) : c.shownNanos < 1000000000 :=
  Nat.mod_lt _ (by decide)

end Clock

namespace Layout

/-- A number padded to the greatest width that is read is read whole. -/
theorem digits?_padded {least width n : Nat} (hleast : least ≤ width) (hwidth : 0 < width)
    (hn : n < 10 ^ width) (rest : List Char) :
    digits? least width (Numeral.padded width n ++ rest) = some (n, rest) := by
  have hlength := Numeral.length_padded hwidth hn
  have hrun : ((Numeral.padded width n ++ rest).take width).takeWhile Numeral.isDigit =
      Numeral.padded width n := by
    rw [List.take_left' hlength, Numeral.takeWhile_padded]
  simp only [digits?, hrun, hlength, Numeral.value_padded, List.drop_left' hlength]
  rw [if_neg (by omega)]

/-- A number of two digits is read whole. -/
theorem digits?_two {least n : Nat} (hleast : least ≤ 2) (hn : n < 100) (rest : List Char) :
    digits? least 2 (Numeral.padded 2 n ++ rest) = some (n, rest) :=
  digits?_padded hleast Nat.two_pos hn rest

/-- Nothing is trimmed in front of a padded number. -/
theorem trimStart_padded (width n : Nat) (rest : List Char) :
    Text.trimStart (Numeral.padded width n ++ rest) = Numeral.padded width n ++ rest := by
  obtain ⟨c, ds, hpadded, hc⟩ := Numeral.exists_padded_eq_cons width n
  refine Text.trimStart_of_head fun d hd => ?_
  rw [hpadded, List.cons_append, List.head?_cons] at hd
  exact Option.some.inj hd ▸ Numeral.isBlank_of_isDigit hc

/-- A year is read back in front of a text that does not go on with a digit. -/
theorem year?_yearText (year : Int) {rest : List Char}
    (hrest : ∀ c ∈ rest.head?, Numeral.isDigit c = false) :
    year? (yearText year ++ rest) = some (year, rest) := by
  have hmany (n : Nat) : manyDigits? (Numeral.padded 4 n ++ rest) = some (n, rest) := by
    obtain ⟨c, ds, hpadded, -⟩ := Numeral.exists_padded_eq_cons 4 n
    have hne : Numeral.padded 4 n ≠ [] := by simp [hpadded]
    simp only [manyDigits?, Numeral.spanDigits_padded 4 n hrest, if_neg hne, Numeral.value_padded]
  unfold yearText
  split
  · rename_i hrange
    have hfour : year.toNat < 10 ^ 4 := by omega
    have hdigits : digits? 1 4 (Numeral.padded 4 year.toNat ++ rest) = some (year.toNat, rest) :=
      digits?_padded (by decide) (by decide) hfour rest
    obtain ⟨c, ds, hpadded, hc⟩ := Numeral.exists_padded_eq_cons 4 year.toNat
    have hunsigned : year? (Numeral.padded 4 year.toNat ++ rest) =
        (digits? 1 4 (Numeral.padded 4 year.toNat ++ rest)).map fun p => ((p.1 : Int), p.2) := by
      rw [hpadded, List.cons_append]
      unfold year?
      split
      · rename_i heq
        rw [(List.cons.inj heq).1] at hc
        exact absurd hc (by decide)
      · rename_i heq
        rw [(List.cons.inj heq).1] at hc
        exact absurd hc (by decide)
      · rfl
    rw [hunsigned, hdigits]
    simp only [Option.map_some, Option.some.injEq, Prod.mk.injEq, and_true]
    omega
  · rename_i hrange
    by_cases hneg : year < 0
    · simp only [if_pos hneg, List.cons_append, year?, hmany, Option.map_some, Option.some.injEq,
        Prod.mk.injEq, and_true]
      omega
    · simp only [if_neg hneg, List.cons_append, year?, hmany, Option.map_some, Option.some.injEq,
        Prod.mk.injEq, and_true]
      omega

/-- Nothing is trimmed in front of a year. -/
theorem trimStart_yearText (year : Int) (rest : List Char) :
    Text.trimStart (yearText year ++ rest) = yearText year ++ rest := by
  unfold yearText
  split
  · exact trimStart_padded 4 year.toNat rest
  · refine Text.trimStart_of_head fun c hc => ?_
    rw [List.cons_append, List.head?_cons] at hc
    rw [← Option.some.inj hc]
    split <;> decide

/-- The digits of a fraction are read back as nanoseconds. -/
theorem nanos?_padded {width n : Nat} (hwidth : 0 < width) (hnine : width ≤ 9)
    (hn : n < 10 ^ width) {rest : List Char}
    (hrest : ∀ c ∈ rest.head?, Numeral.isDigit c = false) :
    nanos? (Numeral.padded width n ++ rest) = some (n * 10 ^ (9 - width), rest) := by
  have hlength := Numeral.length_padded hwidth hn
  obtain ⟨c, ds, hpadded, -⟩ := Numeral.exists_padded_eq_cons width n
  have hne : Numeral.padded width n ≠ [] := by simp [hpadded]
  have htake : (Numeral.padded width n).take 9 = Numeral.padded width n :=
    List.take_of_length_le (by omega)
  simp only [nanos?, Numeral.spanDigits_padded width n hrest, if_neg hne, htake, hlength,
    Numeral.value_padded]

/-- A fraction is read back in front of a text that goes on with neither a digit nor a point. -/
theorem fraction?_fractionText {n : Nat} (hn : n < 1000000000) {rest : List Char}
    (hrest : ∀ c ∈ rest.head?, Numeral.isDigit c = false ∧ c ≠ '.') :
    fraction? (fractionText n ++ rest) = some (n, rest) := by
  have hdigit : ∀ c ∈ rest.head?, Numeral.isDigit c = false := fun c hc => (hrest c hc).1
  have hread {width k : Nat} (hwidth : 0 < width) (hnine : width ≤ 9) (hk : k < 10 ^ width)
      (heq : k * 10 ^ (9 - width) = n) :
      fraction? ('.' :: Numeral.padded width k ++ rest) = some (n, rest) := by
    rw [List.cons_append, fraction?, nanos?_padded hwidth hnine hk hdigit, heq]
  unfold fractionText
  split
  · rename_i hzero
    subst hzero
    cases rest with
    | nil => rfl
    | cons c rest =>
      have hpoint : c ≠ '.' := (hrest c rfl).2
      simp [fraction?, hpoint]
  · split
    · exact hread (by decide) (by decide) (by omega) (by omega)
    · split
      · exact hread (by decide) (by decide) (by omega) (by omega)
      · exact hread (by decide) (by decide) (by omega) (by omega)

/-- A part that is read leaves the other parts to the rest of the text. -/
theorem read?_cons {part : Part} {got got' : Reading} {cs rest : List Char}
    (h : part.read? got cs = some (got', rest)) (parts : List Part) :
    read? (part :: parts) got cs = read? parts got' rest := by
  simp only [read?, h, Option.bind_eq_bind, Option.bind_some]

/-- A mark is read where it stands. -/
theorem read?_mark (c : Char) (parts : List Part) (got : Reading) (rest : List Char) :
    read? (.mark c :: parts) got (c :: rest) = read? parts got rest :=
  read?_cons (by simp [Part.read?, expect]) parts

/-- What a part of one or two digits does with the number that it reads. -/
def Part.store? : Part → Option (Reading → Nat → Reading)
  | month => some fun got n => { got with month := n }
  | day => some fun got n => { got with day := n }
  | hour => some fun got n => { got with hour := n }
  | minute => some fun got n => { got with minute := n }
  | second => some fun got n => { got with second := n }
  | _ => none

/-- A number of two digits is read back in front of anything. -/
theorem read?_padded {part : Part} {store : Reading → Nat → Reading}
    (hpart : part.store? = some store) {n : Nat} (hn : n < 100) (parts : List Part) (got : Reading)
    (rest : List Char) :
    read? (part :: parts) got (Numeral.padded 2 n ++ rest) = read? parts (store got n) rest := by
  have hdigits : digits? 1 2 (Text.trimStart (Numeral.padded 2 n ++ rest)) = some (n, rest) := by
    rw [trimStart_padded, digits?_two (Nat.le_succ 1) hn]
  refine read?_cons ?_ parts
  cases part with
  | month | day | hour | minute | second =>
    obtain rfl := Option.some.inj hpart
    simp only [Part.read?, hdigits, Option.map_some]
  | _ => exact absurd hpart (by simp [Part.store?])

/-- A day is read back in front of anything. -/
theorem read?_day (d : Day) (parts : List Part) (got : Reading) (rest : List Char) :
    read? (.year :: .mark '-' :: .month :: .mark '-' :: .day :: parts) got (d.text ++ rest) =
      read? parts { got with year := d.year, month := d.month, day := d.day } rest := by
  have htext : d.text ++ rest = yearText d.year ++
      '-' :: (Numeral.padded 2 d.month ++ '-' :: (Numeral.padded 2 d.day ++ rest)) := by
    simp [Day.text]
  have hyear : Part.year.read? got (d.text ++ rest) = some ({ got with year := d.year },
      '-' :: (Numeral.padded 2 d.month ++ '-' :: (Numeral.padded 2 d.day ++ rest))) := by
    rw [htext, Part.read?, trimStart_yearText, year?_yearText]
    · rfl
    · exact fun c hc => Option.some.inj hc ▸ rfl
  rw [read?_cons hyear, read?_mark, @read?_padded .month _ rfl _ d.month_lt, read?_mark,
    @read?_padded .day _ rfl _ d.day_lt]

/-- A time of day is read back in front of a text that goes on with neither a digit nor a point. -/
theorem read?_clock (c : Clock) (parts : List Part) (got : Reading) {rest : List Char}
    (hrest : ∀ d ∈ rest.head?, Numeral.isDigit d = false ∧ d ≠ '.') :
    read? (.hour :: .mark ':' :: .minute :: .mark ':' :: .second :: .fraction :: parts) got
        (c.text ++ rest) =
      read? parts
        { got with
          hour := c.hour, minute := c.minute, second := c.shownSecond, nanos := c.shownNanos }
        rest := by
  have htext : c.text ++ rest = Numeral.padded 2 c.hour ++ ':' :: (Numeral.padded 2 c.minute ++
      ':' :: (Numeral.padded 2 c.shownSecond ++ (fractionText c.shownNanos ++ rest))) := by
    simp [Clock.text]
  have hfraction := fraction?_fractionText c.shownNanos_lt hrest
  rw [htext, @read?_padded .hour _ rfl _ c.hour_lt, read?_mark,
    @read?_padded .minute _ rfl _ c.minute_lt, read?_mark,
    @read?_padded .second _ rfl _ c.shownSecond_lt]
  exact read?_cons (by rw [Part.read?, hfraction]; rfl) parts

/-- The offset of a local clock is read back when it is a whole number of minutes. -/
theorem offsetWith?_offsetText {offset : Int} (hlt : offset.natAbs < 86400)
    (hminutes : offset % 60 = 0) (separator : List Char → Option (List Char))
    (hseparator : ∀ rest, separator (':' :: rest) = some rest) :
    offsetWith? separator (offsetText offset) = some (offset, []) := by
  have hhours : (offset.natAbs + 30) / 60 / 60 < 100 := by omega
  have hrest : (offset.natAbs + 30) / 60 % 60 < 60 := Nat.mod_lt _ (by decide)
  have hrest' : (offset.natAbs + 30) / 60 % 60 < 100 := by omega
  have hsign : sign? (offsetText offset) = some (if offset < 0 then -1 else 1,
      Numeral.padded 2 ((offset.natAbs + 30) / 60 / 60) ++
        ':' :: Numeral.padded 2 ((offset.natAbs + 30) / 60 % 60)) := by
    by_cases hneg : offset < 0
    · simp [offsetText, sign?, hneg]
    · simp [offsetText, sign?, hneg]
  have hdigits := digits?_two (Nat.le_refl 2) hrest' []
  rw [List.append_nil] at hdigits
  unfold offsetWith?
  simp only [hsign, Option.bind_eq_bind, Option.bind_some, digits?_two (Nat.le_refl 2) hhours,
    hseparator, hdigits, if_pos hrest, Option.pure_def, Option.some.injEq, Prod.mk.injEq, and_true]
  split <;> omega

/-- The internet layout reads back an offset of whole minutes. -/
theorem internetOffset?_offsetText {offset : Int} (hlt : offset.natAbs < 86400)
    (hminutes : offset % 60 = 0) : internetOffset? (offsetText offset) = some (offset, []) := by
  have hwith := offsetWith?_offsetText hlt hminutes (expect ':') fun _ => by simp [expect]
  have hfilter : internetOffset? (offsetText offset) =
      (offsetWith? (expect ':') (offsetText offset)).filter fun p => p.1.natAbs < 86400 := by
    unfold internetOffset? offsetText
    split
    · rename_i heq
      have hfirst := (List.cons.inj heq).1
      split at hfirst <;> exact absurd hfirst (by decide)
    · rename_i heq
      have hfirst := (List.cons.inj heq).1
      split at hfirst <;> exact absurd hfirst (by decide)
    · rfl
  rw [hfilter, hwith, Option.filter_some, if_pos (by simpa using hlt)]

/-- The internet layout puts together what its numbers, its fraction and its offset are read as. -/
theorem internet?_of_parts {year month day hour minute second nanos : Nat} {offset : Int}
    {cs₀ cs₁ cs₂ cs₃ cs₄ cs₅ cs₆ cs₇ : List Char}
    (hyear : digits? 4 4 cs₀ = some (year, '-' :: cs₁))
    (hmonth : digits? 2 2 cs₁ = some (month, '-' :: cs₂))
    (hday : digits? 2 2 cs₂ = some (day, 'T' :: cs₃))
    (hhour : digits? 2 2 cs₃ = some (hour, ':' :: cs₄))
    (hminute : digits? 2 2 cs₄ = some (minute, ':' :: cs₅))
    (hsecond : digits? 2 2 cs₅ = some (second, cs₆))
    (hfraction : fraction? cs₆ = some (nanos, cs₇))
    (hoffset : internetOffset? cs₇ = some (offset, [])) :
    internet? cs₀ = some ⟨year, month, day, hour, minute, second, nanos, offset⟩ := by
  have hexpect (c : Char) (rest : List Char) : expect c (c :: rest) = some rest := if_pos rfl
  refine Option.bind_eq_some_iff.mpr ⟨_, hyear, ?_⟩
  refine Option.bind_eq_some_iff.mpr ⟨_, hexpect '-' _, ?_⟩
  refine Option.bind_eq_some_iff.mpr ⟨_, hmonth, ?_⟩
  refine Option.bind_eq_some_iff.mpr ⟨_, hexpect '-' _, ?_⟩
  refine Option.bind_eq_some_iff.mpr ⟨_, hday, ?_⟩
  refine Option.bind_eq_some_iff.mpr ⟨_, hhour, ?_⟩
  refine Option.bind_eq_some_iff.mpr ⟨_, hexpect ':' _, ?_⟩
  refine Option.bind_eq_some_iff.mpr ⟨_, hminute, ?_⟩
  refine Option.bind_eq_some_iff.mpr ⟨_, hexpect ':' _, ?_⟩
  refine Option.bind_eq_some_iff.mpr ⟨_, hsecond, ?_⟩
  refine Option.bind_eq_some_iff.mpr ⟨_, hfraction, ?_⟩
  exact Option.bind_eq_some_iff.mpr ⟨_, hoffset, rfl⟩

/-- The date of a reading of a date is the date. -/
theorem Reading.date?_eq {r : Reading} {d : Date} (hyear : r.year = d.day.year)
    (hmonth : r.month = d.day.month) (hday : r.day = d.day.day) : r.date? = some d := by
  rw [Reading.date?, hyear, hmonth, hday, Date.of?, Day.of?, dif_pos d.day.valid]
  exact dif_pos d.supported

/-- The time of a reading of a time of day is the time, leap seconds at the end of a minute
included. -/
theorem Reading.clock?_eq {r : Reading} {c : Clock} (hleap : c.LeapIsLast) (hhour : r.hour = c.hour)
    (hminute : r.minute = c.minute) (hsecond : r.second = c.shownSecond)
    (hnanos : r.nanos = c.shownNanos) : r.clock? = some c := by
  obtain ⟨second, nanos, hsecond_lt, hnanos_lt⟩ := c
  simp only [Clock.hour, Clock.minute, Clock.shownSecond, Clock.shownNanos] at *
  unfold Reading.clock?
  rw [hhour, hminute, hsecond, hnanos]
  by_cases hextra : 1000000000 ≤ nanos
  · have hlast : second % 60 = 59 := hleap hextra
    rw [if_pos (by omega), Clock.of?, dif_pos (by omega)]
    simp only [Option.some.injEq, Clock.mk.injEq]
    omega
  · rw [if_neg (by omega), Clock.of?, dif_pos (by omega)]
    simp only [Option.some.injEq, Clock.mk.injEq]
    omega

end Layout

end BoundSql
