import BoundSql.Calendar.Moment

/-!
# Local readings and leap seconds

The day before the next day is the day itself, and so is the day after the previous one. A clock
that is moved by less than a day therefore comes back to its day and its time when it is moved back,
and the local reading of an offset date-time leads back to the date-time itself.

A leap second within a minute is shown as the second behind it, so it has no text of its own. In the
last second of a minute it is shown as second sixty, which nothing else is. A clock that is moved by
whole minutes is in a leap second of the same sort.
-/

namespace BoundSql

namespace Day

/-- The day before the next one. -/
theorem prev_next (d : Day) : d.next.prev = d := by
  obtain ⟨year, month, day, hvalid⟩ := d
  unfold next
  simp only
  split
  · have hday : 1 < day + 1 := by omega
    simp [prev, hday]
  · rename_i hlast
    split
    · have hmonth : 1 < month + 1 := by omega
      have hday : monthLength year month = day := by omega
      simp [prev, hmonth, hday]
    · have hmonth : month = 12 := by omega
      subst hmonth
      have hday : monthLength year 12 = day := by omega
      simp [prev, hday]

/-- The day after the previous one. -/
theorem next_prev (d : Day) : d.prev.next = d := by
  obtain ⟨year, month, day, hvalid⟩ := d
  unfold prev
  simp only
  split
  · have hday : day - 1 < monthLength year month := by omega
    have hback : day - 1 + 1 = day := by omega
    simp [next, hday, hback]
  · obtain rfl : day = 1 := by omega
    split
    · have hmonth : month - 1 < 12 := by omega
      have hback : month - 1 + 1 = month := by omega
      simp [next, hmonth, hback]
    · obtain rfl : month = 1 := by omega
      simp [next]

end Day

namespace OffsetDateTime

/-- A neighbour of a day has the day for its neighbour on the other side. -/
theorem neighbour_neighbour (d : Day) {days : Int} (h : -1 ≤ days ∧ days ≤ 1) :
    neighbour (neighbour d days) (-days) = d := by
  have hcases : days = -1 ∨ days = 0 ∨ days = 1 := by omega
  rcases hcases with rfl | rfl | rfl
  · exact d.next_prev
  · rfl
  · exact d.prev_next

/-- A clock that is moved there and back shows what it showed, as many days away as it had come. -/
theorem moved_moved (c : Clock) (seconds : Int) :
    moved (moved c seconds).2 (-seconds) = (-(moved c seconds).1, c) := by
  have hsecond := c.second_lt
  obtain ⟨second, nanos, hsecond_lt, hnanos_lt⟩ := c
  simp only [moved, Prod.mk.injEq, Clock.mk.injEq, and_true]
  simp only at hsecond
  constructor
  · omega
  · omega

/-- A clock that is moved by less than a day stays on its day or passes into a neighbour of it. -/
theorem moved_fst_bounds (c : Clock) {seconds : Int} (h : seconds.natAbs < 86400) :
    -1 ≤ (moved c seconds).1 ∧ (moved c seconds).1 ≤ 1 := by
  have hsecond := c.second_lt
  simp only [moved]
  constructor
  · omega
  · omega

/-- A clock that is moved by whole minutes shows the same second. -/
theorem moved_second_mod (c : Clock) {seconds : Int} (h : seconds % 60 = 0) :
    (moved c seconds).2.second % 60 = c.second % 60 := by
  simp only [moved]
  omega

/-- The local reading of an offset date-time leads back to it. -/
theorem ofLocal?_localReading (z : OffsetDateTime) {date : Date}
    (hdate : date.day = z.localReading.1) :
    ofLocal? date z.localReading.2 z.offset = some z := by
  have hclock : z.localReading.2 = (moved z.utc.clock z.offset).2 := rfl
  have hday : date.day = neighbour z.utc.date.day (moved z.utc.clock z.offset).1 := hdate
  have hback := neighbour_neighbour z.utc.date.day (moved_fst_bounds z.utc.clock z.offset_lt)
  have hofDay : Date.ofDay? z.utc.date.day = some z.utc.date := dif_pos z.utc.date.supported
  have hof : of? z.utc z.offset = some z := dif_pos z.offset_lt
  simp only [ofLocal?, hclock, moved_moved, hday, hback, hofDay, hof, Option.bind_eq_bind,
    Option.bind_some]

end OffsetDateTime

/-! ## Leap seconds -/

/-- A leap second, if the clock is in one, is the last second of its minute. -/
def Clock.LeapIsLast (c : Clock) : Prop :=
  1000000000 ≤ c.nanos → c.second % 60 = 59

instance (c : Clock) : Decidable c.LeapIsLast :=
  inferInstanceAs (Decidable (1000000000 ≤ c.nanos → c.second % 60 = 59))

/-- The time of day that a clock shows: in a leap second within a minute, the second behind it. -/
def Clock.settled (c : Clock) : Clock :=
  if h : 1000000000 ≤ c.nanos ∧ c.second % 60 ≠ 59 then
    ⟨c.second + 1, c.nanos - 1000000000, by have := c.second_lt; omega,
      by have := c.nanos_lt; omega⟩
  else c

/-- A date-time as its clock shows it. -/
def DateTime.settled (d : DateTime) : DateTime :=
  ⟨d.date, d.clock.settled⟩

/-- An offset date-time as its clock shows it. -/
def OffsetDateTime.settled (z : OffsetDateTime) : OffsetDateTime :=
  ⟨z.utc.settled, z.offset, z.offset_lt⟩

namespace Clock

/-- What a clock shows is no leap second within a minute. -/
theorem leapIsLast_settled (c : Clock) : c.settled.LeapIsLast := by
  have hnanos := c.nanos_lt
  unfold settled
  split
  · intro hleap
    simp only at hleap
    omega
  · rename_i hlast
    exact fun hleap => Decidable.not_not.mp fun hsecond => hlast ⟨hleap, hsecond⟩

/-- A clock shows its time unless it is in a leap second within a minute. -/
theorem settled_eq_iff (c : Clock) : c.settled = c ↔ c.LeapIsLast := by
  constructor
  · intro h
    rw [← h]
    exact c.leapIsLast_settled
  · intro h
    exact dif_neg fun hleap => hleap.2 (h hleap.1)

/-- The text of a clock is that of the time that it shows. -/
theorem text_settled (c : Clock) : c.settled.text = c.text := by
  unfold settled
  split
  · rename_i h
    obtain ⟨hleap, hsecond⟩ := h
    have hnanos := c.nanos_lt
    have hhour : (c.second + 1) / 3600 = c.second / 3600 := by omega
    have hminute : (c.second + 1) / 60 % 60 = c.second / 60 % 60 := by omega
    have hshown : (c.second + 1) % 60 + (c.nanos - 1000000000) / 1000000000 =
        c.second % 60 + c.nanos / 1000000000 := by omega
    have hfraction : (c.nanos - 1000000000) % 1000000000 = c.nanos % 1000000000 := by omega
    simp only [text, hour, minute, shownSecond, shownNanos, hhour, hminute, hshown, hfraction]
  · rfl

end Clock

/-- A date-time is what its clock shows unless it is in a leap second within a minute. -/
theorem DateTime.settled_eq_iff (d : DateTime) : d.settled = d ↔ d.clock.LeapIsLast := by
  rw [← d.clock.settled_eq_iff]
  obtain ⟨date, clock⟩ := d
  simp [settled]

/-- The text of a date-time is that of what its clock shows. -/
theorem DateTime.text_settled (d : DateTime) : d.settled.text = d.text := by
  have hclock := d.clock.text_settled
  simp only [text, settled, hclock]

namespace OffsetDateTime

/-- A clock that is moved by whole minutes shows the time that it shows elsewhere, moved. -/
theorem moved_settled (c : Clock) {seconds : Int} (h : seconds % 60 = 0) :
    moved c.settled seconds = ((moved c seconds).1, (moved c seconds).2.settled) := by
  have hsecond := moved_second_mod c h
  by_cases hleap : 1000000000 ≤ c.nanos ∧ c.second % 60 ≠ 59
  · have hmoved : 1000000000 ≤ (moved c seconds).2.nanos ∧
        (moved c seconds).2.second % 60 ≠ 59 := by
      rw [hsecond]
      exact hleap
    rw [Clock.settled, dif_pos hleap, Clock.settled, dif_pos hmoved]
    simp only [moved, Prod.mk.injEq, Clock.mk.injEq, and_true]
    omega
  · have hmoved : ¬(1000000000 ≤ (moved c seconds).2.nanos ∧
        (moved c seconds).2.second % 60 ≠ 59) := by
      rw [hsecond]
      exact hleap
    rw [Clock.settled, dif_neg hleap, Clock.settled, dif_neg hmoved]

/-- On a clock at a distance of whole minutes, the local reading of what is shown is what the local
clock shows. -/
theorem localReading_settled (z : OffsetDateTime) (h : z.offset % 60 = 0) :
    z.settled.localReading = (z.localReading.1, z.localReading.2.settled) := by
  simp only [localReading, settled, DateTime.settled, moved_settled z.utc.clock h]

/-- The text of an offset date-time is that of what its clock shows. -/
theorem text_settled (z : OffsetDateTime) (h : z.offset % 60 = 0) : z.settled.text = z.text := by
  have hreading := z.localReading_settled h
  simp only [text, hreading, Clock.text_settled]
  rfl

end OffsetDateTime

end BoundSql
