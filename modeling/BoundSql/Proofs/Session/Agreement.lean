import BoundSql.Proofs.Session.Operation
import BoundSql.Proofs.Session.Undisturbed

/-!
# The operations of a session agree

All operations that fetch rows go through the same cursor, so what one of them answers says what the
others answer: the first of all rows is the one row, and the first value of it is the scalar. They
fail where their driver fails, and not at a row that they do not ask for. And background calls that
are left alone return what blocking calls do.
-/

namespace BoundSql

open Job (Ending)

namespace Fetch

/-- A fetch for which no rows are ever enough gets all rows of the cursor. -/
theorem rows_of_never {f : Fetch} {engine : Engine} {c : Cursor}
    (hf : f.enough engine c.columns = fun _ => false) : f.rows engine c = c.rows := by
  rw [rows, hf]
  exact Cursor.rowsUntil_never [] c.reads

/-- A fetch for which no rows are ever enough reaches the end of the cursor. -/
theorem reach_of_never {f : Fetch} {engine : Engine} {c : Cursor}
    (hf : f.enough engine c.columns = fun _ => false) : f.reach engine c = c.ending := by
  rw [reach, hf]
  exact Cursor.endUntil_never [] c.reads

/-- Whatever rows a fetch gets, the first of them is the first row of the cursor. -/
theorem head?_rows (f : Fetch) (engine : Engine) (c : Cursor) :
    (f.rows engine c).head? = c.rows.head? :=
  Cursor.head?_rowsUntil (f.enough engine c.columns) [] c.reads

end Fetch

namespace Session

/-- A way in which an operation fails at its driver. -/
def Fails (s : Session) (statement : Statement) (e : Error) : Operation → Prop
  | .nonQuery => s.driver.connect.ending = .returned (.error e) ∨
      ∃ c, s.driver.connect.ending = .returned (.ok c) ∧
        (c.execute statement).ending = .returned (.error e)
  | .fetch f => s.driver.Fails statement (f.reach s.engine) e

/-- A failure of the driver is what the operation ends with. -/
theorem Fails.ending {s : Session} {statement : Statement} {e : Error} {op : Operation}
    (h : s.Fails statement e op) (token : Bool) :
    ((s.blocking op statement).run token).ending = .returned (.error e) := by
  cases op with
  | fetch f =>
    rw [ending_blocking_fetch]
    exact Driver.Fails.serving h fun c => f.answer s.engine c.columns (f.rows s.engine c)
  | nonQuery =>
    have hexecute (c : Connection) (t : Bool) :
        ((Operation.onConnection .nonQuery s.engine false statement c).run t).ending =
          (c.execute statement).ending.andThen fun n => .returned (.ok (.count n)) :=
      Work.ending_replying_andThen t (c.execute statement) fun _ _ => rfl
    have hcall : ((s.blocking .nonQuery statement).run token).ending =
        s.driver.connect.ending.andThen fun c =>
          (c.execute statement).ending.andThen fun n => .returned (.ok (.count n)) :=
      Work.ending_replying_andThen token s.driver.connect hexecute
    rcases h with hconnect | ⟨c, hconnect, hc⟩
    · rw [hcall, hconnect]
      rfl
    · rw [hcall, hconnect, Ending.ok_andThen, hc]
      rfl

variable {s : Session} {statement : Statement} {token : Bool}

/-- A fetch of all rows that succeeds has gone through a cursor to its end, and so every fetch
succeeds with what it makes of the rows of that cursor. -/
theorem fetched_all {f : Fetch} {a : Answer}
    (hf : ∀ columns, f.enough s.engine columns = fun _ => false)
    (h : ((s.blocking (.fetch f) statement).run token).ending = .returned (.ok a)) :
    ∃ c, s.driver.cursor? statement = some c ∧ a = f.answer s.engine c.columns c.rows ∧
      ∀ g : Fetch, ((s.blocking (.fetch g) statement).run token).ending =
        .returned (.ok (g.answer s.engine c.columns (g.rows s.engine c))) := by
  rw [ending_blocking_fetch] at h
  obtain ⟨c, hcursor, huse, hother⟩ := Driver.serving_eq_ok h
  obtain ⟨⟨⟩, hreach, ha⟩ := Ending.andThen_eq_ok huse
  rw [Fetch.reach_of_never (hf c.columns)] at hreach
  rw [Fetch.rows_of_never (hf c.columns)] at ha
  cases ha
  refine ⟨c, hcursor, rfl, fun g => ?_⟩
  rw [ending_blocking_fetch]
  refine hother _ ?_
  rw [g.reach_of_ending s.engine hreach, Ending.ok_andThen]

/-- A walk over all rows hands them over in their order. -/
theorem handed_blocking_each {shape : Shape} {c : Cursor}
    (hcursor : s.driver.cursor? statement = some c) :
    ((s.blocking (.fetch (.each shape fun _ => false)) statement).run token).handed =
      c.rows.map (shape.fillOne s.engine c.columns) := by
  have hseen := s.seen_blocking_fetch statement token
    (P := fun c handed _ => handed =
      ((Fetch.each shape fun _ => false).rows s.engine c).map (shape.fillOne s.engine c.columns))
    (fun c t => Fetch.handed_each shape _ s.engine c t)
  rcases hseen with ⟨hnone, -⟩ | ⟨c', hcursor', hhanded⟩
  · rw [hcursor] at hnone
    cases hnone
  · rw [hcursor] at hcursor'
    cases hcursor'
    rwa [Fetch.rows_of_never rfl] at hhanded

/-- A fetch of the first row asks for one row at most, and for one when it succeeds. -/
theorem reads_blocking_first (s : Session) (statement : Statement) (token : Bool) {f : Fetch}
    (hf : f.wantsFirst = true) :
    let course := (s.blocking (.fetch f) statement).run token
    course.trace.count .read ≤ 1 ∧
      ∀ a, course.ending = .returned (.ok a) → course.trace.count .read = 1 := by
  intro course
  have hseen := s.seen_blocking_fetch statement token (f := f)
    (P := fun c _ reads => reads ≤ 1 ∧ (f.reach s.engine c = .returned (.ok ()) → reads = 1))
    (fun c t => Fetch.reads_fromCursor hf s.engine c t)
  constructor
  · rcases hseen with ⟨-, -, hnone⟩ | ⟨c, -, hread, -⟩
    · exact hnone ▸ Nat.zero_le 1
    · exact hread
  · intro a ha
    rw [ending_blocking_fetch] at ha
    obtain ⟨c, hcursor, huse, -⟩ := Driver.serving_eq_ok ha
    obtain ⟨⟨⟩, hreach, -⟩ := Ending.andThen_eq_ok huse
    rcases hseen with ⟨hnone, -⟩ | ⟨c', hcursor', -, hread⟩
    · rw [hcursor] at hnone
      cases hnone
    · rw [hcursor] at hcursor'
      cases hcursor'
      exact hread hreach

/-- How the operations on one statement agree, whatever the driver does. When all rows come as
items, the first of them is the one item, and a walk whose callback never stops hands over the same
items and returns their count. When all rows come as records, the first of them is the one record,
and its first value, coerced, is the scalar. Who wants the first row asks for one row only, and is
the same call whatever stands behind that row. Whatever fails at the driver before the last row that
is asked for, or behind it, is returned unchanged. And a background call that nobody has cancelled,
and whose deadline has not passed, has returned nothing but what the blocking call ends with, has
shown the same by then, and can return. -/
theorem operations_agree (s : Session) (statement : Statement) (token : Bool) :
    let call (f : Fetch) := (s.blocking (.fetch f) statement).run token
    (∀ shape items, (call (.many shape)).ending = .returned (.ok (.many items)) →
      (call (.one shape)).ending = .returned (.ok (.one items.head?)) ∧
      (call (.each shape fun _ => false)).ending = .returned (.ok (.count items.length)) ∧
      (call (.each shape fun _ => false)).handed = items) ∧
    (∀ records, (call .records).ending = .returned (.ok (.records records)) →
      (call .record).ending = .returned (.ok (.record records.head?)) ∧
      ∀ target, (call (.scalar target)).ending = .returned (.ok (.scalar
        (records.head?.bind fun r => s.engine.scalar? target r.values)))) ∧
    (∀ f : Fetch, f.wantsFirst = true →
      (call f).trace.count .read ≤ 1 ∧
      (∀ a, (call f).ending = .returned (.ok a) → (call f).trace.count .read = 1) ∧
      ∀ change : Cursor → Cursor,
        (∀ c, (change c).columns = c.columns ∧ (change c).firstRead = c.firstRead) →
          (s.mapCursors change).blocking (.fetch f) statement =
            s.blocking (.fetch f) statement) ∧
    (∀ op e, s.Fails statement e op →
      ((s.blocking op statement).run token).ending = .returned (.error e)) ∧
    (∀ op t, Background.Reachable (.start false s.limit (s.background op statement)) t →
      t.token = false → t.expired = false →
        let alone := (s.blocking op statement).run false
        (∀ r, t.caller = .returned r → Background.result? alone.ending = some r ∧
          alone.trace = t.trace ∧ alone.handed = t.handed) ∧
        (∀ r, alone.token = false → Background.result? alone.ending = some r →
          ∃ u, Background.Reachable t u ∧ u.token = false ∧ u.expired = false ∧
            u.caller = .returned r)) := by
  intro call
  refine ⟨?_, ?_, ?_, ?_, ?_⟩
  · intro shape items hitems
    obtain ⟨c, hcursor, ha, hall⟩ := fetched_all (fun _ => rfl) hitems
    obtain rfl : items = c.rows.map (shape.fillOne s.engine c.columns) := Answer.many.inj ha
    refine ⟨?_, ?_, handed_blocking_each hcursor⟩
    · rw [List.head?_map, ← (Fetch.one shape).head?_rows s.engine c]
      exact hall (.one shape)
    · have hrows : (Fetch.each shape fun _ => false).rows s.engine c = c.rows :=
        Fetch.rows_of_never rfl
      rw [List.length_map, ← hrows]
      exact hall (.each shape fun _ => false)
  · intro records hrecords
    obtain ⟨c, -, ha, hall⟩ := fetched_all (fun _ => rfl) hrecords
    obtain rfl : records = c.rows.map fun values => ⟨c.columns, values, s.engine⟩ :=
      Answer.records.inj ha
    refine ⟨?_, fun target => ?_⟩
    · rw [List.head?_map, ← Fetch.record.head?_rows s.engine c]
      exact hall .record
    · have hscalar := hall (.scalar target)
      rw [List.head?_map, ← (Fetch.scalar target).head?_rows s.engine c]
      rw [Option.bind_map]
      exact hscalar
  · intro f hf
    obtain ⟨hmost, hone⟩ := reads_blocking_first s statement token hf
    refine ⟨hmost, hone, fun change hchange => ?_⟩
    refine s.blocking_mapCursors statement fun c => ?_
    exact Fetch.fromCursor_congr hf s.engine false (hchange c).1 (hchange c).2
  · intro op e hfails
    exact hfails.ending token
  · intro op t hreach htoken hexpired alone
    exact hreach.left_alone (s.alike_background op statement) htoken hexpired

/-- A session whose driver has two rows. -/
def twoRows : Session :=
  ⟨Script.driver { columns := ["Name"], rows := [[.text "Ann"], [.text "Bob"]] }, Engine.standard,
    none⟩

/-- When a query brings two items, the first of them is the one item. -/
theorem operations_agree_twoRows :
    ((twoRows.blocking (.fetch (.many [Member.ofTarget "Name" .text])) ⟨"SELECT Name", []⟩).run
        false).ending = .returned (.ok (.many [[.text "Ann"], [.text "Bob"]])) ∧
      ((twoRows.blocking (.fetch (.one [Member.ofTarget "Name" .text])) ⟨"SELECT Name", []⟩).run
        false).ending = .returned (.ok (.one (some [.text "Ann"]))) := by
  have hmany : ((twoRows.blocking (.fetch (.many [Member.ofTarget "Name" .text]))
      ⟨"SELECT Name", []⟩).run false).ending =
        .returned (.ok (.many [[.text "Ann"], [.text "Bob"]])) := rfl
  exact ⟨hmany, ((operations_agree twoRows ⟨"SELECT Name", []⟩ false).1 _ _ hmany).1⟩

end Session

end BoundSql
