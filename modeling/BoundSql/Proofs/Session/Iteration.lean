import BoundSql.Proofs.Session.Course
import BoundSql.Session.Script

/-!
# Going through the rows

A cursor brings its rows one by one, and any request may fail instead, that for the end of the rows
as well. There are three ways to stop: at a row that is enough, at a request that fails, and at the
end. Before the first of them every row is read once and visited once, in the order of the rows; so
the loop at a place knows what it has seen, and where it stops says the rest.
-/

namespace BoundSql

namespace Job

variable {σ ι ρ : Type}

/-- A course with something in front of it. -/
def Course.behind (trace : List (Action σ)) (handed : List ι) (c : Course σ ι ρ) : Course σ ι ρ :=
  ⟨c.ending, trace ++ c.trace, handed ++ c.handed, c.token⟩

/-- What is in front of a course comes in its order. -/
theorem Course.behind_behind (trace trace' : List (Action σ)) (handed handed' : List ι)
    (c : Course σ ι ρ) :
    (c.behind trace' handed').behind trace handed =
      c.behind (trace ++ trace') (handed ++ handed') := by
  simp only [Course.behind, List.append_assoc]

end Job

namespace Script

/-- The script of some rows, with perhaps a request that fails. -/
def ofRows (columns : List String) (rows : List (List Value)) (failure : Option (Nat × Error)) :
    Script :=
  { columns := columns, rows := rows, rowError := failure }

/-- A script whose requests for rows do nothing but bring them, or fail. -/
def Plain (s : Script) : Prop :=
  ∀ k, s.read k = s.plainRead k

/-- A script of rows and perhaps a failure has no other disturbance. -/
theorem plain_ofRows (columns : List String) (rows : List (List Value))
    (failure : Option (Nat × Error)) : (ofRows columns rows failure).Plain := fun _ => rfl

/-- None of the first so many requests fails. -/
def Delivers (s : Script) (n : Nat) : Prop :=
  ∀ i e, s.rowError = some (i, e) → n ≤ i

/-- The request at a place, which is that of a row or of the end, fails. -/
def Refuses (s : Script) (n : Nat) (e : Error) : Prop :=
  n ≤ s.rows.length ∧ s.rowError = some (n, e)

variable {s : Script} {n : Nat} {e : Error}

/-- Fewer requests do not fail either. -/
theorem Delivers.mono {m : Nat} (h : s.Delivers n) (hm : m ≤ n) : s.Delivers m :=
  fun i e hfailure => Nat.le_trans hm (h i e hfailure)

/-- No request before the first that fails does so. -/
theorem Refuses.delivers (h : s.Refuses n e) : s.Delivers n := by
  intro i e' hfailure
  rw [h.2] at hfailure
  cases hfailure
  exact Nat.le_refl n

/-- Behind requests that have not failed the next one fails or does not. -/
theorem Delivers.next (h : s.Delivers n) (hn : n ≤ s.rows.length) :
    (∃ e, s.Refuses n e) ∨ s.Delivers (n + 1) := by
  by_cases hrefuses : ∃ e, s.rowError = some (n, e)
  · obtain ⟨e, hfailure⟩ := hrefuses
    exact .inl ⟨e, hn, hfailure⟩
  · refine .inr fun i e hfailure => Nat.lt_of_le_of_ne (h i e hfailure) ?_
    rintro rfl
    exact hrefuses ⟨e, hfailure⟩

/-- Where no request fails, none of them all does. -/
theorem delivers_of_not_refuses (h : ∀ n e, ¬ s.Refuses n e) : s.Delivers (s.rows.length + 1) := by
  intro i e hfailure
  exact Nat.lt_of_not_le fun hearly => h i e ⟨hearly, hfailure⟩

/-- A request that does not fail brings the row in its place, or finds the end. -/
theorem Delivers.plainRead (h : s.Delivers (n + 1)) : s.plainRead n = .value s.rows[n]? := by
  unfold Script.plainRead
  match hfailure : s.rowError with
  | none => rfl
  | some (i, e) => exact if_neg (Nat.ne_of_gt (h i e hfailure))

/-- A request that fails brings its error. -/
theorem Refuses.plainRead (h : s.Refuses n e) : s.plainRead n = .fail e := by
  simp only [Script.plainRead, h.2, if_true]

/-- What the requests from a place on meet, in a script without any other disturbance. -/
theorem Plain.drop_reads (hs : s.Plain) (hn : n ≤ s.rows.length) :
    s.cursor.reads.drop n = s.plainRead n :: s.cursor.reads.drop (n + 1) := by
  have hlength : s.cursor.reads.length = s.rows.length + 1 := by simp [cursor]
  rw [List.drop_eq_getElem_cons (by omega), ← hs n]
  simp [cursor]

end Script

/-- None of the first so many items makes a callback stop. -/
def GoesOn {β : Type} (stop : List β → Bool) (items : List β) (n : Nat) : Prop :=
  ∀ m < n, stop (items.take (m + 1)) = false

/-- A callback goes on at one more item, or it stops there. -/
theorem GoesOn.next {β : Type} {stop : List β → Bool} {items : List β} {n : Nat}
    (h : GoesOn stop items n) :
    stop (items.take (n + 1)) = true ∨ GoesOn stop items (n + 1) := by
  cases hstop : stop (items.take (n + 1)) with
  | true => exact .inl rfl
  | false =>
    refine .inr fun m hm => ?_
    rcases Nat.lt_succ_iff_lt_or_eq.mp hm with hbefore | rfl
    · exact h m hbefore
    · exact hstop

/-- The three ways to stop behind so many rows that were read and visited. -/
inductive Script.Exit {β : Type} (s : Script) (stop : List β → Bool) (items : List β) (n : Nat) :
    Prop where
  /-- The next row is the first at which the callback stops. -/
  | breaks : n < s.rows.length → s.Delivers (n + 1) → stop (items.take (n + 1)) = true →
      Exit s stop items n
  /-- The next request fails. -/
  | fails (e : Error) : s.Refuses n e → Exit s stop items n
  /-- There is no further row. -/
  | exhausted : n = s.rows.length → s.Delivers (n + 1) → Exit s stop items n

/-- Wherever the loop stands, it comes to one of the ways to stop. -/
theorem Script.exists_exit {β : Type} (s : Script) (stop : List β → Bool) (items : List β) (n : Nat)
    (hn : n ≤ s.rows.length) (hdelivers : s.Delivers n) (hgoes : GoesOn stop items n) :
    ∃ m ≤ s.rows.length, GoesOn stop items m ∧ s.Exit stop items m := by
  rcases hdelivers.next hn with ⟨e, hrefuses⟩ | hnext
  · exact ⟨n, hn, hgoes, .fails e hrefuses⟩
  rcases Nat.lt_or_eq_of_le hn with hless | hend
  · rcases hgoes.next with hstop | hfurther
    · exact ⟨n, hn, hgoes, .breaks hless hnext hstop⟩
    · exact exists_exit s stop items (n + 1) hless hnext hfurther
  · exact ⟨n, hn, hgoes, .exhausted hend hnext⟩
termination_by s.rows.length - n

namespace Work

variable {ι β ς : Type}

section Places

variable {s : Script} (hs : s.Plain) {n : Nat} (visit : ς → List Value → Visit ς ι) (state : ς)
  (token : Bool)
include hs

/-- A walk ends with the error of a request that fails. -/
theorem run_walk_refused {e : Error} (h : s.Refuses n e) :
    (walk false visit state (s.cursor.reads.drop n)).run token =
      ⟨.returned (.error e), [], [], token⟩ := by
  rw [hs.drop_reads h.1, h.plainRead]
  rfl

/-- A walk ends at the end of the rows. -/
theorem run_walk_exhausted (h : s.Delivers (s.rows.length + 1)) :
    (walk false visit state (s.cursor.reads.drop s.rows.length)).run token =
      ⟨.returned (.ok state), [.read], [], token⟩ := by
  rw [hs.drop_reads (Nat.le_refl _), h.plainRead, List.getElem?_eq_none (Nat.le_refl _)]
  rfl

/-- A walk reads a row, visits it, and stops or goes on as the visit says. -/
theorem run_walk_row (hn : n < s.rows.length) (h : s.Delivers (n + 1)) :
    let v := visit state s.rows[n]
    (walk false visit state (s.cursor.reads.drop n)).run token =
      Job.Course.behind [.read] v.item.toList
        ((if v.stop then .done (.ok v.state)
          else walk false visit v.state (s.cursor.reads.drop (n + 1)) : Work ι ς).run token) := by
  intro v
  rw [hs.drop_reads (Nat.le_of_lt hn), h.plainRead, List.getElem?_eq_getElem hn]
  have hread : (walk false visit state
        (.value (some s.rows[n]) :: s.cursor.reads.drop (n + 1))).run token =
      (Job.act .read (handing v.item (if v.stop then .done (.ok v.state)
        else walk false visit v.state (s.cursor.reads.drop (n + 1)) : Work ι ς))).run token := rfl
  rw [hread]
  cases v.item <;> rfl

end Places

section Collecting

variable {s : Script} (hs : s.Plain) {n : Nat} (f : List Value → β) (item? : β → Option ι)
  (stop : List β → Bool) (token : Bool)

/-- What the rows up to a place and the one there make. -/
theorem take_succ_map (hn : n < s.rows.length) :
    (s.rows.map f).take (n + 1) = (s.rows.map f).take n ++ [f s.rows[n]] := by
  have hmap : n < (s.rows.map f).length := by simpa using hn
  rw [← List.take_append_getElem hmap, List.getElem_map]

include hs

/-- The loop as long as it does not stop: the rows so far have been read and visited in their order,
each once. -/
theorem run_walk_collecting_take (hn : n ≤ s.rows.length) (hdelivers : s.Delivers n)
    (hgoes : GoesOn stop (s.rows.map f) n) :
    (walk false (collecting f item? stop) [] s.cursor.reads).run token =
      Job.Course.behind (List.replicate n .read) (((s.rows.map f).take n).filterMap item?)
        ((walk false (collecting f item? stop) ((s.rows.map f).take n)
          (s.cursor.reads.drop n)).run token) := by
  -- one row further, the walk stands where the visit of the last row has left it
  induction n with
  | zero => rfl
  | succ n ih =>
    have hstays : (collecting f item? stop ((s.rows.map f).take n) s.rows[n]).stop = false := by
      rw [collecting, ← take_succ_map f hn]
      exact hgoes n (Nat.lt_succ_self n)
    rw [ih (Nat.le_of_succ_le hn) (hdelivers.mono (Nat.le_succ n))
        fun m hm => hgoes m (Nat.lt_succ_of_lt hm),
      run_walk_row hs _ _ _ hn hdelivers, hstays, Job.Course.behind_behind, List.replicate_succ',
      take_succ_map f hn, List.filterMap_append]
    cases hitem : item? (f s.rows[n]) <;> simp [collecting, hitem]

/-- A loop that stops at a row has visited that row and those before it. -/
theorem run_walk_collecting_breaks (hn : n < s.rows.length) (hdelivers : s.Delivers (n + 1))
    (hgoes : GoesOn stop (s.rows.map f) n)
    (hstop : stop ((s.rows.map f).take (n + 1)) = true) :
    (walk false (collecting f item? stop) [] s.cursor.reads).run token =
      ⟨.returned (.ok ((s.rows.map f).take (n + 1))), List.replicate (n + 1) .read,
        ((s.rows.map f).take (n + 1)).filterMap item?, token⟩ := by
  have hbreak : (collecting f item? stop ((s.rows.map f).take n) s.rows[n]).stop = true := by
    rw [collecting, ← take_succ_map f hn]
    exact hstop
  rw [run_walk_collecting_take hs f item? stop token (Nat.le_of_lt hn)
      (hdelivers.mono (Nat.le_succ n)) hgoes, run_walk_row hs _ _ _ hn hdelivers, hbreak,
    List.replicate_succ', take_succ_map f hn, List.filterMap_append]
  cases hitem : item? (f s.rows[n]) <;> simp [collecting, hitem, Job.run, Job.Course.behind]

/-- A loop that comes to a request that fails has visited the rows before it. -/
theorem run_walk_collecting_refused {e : Error} (hrefuses : s.Refuses n e)
    (hgoes : GoesOn stop (s.rows.map f) n) :
    (walk false (collecting f item? stop) [] s.cursor.reads).run token =
      ⟨.returned (.error e), List.replicate n .read, ((s.rows.map f).take n).filterMap item?,
        token⟩ := by
  rw [run_walk_collecting_take hs f item? stop token hrefuses.1 hrefuses.delivers hgoes,
    run_walk_refused hs _ _ _ hrefuses]
  simp [Job.Course.behind]

/-- A loop that comes to the end of the rows has visited them all. -/
theorem run_walk_collecting_exhausted (hdelivers : s.Delivers (s.rows.length + 1))
    (hgoes : GoesOn stop (s.rows.map f) s.rows.length) :
    (walk false (collecting f item? stop) [] s.cursor.reads).run token =
      ⟨.returned (.ok (s.rows.map f)), List.replicate (s.rows.length + 1) .read,
        (s.rows.map f).filterMap item?, token⟩ := by
  have hall : (s.rows.map f).take s.rows.length = s.rows.map f :=
    List.take_of_length_le (Nat.le_of_eq (List.length_map f))
  rw [run_walk_collecting_take hs f item? stop token (Nat.le_refl _)
      (hdelivers.mono (Nat.le_succ _)) hgoes, run_walk_exhausted hs _ _ _ hdelivers,
    List.replicate_succ', hall]
  simp [Job.Course.behind]

end Collecting

/-- A walk that never stops visits all rows, or those before a request that fails. -/
theorem run_walk_collecting_never {s : Script} (hs : s.Plain) (f : List Value → β) (token : Bool) :
    let course := (walk false (collecting f (fun _ => (none : Option ι)) fun _ => false) []
      s.cursor.reads).run token
    (∀ n e, s.Refuses n e →
      course = ⟨.returned (.error e), List.replicate n .read, [], token⟩) ∧
    (s.Delivers (s.rows.length + 1) → course =
      ⟨.returned (.ok (s.rows.map f)), List.replicate (s.rows.length + 1) .read, [], token⟩) := by
  intro course
  constructor
  · intro n e hrefuses
    have hcourse := run_walk_collecting_refused hs f (fun _ => (none : Option ι)) (fun _ => false)
      token hrefuses fun _ _ => rfl
    rwa [List.filterMap_eq_nil_iff.mpr fun _ _ => rfl] at hcourse
  · intro hdelivers
    have hcourse := run_walk_collecting_exhausted hs f (fun _ => (none : Option ι))
      (fun _ => false) token hdelivers fun _ _ => rfl
    rwa [List.filterMap_eq_nil_iff.mpr fun _ _ => rfl] at hcourse

/-- Every way to stop of a loop that hands its items over, with its course. -/
theorem run_forEach {s : Script} (hs : s.Plain) (shape : Shape) (engine : Engine)
    (stop : List Item → Bool) (token : Bool) :
    let items := s.rows.map (shape.fillOne engine s.columns)
    let course := (forEach false shape engine stop s.cursor).run token
    (∀ n < s.rows.length, s.Delivers (n + 1) → GoesOn stop items n →
      stop (items.take (n + 1)) = true → course =
        ⟨.returned (.ok (n + 1)), List.replicate (n + 1) .read, items.take (n + 1), token⟩) ∧
    (∀ n e, s.Refuses n e → GoesOn stop items n → course =
      ⟨.returned (.error e), List.replicate n .read, items.take n, token⟩) ∧
    (s.Delivers (s.rows.length + 1) → GoesOn stop items s.rows.length → course =
      ⟨.returned (.ok s.rows.length), List.replicate (s.rows.length + 1) .read, items, token⟩) := by
  intro items course
  have hcourse : course = ((walk false (collecting (shape.fillOne engine s.columns) some stop) []
      s.cursor.reads).andThen fun seen => .done (.ok seen.length)).run token := rfl
  rw [hcourse, run_andThen_done]
  refine ⟨fun n hn hdelivers hgoes hstop => ?_, fun n e hrefuses hgoes => ?_,
    fun hdelivers hgoes => ?_⟩
  · rw [run_walk_collecting_breaks hs _ some stop token hn hdelivers hgoes hstop]
    have hlength : (items.take (n + 1)).length = n + 1 := by
      simp only [items, List.length_take, List.length_map]
      omega
    simp [items, hlength]
  · rw [run_walk_collecting_refused hs _ some stop token hrefuses hgoes]
    simp [items, Job.Ending.andThen]
  · rw [run_walk_collecting_exhausted hs _ some stop token hdelivers hgoes]
    simp [items]

/-- A loop ends with the error of a request that fails before the callback stops, or with the count
of the items it has handed over. -/
theorem ending_forEach {s : Script} (hs : s.Plain) (shape : Shape) (engine : Engine)
    (stop : List Item → Bool) (token : Bool) :
    let items := s.rows.map (shape.fillOne engine s.columns)
    let course := (forEach false shape engine stop s.cursor).run token
    (∃ n e, s.Refuses n e ∧ GoesOn stop items n ∧ course.ending = .returned (.error e)) ∨
      course.ending = .returned (.ok course.handed.length) := by
  intro items course
  obtain ⟨hbreaks, hfails, hexhausted⟩ := run_forEach hs shape engine stop token
  obtain ⟨n, -, hgoes, hexit⟩ := s.exists_exit stop items 0 (Nat.zero_le _)
    (fun i e _ => Nat.zero_le i) fun m hm => absurd hm (Nat.not_lt_zero m)
  cases hexit with
  | breaks hless hdelivers hstop =>
    have hcourse : course = _ := hbreaks n hless hdelivers hgoes hstop
    have hlength : min (n + 1) s.rows.length = n + 1 := Nat.min_eq_left hless
    exact .inr (by simp [hcourse, hlength])
  | fails e hrefuses =>
    have hcourse : course = _ := hfails n e hrefuses hgoes
    exact .inl ⟨n, e, hrefuses, hgoes, by rw [hcourse]⟩
  | exhausted hend hdelivers =>
    have hcourse : course = _ := hexhausted (hend ▸ hdelivers) (hend ▸ hgoes)
    exact .inr (by simp [hcourse])

/-- The loop through the rows of a script, with perhaps a request that fails in the place of a row
or of the end, and a callback that goes by all the items it has seen. The items are the rows, each
filled on its own. The loop that stops at a row has read that row and those before it, and no
further one, has handed each of them over once, and returns how many they are; the one that comes to
a request that fails has handed over the rows before it, and returns the error; the one that does
neither has read to the end, has handed over all rows and returns how many they are. An error is
returned only when it is reached before the callback stops, and everything else that is returned is
the count of the items handed over. Filling all rows, or making records of them, returns them all in
their order or the error of a request that fails, and hands nothing over. -/
theorem iteration_exact (columns : List String) (rows : List (List Value))
    (failure : Option (Nat × Error)) (shape : Shape) (engine : Engine) (stop : List Item → Bool)
    (token : Bool) :
    let s := Script.ofRows columns rows failure
    let items := rows.map (shape.fillOne engine columns)
    let course := (forEach false shape engine stop s.cursor).run token
    let all := (fillMany false shape engine s.cursor : Work Item (List Item)).run token
    let recorded := (records false engine s.cursor : Work Item (List Record)).run token
    (∀ n < rows.length, s.Delivers (n + 1) → GoesOn stop items n →
      stop (items.take (n + 1)) = true → course =
        ⟨.returned (.ok (n + 1)), List.replicate (n + 1) .read, items.take (n + 1), token⟩) ∧
    (∀ n e, s.Refuses n e → GoesOn stop items n → course =
      ⟨.returned (.error e), List.replicate n .read, items.take n, token⟩) ∧
    ((∀ n e, ¬ s.Refuses n e) → GoesOn stop items rows.length → course =
      ⟨.returned (.ok rows.length), List.replicate (rows.length + 1) .read, items, token⟩) ∧
    (∀ e, course.ending = .returned (.error e) ↔
      ∃ n, s.Refuses n e ∧ GoesOn stop items n) ∧
    ((∃ e, course.ending = .returned (.error e)) ∨
      course.ending = .returned (.ok course.handed.length)) ∧
    (∀ n e, s.Refuses n e →
      all = ⟨.returned (.error e), List.replicate n .read, [], token⟩ ∧
      recorded = ⟨.returned (.error e), List.replicate n .read, [], token⟩) ∧
    ((∀ n e, ¬ s.Refuses n e) →
      all = ⟨.returned (.ok items), List.replicate (rows.length + 1) .read, [], token⟩ ∧
      recorded = ⟨.returned (.ok (rows.map fun values => ⟨columns, values, engine⟩)),
        List.replicate (rows.length + 1) .read, [], token⟩) := by
  intro s items course all recorded
  have hs : s.Plain := Script.plain_ofRows columns rows failure
  obtain ⟨hbreaks, hfails, hexhausted⟩ := run_forEach hs shape engine stop token
  obtain ⟨hallFails, hall⟩ := run_walk_collecting_never (ι := Item) hs
    (shape.fillOne engine columns) token
  obtain ⟨hrecordedFails, hrecorded⟩ := run_walk_collecting_never (ι := Item) hs
    (fun values => (⟨columns, values, engine⟩ : Record)) token
  have hending := ending_forEach hs shape engine stop token
  refine ⟨hbreaks, hfails, fun hnone => hexhausted (Script.delivers_of_not_refuses hnone),
    fun e => ⟨fun herror => ?_, fun ⟨n, hrefuses, hgoes⟩ => ?_⟩, ?_,
    fun n e hrefuses => ⟨hallFails n e hrefuses, hrecordedFails n e hrefuses⟩,
    fun hnone => ?_⟩
  · -- an error is that of a request that was reached, since a stop ends with a count
    rcases hending with ⟨n, e', hrefuses, hgoes, herror'⟩ | hcount
    · cases herror'.symm.trans herror
      exact ⟨n, hrefuses, hgoes⟩
    · cases hcount.symm.trans herror
  · exact congrArg Job.Course.ending (hfails n e hrefuses hgoes)
  · rcases hending with ⟨_, e, _, _, herror⟩ | hcount
    · exact .inl ⟨e, herror⟩
    · exact .inr hcount
  · have hdelivers := Script.delivers_of_not_refuses hnone
    exact ⟨hall hdelivers, hrecorded hdelivers⟩

/-- Before a request that fails the callback stops at the first row, and the failure is not met;
when it goes on, it is. -/
theorem iteration_exact_twoRows :
    let cursor := (Script.ofRows ["Name"] [[.text "Ann"], [.text "Bob"]]
      (some (1, .driver "broken"))).cursor
    let shape : Shape := [Member.ofTarget "Name" .text]
    (forEach false shape Engine.standard (fun items => items.length == 1) cursor).run false =
        ⟨.returned (.ok 1), [.read], [[.text "Ann"]], false⟩ ∧
      (forEach false shape Engine.standard (fun _ => false) cursor).run false =
        ⟨.returned (.error (.driver "broken")), [.read], [[.text "Ann"]], false⟩ := by
  have hexact := iteration_exact ["Name"] [[.text "Ann"], [.text "Bob"]]
    (some (1, .driver "broken")) [Member.ofTarget "Name" .text] Engine.standard
  constructor
  · refine ((hexact (fun items => items.length == 1) false).1 0 (by decide) ?_
      (fun m hm => absurd hm (Nat.not_lt_zero m)) rfl).trans rfl
    intro i e hfailure
    cases hfailure
    exact Nat.le_refl 1
  · exact ((hexact (fun _ => false) false).2.1 1 _ ⟨by decide, rfl⟩ fun _ _ => rfl).trans rfl

end Work

end BoundSql
