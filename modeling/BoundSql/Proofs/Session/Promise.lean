import BoundSql.Proofs.Session.Course
import BoundSql.Session.Script

/-!
# What jobs ensure

A job in the background does not know what a look at the token finds, nor whether an interrupt cuts
a wait short. What it ensures holds either way: of the items that it hands over, and of its result
together with what happened on the way. The reader of a stream, with a driver that keeps to its own
errors, ensures that its items are the filled rows in their order, that it has gone through all of
them when it succeeds, and that it fails as cancelled only when it has found the token cancelled.
-/

namespace BoundSql

open Job (Ending)

/-- What has happened to a job so far. -/
structure Past (ι : Type) where
  /-- The items handed over. -/
  handed : List ι
  /-- Whether a look at the token has found it cancelled. -/
  refused : Bool

namespace Job

variable {σ ι ρ τ : Type} {allowed : List ι → Prop} {past : Past ι}

/-- Whatever a job meets, it does not break off, all that it has handed over is allowed at any time,
and it ends as it should. -/
def Ensures (allowed : List ι → Prop) (post : ρ → Past ι → Prop) : Past ι → Job σ ι ρ → Prop
  | past, done r => post r past
  | _, panic => False
  | past, act _ next => next.Ensures allowed post past
  | past, publish _ next => next.Ensures allowed post past
  | past, poll next => (next true).Ensures allowed post { past with refused := true } ∧
      (next false).Ensures allowed post past
  | past, cancel next => next.Ensures allowed post past
  | past, wait next => next.Ensures allowed post past
  | past, busy cut next => cut.Ensures allowed post past ∧ next.Ensures allowed post past
  | past, hand i next => allowed (past.handed ++ [i]) ∧
      next.Ensures allowed post { past with handed := past.handed ++ [i] }

/-- A job ensures what follows it if it ends so that the rest ensures that. -/
theorem Ensures.bind {post : τ → Past ι → Prop} {k : ρ → Job σ ι τ} {j : Job σ ι ρ}
    (h : j.Ensures allowed (fun r p => (k r).Ensures allowed post p) past) :
    (j.bind k).Ensures allowed post past := by
  induction j generalizing past with
  | done r => exact h
  | panic => exact h
  | act a next ih => exact ih h
  | publish handle next ih => exact ih h
  | poll next ih => exact ⟨ih true h.1, ih false h.2⟩
  | cancel next ih => exact ih h
  | wait next ih => exact ih h
  | busy cut next ihcut ih => exact ⟨ihcut h.1, ih h.2⟩
  | hand i next ih => exact ⟨h.1, ih h.2⟩

/-- A job that ensures something ensures all that follows from it. -/
theorem Ensures.mono {post post' : ρ → Past ι → Prop} {j : Job σ ι ρ}
    (h : j.Ensures allowed post past) (hpost : ∀ r p, post r p → post' r p) :
    j.Ensures allowed post' past := by
  induction j generalizing past with
  | done r => exact hpost r past h
  | panic => exact h
  | act a next ih => exact ih h
  | publish handle next ih => exact ih h
  | poll next ih => exact ⟨ih true h.1, ih false h.2⟩
  | cancel next ih => exact ih h
  | wait next ih => exact ih h
  | busy cut next ihcut ih => exact ⟨ihcut h.1, ih h.2⟩
  | hand i next ih => exact ⟨h.1, ih h.2⟩

/-- An interrupt does not take away what a job ensures. -/
theorem Ensures.interrupted {post : ρ → Past ι → Prop} {j : Job σ ι ρ}
    (h : j.Ensures allowed post past) : j.interrupted.Ensures allowed post past := by
  cases j with
  | wait next => exact h
  | busy cut next => exact h.1
  | _ => exact h

end Job

/-! ## Drivers that keep to their own errors -/

/-- The errors that drivers have of their own: a cancellation and the end of the time are not among
them. -/
def Error.Own (e : Error) : Prop :=
  e ≠ .cancelled ∧ ∀ limit, e ≠ .timeout limit

/-- The lack of a cursor is an error of a driver. -/
theorem Work.own_noCursor : Work.noCursor.Own :=
  ⟨nofun, nofun⟩

/-- Replies without a breakdown, and with certain errors only. -/
def Reply.Regular {α : Type} (errors : Error → Prop) : Reply α → Prop
  | .value _ => True
  | .fail e => errors e
  | .panic => False
  | .block e => errors e
  | .slow e next => errors e ∧ next.Regular errors
  | .cancelling next => next.Regular errors

/-- Queries with regular replies and reads, which may also pass on what a visitor fails with. -/
def Query.Regular : (Error → Prop) → Query → Prop
  | errors, .finish reply => reply.Regular errors
  | errors, .visit lent next => lent.Regular errors ∧
      (∀ c, lent.ending = .returned (.ok c) → ∀ r ∈ c.reads, r.Regular errors) ∧
      (next (.ok ())).Regular errors ∧
      ∀ e, (next (.error e)).Regular fun e' => errors e' ∨ e' = e

/-- Drivers that are regular at connecting and at a statement, with errors of their own. -/
def Driver.Regular (d : Driver) (statement : Statement) : Prop :=
  d.connect.Regular Error.Own ∧
    ∀ c, d.connect.ending = .returned (.ok c) → (c.query statement).Regular Error.Own

/-- A query that lends a regular cursor some times over is regular. -/
theorem Query.regular_lending {errors : Error → Prop} {lent : Reply Cursor} {reply : Reply Unit}
    (hlent : lent.Regular errors)
    (hreads : ∀ c, lent.ending = .returned (.ok c) → ∀ r ∈ c.reads, r.Regular errors)
    (hreply : reply.Regular errors) (n : Nat) : (Query.lending lent reply n).Regular errors := by
  induction n with
  | zero => exact hreply
  | succ n ih => exact ⟨hlent, hreads, ih, fun e => .inr rfl⟩

/-- All errors of a script. -/
def Script.errors (s : Script) : List Error :=
  (s.rowError.map Prod.snd).toList ++ s.refusal.toList ++ s.error.toList ++ s.lateError.toList

/-- A script that does not break off, and has errors of its own only, is a regular driver. -/
theorem Script.regular_driver {s : Script} (hpanic : s.panicAt = none)
    (herrors : ∀ e ∈ s.errors, e.Own) (statement : Statement) : s.driver.Regular statement := by
  have hplain (k : Nat) : (s.plainRead k).Regular Error.Own := by
    unfold plainRead
    cases hrow : s.rowError with
    | none => trivial
    | some p =>
      have hown : p.2.Own := herrors p.2 (by simp [errors, hrow])
      by_cases hplace : p.1 = k
      · simp only [hplace, if_true]
        exact hown
      · simp only [hplace, if_false]
        trivial
  have hread (k : Nat) : (s.read k).Regular Error.Own := by
    unfold read
    rw [hpanic]
    split
    · contradiction
    · split
      · exact ⟨nofun, nofun⟩
      · split
        · exact hplain k
        · exact hplain k
  have hquery : s.query.Regular Error.Own := by
    unfold query
    cases herror : s.error with
    | some e => exact herrors e (by simp [errors, herror])
    | none =>
      have hlent : (Reply.value s.cursor).Regular Error.Own := trivial
      refine Query.regular_lending hlent (fun c hc => ?_) ?_ s.visits
      · cases hc
        intro r hr
        obtain ⟨k, -, rfl⟩ := List.mem_map.mp hr
        exact hread k
      · cases hlate : s.lateError with
        | some e => exact herrors e (by simp [errors, hlate])
        | none => trivial
  unfold Driver.Regular driver
  cases hrefusal : s.refusal with
  | some e => exact ⟨herrors e (by simp [errors, hrefusal]), nofun⟩
  | none =>
    cases hconnect : s.cancelsConnect with
    | true =>
      refine ⟨trivial, fun c hc => ?_⟩
      cases hc
      exact hquery
    | false =>
      refine ⟨trivial, fun c hc => ?_⟩
      cases hc
      exact hquery

/-! ## The reader of a stream -/

/-- Errors that may come of what has happened: those of drivers, and a cancellation if a look at the
token has found one. -/
def Past.Allows {ι : Type} (past : Past ι) (e : Error) : Prop :=
  e.Own ∨ (e = .cancelled ∧ past.refused = true)

/-- How a job ends that is to hand over certain items: with all of them and for a good reason, or
with an error that may come. -/
def Past.Delivered {ι ρ : Type} (items : List ι) (fine : Prop) : Except Error ρ → Past ι → Prop
  | .ok _, past => past.handed = items ∧ fine
  | .error e, past => past.Allows e

/-- A job that at any time has handed over the first of certain items, and ends accordingly. -/
def Job.Delivers {σ ι ρ : Type} (items : List ι) (fine : Prop) (past : Past ι)
    (j : Job σ ι (Except Error ρ)) : Prop :=
  j.Ensures (· <+: items) (Past.Delivered items fine) past

namespace Work

variable {ι ρ τ : Type} {past : Past ι} {items : List ι} {fine : Prop}

section

variable {allowed : List ι → Prop} {errors : Error → Prop}

/-- A job ensures what follows a success of it if it succeeds so that the rest ensures that, and
fails as it should. -/
theorem ensures_andThen {j : Work ι ρ} {k : ρ → Work ι τ} {post : Except Error τ → Past ι → Prop}
    {mid : Except Error ρ → Past ι → Prop} (h : j.Ensures allowed mid past)
    (hok : ∀ r p, mid (.ok r) p → (k r).Ensures allowed post p)
    (herror : ∀ e p, mid (.error e) p → post (.error e) p) :
    (j.andThen k).Ensures allowed post past := by
  refine (h.mono fun result p hmid => ?_).bind
  cases result with
  | ok r => exact hok r p hmid
  | error e => exact herror e p hmid

/-- A regular reply ends with its result or with one of its errors. -/
theorem ensures_replying {r : Reply ρ} (hr : r.Regular errors)
    {post : Except Error ρ → Past ι → Prop}
    (hok : ∀ a, r.ending = .returned (.ok a) → post (.ok a) past)
    (herror : ∀ e, errors e → post (.error e) past) :
    (replying r : Work ι ρ).Ensures allowed post past := by
  induction r with
  | value result => exact hok result rfl
  | fail e => exact herror e hr
  | panic => exact hr
  | block e => exact herror e hr
  | slow e next ih => exact ⟨herror e hr.1, ih hr.2 hok⟩
  | cancelling next ih => exact ih hr hok

/-- What follows a regular reply comes behind its result. -/
theorem ensures_replying_andThen {r : Reply ρ} (hr : r.Regular errors) {k : ρ → Work ι τ}
    {post : Except Error τ → Past ι → Prop}
    (hok : ∀ a, r.ending = .returned (.ok a) → (k a).Ensures allowed post past)
    (herror : ∀ e, errors e → post (.error e) past) :
    ((replying r).andThen k).Ensures allowed post past := by
  have hreply : (replying r : Work ι ρ).Ensures allowed (fun
      | .ok a, p => p = past ∧ r.ending = .returned (.ok a)
      | .error e, p => p = past ∧ errors e) past :=
    ensures_replying hr (fun _ ha => ⟨rfl, ha⟩) fun _ he => ⟨rfl, he⟩
  refine ensures_andThen hreply ?_ ?_
  · rintro a p ⟨rfl, ha⟩
    exact hok a ha
  · rintro e p ⟨rfl, he⟩
    exact herror e he

/-- Once its first cursor has been used, a regular query ends with what is kept, with nothing, or
with one of its errors. -/
theorem ensures_follow {kept : Option ρ} {q : Query} (hq : q.Regular errors)
    {post : Except Error ρ → Past ι → Prop}
    (hok : ∀ r, kept = some r → q.rest = .returned (.ok ()) → post (.ok r) past)
    (hnone : kept = none → post (.error noCursor) past)
    (herror : ∀ e, errors e → post (.error e) past) :
    (follow kept q).Ensures allowed post past := by
  induction q with
  | finish reply =>
    refine ensures_replying_andThen hq (fun _ hreply => ?_) herror
    cases kept with
    | none => exact hnone rfl
    | some r => exact hok r rfl hreply
  | visit lent next ih =>
    obtain ⟨hlent, -, hnext, -⟩ := hq
    refine ensures_replying_andThen hlent (fun c hc => ?_) herror
    refine ih (.ok ()) hnext fun r hr hrest => hok r hr ?_
    rw [Query.rest, hc]
    exact hrest

end

/-- What follows a watched request comes behind a row or the end of the rows. -/
theorem delivers_request_andThen {r : Read} (hr : r.Regular Error.Own)
    {k : Option (List Value) → Work ι τ}
    (hk : ∀ row, r.ending = .returned (.ok row) → (k row).Delivers items fine past) :
    ((request true r).andThen k).Delivers items fine past := by
  constructor
  · exact .inr ⟨rfl, rfl⟩
  · have hreading : (reading r).Ensures (· <+: items) (fun
        | .ok row, p => p = past ∧ r.ending = .returned (.ok row)
        | .error e, p => p = past ∧ e.Own) past :=
      ensures_replying_andThen hr (fun _ ha => ⟨rfl, ha⟩) fun e he => ⟨rfl, he⟩
    refine ensures_andThen hreading ?_ ?_
    · rintro row p ⟨rfl, hrow⟩
      exact hk row hrow
    · rintro e p ⟨rfl, he⟩
      exact .inl he

/-- A watched walk that hands every filled row over delivers the filled rows. -/
theorem delivers_walk (fill : List Value → ι) (seen : List ι) {reads : List Read}
    (hreads : ∀ r ∈ reads, r.Regular Error.Own)
    (hitems : past.handed ++ (Cursor.rowsOf reads).map fill = items) :
    (walk true (fun (seen : List ι) values =>
      ⟨seen ++ [fill values], some (fill values), false⟩) seen reads).Delivers items
        (Cursor.endOf reads = .returned (.ok ())) past := by
  induction reads generalizing past seen with
  | nil =>
    refine delivers_request_andThen (r := .value none) trivial fun _ _ => ?_
    rw [Cursor.rowsOf, List.map_nil, List.append_nil] at hitems
    exact ⟨hitems, rfl⟩
  | cons r rest ih =>
    refine delivers_request_andThen (hreads r List.mem_cons_self) fun row hrow => ?_
    rw [Cursor.rowsOf, hrow] at hitems
    rw [Cursor.endOf, hrow]
    cases row with
    | none => exact ⟨by simpa using hitems, rfl⟩
    | some values =>
      have hnext : past.handed ++ [fill values] ++ (Cursor.rowsOf rest).map fill = items := by
        simpa using hitems
      refine ⟨⟨_, hnext⟩, ?_⟩
      exact ih _ (fun r hr => hreads r (List.mem_cons_of_mem _ hr)) hnext

/-- A watched walk over a cursor delivers its filled rows. -/
theorem delivers_forEach {past : Past Item} {items : List Item} (shape : Shape) (engine : Engine)
    {c : Cursor} (hreads : ∀ r ∈ c.reads, r.Regular Error.Own)
    (hitems : past.handed ++ c.rows.map (shape.fillOne engine c.columns) = items) :
    (forEach true shape engine (fun _ => false) c).Delivers items
      (c.ending = .returned (.ok ())) past := by
  have hwalk := delivers_walk (shape.fillOne engine c.columns) [] hreads hitems
  exact ensures_andThen hwalk (fun _ _ h => h) fun _ _ h => h

/-- A regular query delivers what the use of its first cursor delivers. -/
theorem delivers_withCursor {q : Query} (hq : q.Regular Error.Own) {use : Cursor → Work ι ρ}
    {x : Cursor → Ending (Except Error Unit)} (hnone : q.cursor? = none → past.handed = items)
    (huse : ∀ c, q.cursor? = some c → (∀ r ∈ c.reads, r.Regular Error.Own) →
      (use c).Delivers items (x c = .returned (.ok ())) past) :
    (withCursor use q).Delivers items (q.ending x = .returned (.ok ())) past := by
  cases q with
  | finish reply =>
    refine ensures_replying_andThen hq (fun _ _ => ?_) fun e he => .inl he
    exact .inl own_noCursor
  | visit lent next =>
    obtain ⟨hlent, hreads, hcontent, hpassed⟩ := hq
    refine ensures_replying_andThen hlent (fun c hc => ?_) fun e he => .inl he
    have hcursor : (Query.visit lent next).cursor? = some c := by rw [Query.cursor?, hc]
    refine Job.Ensures.bind ((huse c hcursor (hreads c hc)).mono fun result p hp => ?_)
    cases result with
    | ok r =>
      obtain ⟨hhanded, hx⟩ := hp
      refine ensures_follow hcontent (fun r' _ hrest => ⟨hhanded, ?_⟩) (fun hkept => ?_)
        fun e he => .inl he
      · simp only [Query.ending, hc, hx, hrest, Ending.ok_andThen]
      · cases hkept
    | error e =>
      refine ensures_follow (hpassed e) (fun r' hkept _ => ?_) (fun _ => .inl own_noCursor)
        fun e' he' => ?_
      · cases hkept
      · rcases he' with hown | rfl
        · exact .inl hown
        · exact hp

end Work

namespace Session

/-- The items that a statement has for a shape: the filled rows of the first cursor that the driver
lends. -/
def filled (s : Session) (shape : Shape) (statement : Statement) : List Item :=
  ((s.driver.cursor? statement).map fun c => c.rows.map (shape.fillOne s.engine c.columns)).getD []

/-- With a regular driver, the reader of a stream delivers the filled rows, and succeeds only when
the driver has failed nowhere. -/
theorem delivers_streaming (s : Session) (shape : Shape) {statement : Statement}
    (hdriver : s.driver.Regular statement) :
    (s.streaming shape statement).Delivers (s.filled shape statement)
      (s.driver.serving statement Cursor.ending = .returned (.ok ())) ⟨[], false⟩ := by
  obtain ⟨hconnect, hquery⟩ := hdriver
  refine Work.ensures_replying_andThen hconnect (fun c hc => ?_) fun e he => .inl he
  have hserving : s.driver.serving statement Cursor.ending =
      (c.query statement).ending Cursor.ending := by rw [Driver.serving, hc, Ending.ok_andThen]
  have hfilled : s.filled shape statement = ((c.query statement).cursor?.map fun c =>
      c.rows.map (shape.fillOne s.engine c.columns)).getD [] := by
    rw [filled, Driver.cursor?, hc]
  rw [hserving, hfilled]
  refine Work.delivers_withCursor (hquery c hc) (fun hnone => ?_) fun cursor hcursor hreads => ?_
  · rw [hnone]
    rfl
  · rw [hcursor]
    exact Work.delivers_forEach shape s.engine hreads rfl

end Session

end BoundSql
