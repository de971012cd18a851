import BoundSql.Session.Operation

/-!
# How calls end when nothing interferes

A job that runs on its own is put together from its parts: the course of one job after another is
the course of the first with that of the second behind it. So the course of a call follows from
what becomes of the calls to its driver: a reply ends in some way, the requests for rows bring rows
until something else comes, and a query ends by what the use of its first cursor gives.
-/

namespace BoundSql

namespace Job

variable {σ ι ρ τ : Type}

/-- One ending after another: only behind a success there is a second one. -/
def Ending.andThen : Ending (Except Error ρ) → (ρ → Ending (Except Error τ)) →
    Ending (Except Error τ)
  | .returned (.ok r), k => k r
  | .returned (.error e), _ => .returned (.error e)
  | .panicked, _ => .panicked
  | .stuck, _ => .stuck

/-- Behind a success comes what follows it. -/
@[simp]
theorem Ending.ok_andThen (r : ρ) (k : ρ → Ending (Except Error τ)) :
    (Ending.returned (.ok r)).andThen k = k r := rfl

/-- Endings follow one another whatever way they are put together. -/
theorem Ending.andThen_assoc {υ : Type} (x : Ending (Except Error ρ))
    (k : ρ → Ending (Except Error τ)) (l : τ → Ending (Except Error υ)) :
    (x.andThen k).andThen l = x.andThen fun r => (k r).andThen l := by
  cases x with
  | panicked => rfl
  | stuck => rfl
  | returned result => cases result <;> rfl

/-- A success behind an ending comes behind a success. -/
theorem Ending.andThen_eq_ok {x : Ending (Except Error ρ)} {k : ρ → Ending (Except Error τ)}
    {t : τ} (h : x.andThen k = .returned (.ok t)) :
    ∃ r, x = .returned (.ok r) ∧ k r = .returned (.ok t) := by
  cases x with
  | panicked => cases h
  | stuck => cases h
  | returned result =>
    cases result with
    | error e => cases h
    | ok r => exact ⟨r, rfl, h⟩

/-- A course with that of another job behind it, which depends on how the first one ends. -/
def Course.bind (c : Course σ ι ρ) (k : ρ → Job σ ι τ) : Course σ ι τ :=
  match c.ending with
  | .returned r =>
    let next := (k r).run c.token
    ⟨next.ending, c.trace ++ next.trace, c.handed ++ next.handed, next.token⟩
  | .panicked => ⟨.panicked, c.trace, c.handed, c.token⟩
  | .stuck => ⟨.stuck, c.trace, c.handed, c.token⟩

/-- One job after another runs as the first does, and then as the second does. -/
theorem run_bind (token : Bool) (j : Job σ ι ρ) (k : ρ → Job σ ι τ) :
    (j.bind k).run token = (j.run token).bind k := by
  induction j generalizing token with
  | done r => rfl
  | panic => rfl
  | wait next ih => rfl
  | publish h next ih => exact ih token
  | poll next ih => exact ih token token
  | cancel next ih => exact ih true
  | busy cut next ihcut ih => exact ih token
  | act a next ih =>
    simp only [bind, run, ih token]
    unfold Course.bind
    cases next.run token with
    | mk ending trace handed final => cases ending <;> rfl
  | hand item next ih =>
    simp only [bind, run, ih token]
    unfold Course.bind
    cases next.run token with
    | mk ending trace handed final => cases ending <;> rfl

/-- A token that is cancelled at the start is cancelled at the end. -/
theorem token_run_true (j : Job σ ι ρ) : (j.run true).token = true := by
  induction j with
  | done r => rfl
  | panic => rfl
  | wait next ih => rfl
  | publish h next ih => exact ih
  | poll next ih => exact ih true
  | cancel next ih => exact ih
  | busy cut next ihcut ih => exact ih
  | act a next ih => exact ih
  | hand item next ih => exact ih

end Job

open Job (Ending)

/-- How a call to a driver ends when nothing interferes. -/
def Reply.ending {α : Type} : Reply α → Ending (Except Error α)
  | .value result => .returned (.ok result)
  | .fail e => .returned (.error e)
  | .panic => .panicked
  | .block _ => .stuck
  | .slow _ next => next.ending
  | .cancelling next => next.ending

/-- Whether a call to a driver cancels the token. -/
def Reply.cancels {α : Type} : Reply α → Bool
  | .slow _ next => next.cancels
  | .cancelling _ => true
  | _ => false

namespace Cursor

/-- The rows that requests bring before something else comes. -/
def rowsOf : List Read → List (List Value)
  | [] => []
  | r :: rest =>
    match r.ending with
    | .returned (.ok (some values)) => values :: rowsOf rest
    | _ => []

/-- How the requests for rows end: with the end of the rows, or with something else. -/
def endOf : List Read → Ending (Except Error Unit)
  | [] => .returned (.ok ())
  | r :: rest => r.ending.andThen fun
    | some _ => endOf rest
    | none => .returned (.ok ())

/-- The rows of a cursor. -/
def rows (c : Cursor) : List (List Value) := rowsOf c.reads

/-- How the requests for all rows of a cursor end. -/
def ending (c : Cursor) : Ending (Except Error Unit) := endOf c.reads

/-- The rows that requests bring when no further row is asked for once the rows so far are
enough. -/
def rowsUntil (enough : List (List Value) → Bool) (seen : List (List Value)) :
    List Read → List (List Value)
  | [] => []
  | r :: rest =>
    match r.ending with
    | .returned (.ok (some values)) =>
      values :: if enough (seen ++ [values]) then [] else rowsUntil enough (seen ++ [values]) rest
    | _ => []

/-- How the requests for rows end when no further row is asked for once the rows so far are
enough. -/
def endUntil (enough : List (List Value) → Bool) (seen : List (List Value)) :
    List Read → Ending (Except Error Unit)
  | [] => .returned (.ok ())
  | r :: rest => r.ending.andThen fun
    | some values =>
      if enough (seen ++ [values]) then .returned (.ok ())
      else endUntil enough (seen ++ [values]) rest
    | none => .returned (.ok ())

/-- When no rows are ever enough, the requests bring all rows. -/
theorem rowsUntil_never (seen : List (List Value)) (reads : List Read) :
    rowsUntil (fun _ => false) seen reads = rowsOf reads := by
  induction reads generalizing seen with
  | nil => rfl
  | cons r rest ih => simp only [rowsUntil, rowsOf, ih, Bool.false_eq_true, if_false]

/-- When no rows are ever enough, the requests end as those for all rows do. -/
theorem endUntil_never (seen : List (List Value)) (reads : List Read) :
    endUntil (fun _ => false) seen reads = endOf reads := by
  induction reads generalizing seen with
  | nil => rfl
  | cons r rest ih => simp only [endUntil, endOf, ih, Bool.false_eq_true, if_false]

/-- The first row comes first, however many rows are enough. -/
theorem head?_rowsUntil (enough : List (List Value) → Bool) (seen : List (List Value))
    (reads : List Read) : (rowsUntil enough seen reads).head? = (rowsOf reads).head? := by
  cases reads with
  | nil => rfl
  | cons r rest =>
    unfold rowsUntil rowsOf
    cases r.ending with
    | panicked => rfl
    | stuck => rfl
    | returned result =>
      match result with
      | .error e => rfl
      | .ok none => rfl
      | .ok (some values) => rfl

/-- When the requests for all rows end well, so do those for fewer. -/
theorem endUntil_of_endOf (enough : List (List Value) → Bool) {reads : List Read}
    (h : endOf reads = .returned (.ok ())) (seen : List (List Value)) :
    endUntil enough seen reads = .returned (.ok ()) := by
  induction reads generalizing seen with
  | nil => rfl
  | cons r rest ih =>
    obtain ⟨row, hrow, hrest⟩ := Ending.andThen_eq_ok h
    rw [endUntil, hrow]
    cases row with
    | none => rfl
    | some values =>
      simp only [Ending.andThen]
      split
      · rfl
      · exact ih hrest _

/-- What the first request for a row meets. -/
def firstRead (c : Cursor) : Read := c.reads.head?.getD (.value none)

end Cursor

namespace Query

variable {ρ : Type}

/-- How a query ends when every visitor is content. -/
def rest : Query → Ending (Except Error Unit)
  | .finish reply => reply.ending
  | .visit lent next => lent.ending.andThen fun _ => (next (.ok ())).rest

/-- How a query ends by how the use of its first cursor ends. -/
def ending (use : Cursor → Ending (Except Error ρ)) : Query → Ending (Except Error ρ)
  | .finish reply => reply.ending.andThen fun _ => .returned (.error Work.noCursor)
  | .visit lent next => lent.ending.andThen fun cursor =>
    match use cursor with
    | .returned (.ok r) => (next (.ok ())).rest.andThen fun _ => .returned (.ok r)
    | .returned (.error e) =>
      (next (.error e)).rest.andThen fun _ => .returned (.error Work.noCursor)
    | .panicked => .panicked
    | .stuck => .stuck

/-- The first cursor that a query lends. -/
def cursor? : Query → Option Cursor
  | .finish _ => none
  | .visit lent _ =>
    match lent.ending with
    | .returned (.ok c) => some c
    | _ => none

/-- A query that ends with a success has lent a cursor whose use was a success, and with another use
that is one it ends with that. -/
theorem ending_eq_ok {use : Cursor → Ending (Except Error ρ)} {q : Query} {r : ρ}
    (h : q.ending use = .returned (.ok r)) :
    ∃ c, q.cursor? = some c ∧ use c = .returned (.ok r) ∧
      ∀ {τ : Type} (other : Cursor → Ending (Except Error τ)) {t : τ},
        other c = .returned (.ok t) → q.ending other = .returned (.ok t) := by
  cases q with
  | finish reply =>
    obtain ⟨_, _, hnone⟩ := Ending.andThen_eq_ok h
    cases hnone
  | visit lent next =>
    obtain ⟨c, hlent, huse⟩ := Ending.andThen_eq_ok h
    refine ⟨c, by rw [cursor?, hlent], ?_⟩
    cases hc : use c with
    | panicked => simp [hc] at huse
    | stuck => simp [hc] at huse
    | returned result =>
      cases result with
      | error e =>
        simp only [hc] at huse
        obtain ⟨_, _, hnone⟩ := Ending.andThen_eq_ok huse
        cases hnone
      | ok r' =>
        simp only [hc] at huse
        obtain ⟨_, hrest, hr⟩ := Ending.andThen_eq_ok huse
        cases hr
        refine ⟨rfl, fun {τ} other {t} hother => ?_⟩
        simp only [ending, hlent, Ending.andThen, hother, hrest]

end Query

namespace Driver

variable {ρ : Type}

/-- How the answer to a statement ends by how the use of the first cursor ends. -/
def serving (d : Driver) (statement : Statement) (use : Cursor → Ending (Except Error ρ)) :
    Ending (Except Error ρ) :=
  d.connect.ending.andThen fun c => (c.query statement).ending use

/-- The first cursor that a driver lends for a statement. -/
def cursor? (d : Driver) (statement : Statement) : Option Cursor :=
  match d.connect.ending with
  | .returned (.ok c) => (c.query statement).cursor?
  | _ => none

/-- A driver that answers with a success has lent a cursor whose use was a success, and to another
use that is one it answers with that. -/
theorem serving_eq_ok {d : Driver} {statement : Statement}
    {use : Cursor → Ending (Except Error ρ)} {r : ρ}
    (h : d.serving statement use = .returned (.ok r)) :
    ∃ c, d.cursor? statement = some c ∧ use c = .returned (.ok r) ∧
      ∀ {τ : Type} (other : Cursor → Ending (Except Error τ)) {t : τ},
        other c = .returned (.ok t) → d.serving statement other = .returned (.ok t) := by
  obtain ⟨connection, hconnect, hquery⟩ := Ending.andThen_eq_ok h
  obtain ⟨c, hcursor, huse, hother⟩ := Query.ending_eq_ok hquery
  refine ⟨c, by simp only [cursor?, hconnect, hcursor], huse, fun {τ} other {t} ht => ?_⟩
  simp only [serving, hconnect, Ending.andThen, hother other ht]

/-- A failure on the way of a statement, for a driver that lends its cursor once and passes on what
its visitor fails with: at the connection, at the query before its cursor, at the rows that are
asked for, or at the query behind them. -/
inductive Fails (d : Driver) (statement : Statement) (reach : Cursor → Ending (Except Error Unit))
    (e : Error) : Prop where
  /-- There is no connection. -/
  | connecting : d.connect.ending = .returned (.error e) → Fails d statement reach e
  /-- The query is refused. -/
  | querying {c : Connection} {reply : Reply Unit} :
      d.connect.ending = .returned (.ok c) → c.query statement = .finish reply →
        reply.ending = .returned (.error e) → Fails d statement reach e
  /-- There is no cursor. -/
  | lending {c : Connection} {lent : Reply Cursor} {reply : Reply Unit} :
      d.connect.ending = .returned (.ok c) → c.query statement = .lending lent reply 1 →
        lent.ending = .returned (.error e) → Fails d statement reach e
  /-- A row that is asked for does not come. -/
  | reading {c : Connection} {lent : Reply Cursor} {reply : Reply Unit} {cursor : Cursor} :
      d.connect.ending = .returned (.ok c) → c.query statement = .lending lent reply 1 →
        lent.ending = .returned (.ok cursor) → reach cursor = .returned (.error e) →
          Fails d statement reach e
  /-- The query fails behind the rows. -/
  | finishing {c : Connection} {lent : Reply Cursor} {reply : Reply Unit} {cursor : Cursor} :
      d.connect.ending = .returned (.ok c) → c.query statement = .lending lent reply 1 →
        lent.ending = .returned (.ok cursor) → reach cursor = .returned (.ok ()) →
          reply.ending = .returned (.error e) → Fails d statement reach e

/-- A failure is answered unchanged. -/
theorem Fails.serving {d : Driver} {statement : Statement}
    {reach : Cursor → Ending (Except Error Unit)} {e : Error} (h : d.Fails statement reach e)
    (answer : Cursor → ρ) :
    d.serving statement (fun c => (reach c).andThen fun _ => .returned (.ok (answer c))) =
      .returned (.error e) := by
  unfold Driver.serving
  cases h with
  | connecting hconnect =>
    rw [hconnect]
    rfl
  | querying hconnect hquery hreply =>
    simp only [hconnect, Ending.andThen, hquery, Query.ending, hreply]
  | lending hconnect hquery hlent =>
    simp only [hconnect, Ending.andThen, hquery, Query.lending, Query.ending, hlent]
  | reading hconnect hquery hlent hreach =>
    simp only [hconnect, Ending.andThen, hquery, Query.lending, Query.ending, hlent, hreach,
      Query.rest, Reply.ending]
  | finishing hconnect hquery hlent hreach hreply =>
    simp only [hconnect, Ending.andThen, hquery, Query.lending, Query.ending, hlent, hreach,
      Query.rest, hreply]

end Driver

namespace Work

variable {ι ρ τ : Type}

/-- How a job after a successful one ends. -/
theorem ending_andThen (token : Bool) (j : Work ι ρ) (k : ρ → Work ι τ) :
    ((j.andThen k).run token).ending =
      (j.run token).ending.andThen fun r => ((k r).run (j.run token).token).ending := by
  rw [andThen, Job.run_bind]
  unfold Job.Course.bind
  cases (j.run token).ending with
  | panicked => rfl
  | stuck => rfl
  | returned result => cases result <;> rfl

/-- A change of the result changes nothing else. -/
theorem run_andThen_done (token : Bool) (j : Work ι ρ) (x : ρ → Except Error τ) :
    (j.andThen fun r => .done (x r)).run token =
      ⟨(j.run token).ending.andThen fun r => .returned (x r), (j.run token).trace,
        (j.run token).handed, (j.run token).token⟩ := by
  rw [andThen, Job.run_bind]
  unfold Job.Course.bind
  cases (j.run token).ending with
  | panicked => rfl
  | stuck => rfl
  | returned result => cases result <;> simp [Job.run, Ending.andThen]

/-- A reply comes without anything to be seen. -/
theorem run_replying (token : Bool) (r : Reply ρ) :
    (replying r : Work ι ρ).run token = ⟨r.ending, [], [], r.cancels || token⟩ := by
  induction r generalizing token with
  | value result => rfl
  | fail e => rfl
  | panic => rfl
  | block e => rfl
  | slow e next ih => exact ih token
  | cancelling next ih =>
    simp only [replying, Job.run, ih true, Reply.ending, Reply.cancels, Bool.or_true, Bool.true_or]

/-- What follows a reply runs on its own when the reply is a result, and else not at all. -/
theorem run_replying_andThen (token : Bool) (r : Reply ρ) (k : ρ → Work ι τ) :
    ((replying r).andThen k).run token =
      match r.ending with
      | .returned (.ok result) => (k result).run (r.cancels || token)
      | .returned (.error e) => ⟨.returned (.error e), [], [], r.cancels || token⟩
      | .panicked => ⟨.panicked, [], [], r.cancels || token⟩
      | .stuck => ⟨.stuck, [], [], r.cancels || token⟩ := by
  rw [andThen, Job.run_bind, run_replying]
  unfold Job.Course.bind
  cases r.ending with
  | panicked => rfl
  | stuck => rfl
  | returned result => cases result <;> rfl

/-- How a job behind a reply ends, when its ending does not depend on the token. -/
theorem ending_replying_andThen (token : Bool) (r : Reply ρ) {k : ρ → Work ι τ}
    {x : ρ → Ending (Except Error τ)} (h : ∀ result t, ((k result).run t).ending = x result) :
    (((replying r).andThen k).run token).ending = r.ending.andThen x := by
  rw [run_replying_andThen]
  cases r.ending with
  | panicked => rfl
  | stuck => rfl
  | returned result =>
    cases result with
    | error e => rfl
    | ok result => exact h result _

/-- What follows a request for a row runs behind the reading of the row. -/
theorem run_reading_andThen (token : Bool) (r : Read) (k : Option (List Value) → Work ι τ) :
    ((reading r).andThen k).run token =
      match r.ending with
      | .returned (.ok row) =>
        let next := (k row).run (r.cancels || token)
        { next with trace := .read :: next.trace }
      | .returned (.error e) => ⟨.returned (.error e), [], [], r.cancels || token⟩
      | .panicked => ⟨.panicked, [], [], r.cancels || token⟩
      | .stuck => ⟨.stuck, [], [], r.cancels || token⟩ := by
  rw [reading, andThen, Job.run_bind, run_replying_andThen]
  unfold Job.Course.bind
  cases r.ending with
  | panicked => rfl
  | stuck => rfl
  | returned result => cases result <;> rfl

/-- An item is handed over before the rest. -/
theorem run_handing (item : Option ι) (next : Work ι ρ) (token : Bool) :
    ((handing item next).run token).ending = (next.run token).ending ∧
      ((handing item next).run token).handed = item.toList ++ (next.run token).handed := by
  cases item <;> exact ⟨rfl, rfl⟩

/-- The visit that collects something from every row, and perhaps hands it over. -/
def collecting {β : Type} (f : List Value → β) (item? : β → Option ι) (stop : List β → Bool)
    (got : List β) (values : List Value) : Visit (List β) ι :=
  ⟨got ++ [f values], item? (f values), stop (got ++ [f values])⟩

/-- A walk that collects something from every row, and perhaps hands it over, ends as the requests
do; what it has handed over stems from the rows in their order. -/
theorem run_walk_collecting {β : Type} (f : List Value → β) (item? : β → Option ι)
    (stop : List β → Bool) (token : Bool) (seen : List (List Value)) (reads : List Read) :
    let visit := collecting f item? stop
    let enough (rows : List (List Value)) := stop (rows.map f)
    ((walk false visit (seen.map f) reads).run token).ending =
        (Cursor.endUntil enough seen reads).andThen (fun _ =>
          .returned (.ok ((seen ++ Cursor.rowsUntil enough seen reads).map f))) ∧
      ((walk false visit (seen.map f) reads).run token).handed =
        ((Cursor.rowsUntil enough seen reads).map f).filterMap item? := by
  intro visit enough
  induction reads generalizing token seen with
  | nil => simp [walk, request, run_reading_andThen, Reply.ending, Cursor.endUntil,
      Cursor.rowsUntil, Job.run]
  | cons r rest ih =>
    have hrequest : request false r = (reading r : Work ι _) := rfl
    simp only [walk, hrequest, run_reading_andThen, Cursor.endUntil, Cursor.rowsUntil]
    cases r.ending with
    | panicked => exact ⟨rfl, rfl⟩
    | stuck => exact ⟨rfl, rfl⟩
    | returned result =>
      match result with
      | .error e => exact ⟨rfl, rfl⟩
      | .ok none => simp [Job.run]
      | .ok (some values) =>
        have hstate : (visit (seen.map f) values).state = (seen ++ [values]).map f := by
          simp [visit, collecting]
        have hstop : (visit (seen.map f) values).stop = enough (seen ++ [values]) := by
          simp [visit, collecting, enough]
        have hitem : (visit (seen.map f) values).item = item? (f values) := rfl
        obtain ⟨hending, hhanded⟩ := ih (r.cancels || token) (seen ++ [values])
        simp only [run_handing, hstate, hstop, hitem, Ending.ok_andThen]
        cases henough : enough (seen ++ [values]) with
        | true => cases hf : item? (f values) <;> simp [Job.run, hf]
        | false =>
          simp only [Bool.false_eq_true, if_false, hending, hhanded]
          cases hf : item? (f values) <;> simp [hf]

/-- Once its first cursor has been used, a query ends as it would with content visitors, and then
with what is kept. -/
theorem ending_follow (kept : Option ρ) (q : Query) (token : Bool) :
    ((follow kept q : Work ι ρ).run token).ending = q.rest.andThen fun _ =>
      match kept with
      | some r => .returned (.ok r)
      | none => .returned (.error noCursor) := by
  induction q generalizing token with
  | finish reply =>
    refine ending_replying_andThen token reply fun _ t => ?_
    cases kept <;> rfl
  | visit lent next ih =>
    have hback (cursor : Cursor) (t : Bool) :
        ((Job.act .lend (.act .giveBack (follow kept (next (.ok ()))) : Work ι ρ)).run t).ending =
          (next (.ok ())).rest.andThen fun _ =>
            match kept with
            | some r => .returned (.ok r)
            | none => .returned (.error noCursor) := ih (.ok ()) t
    rw [Query.rest, follow, ending_replying_andThen token lent hback]
    exact (Ending.andThen_assoc ..).symm

/-- Once its first cursor has been used, a query hands nothing over and reads nothing. -/
theorem seen_follow (kept : Option ρ) (q : Query) (token : Bool) :
    ((follow kept q : Work ι ρ).run token).handed = [] ∧
      ((follow kept q : Work ι ρ).run token).trace.count .read = 0 := by
  induction q generalizing token with
  | finish reply =>
    unfold follow
    rw [run_replying_andThen]
    cases reply.ending with
    | panicked => exact ⟨rfl, rfl⟩
    | stuck => exact ⟨rfl, rfl⟩
    | returned result => cases result <;> cases kept <;> exact ⟨rfl, rfl⟩
  | visit lent next ih =>
    rw [follow, run_replying_andThen]
    cases lent.ending with
    | panicked => exact ⟨rfl, rfl⟩
    | stuck => exact ⟨rfl, rfl⟩
    | returned result =>
      cases result with
      | error e => exact ⟨rfl, rfl⟩
      | ok cursor => simpa [Job.run] using ih (.ok ()) (lent.cancels || token)

/-- What a query hands over and reads is what the use of its first cursor does. -/
theorem seen_withCursor {use : Cursor → Work ι ρ} {P : Cursor → List ι → Nat → Prop}
    (h : ∀ c t, P c ((use c).run t).handed (((use c).run t).trace.count .read)) (q : Query)
    (token : Bool) :
    (q.cursor? = none ∧ ((withCursor use q).run token).handed = [] ∧
        ((withCursor use q).run token).trace.count .read = 0) ∨
      ∃ c, q.cursor? = some c ∧ P c ((withCursor use q).run token).handed
        (((withCursor use q).run token).trace.count .read) := by
  cases q with
  | finish reply =>
    refine .inl ⟨rfl, ?_⟩
    rw [withCursor, run_replying_andThen]
    cases reply.ending with
    | panicked => exact ⟨rfl, rfl⟩
    | stuck => exact ⟨rfl, rfl⟩
    | returned result => cases result <;> exact ⟨rfl, rfl⟩
  | visit lent next =>
    rw [withCursor, run_replying_andThen, Query.cursor?]
    cases lent.ending with
    | panicked => exact .inl ⟨rfl, rfl, rfl⟩
    | stuck => exact .inl ⟨rfl, rfl, rfl⟩
    | returned result =>
      cases result with
      | error e => exact .inl ⟨rfl, rfl, rfl⟩
      | ok cursor =>
        refine .inr ⟨cursor, rfl, ?_⟩
        have hcursor := h cursor (lent.cancels || token)
        simp only [Job.run, Job.run_bind]
        unfold Job.Course.bind
        cases (Job.run (lent.cancels || token) (use cursor)).ending with
        | panicked => simpa using hcursor
        | stuck => simpa using hcursor
        | returned result =>
          cases result with
          | error e =>
            have hrest := seen_follow (ι := ι) (none : Option ρ) (next (.error e))
            simpa [Job.run, hrest] using hcursor
          | ok r =>
            have hrest := seen_follow (ι := ι) (some r) (next (.ok ()))
            simpa [Job.run, hrest] using hcursor

/-- A query ends by how the use of its first cursor ends. -/
theorem ending_withCursor {use : Cursor → Work ι ρ} {x : Cursor → Ending (Except Error ρ)}
    (h : ∀ c t, ((use c).run t).ending = x c) (q : Query) (token : Bool) :
    ((withCursor use q).run token).ending = q.ending x := by
  cases q with
  | finish reply => exact ending_replying_andThen token reply fun _ _ => rfl
  | visit lent next =>
    rw [withCursor, Query.ending]
    refine ending_replying_andThen token lent fun cursor t => ?_
    simp only [Job.run, Job.run_bind]
    unfold Job.Course.bind
    rw [h cursor t]
    cases x cursor with
    | panicked => rfl
    | stuck => rfl
    | returned result =>
      cases result with
      | ok r => exact ending_follow (some r) (next (.ok ())) _
      | error e => exact ending_follow none (next (.error e)) _

end Work

end BoundSql
