import BoundSql.Session.Driver

/-!
# A result beside the driver

A query calls its visitor, as often as it likes, and gets no more from it than whether it is
content; the result of a call must come out another way. The visitor has a slot for it: the first
time it uses the cursor that it is lent and keeps what comes of that, and later it does nothing.
When the query is over, an error of it is the result, and otherwise the slot is. A query served by
such a visitor is the same job as the use of its first cursor, and the visitor knows at the end what
was lent and what came of it.
-/

namespace BoundSql

namespace Job

variable {σ ι ρ τ υ : Type}

/-- Jobs follow one another whatever way they are put together. -/
theorem bind_assoc (j : Job σ ι ρ) (k : ρ → Job σ ι τ) (l : τ → Job σ ι υ) :
    (j.bind k).bind l = j.bind fun r => (k r).bind l := by
  induction j with
  | done r => rfl
  | panic => rfl
  | act a next ih => exact congrArg (act a) ih
  | publish h next ih => exact congrArg (publish h) ih
  | poll next ih => exact congrArg poll (funext ih)
  | cancel next ih => exact congrArg cancel ih
  | wait next ih => exact congrArg wait ih
  | busy cut next ihcut ih => simp only [bind, ihcut, ih]
  | hand item next ih => exact congrArg (hand item) ih

/-- The results that a job can come to, whatever a look at the token finds and whatever an interrupt
cuts short. -/
inductive Returns : Job σ ι ρ → ρ → Prop where
  /-- A job that ends. -/
  | done (r : ρ) : Returns (done r) r
  /-- A job that acts. -/
  | act (a : Action σ) {next : Job σ ι ρ} {r : ρ} : Returns next r → Returns (act a next) r
  /-- A job that makes its handle public. -/
  | publish (handle : Bool) {next : Job σ ι ρ} {r : ρ} :
      Returns next r → Returns (publish handle next) r
  /-- A job that looks at the token. -/
  | poll (cancelled : Bool) {next : Bool → Job σ ι ρ} {r : ρ} :
      Returns (next cancelled) r → Returns (poll next) r
  /-- A job that cancels the token. -/
  | cancel {next : Job σ ι ρ} {r : ρ} : Returns next r → Returns (cancel next) r
  /-- A job that an interrupt reaches as it waits. -/
  | wait {next : Job σ ι ρ} {r : ρ} : Returns next r → Returns (wait next) r
  /-- A job that an interrupt cuts short. -/
  | cut {cut next : Job σ ι ρ} {r : ρ} : Returns cut r → Returns (busy cut next) r
  /-- A job that no interrupt cuts short. -/
  | uncut {cut next : Job σ ι ρ} {r : ρ} : Returns next r → Returns (busy cut next) r
  /-- A job that hands over an item. -/
  | hand (item : ι) {next : Job σ ι ρ} {r : ρ} : Returns next r → Returns (hand item next) r

/-- One job after another comes to what the second comes to behind a result of the first. -/
theorem Returns.of_bind {j : Job σ ι ρ} {k : ρ → Job σ ι τ} {t : τ} (h : (j.bind k).Returns t) :
    ∃ r, j.Returns r ∧ (k r).Returns t := by
  induction j with
  | done r => exact ⟨r, .done r, h⟩
  | panic => cases h
  | act a next ih =>
    cases h with
    | act _ h => exact (ih h).imp fun _ => .imp_left (.act a)
  | publish handle next ih =>
    cases h with
    | publish _ h => exact (ih h).imp fun _ => .imp_left (.publish handle)
  | poll next ih =>
    cases h with
    | poll cancelled h => exact (ih cancelled h).imp fun _ => .imp_left (.poll cancelled)
  | cancel next ih =>
    cases h with
    | cancel h => exact (ih h).imp fun _ => .imp_left .cancel
  | wait next ih =>
    cases h with
    | wait h => exact (ih h).imp fun _ => .imp_left .wait
  | busy cut next ihcut ih =>
    cases h with
    | cut h => exact (ihcut h).imp fun _ => .imp_left .cut
    | uncut h => exact (ih h).imp fun _ => .imp_left .uncut
  | hand item next ih =>
    cases h with
    | hand _ h => exact (ih h).imp fun _ => .imp_left (.hand item)

end Job

/-- Serves a query with a visitor, which has a state and answers for every cursor that it is lent.
The query goes on by the answers; a query that gets no cursor ends. -/
def Query.serve {σ ι : Type} (visitor : σ → Cursor → Job Statement ι (Except Error Unit × σ))
    (state : σ) : Query → Job Statement ι (Except Error Unit × σ)
  | .finish reply => (Work.replying reply).bind fun returned => .done (returned, state)
  | .visit lent next => (Work.replying lent).bind fun
    | .ok cursor => .act .lend ((visitor state cursor).bind fun (answer, state) =>
      .act .giveBack (serve visitor state (next answer)))
    | .error e => .done (.error e, state)

/-- What the visitor of a call knows. -/
structure Visitor (ρ : Type) where
  /-- The cursors that it was lent. -/
  lent : List Cursor
  /-- What it used, with what came of that. -/
  uses : List (Cursor × Except Error ρ)
  /-- Whether it has not used a cursor yet. -/
  ready : Bool
  /-- The slot. -/
  slot : Option ρ

namespace Visitor

variable {ι ρ : Type}

/-- A visitor that was lent nothing. -/
def fresh : Visitor ρ := ⟨[], [], true, none⟩

/-- Uses the first cursor, keeps the result and passes a failure on; is content with the others. -/
def visit (use : Cursor → Work ι ρ) (v : Visitor ρ) (c : Cursor) :
    Job Statement ι (Except Error Unit × Visitor ρ) :=
  if v.ready then
    (use c).bind fun
      | .ok r => .done (.ok (), ⟨v.lent ++ [c], v.uses ++ [(c, .ok r)], false, some r⟩)
      | .error e => .done (.error e, ⟨v.lent ++ [c], v.uses ++ [(c, .error e)], false, v.slot⟩)
  else
    .done (.ok (), { v with lent := v.lent ++ [c] })

/-- The result of the call once the query has returned. -/
def result (v : Visitor ρ) : Except Error Unit → Except Error ρ
  | .error e => .error e
  | .ok () =>
    match v.slot with
    | some r => .ok r
    | none => .error Work.noCursor

/-- What a visitor can know: nothing yet, or that it used the first cursor, with what came of
that in its slot. -/
inductive Sound (use : Cursor → Work ι ρ) : Visitor ρ → Prop where
  /-- It was lent nothing. -/
  | fresh : Sound use fresh
  /-- It used the first cursor. -/
  | used (c : Cursor) (rest : List Cursor) {result : Except Error ρ} : (use c).Returns result →
      Sound use ⟨c :: rest, [(c, result)], false, result.toOption⟩

variable {use : Cursor → Work ι ρ} {v w : Visitor ρ}

/-- A visit keeps a visitor sound. -/
theorem Sound.visit (h : v.Sound use) {c : Cursor} {answer : Except Error Unit}
    (hvisit : (v.visit use c).Returns (answer, w)) : w.Sound use := by
  cases h with
  | fresh =>
    obtain ⟨result, hresult, hdone⟩ := Job.Returns.of_bind hvisit
    cases result with
    | ok r =>
      cases hdone
      exact .used c [] hresult
    | error e =>
      cases hdone
      exact .used c [] hresult
  | used c' rest hresult =>
    cases hvisit
    exact .used c' (rest ++ [c]) hresult

/-- Whatever a query does, the visitor that has served it is sound. -/
theorem Sound.serve (h : v.Sound use) {q : Query} {returned : Except Error Unit}
    (hserve : (q.serve (Visitor.visit use) v).Returns (returned, w)) : w.Sound use := by
  induction q generalizing v with
  | finish reply =>
    rw [Query.serve] at hserve
    obtain ⟨_, _, hdone⟩ := Job.Returns.of_bind hserve
    cases hdone
    exact h
  | visit lent next ih =>
    rw [Query.serve] at hserve
    obtain ⟨lent, _, hlent⟩ := Job.Returns.of_bind hserve
    cases lent with
    | error e =>
      cases hlent
      exact h
    | ok cursor =>
      cases hlent with
      | act _ hlent =>
        obtain ⟨⟨answer, u⟩, hvisit, hback⟩ := Job.Returns.of_bind hlent
        cases hback with
        | act _ hrest => exact ih answer (h.visit hvisit) hrest

/-- A sound visitor has used the first cursor that it was lent, and no other. -/
theorem Sound.uses_eq (h : v.Sound use) : v.uses.map Prod.fst = v.lent.take 1 := by
  cases h with
  | fresh => rfl
  | used c rest hresult => rfl

/-- What a sound visitor knows of a use is what that came to. -/
theorem Sound.returns_of_mem (h : v.Sound use) {c : Cursor} {result : Except Error ρ}
    (hmem : (c, result) ∈ v.uses) : (use c).Returns result := by
  cases h with
  | fresh => cases hmem
  | used c' rest hresult =>
    cases List.mem_singleton.mp hmem
    exact hresult

/-- The slot of a sound visitor has a result just when the use of the first cursor succeeded. -/
theorem Sound.slot_eq_some_iff (h : v.Sound use) {r : ρ} :
    v.slot = some r ↔ ∃ c, v.lent.head? = some c ∧ v.uses = [(c, .ok r)] := by
  cases h with
  | fresh => exact ⟨nofun, nofun⟩
  | used c rest hresult =>
    rename_i result
    cases result with
    | error e => exact ⟨nofun, nofun⟩
    | ok r' =>
      constructor
      · intro hslot
        cases hslot
        exact ⟨c, rfl, rfl⟩
      · rintro ⟨_, _, huses⟩
        cases huses
        rfl

/-- The result of a call is a success only when the query succeeded and the slot has it. -/
theorem result_eq_ok_iff {returned : Except Error Unit} {r : ρ} :
    v.result returned = .ok r ↔ returned = .ok () ∧ v.slot = some r := by
  cases returned with
  | error e => exact ⟨nofun, nofun⟩
  | ok _ =>
    cases hslot : v.slot with
    | none => simp [result, hslot]
    | some r' => simp [result, hslot]

end Visitor

namespace Work

variable {ι ρ : Type} (use : Cursor → Work ι ρ)

/-- Once its first cursor has been used, following a query is serving it. -/
theorem follow_eq_serve (v : Visitor ρ) (hv : v.ready = false) (q : Query) :
    follow v.slot q = (q.serve (Visitor.visit use) v).map fun p => p.2.result p.1 := by
  induction q generalizing v with
  | finish reply =>
    unfold follow
    rw [Query.serve, Job.map, Job.bind_assoc, andThen]
    congr 1
    funext returned
    cases returned with
    | error e => rfl
    | ok _ =>
      simp only [Job.bind, Visitor.result]
      cases v.slot <;> rfl
  | visit lent next ih =>
    rw [follow, Query.serve, Job.map, Job.bind_assoc, andThen]
    congr 1
    funext lent
    cases lent with
    | error e => rfl
    | ok cursor =>
      -- a further cursor changes nothing but what was lent
      have hrest := ih (.ok ()) { v with lent := v.lent ++ [cursor] } hv
      simp only [Job.bind, Visitor.visit, hv, Bool.false_eq_true, if_false]
      refine congrArg (fun j => Job.act .lend (.act .giveBack j)) ?_
      rw [hrest, hv, Job.map]

/-- Using the first cursor of a query is serving it. -/
theorem withCursor_eq_serve (q : Query) :
    withCursor use q = (q.serve (Visitor.visit use) .fresh).map fun p => p.2.result p.1 := by
  cases q with
  | finish reply =>
    rw [withCursor, Query.serve, Job.map, Job.bind_assoc, andThen]
    congr 1
    funext returned
    cases returned <;> rfl
  | visit lent next =>
    rw [withCursor, Query.serve, Job.map, Job.bind_assoc, andThen]
    congr 1
    funext lent
    cases lent with
    | error e => rfl
    | ok cursor =>
      simp only [Job.bind, Visitor.visit, Visitor.fresh, if_true, Job.bind_assoc]
      congr 2
      funext result
      -- the slot is as the use has left it, and the visitor is done
      cases result with
      | ok r =>
        exact congrArg (Job.act .giveBack)
          (follow_eq_serve use ⟨[cursor], [(cursor, .ok r)], false, some r⟩ rfl (next (.ok ())))
      | error e =>
        exact congrArg (Job.act .giveBack)
          (follow_eq_serve use ⟨[cursor], [(cursor, .error e)], false, none⟩ rfl (next (.error e)))

/-- The use of the first cursor of a query, whatever the query does: however often it calls its
visitor and with whatever cursors, whether it goes by the answers or not, and however it returns.
The job is that of serving the query with a visitor that keeps its result in a slot. Whenever the
query returns, the visitor has used the first cursor that it was lent, if there is one, and no
other. The call succeeds just when the query does and the one use has succeeded, with the result of
that; it fails with the error of the query where there is one, even behind a use that has succeeded;
and when the query succeeds although the use has failed or has never been, it fails for want of a
cursor. -/
theorem withCursor_exact (q : Query) :
    let served := q.serve (Visitor.visit use) .fresh
    (withCursor use q = served.map fun p => p.2.result p.1) ∧
    ∀ returned v, served.Returns (returned, v) →
      v.uses.map Prod.fst = v.lent.take 1 ∧
      (∀ c result, (c, result) ∈ v.uses → (use c).Returns result) ∧
      (∀ r, v.result returned = .ok r ↔
        returned = .ok () ∧ ∃ c, v.lent.head? = some c ∧ v.uses = [(c, .ok r)]) ∧
      (∀ e, returned = .error e → v.result returned = .error e) ∧
      (returned = .ok () → (∀ c r, v.uses ≠ [(c, .ok r)]) →
        v.result returned = .error (.driver "The driver returned without a cursor")) := by
  intro served
  refine ⟨withCursor_eq_serve use q, fun returned v hserve => ?_⟩
  have hsound : v.Sound use := Visitor.Sound.fresh.serve hserve
  refine ⟨hsound.uses_eq, fun c result hmem => hsound.returns_of_mem hmem, fun r => ?_, ?_, ?_⟩
  · rw [Visitor.result_eq_ok_iff, hsound.slot_eq_some_iff]
  · rintro e rfl
    rfl
  · rintro rfl hnever
    cases hslot : v.slot with
    | none => simp only [Visitor.result, hslot, noCursor]
    | some r =>
      obtain ⟨c, -, huses⟩ := hsound.slot_eq_some_iff.mp hslot
      exact absurd huses (hnever c r)

/-- A query that does not go by the answer succeeds behind a use that has failed, and the call fails
all the same; and one that fails late fails the call behind a use that has succeeded. -/
theorem withCursor_exact_heedless :
    let c : Cursor := ⟨["Name"], []⟩
    let e : Error := .driver "broken"
    let heedless : Query := .visit (.value c) fun _ => .finish (.value ())
    let late : Query := .visit (.value c) fun _ => .finish (.fail e)
    let failing (_ : Cursor) : Work Unit Unit := .done (.error e)
    let content (_ : Cursor) : Work Unit Unit := .done (.ok ())
    (heedless.serve (Visitor.visit failing) .fresh).Returns
        (.ok (), ⟨[c], [(c, .error e)], false, none⟩) ∧
      (⟨[c], [(c, .error e)], false, none⟩ : Visitor Unit).result (.ok ()) =
        .error (.driver "The driver returned without a cursor") ∧
      (late.serve (Visitor.visit content) .fresh).Returns
        (.error e, ⟨[c], [(c, .ok ())], false, some ()⟩) ∧
      (⟨[c], [(c, .ok ())], false, some ()⟩ : Visitor Unit).result (.error e) = .error e := by
  intro c e heedless late failing content
  have hheedless : (heedless.serve (Visitor.visit failing) .fresh).Returns
      (.ok (), ⟨[c], [(c, .error e)], false, none⟩) := by
    simp only [heedless, failing, Query.serve, replying, Job.bind, Visitor.visit, Visitor.fresh,
      if_true, List.nil_append]
    exact .act .lend (.act .giveBack (.done _))
  have hlate : (late.serve (Visitor.visit content) .fresh).Returns
      (.error e, ⟨[c], [(c, .ok ())], false, some ()⟩) := by
    simp only [late, content, Query.serve, replying, Job.bind, Visitor.visit, Visitor.fresh,
      if_true, List.nil_append]
    exact .act .lend (.act .giveBack (.done _))
  obtain ⟨-, -, -, -, hwant⟩ := (withCursor_exact failing heedless).2 _ _ hheedless
  obtain ⟨-, -, -, hpassed, -⟩ := (withCursor_exact content late).2 _ _ hlate
  exact ⟨hheedless, hwant rfl (fun _ _ => nofun), hlate, hpassed e rfl⟩

end Work

end BoundSql
