import BoundSql.Proofs.Session.Background
import BoundSql.Proofs.Session.Course

/-!
# Background calls that are left alone

As long as nobody cancels the token, a watched cursor refuses nothing, so the job of a background
call takes the course of the blocking one. And as long as the deadline does not pass either, the
caller waits for its worker: whatever steps have been taken, what the call will come to if only the
worker goes on is what its job comes to alone.
-/

namespace BoundSql

namespace Job

variable {σ ι ρ τ : Type}

/-- Jobs between which there is a difference only once the token has been cancelled. -/
inductive Alike (j j' : Job σ ι ρ) : Prop where
  /-- They take the same course. -/
  | same : j.run false = j'.run false → Alike j j'
  /-- Both cancel the token. -/
  | cancelling : (j.run false).token = true → (j'.run false).token = true → Alike j j'

/-- A job is like itself. -/
theorem Alike.refl (j : Job σ ι ρ) : j.Alike j := .same rfl

/-- A token that the first of two jobs leaves cancelled stays so. -/
theorem Course.token_bind {c : Course σ ι ρ} (h : c.token = true) (k : ρ → Job σ ι τ) :
    (c.bind k).token = true := by
  unfold Course.bind
  cases c.ending with
  | panicked => exact h
  | stuck => exact h
  | returned r =>
    rw [h]
    exact token_run_true (k r)

/-- Jobs that are alike, followed by jobs that are alike, are alike. -/
theorem Alike.bind {j j' : Job σ ι ρ} {k k' : ρ → Job σ ι τ} (h : j.Alike j')
    (hk : ∀ r, (k r).Alike (k' r)) : (j.bind k).Alike (j'.bind k') := by
  cases h with
  | cancelling hj hj' =>
    refine .cancelling ?_ ?_
    · rw [run_bind]
      exact Course.token_bind hj k
    · rw [run_bind]
      exact Course.token_bind hj' k'
  | same hrun =>
    have hright : (j'.bind k').run false = (j.run false).bind k' := by rw [run_bind, hrun]
    cases htoken : (j.run false).token with
    | true =>
      refine .cancelling ?_ ?_
      · rw [run_bind]
        exact Course.token_bind htoken k
      · rw [hright]
        exact Course.token_bind htoken k'
    | false =>
      have hleft := run_bind false j k
      unfold Course.bind at hleft hright
      rw [htoken] at hleft hright
      cases hending : (j.run false).ending with
      | panicked =>
        rw [hending] at hleft hright
        exact .same (hleft.trans hright.symm)
      | stuck =>
        rw [hending] at hleft hright
        exact .same (hleft.trans hright.symm)
      | returned r =>
        rw [hending] at hleft hright
        cases hk r with
        | same hnext =>
          simp only [hnext] at hleft
          exact .same (hleft.trans hright.symm)
        | cancelling hr hr' =>
          refine .cancelling ?_ ?_
          · rw [hleft]
            exact hr
          · rw [hright]
            exact hr'

/-- Jobs that are alike stay so behind an action. -/
theorem Alike.act {j j' : Job σ ι ρ} (a : Action σ) (h : j.Alike j') :
    (act a j).Alike (act a j') := by
  cases h with
  | same hrun => exact .same (by simp only [run, hrun])
  | cancelling hj hj' => exact .cancelling hj hj'

/-- Jobs that are alike stay so behind an item. -/
theorem Alike.hand {j j' : Job σ ι ρ} (i : ι) (h : j.Alike j') :
    (hand i j).Alike (hand i j') := by
  cases h with
  | same hrun => exact .same (by simp only [run, hrun])
  | cancelling hj hj' => exact .cancelling hj hj'

end Job

open Job (Ending Course)

namespace Work

variable {ι ρ τ : Type}

/-- Jobs that are alike, with jobs that are alike behind a success, are alike. -/
theorem alike_andThen {j j' : Work ι ρ} {k k' : ρ → Work ι τ} (h : j.Alike j')
    (hk : ∀ r, (k r).Alike (k' r)) : (j.andThen k).Alike (j'.andThen k') := by
  refine h.bind fun result => ?_
  cases result with
  | ok r => exact hk r
  | error e => exact .refl _

/-- Watched or not, a request for a row is the same as long as the token is not cancelled. -/
theorem alike_request (r : Read) : (request true r : Work ι _).Alike (request false r) :=
  .same rfl

/-- Watched or not, a walk is the same as long as the token is not cancelled. -/
theorem alike_walk {ς : Type} (visit : ς → List Value → Visit ς ι) (state : ς)
    (reads : List Read) : (walk true visit state reads).Alike (walk false visit state reads) := by
  induction reads generalizing state with
  | nil => exact alike_andThen (alike_request _) fun _ => .refl _
  | cons r rest ih =>
    refine alike_andThen (alike_request r) fun row => ?_
    cases row with
    | none => exact .refl _
    | some values =>
      have hnext : (if (visit state values).stop then .done (.ok (visit state values).state)
            else walk true visit (visit state values).state rest : Work ι ς).Alike
          (if (visit state values).stop then .done (.ok (visit state values).state)
            else walk false visit (visit state values).state rest) := by
        split
        · exact .refl _
        · exact ih (visit state values).state
      simp only [handing]
      cases (visit state values).item with
      | none => exact hnext
      | some i => exact hnext.hand i

/-- Queries with uses of their first cursor that are alike are alike. -/
theorem alike_withCursor {use use' : Cursor → Work ι ρ} (h : ∀ c, (use c).Alike (use' c))
    (q : Query) : (withCursor use q).Alike (withCursor use' q) := by
  cases q with
  | finish reply => exact .refl _
  | visit lent next =>
    refine alike_andThen (.refl (replying lent)) fun cursor => ?_
    exact ((h cursor).bind fun _ => Job.Alike.refl _).act .lend

end Work

/-- Watched or not, a fetch is the same as long as the token is not cancelled. -/
theorem Fetch.alike_fromCursor (f : Fetch) (engine : Engine) (c : Cursor) :
    (f.fromCursor engine true c).Alike (f.fromCursor engine false c) := by
  have hfirst := Work.alike_request (ι := Item) c.firstRead
  cases f with
  | scalar target => exact Work.alike_andThen hfirst fun _ => .refl _
  | one shape => exact Work.alike_andThen hfirst fun _ => .refl _
  | record => exact Work.alike_andThen hfirst fun _ => .refl _
  | many shape => exact Work.alike_andThen (Work.alike_walk _ _ _) fun _ => .refl _
  | records => exact Work.alike_andThen (Work.alike_walk _ _ _) fun _ => .refl _
  | each shape stop =>
    exact Work.alike_andThen (Work.alike_andThen (Work.alike_walk _ _ _) fun _ => .refl _)
      fun _ => .refl _

/-- The job of a background call is like that of the blocking call. -/
theorem Session.alike_background (s : Session) (op : Operation) (statement : Statement) :
    (s.background op statement).Alike (s.blocking op statement) := by
  refine .act .connect (Work.alike_andThen (.refl _) fun c => ?_)
  have hop : (op.onConnection s.engine true statement c).Alike
      (op.onConnection s.engine false statement c) := by
    cases op with
    | nonQuery => exact .refl _
    | fetch f =>
      exact (Work.alike_withCursor (fun c => f.alike_fromCursor s.engine c) _).act _
  -- a token that is not cancelled lets the call go on with the statement
  cases hop with
  | same hrun => exact .same hrun
  | cancelling hj hj' => exact .cancelling hj hj'

namespace Background

variable {σ ι ρ : Type} {s t u : State σ ι ρ}

/-- What a call comes to when only its worker goes on. -/
def State.outlook (s : State σ ι ρ) : Course σ ι (Except Error ρ) :=
  match s.worker with
  | .running job =>
    let course := job.run s.token
    ⟨course.ending, s.trace ++ course.trace, s.handed ++ course.handed, course.token⟩
  | .returned r => ⟨.returned r, s.trace, s.handed, s.token⟩
  | .panicked => ⟨.panicked, s.trace, s.handed, s.token⟩
  | .idle => ⟨.stuck, s.trace, s.handed, s.token⟩

/-- What a caller that waits gets from a job that comes to its end. -/
def result? : Ending (Except Error ρ) → Option (Except Error ρ)
  | .returned r => some r
  | .panicked => some (.error .join)
  | .stuck => none

/-- A step of the worker does not change what the call comes to. -/
theorem State.outlook_workerStep {job : Job σ ι (Except Error ρ)}
    (hworker : s.worker = .running job) (h : s.workerStep job = some u) :
    u.outlook = s.outlook := by
  unfold State.outlook
  rw [hworker]
  cases job with
  | wait next => cases h
  | act a next =>
    cases h
    simp [Job.run]
  | hand item next =>
    cases h
    simp [Job.run]
  | _ =>
    cases h
    simp [Job.run]

/-- A call whose worker is on a course, and whose caller waits for it or has returned what it came
to. -/
structure OnCourse (c : Course σ ι (Except Error ρ)) (s : State σ ι ρ) : Prop where
  /-- The call comes to what the course says. -/
  outlook_eq : s.outlook = c
  /-- The caller does not interfere. -/
  caller : s.caller = .waiting ∨ ∃ r, s.caller = .returned r ∧ s.worker.result? = some r

/-- A step that neither cancels the token nor lets the deadline pass keeps a call on its course. -/
theorem OnCourse.step {c : Course σ ι (Except Error ρ)} (h : OnCourse c s)
    (hstep : Step s u) (htoken : u.token = false) (hexpired : u.expired = false) :
    OnCourse c u := by
  cases hstep with
  | worker hworker hwork =>
    refine ⟨(State.outlook_workerStep hworker hwork).trans h.outlook_eq, .inl ?_⟩
    rw [(State.workerStep_frame hwork).1]
    refine h.caller.resolve_right fun ⟨r, _, hresult⟩ => ?_
    rw [hworker] at hresult
    cases hresult
  | cancel => cases htoken
  | expire => cases hexpired
  | join hcaller hresult => exact ⟨h.outlook_eq, .inr ⟨_, rfl, hresult⟩⟩
  | noticeCancel _ hcancelled =>
    have hno := hcancelled.symm.trans htoken
    cases hno
  | noticeDeadline _ hpassed _ =>
    have hno := hpassed.symm.trans hexpired
    cases hno
  | idle => exact h
  | interrupt hstopping _ _ | finish hstopping _ =>
    rcases h.caller with hcaller | ⟨r, hcaller, _⟩
    · rw [hstopping] at hcaller
      cases hcaller
    · rw [hstopping] at hcaller
      cases hcaller

/-- Neither a cancellation nor the passing of the deadline is taken back. -/
theorem Step.untouched (h : Step s u) :
    (u.token = false → s.token = false) ∧ (u.expired = false → s.expired = false) := by
  cases h with
  | worker _ hwork =>
    obtain ⟨-, -, hexpired, htoken⟩ := State.workerStep_frame hwork
    refine ⟨fun hu => ?_, fun hu => hexpired ▸ hu⟩
    cases hs : s.token with
    | false => rfl
    | true => exact (htoken hs).symm.trans hu
  | cancel => exact ⟨nofun, id⟩
  | expire => exact ⟨id, nofun⟩
  | _ => exact ⟨id, id⟩

/-- Every state of a call that nobody has cancelled, and whose deadline has not passed, is on the
course of its job. -/
theorem Reachable.onCourse {limit : Option Span} {job : Job σ ι (Except Error ρ)}
    (h : Reachable (State.start false limit job) t) (htoken : t.token = false)
    (hexpired : t.expired = false) : OnCourse (job.run false) t := by
  refine h.keeps (P := fun v => v.token = false → v.expired = false → OnCourse (job.run false) v)
    (fun hv hstep htoken hexpired => ?_) (fun _ _ => ⟨rfl, .inl rfl⟩) htoken hexpired
  obtain ⟨hbefore, hearlier⟩ := hstep.untouched
  exact (hv (hbefore htoken) (hearlier hexpired)).step hstep htoken hexpired

/-- When the worker has ended, the call has come to what its worker has come to. -/
theorem State.outlook_of_ended (h : s.worker.ended = true) :
    result? s.outlook.ending = s.worker.result? ∧ s.outlook.trace = s.trace ∧
      s.outlook.handed = s.handed ∧ s.outlook.token = s.token := by
  unfold State.outlook
  cases hworker : s.worker with
  | running job =>
    rw [hworker] at h
    cases h
  | _ => exact ⟨rfl, rfl, rfl, rfl⟩

/-- A caller that has returned from a call on a course has what the course ends with, and all of the
course has been seen. -/
theorem OnCourse.returned {c : Course σ ι (Except Error ρ)} (h : OnCourse c t)
    {r : Except Error ρ} (hcaller : t.caller = .returned r) :
    result? c.ending = some r ∧ c.trace = t.trace ∧ c.handed = t.handed ∧ c.token = t.token := by
  rcases h.caller with hwaiting | ⟨r', hreturned, hresult⟩
  · rw [hcaller] at hwaiting
    cases hwaiting
  · have hr : r = r' := Caller.returned.inj (hcaller.symm.trans hreturned)
    obtain ⟨hending, hseen⟩ := State.outlook_of_ended (Worker.ended_of_result? hresult)
    rw [h.outlook_eq] at hending hseen
    exact ⟨by rw [hending, hresult, hr], hseen⟩

/-- A worker goes on with a job unless the job waits, and comes closer to the end of it. -/
theorem State.workerStep_progress {job : Job σ ι (Except Error ρ)}
    (hworker : s.worker = .running job) (h : s.outlook.ending ≠ .stuck) :
    ∃ u, s.workerStep job = some u ∧
      (u.worker.ended = true ∨ ∃ next, u.worker = .running next ∧ next.bound < job.bound) := by
  cases job with
  | done r => exact ⟨_, rfl, .inl rfl⟩
  | panic => exact ⟨_, rfl, .inl rfl⟩
  | wait next =>
    rw [State.outlook, hworker] at h
    exact absurd rfl h
  | poll next =>
    refine ⟨_, rfl, .inr ⟨next s.token, rfl, ?_⟩⟩
    simp only [Job.bound]
    cases s.token with
    | true => omega
    | false => omega
  | busy cut next =>
    refine ⟨_, rfl, .inr ⟨next, rfl, ?_⟩⟩
    simp only [Job.bound]
    omega
  | act a next => exact ⟨_, rfl, .inr ⟨next, rfl, Nat.lt_succ_self _⟩⟩
  | publish handle next => exact ⟨_, rfl, .inr ⟨next, rfl, Nat.lt_succ_self _⟩⟩
  | cancel next => exact ⟨_, rfl, .inr ⟨next, rfl, Nat.lt_succ_self _⟩⟩
  | hand item next => exact ⟨_, rfl, .inr ⟨next, rfl, Nat.lt_succ_self _⟩⟩

/-- A caller that waits for a worker that comes to its end, and does not cancel the token, can
return: the worker only has to go on. -/
theorem State.can_return {r : Except Error ρ} (hcaller : s.caller = .waiting)
    (htoken : s.outlook.token = false) (hending : result? s.outlook.ending = some r) :
    ∃ u, Reachable s u ∧ u.token = false ∧ u.expired = s.expired ∧ u.caller = .returned r := by
  have hjoin {v : State σ ι ρ} (hv : v.caller = .waiting) (hended : v.worker.ended = true)
      (hvtoken : v.outlook.token = false) (hvending : result? v.outlook.ending = some r) :
      ∃ u, Reachable v u ∧ u.token = false ∧ u.expired = v.expired ∧ u.caller = .returned r := by
    obtain ⟨hresult, -, -, hsame⟩ := State.outlook_of_ended hended
    have hmove : v.step .join = some { v with caller := .returned r } := by
      simp only [State.step, hv, ← hresult, hvending, Option.map_some]
    exact ⟨_, Reachable.refl.step hmove, hsame.symm.trans hvtoken, rfl, rfl⟩
  cases hworker : s.worker with
  | running job =>
    induction hbound : job.bound using Nat.strongRecOn generalizing s job with
    | ind n ih =>
      have hnotstuck : s.outlook.ending ≠ .stuck := by
        intro hstuck
        rw [hstuck] at hending
        cases hending
      obtain ⟨u, hwork, hnext⟩ := State.workerStep_progress hworker hnotstuck
      have hmove : s.step .worker = some u := by simp only [State.step, hworker, hwork]
      have houtlook := State.outlook_workerStep hworker hwork
      obtain ⟨hsame, -, hexpired, -⟩ := State.workerStep_frame hwork
      have hgo : ∃ v, Reachable u v ∧ v.token = false ∧ v.expired = u.expired ∧
          v.caller = .returned r := by
        rw [← houtlook] at htoken hending
        rcases hnext with hended | ⟨next, hrunning, hless⟩
        · exact hjoin (hsame.trans hcaller) hended htoken hending
        · exact ih next.bound (hbound ▸ hless) (hsame.trans hcaller) htoken hending next hrunning
            rfl
      obtain ⟨v, hreach, hv⟩ := hgo
      exact ⟨v, (Reachable.refl.step hmove).trans hreach, hexpired ▸ hv⟩
  | _ => exact hjoin hcaller (by rw [hworker]; rfl) htoken hending

/-- A call that nobody has cancelled, and whose deadline has not passed, has returned nothing but
what a job like its own ends with alone, has shown the same by then, and can return. -/
theorem Reachable.left_alone {limit : Option Span} {job alone : Job σ ι (Except Error ρ)}
    (halike : job.Alike alone) (h : Reachable (State.start false limit job) t)
    (htoken : t.token = false) (hexpired : t.expired = false) :
    (∀ r, t.caller = .returned r → result? (alone.run false).ending = some r ∧
      (alone.run false).trace = t.trace ∧ (alone.run false).handed = t.handed) ∧
    (∀ r, (alone.run false).token = false → result? (alone.run false).ending = some r →
      ∃ u, Reachable t u ∧ u.token = false ∧ u.expired = false ∧ u.caller = .returned r) := by
  have hcourse := h.onCourse htoken hexpired
  constructor
  · intro r hr
    obtain ⟨hresult, htrace, hhanded, hkept⟩ := hcourse.returned hr
    cases halike with
    | same hrun =>
      rw [hrun] at hresult htrace hhanded
      exact ⟨hresult, htrace, hhanded⟩
    | cancelling hjob _ =>
      have hno := hjob.symm.trans (hkept.trans htoken)
      cases hno
  · intro r hkept hr
    have hrun : job.run false = alone.run false := by
      cases halike with
      | same hrun => exact hrun
      | cancelling _ halone =>
        have hno := halone.symm.trans hkept
        cases hno
    rcases hcourse.caller with hwaiting | ⟨r', hreturned, _⟩
    · rw [← hrun, ← hcourse.outlook_eq] at hkept hr
      obtain ⟨u, hu, hutoken, huexpired, hucaller⟩ := State.can_return hwaiting hkept hr
      exact ⟨u, hu, hutoken, huexpired.trans hexpired, hucaller⟩
    · rw [← hrun] at hr
      have hsame := (hcourse.returned hreturned).1.symm.trans hr
      cases hsame
      exact ⟨t, .refl, htoken, hexpired, hreturned⟩

end Background

end BoundSql
