import BoundSql.Proofs.Session.CancelToken
import BoundSql.Session.Background
import BoundSql.Session.Operation
import BoundSql.Session.Script

/-!
# Background calls are safe

Worker, caller, cancellation and deadline take their steps in any order. What one step can do is
said once; from it follows what holds in every state. A caller that stops has a reason for it, and
a caller that is gone has left no worker behind, so nothing happens any more. Before its statement
starts, the job of a call looks at the token, and it ends there when the token is cancelled.
-/

namespace BoundSql

/-- Whether a step starts a statement. -/
def Action.starts {σ : Type} : Action σ → Bool
  | .execute _ => true
  | .query _ => true
  | _ => false

/-- Jobs that look at the token between connecting and starting a statement: when it is cancelled
they end there, and when it is not they start a statement next. The mark says whether a connection
has been opened. -/
def Job.Guarded {σ ι ρ : Type} : Prop → Job σ ι (Except Error ρ) → Prop
  | _, .done _ => True
  | _, .panic => True
  | connected, .act a next => a.starts = false ∧ next.Guarded (connected ∨ a = .connect)
  | connected, .publish _ next => next.Guarded connected
  | connected, .poll next => connected ∧ next true = .done (.error .cancelled) ∧
      ∃ a rest, next false = .act a rest ∧ a.starts = true
  | connected, .cancel next => next.Guarded connected
  | connected, .wait next => next.Guarded connected
  | connected, .busy cut next => cut.Guarded connected ∧ next.Guarded connected
  | connected, .hand _ next => next.Guarded connected

/-- An interrupt leaves a guarded job guarded. -/
theorem Job.Guarded.interrupted {σ ι ρ : Type} {connected : Prop} {j : Job σ ι (Except Error ρ)}
    (h : j.Guarded connected) : j.interrupted.Guarded connected := by
  cases j with
  | wait next => exact h
  | busy cut next => exact h.1
  | _ => exact h

/-- A reply is waited for without starting anything. -/
theorem Work.guarded_replying_andThen {α ι ρ : Type} {connected : Prop} (r : Reply α)
    {k : α → Work ι ρ} (h : ∀ a, (k a).Guarded connected) :
    ((Work.replying r).andThen k).Guarded connected := by
  induction r with
  | value result => exact h result
  | fail e => trivial
  | panic => trivial
  | block e => trivial
  | slow e next ih => exact ⟨trivial, ih⟩
  | cancelling next ih => exact ih

/-- The job of a background call looks at the token once it has connected, and starts its statement
only then. -/
theorem Session.guarded_background (s : Session) (op : Operation) (statement : Statement)
    (connected : Prop) : (s.background op statement).Guarded connected := by
  refine ⟨rfl, Work.guarded_replying_andThen _ fun c => ⟨.inr rfl, rfl, ?_⟩⟩
  cases op with
  | nonQuery => exact ⟨_, _, rfl, rfl⟩
  | fetch f => exact ⟨_, _, rfl, rfl⟩

/-- What lets a call stop before its job has ended: a cancelled token, or a deadline that has
passed. -/
inductive Justified (token : Bool) (limit : Option Span) (expired : Bool) : Error → Prop where
  /-- The token is cancelled. -/
  | cancelled : token = true → Justified token limit expired .cancelled
  /-- The deadline has passed. -/
  | timeout {length : Span} :
      limit = some length → expired = true → Justified token limit expired (.timeout length)

/-- A reason to stop stays one. -/
theorem Justified.mono {token token' expired expired' : Bool} {limit : Option Span} {e : Error}
    (h : Justified token limit expired e) (htoken : token = true → token' = true)
    (hexpired : expired = true → expired' = true) : Justified token' limit expired' e := by
  cases h with
  | cancelled hcancelled => exact .cancelled (htoken hcancelled)
  | timeout hlimit hpassed => exact .timeout hlimit (hexpired hpassed)

namespace Background

variable {σ ι ρ : Type} {s t u : State σ ι ρ}

/-- What can happen in one step. -/
inductive Step (s : State σ ι ρ) : State σ ι ρ → Prop where
  /-- The worker goes on with its job. -/
  | worker {job : Job σ ι (Except Error ρ)} {u : State σ ι ρ} :
      s.worker = .running job → s.workerStep job = some u → Step s u
  /-- Somebody cancels the token. -/
  | cancel : Step s { s with token := true }
  /-- The time limit runs out. -/
  | expire : Step s { s with expired := true }
  /-- The caller takes over what the worker came to. -/
  | join {r : Except Error ρ} :
      s.caller = .waiting → s.worker.result? = some r → Step s { s with caller := .returned r }
  /-- The caller finds the token cancelled. -/
  | noticeCancel :
      s.caller = .waiting → s.token = true → Step s { s with caller := .stopping .cancelled }
  /-- The caller finds the deadline passed. -/
  | noticeDeadline {limit : Span} :
      s.caller = .waiting → s.expired = true → s.limit = some limit →
        Step s { s with caller := .stopping (.timeout limit) }
  /-- An interrupt reaches the worker. -/
  | interrupt {reason : Error} {job : Job σ ι (Except Error ρ)} :
      s.caller = .stopping reason → s.handle = true → s.worker = .running job →
        Step s { s with worker := .running job.interrupted }
  /-- An interrupt reaches nobody. -/
  | idle : Step s s
  /-- The caller finds the worker ended after interrupting it. -/
  | finish {reason : Error} :
      s.caller = .stopping reason → s.worker.ended = true →
        Step s { s with caller := .returned (.error reason) }

/-- Every step is one of those. -/
theorem State.step_cases {m : Move} (h : s.step m = some u) : Step s u := by
  cases m with
  | worker =>
    simp only [State.step] at h
    split at h
    · rename_i job hworker
      exact .worker hworker h
    · cases h
  | cancel =>
    cases h
    exact .cancel
  | expire =>
    obtain ⟨limit, hlimit, rfl⟩ := Option.map_eq_some_iff.mp h
    exact .expire
  | join =>
    simp only [State.step] at h
    split at h
    · rename_i hcaller
      obtain ⟨r, hresult, rfl⟩ := Option.map_eq_some_iff.mp h
      exact .join hcaller hresult
    · cases h
  | noticeCancel =>
    simp only [State.step] at h
    split at h
    · rename_i hcaller htoken
      cases h
      exact .noticeCancel hcaller htoken
    · cases h
  | noticeDeadline =>
    simp only [State.step] at h
    split at h
    · rename_i limit hcaller hexpired hlimit
      cases h
      exact .noticeDeadline hcaller hexpired hlimit
    · cases h
  | interrupt =>
    simp only [State.step] at h
    split at h
    · rename_i reason job hcaller hhandle hworker
      cases h
      exact .interrupt hcaller hhandle hworker
    · cases h
      exact .idle
    · cases h
  | finish =>
    simp only [State.step] at h
    split at h
    · rename_i reason hcaller
      split at h
      · rename_i hended
        cases h
        exact .finish hcaller hended
      · cases h
    · cases h

/-- What every step keeps holds in every state that is reached from one where it holds. -/
theorem Reachable.keeps {P : State σ ι ρ → Prop} (hstep : ∀ {s u}, P s → Step s u → P u)
    (h : Reachable s t) (hs : P s) : P t := by
  induction h with
  | refl => exact hs
  | step _ hmove ih => exact hstep ih (State.step_cases hmove)

/-- The worker leaves caller, limit and deadline alone, and never takes a cancellation back. -/
theorem State.workerStep_frame {job : Job σ ι (Except Error ρ)} (h : s.workerStep job = some u) :
    u.caller = s.caller ∧ u.limit = s.limit ∧ u.expired = s.expired ∧
      (s.token = true → u.token = true) := by
  cases job with
  | wait next => cases h
  | cancel next =>
    cases h
    exact ⟨rfl, rfl, rfl, fun _ => rfl⟩
  | _ =>
    cases h
    exact ⟨rfl, rfl, rfl, id⟩

/-! ## Why and when the caller returns -/

/-- Where a caller can stand. -/
structure Sound (limit : Option Span) (s : State σ ι ρ) : Prop where
  /-- The limit is that of the call. -/
  limit_eq : s.limit = limit
  /-- A caller that stops has a reason. -/
  stopping : ∀ {reason}, s.caller = .stopping reason →
    Justified s.token limit s.expired reason
  /-- A caller that is gone has left no worker behind. -/
  ended : ∀ {r}, s.caller = .returned r → s.worker.ended = true
  /-- A caller returns what the worker came to, or the reason for which it stopped. -/
  returned : ∀ {r}, s.caller = .returned r →
    s.worker.result? = some r ∨
      ∃ reason, Justified s.token limit s.expired reason ∧ r = .error reason

/-- A worker that has come to something has ended. -/
theorem Worker.ended_of_result? {w : Worker σ ι ρ} {r : Except Error ρ} (h : w.result? = some r) :
    w.ended = true := by
  cases w with
  | running job => cases h
  | _ => rfl

/-- A call begins soundly: with its token cancelled it is over for that reason. -/
theorem sound_start (token : Bool) (limit : Option Span) (job : Job σ ι (Except Error ρ)) :
    Sound limit (State.start token limit job) := by
  cases token with
  | false => exact ⟨rfl, nofun, nofun, nofun⟩
  | true =>
    refine ⟨rfl, nofun, fun _ => rfl, fun hreturned => .inr ⟨.cancelled, .cancelled rfl, ?_⟩⟩
    cases hreturned
    rfl

/-- Every step keeps a call sound. -/
theorem Sound.step {limit : Option Span} (h : Sound limit s) (hstep : Step s u) :
    Sound limit u := by
  cases hstep with
  | @worker job _ hworker hwork =>
    obtain ⟨hcaller, hlimit, hexpired, htoken⟩ := State.workerStep_frame hwork
    have hgone {r} (hreturned : u.caller = .returned r) : False := by
      have hended := h.ended (hcaller ▸ hreturned)
      rw [hworker] at hended
      cases hended
    refine ⟨hlimit.trans h.limit_eq, fun hstopping => ?_, fun hr => (hgone hr).elim,
      fun hr => (hgone hr).elim⟩
    exact (h.stopping (hcaller ▸ hstopping)).mono htoken fun hpassed => hexpired ▸ hpassed
  | cancel =>
    have hmono {e} (he : Justified s.token limit s.expired e) : Justified true limit s.expired e :=
      he.mono (fun _ => rfl) id
    exact ⟨h.limit_eq, fun hr => hmono (h.stopping hr), h.ended,
      fun hr => (h.returned hr).imp id fun ⟨e, he, heq⟩ => ⟨e, hmono he, heq⟩⟩
  | expire =>
    have hmono {e} (he : Justified s.token limit s.expired e) : Justified s.token limit true e :=
      he.mono id fun _ => rfl
    exact ⟨h.limit_eq, fun hr => hmono (h.stopping hr), h.ended,
      fun hr => (h.returned hr).imp id fun ⟨e, he, heq⟩ => ⟨e, hmono he, heq⟩⟩
  | join hcaller hresult =>
    refine ⟨h.limit_eq, nofun, fun _ => Worker.ended_of_result? hresult, fun hr => .inl ?_⟩
    cases hr
    exact hresult
  | noticeCancel hcaller htoken =>
    refine ⟨h.limit_eq, fun hr => ?_, nofun, nofun⟩
    cases hr
    exact .cancelled htoken
  | noticeDeadline hcaller hexpired hlimit =>
    refine ⟨h.limit_eq, fun hr => ?_, nofun, nofun⟩
    cases hr
    exact .timeout (h.limit_eq.symm.trans hlimit) hexpired
  | interrupt hcaller hhandle hworker =>
    have hgone {r} (hreturned : s.caller = .returned r) : False := by
      rw [hcaller] at hreturned
      cases hreturned
    exact ⟨h.limit_eq, h.stopping, fun hr => (hgone hr).elim, fun hr => (hgone hr).elim⟩
  | idle => exact h
  | @finish reason hcaller hended =>
    refine ⟨h.limit_eq, nofun, fun _ => hended, fun hr => .inr ⟨reason, h.stopping hcaller, ?_⟩⟩
    cases hr
    rfl

/-- Every state of a call is sound. -/
theorem Reachable.sound {token : Bool} {limit : Option Span} {job : Job σ ι (Except Error ρ)}
    (h : Reachable (State.start token limit job) t) : Sound limit t :=
  h.keeps Sound.step (sound_start token limit job)

/-- Nothing but the token and the clock moves once the worker has ended and the caller is gone. -/
theorem Reachable.still {r : Except Error ρ} (h : Reachable t u) (hcaller : t.caller = .returned r)
    (hended : t.worker.ended = true) :
    u.worker = t.worker ∧ u.caller = t.caller ∧ u.trace = t.trace ∧ u.handed = t.handed := by
  refine h.keeps (P := fun v => v.worker = t.worker ∧ v.caller = t.caller ∧ v.trace = t.trace ∧
    v.handed = t.handed) (fun {v w} hv hstep => ?_) ⟨rfl, rfl, rfl, rfl⟩
  obtain ⟨hvworker, hvcaller, hvtrace, hvhanded⟩ := hv
  have hvreturned : v.caller = .returned r := hvcaller.trans hcaller
  have hvended : v.worker.ended = true := hvworker ▸ hended
  cases hstep with
  | worker hworker _ =>
    rw [hworker] at hvended
    cases hvended
  | cancel => exact ⟨hvworker, hvcaller, hvtrace, hvhanded⟩
  | expire => exact ⟨hvworker, hvcaller, hvtrace, hvhanded⟩
  | idle => exact ⟨hvworker, hvcaller, hvtrace, hvhanded⟩
  | join hwaiting _ | noticeCancel hwaiting _ | noticeDeadline hwaiting _ _ =>
    rw [hvreturned] at hwaiting
    cases hwaiting
  | interrupt hstopping _ _ | finish hstopping _ =>
    rw [hvreturned] at hstopping
    cases hstopping

/-! ## Before the statement starts -/

/-- One order of steps after another. -/
theorem Reachable.trans (h : Reachable s t) (h' : Reachable t u) : Reachable s u := by
  induction h' with
  | refl => exact h
  | step _ hmove ih => exact ih.step hmove

/-- No statement has started. -/
def State.Quiet (s : State σ ι ρ) : Prop :=
  ∀ a ∈ s.trace, a.starts = false

/-- On the way from one state to another the worker has looked at the token, with a connection but
before any statement started, and has not found it cancelled. -/
def Admitted (s t : State σ ι ρ) : Prop :=
  ∃ v next, Reachable s v ∧ Reachable v t ∧ v.worker = .running (.poll next) ∧ v.token = false ∧
    v.Quiet ∧ .connect ∈ v.trace

/-- Whoever has been admitted stays so. -/
theorem Admitted.trans (h : Admitted s t) (h' : Reachable t u) : Admitted s u := by
  obtain ⟨v, next, hbefore, hafter, hlook⟩ := h
  exact ⟨v, next, hbefore, hafter.trans h', hlook⟩

/-- How far a worker has come on the way to its statement. -/
inductive Stage (s t : State σ ι ρ) : Prop where
  /-- It has not looked at the token yet, or has ended without a statement. -/
  | entering : t.Quiet →
      (∀ {job}, t.worker = .running job → job.Guarded (.connect ∈ t.trace)) → Stage s t
  /-- It starts a statement next. -/
  | admitted {a : Action σ} {rest : Job σ ι (Except Error ρ)} :
      Admitted s t → t.worker = .running (.act a rest) → a.starts = true → Stage s t
  /-- A statement has started. -/
  | started {a : Action σ} : Admitted s t → a ∈ t.trace → a.starts = true → Stage s t

/-- Whatever a database has seen stays seen. -/
theorem State.workerStep_trace {job : Job σ ι (Except Error ρ)} (h : s.workerStep job = some u)
    {a : Action σ} (ha : a ∈ s.trace) : a ∈ u.trace := by
  cases job with
  | wait next => cases h
  | act b next =>
    cases h
    exact List.mem_append_left _ ha
  | _ =>
    cases h
    exact ha

/-- A worker that has not looked at the token yet goes on without a statement, until it looks. -/
theorem Stage.workerStep {s₀ : State σ ι ρ} {job : Job σ ι (Except Error ρ)}
    (hreach : Reachable s₀ s) (hnext : Reachable s u) (hquiet : s.Quiet)
    (hworker : s.worker = .running job) (hguarded : job.Guarded (.connect ∈ s.trace))
    (hstep : s.workerStep job = some u) : Stage s₀ u := by
  cases job with
  | done r =>
    cases hstep
    exact .entering hquiet nofun
  | panic =>
    cases hstep
    exact .entering hquiet nofun
  | wait next => cases hstep
  | act a next =>
    cases hstep
    obtain ⟨ha, hrest⟩ := hguarded
    refine .entering (fun b hb => ?_) fun hrunning => ?_
    · rcases List.mem_append.mp hb with hb | hb
      · exact hquiet b hb
      · rwa [List.mem_singleton.mp hb]
    · cases hrunning
      have hconnected : (.connect ∈ s.trace ∨ a = .connect) = (.connect ∈ s.trace ++ [a]) := by
        rw [List.mem_append, List.mem_singleton, eq_comm (a := a)]
      rwa [hconnected] at hrest
  | poll next =>
    obtain ⟨hconnected, htrue, a, rest, hfalse, ha⟩ := hguarded
    cases hstep
    cases htoken : s.token with
    | true =>
      refine .entering hquiet fun hrunning => ?_
      cases hrunning
      rw [htrue]
      trivial
    | false =>
      rw [htoken] at hnext
      exact .admitted ⟨s, next, hreach, hnext, hworker, htoken, hquiet, hconnected⟩
        (congrArg Worker.running hfalse) ha
  | busy cut next =>
    cases hstep
    refine .entering hquiet fun hrunning => ?_
    cases hrunning
    exact hguarded.2
  | publish _ next | cancel next | hand _ next =>
    cases hstep
    refine .entering hquiet fun hrunning => ?_
    cases hrunning
    exact hguarded

/-- Every step leads from one stage to the same or the next. -/
theorem Stage.step {s₀ : State σ ι ρ} {m : Move} (hreach : Reachable s₀ s) (h : Stage s₀ s)
    (hmove : s.step m = some u) : Stage s₀ u := by
  have hnext : Reachable s u := Reachable.refl.step hmove
  cases h with
  | entering hquiet hguarded =>
    cases State.step_cases hmove with
    | worker hworker hwork =>
      exact .workerStep hreach hnext hquiet hworker (hguarded hworker) hwork
    | interrupt _ _ hworker =>
      refine .entering hquiet fun hrunning => ?_
      cases hrunning
      exact (hguarded hworker).interrupted
    | _ => exact .entering hquiet hguarded
  | @admitted a rest hadmitted hact ha =>
    have hlater := hadmitted.trans hnext
    cases State.step_cases hmove with
    | worker hworker hwork =>
      rw [hact] at hworker
      cases hworker
      cases hwork
      exact .started hlater (List.mem_append_right _ List.mem_cons_self) ha
    | interrupt _ _ hworker =>
      rw [hact] at hworker
      cases hworker
      exact .admitted hlater rfl ha
    | _ => exact .admitted hlater hact ha
  | started hadmitted hmem ha =>
    have hlater := hadmitted.trans hnext
    cases State.step_cases hmove with
    | worker _ hwork => exact .started hlater (State.workerStep_trace hwork hmem) ha
    | _ => exact .started hlater hmem ha

/-- Every state of a call with a guarded job is at one of the stages. -/
theorem Reachable.stage {token : Bool} {limit : Option Span} {job : Job σ ι (Except Error ρ)}
    (hguarded : ∀ connected, job.Guarded connected)
    (h : Reachable (State.start token limit job) t) : Stage (State.start token limit job) t := by
  induction h with
  | refl =>
    cases token with
    | true => exact .entering nofun nofun
    | false =>
      refine .entering nofun fun hrunning => ?_
      cases hrunning
      exact hguarded _
  | step hreach hmove ih => exact ih.step hreach hmove

/-- A worker that is about to end as cancelled comes to nothing else and does nothing more. -/
theorem Reachable.never_starts {next : Bool → Job σ ι (Except Error ρ)} (h : Reachable t u)
    (hworker : t.worker = .running (.poll next)) (htoken : t.token = true)
    (hend : next true = .done (.error .cancelled)) :
    u.trace = t.trace ∧ (u.worker.ended = true → u.worker = .returned (.error .cancelled)) := by
  have hkept := h.keeps (P := fun v => v.token = true ∧ v.trace = t.trace ∧
    (v.worker = .running (.poll next) ∨ v.worker = .running (.done (.error .cancelled)) ∨
      v.worker = .returned (.error .cancelled))) (fun {v w} hv hstep => ?_)
    ⟨htoken, rfl, .inl hworker⟩
  · obtain ⟨-, htrace, hu⟩ := hkept
    refine ⟨htrace, fun hended => ?_⟩
    rcases hu with hu | hu | hu
    · rw [hu] at hended
      cases hended
    · rw [hu] at hended
      cases hended
    · exact hu
  · obtain ⟨hvtoken, hvtrace, hv⟩ := hv
    cases hstep with
    | worker hrunning hwork =>
      rcases hv with hv | hv | hv
      · rw [hv] at hrunning
        cases hrunning
        cases hwork
        exact ⟨hvtoken, hvtrace, .inr (.inl (by rw [hvtoken, hend]))⟩
      · rw [hv] at hrunning
        cases hrunning
        cases hwork
        exact ⟨hvtoken, hvtrace, .inr (.inr rfl)⟩
      · rw [hv] at hrunning
        cases hrunning
    | cancel => exact ⟨rfl, hvtrace, hv⟩
    | interrupt _ _ hrunning =>
      refine ⟨hvtoken, hvtrace, ?_⟩
      rcases hv with hv | hv | hv
      · rw [hv] at hrunning
        cases hrunning
        exact .inl rfl
      · rw [hv] at hrunning
        cases hrunning
        exact .inr (.inl rfl)
      · rw [hv] at hrunning
        cases hrunning
    | _ => exact ⟨hvtoken, hvtrace, hv⟩

/-! ## Background calls -/

/-- A run of moves leads to a state that can be reached. -/
theorem State.reachable_run (s : State σ ι ρ) (moves : List Move) : Reachable s (s.run moves) :=
  Turn.run_keeps Reachable.step .refl moves

/-- What holds in every state of a background call, whatever the driver does and in whatever order
the worker, the caller, cancellations and the deadline take their steps. With the token cancelled at
entry the call is over as cancelled and has not connected. A caller that is gone returns what the
worker came to, or that it was cancelled, which only a cancelled token allows, or that the time is
up, which only the limit of the session allows once the deadline has passed. No statement starts
unless the worker has looked at the token after connecting and has not found it cancelled; a worker
that does find it cancelled there ends as cancelled. And once the caller is gone the worker has
ended: nobody sees another step of it. -/
theorem background_safe (s : Session) (op : Operation) (statement : Statement) (token : Bool)
    (t : State Statement Item Answer)
    (h : Reachable (State.start token s.limit (s.background op statement)) t) :
    (token = true → t.caller = .returned (.error .cancelled) ∧ t.trace = []) ∧
    (∀ r, t.caller = .returned r →
      t.worker.result? = some r ∨ (r = .error .cancelled ∧ t.token = true) ∨
        ∃ limit, s.limit = some limit ∧ t.expired = true ∧ r = .error (.timeout limit)) ∧
    ((∃ a ∈ t.trace, a.starts = true) →
      Admitted (State.start token s.limit (s.background op statement)) t) ∧
    (∀ next u, t.worker = .running (.poll next) → t.token = true → t.Quiet → Reachable t u →
      u.Quiet ∧ (u.worker.ended = true → u.worker = .returned (.error .cancelled))) ∧
    (∀ r u, t.caller = .returned r → Reachable t u → t.worker.ended = true ∧
      u.worker = t.worker ∧ u.caller = t.caller ∧ u.trace = t.trace ∧ u.handed = t.handed) := by
  have hsound := h.sound
  have hstage := h.stage (s.guarded_background op statement)
  refine ⟨?_, ?_, ?_, ?_, ?_⟩
  · rintro rfl
    have hstill := h.still (r := .error .cancelled) rfl rfl
    exact ⟨hstill.2.1, hstill.2.2.1⟩
  · intro r hreturned
    refine (hsound.returned hreturned).imp_right ?_
    rintro ⟨reason, hreason, rfl⟩
    cases hreason with
    | cancelled htoken => exact .inl ⟨rfl, htoken⟩
    | timeout hlimit hexpired => exact .inr ⟨_, hlimit, hexpired, rfl⟩
  · rintro ⟨a, hmem, ha⟩
    cases hstage with
    | entering hquiet _ =>
      rw [hquiet a hmem] at ha
      cases ha
    | admitted hadmitted _ _ => exact hadmitted
    | started hadmitted _ _ => exact hadmitted
  · intro next u hworker htoken hquiet hlater
    have hend : next true = .done (.error .cancelled) := by
      cases hstage with
      | entering _ hguarded => exact (hguarded hworker).2.1
      | admitted _ hact _ =>
        rw [hact] at hworker
        cases hworker
      | started _ hmem ha =>
        rw [hquiet _ hmem] at ha
        cases ha
    obtain ⟨htrace, hended⟩ := hlater.never_starts hworker htoken hend
    exact ⟨fun a ha => hquiet a (htrace ▸ ha), hended⟩
  · intro r u hreturned hlater
    have hended := hsound.ended hreturned
    exact ⟨hended, hlater.still hreturned hended⟩

/-- A call whose driver waits for an interrupt when the first row is asked for. -/
def waitingStart : State Statement Item Answer :=
  let session : Session := ⟨Script.driver { blockAt := some 0 }, Engine.standard, none⟩
  State.start false session.limit (session.background (.fetch .record) ⟨"SELECT A FROM T", []⟩)

/-- The worker gets as far as the row, the call is cancelled, and an interrupt ends the wait. -/
def interruption : List Move :=
  List.replicate 6 .worker ++ [.cancel, .noticeCancel, .interrupt, .worker, .worker, .finish]

/-- A call that is cancelled in the middle of a statement returns as cancelled, has looked at the
token before that statement, and leaves no worker behind. -/
theorem background_safe_interrupted :
    Reachable waitingStart (waitingStart.run interruption) ∧
      (waitingStart.run interruption).caller = .returned (.error .cancelled) ∧
      (waitingStart.run interruption).token = true ∧
      Admitted waitingStart (waitingStart.run interruption) ∧
      (waitingStart.run interruption).worker.ended = true := by
  have hreach := waitingStart.reachable_run interruption
  have hsafe := background_safe ⟨Script.driver { blockAt := some 0 }, Engine.standard, none⟩
    (.fetch .record) ⟨"SELECT A FROM T", []⟩ false _ hreach
  have hcaller : (waitingStart.run interruption).caller = .returned (.error .cancelled) := rfl
  have hquery : .query ⟨"SELECT A FROM T", []⟩ ∈ (waitingStart.run interruption).trace := by decide
  exact ⟨hreach, hcaller, rfl, hsafe.2.2.1 ⟨_, hquery, rfl⟩,
    (hsafe.2.2.2.2 _ _ hcaller .refl).1⟩

end Background

end BoundSql
