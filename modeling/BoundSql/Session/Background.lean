import BoundSql.Session.Job

/-!
# Background calls

A background call leaves its job to a worker and waits for whichever comes first: the end of the
job, the cancel token, or the deadline. In the latter two cases it interrupts the worker again and
again until the worker has ended, and only then returns. A call whose token is cancelled at entry
returns without a worker. Worker, caller, cancellation and deadline take their steps in any order.
-/

namespace BoundSql

namespace Background

variable {σ ι ρ : Type}

/-- Where the worker stands. -/
inductive Worker (σ ι ρ : Type) where
  /-- There is none. -/
  | idle
  /-- It is at work on what is left of a job. -/
  | running (job : Job σ ι (Except Error ρ))
  /-- Its job ended. -/
  | returned (result : Except Error ρ)
  /-- Its job broke off. -/
  | panicked

/-- Whether the worker takes no further step. -/
def Worker.ended : Worker σ ι ρ → Bool
  | .running _ => false
  | _ => true

/-- Where the caller stands. -/
inductive Caller (ρ : Type) where
  /-- Waiting for whichever comes first. -/
  | waiting
  /-- Interrupting the worker, with the reason for it. -/
  | stopping (reason : Error)
  /-- Gone, with a result. -/
  | returned (result : Except Error ρ)

/-- A background call in progress. -/
structure State (σ ι ρ : Type) where
  /-- The worker. -/
  worker : Worker σ ι ρ
  /-- The caller. -/
  caller : Caller ρ
  /-- Whether the token is cancelled. -/
  token : Bool
  /-- The time limit. -/
  limit : Option Span
  /-- Whether the deadline has passed. -/
  expired : Bool
  /-- Whether the worker has made an interrupt handle public. -/
  handle : Bool
  /-- What the database has seen. -/
  trace : List (Action σ)
  /-- The items handed to the callback. -/
  handed : List ι

/-- A call as it begins: with its token cancelled it is over. -/
def State.start (token : Bool) (limit : Option Span) (job : Job σ ι (Except Error ρ)) :
    State σ ι ρ :=
  if token then ⟨.idle, .returned (.error .cancelled), token, limit, false, false, [], []⟩
  else ⟨.running job, .waiting, token, limit, false, false, [], []⟩

/-- Who takes a step. -/
inductive Move where
  /-- The worker goes on with its job. -/
  | worker
  /-- Somebody cancels the token. -/
  | cancel
  /-- The time limit runs out. -/
  | expire
  /-- The caller finds the job ended. -/
  | join
  /-- The caller finds the token cancelled. -/
  | noticeCancel
  /-- The caller finds the deadline passed. -/
  | noticeDeadline
  /-- The caller interrupts the statement that is running. -/
  | interrupt
  /-- The caller finds the worker ended after interrupting it. -/
  | finish
  deriving DecidableEq

/-- The worker's next step; a job that waits has none. -/
def State.workerStep (s : State σ ι ρ) : Job σ ι (Except Error ρ) → Option (State σ ι ρ)
  | .done r => some { s with worker := .returned r }
  | .panic => some { s with worker := .panicked }
  | .act a next => some { s with worker := .running next, trace := s.trace ++ [a] }
  | .publish h next => some { s with worker := .running next, handle := h }
  | .poll next => some { s with worker := .running (next s.token) }
  | .cancel next => some { s with worker := .running next, token := true }
  | .wait _ => none
  | .busy _ next => some { s with worker := .running next }
  | .hand item next => some { s with worker := .running next, handed := s.handed ++ [item] }

/-- What the caller returns for a worker that ended by itself. -/
def Worker.result? : Worker σ ι ρ → Option (Except Error ρ)
  | .returned r => some r
  | .panicked => some (.error .join)
  | _ => none

/-- One step, if it can be taken. An interrupt reaches the job only when its handle is public. -/
def State.step (s : State σ ι ρ) : Move → Option (State σ ι ρ)
  | .worker =>
    match s.worker with
    | .running job => s.workerStep job
    | _ => none
  | .cancel => some { s with token := true }
  | .expire => s.limit.map fun _ => { s with expired := true }
  | .join =>
    match s.caller with
    | .waiting => s.worker.result?.map fun r => { s with caller := .returned r }
    | _ => none
  | .noticeCancel =>
    match s.caller, s.token with
    | .waiting, true => some { s with caller := .stopping .cancelled }
    | _, _ => none
  | .noticeDeadline =>
    match s.caller, s.expired, s.limit with
    | .waiting, true, some limit => some { s with caller := .stopping (.timeout limit) }
    | _, _, _ => none
  | .interrupt =>
    match s.caller, s.handle, s.worker with
    | .stopping _, true, .running job => some { s with worker := .running job.interrupted }
    | .stopping _, _, _ => some s
    | _, _, _ => none
  | .finish =>
    match s.caller with
    | .stopping reason =>
      if s.worker.ended then some { s with caller := .returned (.error reason) } else none
    | _ => none

/-- The state after some moves; a move that cannot be made is skipped. -/
def State.run (s : State σ ι ρ) (moves : List Move) : State σ ι ρ :=
  moves.foldl (fun s m => (s.step m).getD s) s

/-- The states that some order of steps leads to. -/
inductive Reachable (s : State σ ι ρ) : State σ ι ρ → Prop where
  /-- The state itself. -/
  | refl : Reachable s s
  /-- One step further. -/
  | step {t u : State σ ι ρ} {m : Move} : Reachable s t → t.step m = some u → Reachable s u

/-- The moves of a call whose worker is always quicker than the token and the deadline: the deadline
passes only when the worker waits for an interrupt. -/
def promptMoves (bound : Nat) : List Move :=
  List.replicate bound .worker ++ [.join, .noticeCancel, .expire, .noticeDeadline] ++
    (List.replicate bound [.interrupt, .worker]).flatten ++ [.finish]

/-- A call whose worker is always quicker than the token and the deadline. -/
def prompt (token : Bool) (limit : Option Span) (job : Job σ ι (Except Error ρ)) : State σ ι ρ :=
  (State.start token limit job).run (promptMoves job.bound)

end Background

end BoundSql
