import BoundSql.Error

/-!
# Jobs

A job is the work of one call against a database, as a tree of steps. Some steps show: actions that
a database sees, items handed over to a callback or a channel, the interrupt handle made public.
Others meet what happens outside: the job looks at the cancel token, cancels it, waits for an
interrupt, or is busy with something that an interrupt cuts short. Run on its own, a job takes its
steps one after the other; run in the background, its steps fall in among those of others.
-/

namespace BoundSql

/-- A step of a job that a database sees. -/
inductive Action (σ : Type) where
  /-- A connection is opened. -/
  | connect
  /-- A statement without rows is executed. -/
  | execute (statement : σ)
  /-- A statement with rows is executed. -/
  | query (statement : σ)
  /-- A cursor is lent. -/
  | lend
  /-- A row is read, or the end of the rows is found. -/
  | read
  /-- A cursor is given back. -/
  | giveBack
  deriving DecidableEq

/-- The work of one call: it hands over items and ends with a result. -/
inductive Job (σ ι ρ : Type) where
  /-- The job ends. -/
  | done (result : ρ)
  /-- The job breaks off. -/
  | panic
  /-- The job acts on the database. -/
  | act (action : Action σ) (next : Job σ ι ρ)
  /-- The job makes public whether the connection can be interrupted. -/
  | publish (handle : Bool) (next : Job σ ι ρ)
  /-- The job looks at the cancel token. -/
  | poll (next : Bool → Job σ ι ρ)
  /-- The job cancels the token. -/
  | cancel (next : Job σ ι ρ)
  /-- The job waits for an interrupt. -/
  | wait (next : Job σ ι ρ)
  /-- The job is busy, and goes another way if an interrupt cuts it short. -/
  | busy (cut next : Job σ ι ρ)
  /-- The job hands over an item. -/
  | hand (item : ι) (next : Job σ ι ρ)

namespace Job

variable {σ ι ρ τ : Type}

/-- One job after another, which depends on how the first one ends. -/
def bind : Job σ ι ρ → (ρ → Job σ ι τ) → Job σ ι τ
  | done r, k => k r
  | panic, _ => panic
  | act a next, k => act a (next.bind k)
  | publish h next, k => publish h (next.bind k)
  | poll next, k => poll fun b => (next b).bind k
  | cancel next, k => cancel (next.bind k)
  | wait next, k => wait (next.bind k)
  | busy cut next, k => busy (cut.bind k) (next.bind k)
  | hand item next, k => hand item (next.bind k)

/-- A job with its result changed. -/
def map (f : ρ → τ) (j : Job σ ι ρ) : Job σ ι τ :=
  j.bind fun r => done (f r)

/-- What is left of a job that an interrupt reaches: only a job that waits or is busy feels it. -/
def interrupted : Job σ ι ρ → Job σ ι ρ
  | wait next => next
  | busy cut _ => cut
  | j => j

/-- A number of steps that no course of a job exceeds. -/
def bound : Job σ ι ρ → Nat
  | done _ => 1
  | panic => 1
  | act _ next => next.bound + 1
  | publish _ next => next.bound + 1
  | poll next => max (next true).bound (next false).bound + 1
  | cancel next => next.bound + 1
  | wait next => next.bound + 1
  | busy cut next => max cut.bound next.bound + 1
  | hand _ next => next.bound + 1

/-- How a job that runs on its own comes to its end. -/
inductive Ending (ρ : Type) where
  /-- It ends with a result. -/
  | returned (result : ρ)
  /-- It breaks off. -/
  | panicked
  /-- It waits for an interrupt that never comes. -/
  | stuck
  deriving DecidableEq

/-- The course of a job that runs on its own. -/
structure Course (σ ι ρ : Type) where
  /-- How it comes to its end. -/
  ending : Ending ρ
  /-- What the database sees. -/
  trace : List (Action σ)
  /-- The items handed over. -/
  handed : List ι
  /-- Whether the cancel token is cancelled at the end. -/
  token : Bool

/-- Runs a job on its own. -/
def run (token : Bool) : Job σ ι ρ → Course σ ι ρ
  | done r => ⟨.returned r, [], [], token⟩
  | panic => ⟨.panicked, [], [], token⟩
  | act a next =>
    let course := run token next
    { course with trace := a :: course.trace }
  | publish _ next => run token next
  | poll next => run token (next token)
  | cancel next => run true next
  | wait _ => ⟨.stuck, [], [], token⟩
  | busy _ next => run token next
  | hand item next =>
    let course := run token next
    { course with handed := item :: course.handed }

end Job

/-- How many reads were made under each cursor that was given back, in the place of its return;
the other actions stand for themselves. -/
def Action.summary {σ : Type} (reads : Nat) : List (Action σ) → List (Action σ ⊕ Nat)
  | [] => []
  | .lend :: rest => summary 0 rest
  | .read :: rest => summary (reads + 1) rest
  | .giveBack :: rest => .inr reads :: summary 0 rest
  | a :: rest => .inl a :: summary reads rest

end BoundSql
