import BoundSql.Session.Job

/-!
# Streams

A stream sends the rows of a statement through a channel of limited length while they are read. A
reader task runs the job and sends its items; a watcher task waits for the end of the reader, the
cancel token or the deadline, in this order of preference, and interrupts the reader in the latter
two cases. Whichever of the two first marks the stream as halted reports the error, so that it is
reported once. The receiver takes items out of the channel, and the stream has ended once both
tasks are gone and the channel is empty.
-/

namespace BoundSql

namespace Stream

variable {σ ι : Type}

/-- Where the reader stands. -/
inductive Reader (σ ι : Type) where
  /-- At work on what is left of its job. -/
  | running (job : Job σ ι (Except Error Nat))
  /-- With a failed job, about to mark the stream as halted. -/
  | failed (e : Error)
  /-- About to send the error. -/
  | reporting (e : Error)
  /-- Gone. -/
  | ended

/-- Where the watcher stands. -/
inductive Watcher where
  /-- Waiting for whichever comes first. -/
  | watching
  /-- With a reason to stop, about to mark the stream as halted. -/
  | stopping (reason : Error)
  /-- Interrupting the reader; the mark says whether somebody else reports. -/
  | interrupting (reason : Error) (reported : Bool)
  /-- About to send the error. -/
  | reporting (reason : Error)
  /-- Gone. -/
  | ended
  deriving DecidableEq

/-- A stream in progress. -/
structure State (σ ι : Type) where
  /-- The reader. -/
  reader : Reader σ ι
  /-- The watcher. -/
  watcher : Watcher
  /-- Whether the token is cancelled. -/
  token : Bool
  /-- The time limit. -/
  limit : Option Span
  /-- Whether the deadline has passed. -/
  expired : Bool
  /-- Whether the reader has made an interrupt handle public. -/
  handle : Bool
  /-- Whether somebody reports an error. -/
  halted : Bool
  /-- What has been sent and not received. -/
  channel : List (Except Error ι)
  /-- What has been received. -/
  received : List (Except Error ι)
  /-- What the database has seen. -/
  trace : List (Action σ)

/-- How many items the channel holds. -/
def capacity : Nat := 64

/-- A stream as it begins. -/
def State.start (token : Bool) (limit : Option Span) (job : Job σ ι (Except Error Nat)) :
    State σ ι :=
  ⟨.running job, .watching, token, limit, false, false, false, [], [], []⟩

/-- Whether the reader is gone. -/
def Reader.isEnded : Reader σ ι → Bool
  | .ended => true
  | _ => false

/-- Whether the stream has ended for its receiver. -/
def State.isOver (s : State σ ι) : Bool :=
  s.reader.isEnded && s.watcher == .ended && s.channel.isEmpty

/-- Sends something, if the channel has room for it. -/
def State.send (s : State σ ι) (item : Except Error ι) : Option (State σ ι) :=
  if s.channel.length < capacity then some { s with channel := s.channel ++ [item] } else none

/-- The reader's next step on its job; a job that waits, or that sends into a full channel, has
none. -/
def State.jobStep (s : State σ ι) : Job σ ι (Except Error Nat) → Option (State σ ι)
  | .done (.ok _) => some { s with reader := .ended }
  | .done (.error e) => some { s with reader := .failed e }
  | .panic => some { s with reader := .ended }
  | .act a next => some { s with reader := .running next, trace := s.trace ++ [a] }
  | .publish h next => some { s with reader := .running next, handle := h }
  | .poll next => some { s with reader := .running (next s.token) }
  | .cancel next => some { s with reader := .running next, token := true }
  | .wait _ => none
  | .busy _ next => some { s with reader := .running next }
  | .hand item next => (s.send (.ok item)).map fun s => { s with reader := .running next }

/-- The reader's next step. -/
def State.readerStep (s : State σ ι) : Option (State σ ι) :=
  match s.reader with
  | .running job => s.jobStep job
  | .failed e =>
    some { s with reader := if s.halted then .ended else .reporting e, halted := true }
  | .reporting e => (s.send (.error e)).map fun s => { s with reader := .ended }
  | .ended => none

/-- The watcher's next step. Of the things it waits for, the end of the reader counts first, the
token second and the deadline last. An interrupt reaches the job only when its handle is public.

The three are looked at in one step. A watcher that looks at them one after the other may miss the
end of the reader, or a cancellation, that comes in between, but no run is lost by that. The step
with which a reader ends asks neither the token nor the deadline, and nobody but the watcher asks
the deadline. So the cancellation, or the passing of the deadline, that such a watcher acts on may
as well have come just before what it missed, and the watcher have looked then. -/
def State.watcherStep (s : State σ ι) : Option (State σ ι) :=
  match s.watcher with
  | .watching =>
    if s.reader.isEnded then some { s with watcher := .ended }
    else if s.token then some { s with watcher := .stopping .cancelled }
    else if s.expired then s.limit.map fun limit => { s with watcher := .stopping (.timeout limit) }
    else none
  | .stopping reason =>
    some { s with watcher := .interrupting reason s.halted, halted := true }
  | .interrupting reason reported =>
    if s.reader.isEnded then
      some { s with watcher := if reported then .ended else .reporting reason }
    else
      match s.handle, s.reader with
      | true, .running job => some { s with reader := .running job.interrupted }
      | _, _ => some s
  | .reporting reason => (s.send (.error reason)).map fun s => { s with watcher := .ended }
  | .ended => none

/-- Who takes a step. -/
inductive Move where
  /-- The reader. -/
  | reader
  /-- The watcher. -/
  | watcher
  /-- Somebody cancels the token. -/
  | cancel
  /-- The time limit runs out. -/
  | expire
  /-- The receiver takes the next item. -/
  | receive
  deriving DecidableEq

/-- One step, if it can be taken. -/
def State.step (s : State σ ι) : Move → Option (State σ ι)
  | .reader => s.readerStep
  | .watcher => s.watcherStep
  | .cancel => some { s with token := true }
  | .expire => s.limit.map fun _ => { s with expired := true }
  | .receive =>
    match s.channel with
    | [] => none
    | item :: rest => some { s with channel := rest, received := s.received ++ [item] }

/-- The state after some moves; a move that cannot be made is skipped. -/
def State.run (s : State σ ι) (moves : List Move) : State σ ι :=
  moves.foldl (fun s m => (s.step m).getD s) s

/-- The states that some order of steps leads to. -/
inductive Reachable (s : State σ ι) : State σ ι → Prop where
  /-- The state itself. -/
  | refl : Reachable s s
  /-- One step further. -/
  | step {t u : State σ ι} {m : Move} : Reachable s t → t.step m = some u → Reachable s u

/-- The moves of a stream whose reader is always quicker than the token and the deadline, and whose
receiver keeps up: the deadline passes only when the reader waits for an interrupt. -/
def promptMoves (bound : Nat) : List Move :=
  (List.replicate (bound + 2) [.reader, .receive]).flatten ++ [.watcher, .expire] ++
    (List.replicate (bound + 4) [.watcher, .reader, .receive]).flatten

/-- A stream whose reader is always quicker than the token and the deadline. -/
def prompt (token : Bool) (limit : Option Span) (job : Job σ ι (Except Error Nat)) : State σ ι :=
  (State.start token limit job).run (promptMoves job.bound)

end Stream

end BoundSql
