/-!
# The cancel token

A token is shared between callers who may cancel and any number of tasks that wait for it.
Cancelling takes two steps: the flag is set, and then every enabled notification is woken. A waiting
task enables a notification first and looks at the flag second; only when the flag is not set does
it go on to park until it is woken, and then it starts over.
-/

namespace BoundSql.CancelToken

/-- Where a waiting task stands. A mark says whether the notification that it has enabled has been
woken. -/
inductive Waiter where
  /-- About to create and enable a notification. -/
  | entering
  /-- With a notification enabled, about to look at the flag. -/
  | enabled (woken : Bool)
  /-- With the flag found clear, about to park. -/
  | parking (woken : Bool)
  /-- Parked on its notification. -/
  | parked (woken : Bool)
  /-- Gone. -/
  | returned
  deriving DecidableEq

/-- Where a call that cancels stands. -/
inductive Canceller where
  /-- About to set the flag. -/
  | entering
  /-- With the flag set, about to wake the notifications. -/
  | flagged
  /-- Gone. -/
  | finished
  deriving DecidableEq

/-- A token with those who wait for it and those who cancel it. -/
structure State where
  /-- The flag. -/
  cancelled : Bool
  /-- The tasks that wait. -/
  waiters : List Waiter
  /-- The calls that cancel. -/
  cancellers : List Canceller
  deriving DecidableEq

/-- A token that is not cancelled, with tasks and calls that have not begun. -/
def State.start (waiters cancellers : Nat) : State :=
  ⟨false, List.replicate waiters .entering, List.replicate cancellers .entering⟩

/-- A waiting task once every enabled notification is woken. -/
def Waiter.notified : Waiter → Waiter
  | .enabled _ => .enabled true
  | .parking _ => .parking true
  | .parked _ => .parked true
  | w => w

/-- One step of a waiting task; a parked task has none until it is woken. -/
def Waiter.step (cancelled : Bool) : Waiter → Option Waiter
  | .entering => some (.enabled false)
  | .enabled woken => some (if cancelled then .returned else .parking woken)
  | .parking woken => some (.parked woken)
  | .parked true => some .entering
  | .parked false => none
  | .returned => none

/-- Whose turn it is. -/
inductive Move where
  /-- The waiting task at a place. -/
  | waiter (i : Nat)
  /-- The cancelling call at a place. -/
  | canceller (i : Nat)
  deriving DecidableEq

/-- One step, if it can be taken. -/
def State.step (s : State) : Move → Option State
  | .waiter i => do
    let w ← s.waiters[i]?
    let w ← w.step s.cancelled
    pure { s with waiters := s.waiters.set i w }
  | .canceller i =>
    match s.cancellers[i]? with
    | some .entering =>
      some { s with cancelled := true, cancellers := s.cancellers.set i .flagged }
    | some .flagged =>
      some { s with
        waiters := s.waiters.map Waiter.notified
        cancellers := s.cancellers.set i .finished }
    | _ => none

/-- The state after some moves; a move that cannot be made is skipped. -/
def State.run (s : State) (moves : List Move) : State :=
  moves.foldl (fun s m => (s.step m).getD s) s

/-- The states that some order of steps leads to. -/
inductive Reachable (s : State) : State → Prop where
  /-- The state itself. -/
  | refl : Reachable s s
  /-- One step further. -/
  | step {t u : State} {m : Move} : Reachable s t → t.step m = some u → Reachable s u

end BoundSql.CancelToken
