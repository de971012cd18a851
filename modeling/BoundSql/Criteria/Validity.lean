import BoundSql.Criteria.Basic
import BoundSql.Error

/-!
# Well-formed criteria

Criteria are checked in one pass that counts open groups and remembers what came last. Empty field
criteria are passed over, as they compile to nothing. Beside the check stands a grammar: operands
and non-empty groups in a row, with at most one conjunction between neighbours.
-/

namespace BoundSql.Criteria

/-- What a token is to the check. -/
inductive Symbol where
  /-- A group opens. -/
  | opening
  /-- A group closes. -/
  | closing
  /-- A conjunction. -/
  | conjunction
  /-- Something that can stand on either side of a conjunction. -/
  | operand
  deriving DecidableEq

/-- What a token is to the check; nothing, for an empty field criterion. -/
def symbol? : CriteriaToken → Option Symbol
  | .openGroup => some .opening
  | .closeGroup => some .closing
  | .and | .or => some .conjunction
  | .field f => if f.isEmpty then none else some .operand
  | .literal _ => some .operand

/-- The symbols of some tokens. -/
def symbols (tokens : List CriteriaToken) : List Symbol :=
  tokens.filterMap symbol?

/-- What is wrong with criteria. -/
inductive Fault where
  /-- A group closes that was never opened. -/
  | neverOpened (position : Nat)
  /-- A group closes behind a conjunction. -/
  | danglingConjunction (position : Nat)
  /-- A group closes with nothing in it. -/
  | emptyGroup (position : Nat)
  /-- A conjunction has nothing on its left. -/
  | noLeftOperand (position : Nat)
  /-- Groups are open at the end. -/
  | leftOpen (count : Nat)
  /-- The last token that counts is a conjunction. -/
  | endsWithConjunction
  deriving DecidableEq

/-- A number in a message. -/
def Fault.number (n : Nat) : String :=
  String.ofList (Numeral.digits n)

/-- The message of a fault. -/
def Fault.message : Fault → String
  | neverOpened i => "group closed at token " ++ number i ++ " was never opened"
  | danglingConjunction i => "dangling conjunction before token " ++ number i
  | emptyGroup i => "empty group closed at token " ++ number i
  | noLeftOperand i => "conjunction at token " ++ number i ++ " has no left operand"
  | leftOpen n => number n ++ " group(s) left open"
  | endsWithConjunction => "criteria ends with a conjunction"

/-- The fault as an error. -/
def Fault.toError (f : Fault) : Error :=
  .criteria f.message

/-- What came last, as far as the check goes. -/
inductive Last where
  /-- Nothing. -/
  | start
  /-- A group opened. -/
  | opening
  /-- An operand, or a group that closed. -/
  | operand
  /-- A conjunction. -/
  | conjunction
  deriving DecidableEq

/-- What the check knows after some tokens. -/
structure Progress where
  /-- How many groups are open. -/
  depth : Nat
  /-- What came last. -/
  last : Last
  deriving DecidableEq

/-- What the check knows before the first token. -/
def Progress.start : Progress := ⟨0, .start⟩

/-- Takes one symbol, found at a position. -/
def Progress.step (p : Progress) (position : Nat) : Symbol → Except Fault Progress
  | .opening => .ok ⟨p.depth + 1, .opening⟩
  | .closing =>
    if p.depth = 0 then .error (.neverOpened position)
    else
      match p.last with
      | .conjunction => .error (.danglingConjunction position)
      | .opening => .error (.emptyGroup position)
      | .start | .operand => .ok ⟨p.depth - 1, .operand⟩
  | .conjunction =>
    if p.last = .operand then .ok ⟨p.depth, .conjunction⟩ else .error (.noLeftOperand position)
  | .operand => .ok ⟨p.depth, .operand⟩

/-- Takes one token, found at a position. -/
def Progress.token (p : Progress) (position : Nat) (t : CriteriaToken) : Except Fault Progress :=
  match symbol? t with
  | some s => p.step position s
  | none => .ok p

/-- Takes tokens one after the other, the first of them found at a position. -/
def Progress.run (p : Progress) (position : Nat) : List CriteriaToken → Except Fault Progress
  | [] => .ok p
  | t :: rest =>
    match p.token position t with
    | .ok q => run q (position + 1) rest
    | .error f => .error f

/-- What is wrong at the end of the tokens. -/
def Progress.finish (p : Progress) : Except Fault Unit :=
  if 0 < p.depth then .error (.leftOpen p.depth)
  else if p.last = .conjunction then .error .endsWithConjunction
  else .ok ()

/-- Checks some tokens; the first fault counts. -/
def check (tokens : List CriteriaToken) : Except Fault Unit :=
  match Progress.start.run 0 tokens with
  | .ok p => p.finish
  | .error f => .error f

/-- Checks criteria. -/
def validate (c : Criteria) : Except Error Unit :=
  match check c.tokens with
  | .ok () => .ok ()
  | .error f => .error f.toError

mutual

/-- Rows of symbols that make a condition: terms with at most one conjunction between neighbours. -/
inductive Condition : List Symbol → Prop where
  /-- One term. -/
  | one {term : List Symbol} : Term term → Condition term
  /-- A condition followed by a term. -/
  | beside {before term : List Symbol} : Condition before → Term term → Condition (before ++ term)
  /-- A condition, a conjunction and a term. -/
  | joined {before term : List Symbol} :
      Condition before → Term term → Condition (before ++ .conjunction :: term)

/-- Rows of symbols that make a term: an operand, or a condition in a group. -/
inductive Term : List Symbol → Prop where
  /-- An operand. -/
  | operand : Term [.operand]
  /-- A condition in a group. -/
  | group {inside : List Symbol} :
      Condition inside → Term (.opening :: (inside ++ [.closing]))

end

/-- Rows of symbols that make well-formed criteria: no symbols at all, or a condition. -/
def WellFormed (symbols : List Symbol) : Prop :=
  symbols = [] ∨ Condition symbols

end BoundSql.Criteria
