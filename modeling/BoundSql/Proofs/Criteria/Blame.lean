import BoundSql.Proofs.Criteria.Balance
import BoundSql.Proofs.Text.Numeral
import BoundSql.Proofs.Text.Pairing

/-!
# The check blames the first hopeless token

Whatever the check knows, an operand and as many closing groups as are open lead it to its end, so
tokens that it takes can always be completed. Tokens that it refuses cannot, for a run that has
failed stays failed. So the token that a fault names is the first one behind which nothing helps any
more, and a fault that names no token leaves everything to hope for. A message says which fault it
belongs to.
-/

namespace BoundSql.Criteria

/-! ## Faults and their messages -/

namespace Fault

/-- The token that a fault names, if it names one. -/
def position? : Fault → Option Nat
  | neverOpened i | danglingConjunction i | emptyGroup i | noLeftOperand i => some i
  | leftOpen _ | endsWithConjunction => none

/-- The words of a message, in front of its number and behind it. -/
def words : Fault → String × String
  | neverOpened _ => ("group closed at token ", " was never opened")
  | danglingConjunction _ => ("dangling conjunction before token ", "")
  | emptyGroup _ => ("empty group closed at token ", "")
  | noLeftOperand _ => ("conjunction at token ", " has no left operand")
  | leftOpen _ => ("", " group(s) left open")
  | endsWithConjunction => ("criteria ends with a conjunction", "")

/-- The number in a message, if there is one: the token that the fault names, or a count. -/
def figure? : Fault → Option Nat
  | leftOpen n => some n
  | f => f.position?

/-- A message is its words with its number between them. -/
theorem toList_message (f : Fault) : f.message.toList =
    f.words.1.toList ++ (f.figure?.map Numeral.digits).getD [] ++ f.words.2.toList := by
  have hnumber (n : Nat) : (number n).toList = Numeral.digits n := by
    rw [number, String.toList_ofList]
  have hbehind (front : String) (n : Nat) :
      (front ++ number n).toList = front.toList ++ Numeral.digits n ++ [] := by
    rw [String.toList_append, hnumber, List.append_nil]
  have hbefore (back : String) (n : Nat) :
      (number n ++ back).toList = [] ++ Numeral.digits n ++ back.toList := by
    rw [String.toList_append, hnumber, List.nil_append]
  have hbetween (front back : String) (n : Nat) :
      (front ++ number n ++ back).toList = front.toList ++ Numeral.digits n ++ back.toList := by
    rw [String.toList_append, String.toList_append, hnumber]
  cases f with
  | neverOpened i => exact hbetween _ _ i
  | danglingConjunction i => exact hbehind _ i
  | emptyGroup i => exact hbehind _ i
  | noLeftOperand i => exact hbetween _ _ i
  | leftOpen n => exact hbefore _ n
  | endsWithConjunction => rfl

/-- The words of a message have no digits among them. -/
theorem isDigit_of_mem_words (f : Fault) :
    ∀ c ∈ f.words.1.toList ++ f.words.2.toList, Numeral.isDigit c = false := by
  have hall : (f.words.1.toList ++ f.words.2.toList).all (fun c => !Numeral.isDigit c) = true := by
    cases f <;> simp only [words] <;> decide
  intro c hc
  simpa using List.all_eq_true.mp hall c hc

/-- How long the words of a message are. -/
theorem length_words (f : Fault) : (f.words.1.toList ++ f.words.2.toList).length =
    match f with
    | neverOpened _ => 39
    | danglingConjunction _ => 34
    | emptyGroup _ => 28
    | noLeftOperand _ => 41
    | leftOpen _ => 19
    | endsWithConjunction => 32 := by
  cases f <;> simp only [words] <;> decide

/-- The digits of a message are those of its number. -/
theorem filter_isDigit_message (f : Fault) : f.message.toList.filter Numeral.isDigit =
    (f.figure?.map Numeral.digits).getD [] := by
  have hwords : (f.words.1.toList ++ f.words.2.toList).filter Numeral.isDigit = [] := by
    rw [List.filter_eq_nil_iff]
    intro c hc
    simp [f.isDigit_of_mem_words c hc]
  have hnumber (n : Nat) : (Numeral.digits n).filter Numeral.isDigit = Numeral.digits n :=
    List.filter_eq_self.mpr fun _ => Numeral.isDigit_of_mem_digits
  rw [List.filter_append, List.append_eq_nil_iff] at hwords
  rw [toList_message, List.filter_append, List.filter_append, hwords.1, hwords.2]
  cases f.figure? <;> simp [hnumber]

/-- All else in a message is its words. -/
theorem filter_not_isDigit_message (f : Fault) :
    f.message.toList.filter (fun c => !Numeral.isDigit c) =
      f.words.1.toList ++ f.words.2.toList := by
  have hwords : (f.words.1.toList ++ f.words.2.toList).filter (fun c => !Numeral.isDigit c) =
      f.words.1.toList ++ f.words.2.toList := by
    rw [List.filter_eq_self]
    intro c hc
    simp [f.isDigit_of_mem_words c hc]
  have hnumber (n : Nat) : (Numeral.digits n).filter (fun c => !Numeral.isDigit c) = [] := by
    rw [List.filter_eq_nil_iff]
    intro c hc
    simp [Numeral.isDigit_of_mem_digits hc]
  rw [List.filter_append] at hwords
  rw [toList_message, List.filter_append, List.filter_append, ← hwords]
  cases f.figure? <;> simp [hnumber]

/-- A message tells which fault it belongs to. -/
theorem message_injective : Function.Injective message := by
  intro f g h
  have hwords : f.words.1.toList ++ f.words.2.toList = g.words.1.toList ++ g.words.2.toList := by
    rw [← filter_not_isDigit_message, ← filter_not_isDigit_message, h]
  have hfigure : (f.figure?.map Numeral.digits).getD [] =
      (g.figure?.map Numeral.digits).getD [] := by
    rw [← filter_isDigit_message, ← filter_isDigit_message, h]
  have hdigits : Function.Injective Numeral.digits :=
    Function.LeftInverse.injective Numeral.value_digits
  -- the words of different faults differ in length already
  have hlength := congrArg List.length hwords
  rw [length_words, length_words] at hlength
  cases f <;> cases g <;> simp_all [figure?, position?, hdigits.eq_iff]

/-- A fault is known from its error. -/
theorem toError_injective : Function.Injective toError := by
  intro f g h
  exact message_injective (Error.criteria.inj h)

end Fault

/-! ## Runs that fail -/

namespace Progress

/-- A run goes on behind the tokens that it has taken, and a run that has failed does not. -/
theorem run_append (p : Progress) (position : Nat) (before after : List CriteriaToken) :
    p.run position (before ++ after) =
      match p.run position before with
      | .ok q => q.run (position + before.length) after
      | .error f => .error f := by
  induction before generalizing p position with
  | nil => rfl
  | cons t rest ih =>
    simp only [List.cons_append, run, List.length_cons]
    cases p.token position t with
    | error f => rfl
    | ok q =>
      have hplace : position + (rest.length + 1) = position + 1 + rest.length := by omega
      simp only [ih q (position + 1), hplace]

/-- The fault of a token names the token. -/
theorem position?_of_token {p : Progress} {position : Nat} {t : CriteriaToken} {f : Fault}
    (h : p.token position t = .error f) : f.position? = some position := by
  unfold token at h
  cases hsymbol : symbol? t with
  | none => simp [hsymbol] at h
  | some s =>
    rw [hsymbol] at h
    cases s with
    | opening => cases h
    | operand => cases h
    | conjunction =>
      simp only [step] at h
      split at h
      · cases h
      · cases h
        rfl
    | closing =>
      simp only [step] at h
      split at h
      · cases h
        rfl
      · cases hlast : p.last <;> rw [hlast] at h <;> cases h <;> rfl

/-- A run that fails has taken all tokens in front of the one that its fault names, and fails with
that one. -/
theorem exists_of_run_eq_error {p : Progress} {position : Nat} {tokens : List CriteriaToken}
    {f : Fault} (h : p.run position tokens = .error f) :
    ∃ i q, f.position? = some (position + i) ∧ i < tokens.length ∧
      p.run position (tokens.take i) = .ok q ∧
      p.run position (tokens.take (i + 1)) = .error f := by
  induction tokens generalizing p position with
  | nil => cases h
  | cons t rest ih =>
    simp only [run] at h
    cases htoken : p.token position t with
    | error g =>
      rw [htoken] at h
      cases h
      refine ⟨0, p, position?_of_token htoken, Nat.succ_pos rest.length, rfl, ?_⟩
      simp [run, htoken]
    | ok r =>
      rw [htoken] at h
      obtain ⟨i, q, hposition, hi, htaken, hfails⟩ := ih h
      have hplace : position + 1 + i = position + (i + 1) := by omega
      refine ⟨i + 1, q, hplace ▸ hposition, Nat.succ_lt_succ hi, ?_, ?_⟩
      · simpa only [List.take_succ_cons, run, htoken] using htaken
      · simpa only [List.take_succ_cons, run, htoken] using hfails

/-- Behind an operand, all open groups can be closed. -/
theorem run_closings (depth position : Nat) :
    (⟨depth, .operand⟩ : Progress).run position (List.replicate depth .closeGroup) =
      .ok ⟨0, .operand⟩ := by
  induction depth generalizing position with
  | zero => rfl
  | succ depth ih =>
    have htoken : (⟨depth + 1, .operand⟩ : Progress).token position .closeGroup =
        .ok ⟨depth, .operand⟩ := rfl
    rw [List.replicate_succ, run, htoken]
    exact ih (position + 1)

/-- Whatever the check knows, an operand and the closing groups that are missing bring it to an end
without a fault. -/
theorem exists_completion (p : Progress) (position : Nat) :
    ∃ rest q, p.run position rest = .ok q ∧ q.finish = .ok () := by
  have htoken : p.token position (.literal "1 = 1") = .ok ⟨p.depth, .operand⟩ := rfl
  refine ⟨.literal "1 = 1" :: List.replicate p.depth .closeGroup, ⟨0, .operand⟩, ?_, rfl⟩
  rw [run, htoken]
  exact run_closings p.depth (position + 1)

/-- What is open behind the tokens that a run has taken are the groups that no token closes. -/
theorem depth_eq_unclosed {p : Progress} {tokens : List CriteriaToken}
    (h : start.run 0 tokens = .ok p) :
    p.depth = Nesting.unclosed CriteriaToken.side tokens := by
  have hpass : start.pass? (symbols tokens) = some p := by
    rw [← toOption_run start 0, h]
    rfl
  have hwalk : Nesting.depth? CriteriaToken.side tokens 0 = some p.depth := by
    rw [← depth?_symbols]
    exact depth?_pass? hpass
  exact (Nesting.unclosed_eq hwalk).symm

end Progress

/-! ## Tokens that can be completed -/

/-- Tokens that become valid when the right tokens are put behind them. -/
def Viable (tokens : List CriteriaToken) : Prop :=
  ∃ rest, validate { tokens := tokens ++ rest } = .ok ()

/-- The first tokens of some that can be completed can be completed. -/
theorem Viable.of_append {before after : List CriteriaToken} (h : Viable (before ++ after)) :
    Viable before := by
  obtain ⟨rest, hrest⟩ := h
  exact ⟨after ++ rest, by rwa [← List.append_assoc]⟩

/-- Tokens can be completed exactly when the check takes all of them. -/
theorem viable_iff (tokens : List CriteriaToken) :
    Viable tokens ↔ ∃ p, Progress.start.run 0 tokens = .ok p := by
  constructor
  · rintro ⟨rest, hrest⟩
    rw [validate_eq_ok_iff_check, check, Progress.run_append] at hrest
    cases hrun : Progress.start.run 0 tokens with
    | ok p => exact ⟨p, rfl⟩
    | error f => simp [hrun] at hrest
  · rintro ⟨p, hrun⟩
    obtain ⟨rest, q, hrest, hfinish⟩ := p.exists_completion (0 + tokens.length)
    refine ⟨rest, ?_⟩
    rw [validate_eq_ok_iff_check, check, Progress.run_append, hrun]
    simp only [hrest, hfinish]

/-- Criteria fail with the fault of their check. -/
theorem validate_eq_error_iff (c : Criteria) (f : Fault) :
    validate c = .error f.toError ↔ check c.tokens = .error f := by
  unfold validate
  cases check c.tokens with
  | ok u => exact ⟨nofun, nofun⟩
  | error g => simp [Fault.toError_injective.eq_iff]

/-- A fault at the end names no token: groups that nothing closes, or a conjunction. -/
theorem Progress.finish_eq_error_iff (p : Progress) (f : Fault) :
    p.finish = .error f ↔ (f = .leftOpen p.depth ∧ 0 < p.depth) ∨
      (f = .endsWithConjunction ∧ p.depth = 0 ∧ p.last = .conjunction) := by
  unfold finish
  split
  · rename_i hdepth
    have hne : p.depth ≠ 0 := by omega
    simp [hdepth, hne, eq_comm]
  · rename_i hdepth
    have hzero : p.depth = 0 := by omega
    split
    · rename_i hlast
      simp [hzero, hlast, eq_comm]
    · rename_i hlast
      simp [hzero, hlast]

/-- Of tokens that can be completed, the first few can. -/
theorem Viable.take {tokens : List CriteriaToken} {i j : Nat} (h : Viable (tokens.take j))
    (hij : i ≤ j) : Viable (tokens.take i) := by
  obtain ⟨more, hmore⟩ := List.take_prefix_take_left (l := tokens) hij
  rw [← hmore] at h
  exact h.of_append

/-- The token that a fault names is the first one behind which nothing helps. -/
theorem hopeless_of_check {tokens : List CriteriaToken} {f : Fault} {i : Nat}
    (h : check tokens = .error f) (hposition : f.position? = some i) :
    i < tokens.length ∧ Viable (tokens.take i) ∧ ¬ Viable (tokens.take (i + 1)) := by
  unfold check at h
  cases hrun : Progress.start.run 0 tokens with
  | ok p =>
    rw [hrun] at h
    rcases (p.finish_eq_error_iff f).mp h with ⟨rfl, -⟩ | ⟨rfl, -⟩
    · cases hposition
    · cases hposition
  | error g =>
    rw [hrun] at h
    cases h
    obtain ⟨j, q, hj, hlength, htaken, hfails⟩ := Progress.exists_of_run_eq_error hrun
    obtain rfl : j = i := by
      rw [hj, Option.some.injEq] at hposition
      omega
    refine ⟨hlength, (viable_iff _).mpr ⟨q, htaken⟩, fun hviable => ?_⟩
    obtain ⟨p, hp⟩ := (viable_iff _).mp hviable
    rw [hfails] at hp
    cases hp

/-- There is one token at most in front of which there is hope and behind which there is none. -/
theorem Viable.place_unique {tokens : List CriteriaToken} {i j : Nat}
    (hi : Viable (tokens.take i)) (hbehind : ¬ Viable (tokens.take (i + 1)))
    (hj : Viable (tokens.take j)) (hbehind' : ¬ Viable (tokens.take (j + 1))) : i = j := by
  rcases Nat.lt_trichotomy i j with hlt | heq | hgt
  · exact absurd (hj.take hlt) hbehind
  · exact heq
  · exact absurd (hi.take hgt) hbehind'

/-- The check names a token exactly when that is the first one behind which nothing helps. -/
theorem check_names_iff (tokens : List CriteriaToken) (i : Nat) :
    (∃ f, check tokens = .error f ∧ f.position? = some i) ↔
      i < tokens.length ∧ Viable (tokens.take i) ∧ ¬ Viable (tokens.take (i + 1)) := by
  constructor
  · rintro ⟨f, hcheck, hposition⟩
    exact hopeless_of_check hcheck hposition
  · rintro ⟨-, hviable, hhopeless⟩
    cases hfront : Progress.start.run 0 (tokens.take (i + 1)) with
    | ok p => exact absurd ((viable_iff _).mpr ⟨p, hfront⟩) hhopeless
    | error f =>
      have hrun : Progress.start.run 0 tokens = .error f := by
        rw [← List.take_append_drop (i + 1) tokens, Progress.run_append, hfront]
      have hcheck : check tokens = .error f := by rw [check, hrun]
      obtain ⟨j, -, hposition, -⟩ := Progress.exists_of_run_eq_error hrun
      rw [Nat.zero_add] at hposition
      obtain ⟨-, hj, hbehind⟩ := hopeless_of_check hcheck hposition
      obtain rfl := Viable.place_unique hviable hhopeless hj hbehind
      exact ⟨f, hcheck, hposition⟩

/-- The check names no token exactly when the tokens can be completed and are not complete. -/
theorem check_waits_iff (tokens : List CriteriaToken) :
    (∃ f, check tokens = .error f ∧ f.position? = none) ↔
      Viable tokens ∧ check tokens ≠ .ok () := by
  rw [viable_iff]
  unfold check
  cases hrun : Progress.start.run 0 tokens with
  | error f =>
    obtain ⟨i, -, hposition, -⟩ := Progress.exists_of_run_eq_error hrun
    simp [hposition]
  | ok p =>
    cases hfinish : p.finish with
    | ok u => simp [hfinish]
    | error f =>
      have hposition : f.position? = none := by
        rcases (p.finish_eq_error_iff f).mp hfinish with ⟨rfl, -⟩ | ⟨rfl, -⟩
        · rfl
        · rfl
      simp [hfinish, hposition]

/-- The check counts open groups exactly when the tokens can be completed and there are groups that
no token closes, and their number is the count. -/
theorem check_leftOpen_iff (tokens : List CriteriaToken) (n : Nat) :
    check tokens = .error (.leftOpen n) ↔
      Viable tokens ∧ 0 < n ∧ n = Nesting.unclosed CriteriaToken.side tokens := by
  rw [viable_iff]
  unfold check
  cases hrun : Progress.start.run 0 tokens with
  | error f =>
    obtain ⟨i, -, hposition, -⟩ := Progress.exists_of_run_eq_error hrun
    have hne : f ≠ .leftOpen n := by
      rintro rfl
      cases hposition
    simp [hne]
  | ok p =>
    rw [← Progress.depth_eq_unclosed hrun]
    simp only [Progress.finish_eq_error_iff]
    constructor
    · rintro (⟨hcount, hdepth⟩ | ⟨hcount, -⟩)
      · cases hcount
        exact ⟨⟨p, rfl⟩, hdepth, rfl⟩
      · cases hcount
    · rintro ⟨-, hdepth, rfl⟩
      exact .inl ⟨rfl, hdepth⟩

/-- Which tokens a failing check blames. Its error belongs to one fault and no other. It names a
token, counted with the empty field criteria, exactly when the tokens in front of that one can be
completed to valid ones and those up to it cannot. It names none exactly when all tokens can be
completed and are not valid as they are; and it counts open groups exactly when, in tokens that can
be completed, that many groups are opened that no token closes. -/
theorem validate_blames (c : Criteria) :
    (∀ e, validate c = .error e → ∃! f : Fault, e = f.toError) ∧
      (∀ i, (∃ f : Fault, validate c = .error f.toError ∧ f.position? = some i) ↔
        i < c.tokens.length ∧ Viable (c.tokens.take i) ∧ ¬ Viable (c.tokens.take (i + 1))) ∧
      ((∃ f : Fault, validate c = .error f.toError ∧ f.position? = none) ↔
        Viable c.tokens ∧ validate c ≠ .ok ()) ∧
      ∀ n, validate c = .error (Fault.leftOpen n).toError ↔
        Viable c.tokens ∧ 0 < n ∧ n = Nesting.unclosed CriteriaToken.side c.tokens := by
  refine ⟨fun e he => ?_, fun i => ?_, ?_, fun n => ?_⟩
  · unfold validate at he
    cases hcheck : check c.tokens with
    | ok u => simp [hcheck] at he
    | error f =>
      rw [hcheck] at he
      cases he
      exact ⟨f, rfl, fun g hg => (Fault.toError_injective hg).symm⟩
  · simp only [validate_eq_error_iff]
    exact check_names_iff c.tokens i
  · simp only [validate_eq_error_iff, ne_eq, validate_eq_ok_iff_check]
    exact check_waits_iff c.tokens
  · rw [validate_eq_error_iff]
    exact check_leftOpen_iff c.tokens n

/-- In `(A AND B )` with nothing asked of B, the group that closes as the fifth token comes behind
a conjunction; and with more groups around an operand, two of them are left open. -/
theorem validate_blames_sample :
    let asked : List CriteriaToken :=
      [.openGroup, .literal "A", .and, .field (.ofField "B"), .closeGroup]
    let nested : List CriteriaToken :=
      [.openGroup, .openGroup, .literal "A", .closeGroup, .and, .openGroup, .literal "B"]
    validate ⟨asked, [], none⟩ = .error (Fault.danglingConjunction 4).toError ∧
      (Viable (asked.take 4) ∧ ¬ Viable (asked.take 5)) ∧
      validate ⟨nested, [], none⟩ = .error (Fault.leftOpen 2).toError ∧
      Nesting.unclosed CriteriaToken.side nested = 2 := by
  intro asked nested
  have hasked : validate ⟨asked, [], none⟩ = .error (Fault.danglingConjunction 4).toError := rfl
  have hnested : validate ⟨nested, [], none⟩ = .error (Fault.leftOpen 2).toError := rfl
  have hblamed := ((validate_blames ⟨asked, [], none⟩).2.1 4).mp ⟨_, hasked, rfl⟩
  have hcounted := ((validate_blames ⟨nested, [], none⟩).2.2.2 2).mp hnested
  exact ⟨hasked, hblamed.2, hnested, hcounted.2.2.symm⟩

end BoundSql.Criteria
