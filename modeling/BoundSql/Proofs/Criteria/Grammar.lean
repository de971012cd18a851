import BoundSql.Criteria.Validity

/-!
# The check of criteria accepts a grammar

Whether a token is taken does not depend on its position, and empty field criteria are never
looked at, so the check is followed on symbols alone. In one direction a condition leads the check
from anywhere to the same depth with an operand behind it. In the other, what has been taken always
splits at the innermost open group: in front of it stand conditions in the making, one for every
group that is open, and behind it stands what last came to.
-/

namespace BoundSql.Criteria

/-- What the check knows after some symbols; nothing, once one of them is refused. -/
def Progress.pass? (p : Progress) (symbols : List Symbol) : Option Progress :=
  symbols.foldlM (fun q s => (q.step 0 s).toOption) p

namespace Progress

/-- Where a symbol stands matters to the fault only. -/
theorem toOption_step (p : Progress) (position : Nat) (s : Symbol) :
    (p.step position s).toOption = (p.step 0 s).toOption := by
  cases s with
  | opening => rfl
  | operand => rfl
  | conjunction =>
    simp only [step]
    split <;> rfl
  | closing =>
    simp only [step]
    split
    · rfl
    · cases p.last <;> rfl

/-- Symbols are taken one after the other. -/
theorem pass?_cons (p : Progress) (s : Symbol) (rest : List Symbol) :
    p.pass? (s :: rest) = (p.step 0 s).toOption.bind fun q => q.pass? rest := by
  rw [pass?, List.foldlM_cons]
  rfl

/-- Two rows of symbols are taken one after the other. -/
theorem pass?_append (p : Progress) (before after : List Symbol) :
    p.pass? (before ++ after) = (p.pass? before).bind fun q => q.pass? after := by
  rw [pass?, List.foldlM_append]
  rfl

/-- Tokens are taken as their symbols are. -/
theorem toOption_run (p : Progress) (position : Nat) (tokens : List CriteriaToken) :
    (p.run position tokens).toOption = p.pass? (symbols tokens) := by
  induction tokens generalizing p position with
  | nil => rfl
  | cons t rest ih =>
    cases hsymbol : symbol? t with
    | none =>
      have hsymbols : symbols (t :: rest) = symbols rest := List.filterMap_cons_none hsymbol
      simp only [run, token, hsymbol]
      rw [ih, hsymbols]
    | some s =>
      have hsymbols : symbols (t :: rest) = s :: symbols rest := List.filterMap_cons_some hsymbol
      rw [hsymbols, pass?_cons, ← toOption_step p position s]
      simp only [run, token, hsymbol]
      cases p.step position s with
      | error f => rfl
      | ok q => exact ih q (position + 1)

/-- One symbol moves the depth by as much as it opens less what it closes. -/
theorem depth_step {p q : Progress} {position : Nat} {s : Symbol}
    (h : p.step position s = .ok q) :
    (q.depth : Int) = p.depth + [s].count .opening - [s].count .closing := by
  cases s with
  | opening =>
    cases h
    rfl
  | operand =>
    cases h
    rfl
  | conjunction =>
    simp only [step] at h
    split at h
    · cases h
      rfl
    · cases h
  | closing =>
    simp only [step] at h
    split at h
    · cases h
    · rename_i hdepth
      have hcount : [Symbol.closing].count .opening = 0 ∧ [Symbol.closing].count .closing = 1 :=
        ⟨rfl, rfl⟩
      cases hlast : p.last <;> rw [hlast] at h <;> cases h <;> simp only [hcount] <;> omega

/-- The depth is that of the symbols taken: the groups that they open less those that they
close. -/
theorem depth_of_pass? {p q : Progress} {taken : List Symbol} (h : p.pass? taken = some q) :
    (q.depth : Int) = p.depth + taken.count .opening - taken.count .closing := by
  induction taken generalizing p with
  | nil =>
    cases h
    simp
  | cons s rest ih =>
    rw [pass?_cons] at h
    cases hstep : p.step 0 s with
    | error f => simp [hstep, Except.toOption] at h
    | ok r =>
      rw [hstep] at h
      have hrest := ih h
      have hfirst := depth_step hstep
      rw [← List.singleton_append, List.count_append, List.count_append]
      omega

end Progress

/-- The check succeeds when it takes all symbols, no group is open then and no conjunction came
last. -/
theorem check_eq_ok_iff (tokens : List CriteriaToken) :
    check tokens = .ok () ↔ ∃ q, Progress.start.pass? (symbols tokens) = some q ∧
      q.depth = 0 ∧ q.last ≠ .conjunction := by
  rw [← Progress.toOption_run Progress.start 0 tokens, check]
  cases Progress.start.run 0 tokens with
  | error f => simp [Except.toOption]
  | ok q =>
    simp only [Except.toOption, Progress.finish, Option.some.injEq, exists_eq_left']
    split
    · rename_i hdepth
      simp [Nat.pos_iff_ne_zero.mp hdepth]
    · rename_i hdepth
      have hzero : q.depth = 0 := by omega
      split
      · rename_i hlast
        simp [hlast]
      · rename_i hlast
        simp [hzero, hlast]

/-- Criteria are valid when the check of their tokens succeeds. -/
theorem validate_eq_ok_iff_check (c : Criteria) :
    validate c = .ok () ↔ check c.tokens = .ok () := by
  unfold validate
  cases check c.tokens with
  | ok u => exact ⟨fun _ => rfl, fun _ => rfl⟩
  | error f => simp

/-! ## Conditions are accepted -/

mutual

/-- A condition leads the check to the same depth with an operand behind it. -/
theorem Condition.pass? {row : List Symbol} (h : Condition row) (p : Progress) :
    p.pass? row = some ⟨p.depth, .operand⟩ := by
  match h with
  | .one hterm => exact hterm.pass? p
  | .beside hbefore hterm =>
    rw [Progress.pass?_append, hbefore.pass? p, Option.bind_some]
    exact hterm.pass? ⟨p.depth, .operand⟩
  | .joined hbefore hterm =>
    rw [Progress.pass?_append, hbefore.pass? p, Option.bind_some, Progress.pass?_cons]
    exact hterm.pass? ⟨p.depth, .conjunction⟩

/-- A term leads the check to the same depth with an operand behind it. -/
theorem Term.pass? {row : List Symbol} (h : Term row) (p : Progress) :
    p.pass? row = some ⟨p.depth, .operand⟩ := by
  match h with
  | .operand => rfl
  | .group hinside =>
    have hopened : (p.step 0 .opening).toOption = some ⟨p.depth + 1, .opening⟩ := rfl
    rw [Progress.pass?_cons, hopened, Option.bind_some, Progress.pass?_append,
      hinside.pass? ⟨p.depth + 1, .opening⟩]
    rfl

end

/-! ## Only conditions are accepted -/

/-- What may stand inside a group that is still open, by what came last in it. -/
def Partial : Last → List Symbol → Prop
  | .start, inside => inside = []
  | .opening, inside => inside = []
  | .operand, inside => Condition inside
  | .conjunction, inside => ∃ row, Condition row ∧ inside = row ++ [.conjunction]

/-- Whatever stands inside an open group, a term completes it to a condition. -/
theorem Partial.append_term {last : Last} {inside term : List Symbol} (h : Partial last inside)
    (hterm : Term term) : Condition (inside ++ term) := by
  cases last with
  | start =>
    obtain rfl : inside = [] := h
    exact .one hterm
  | opening =>
    obtain rfl : inside = [] := h
    exact .one hterm
  | operand => exact .beside h hterm
  | conjunction =>
    obtain ⟨row, hrow, rfl⟩ := h
    rw [List.append_assoc]
    exact .joined hrow hterm

/-- Rows of symbols that end where the innermost open group begins, with the number of groups that
are open. -/
inductive Opened : Nat → List Symbol → Prop where
  /-- No group is open. -/
  | outermost : Opened 0 []
  /-- A group opens inside another. -/
  | group {depth : Nat} {before inside : List Symbol} {last : Last} :
      Opened depth before → Partial last inside →
        Opened (depth + 1) (before ++ (inside ++ [.opening]))

/-- What the check knows fits the symbols that it has taken. -/
structure Progress.Fits (p : Progress) (taken : List Symbol) : Prop where
  /-- Only outside all groups there may be nothing yet. -/
  depth_start : p.last = .start → p.depth = 0
  /-- The symbols split where the innermost open group begins. -/
  split : ∃ before inside, taken = before ++ inside ∧ Opened p.depth before ∧
    Partial p.last inside

namespace Progress.Fits

variable {p q : Progress} {taken : List Symbol}

/-- Before the first symbol the check knows what it should. -/
theorem start : Progress.start.Fits [] :=
  ⟨fun _ => rfl, [], [], rfl, .outermost, rfl⟩

/-- A term behind what has been taken leaves an operand at the same depth. -/
theorem term (h : p.Fits taken) {row : List Symbol} (hterm : Term row) :
    Progress.Fits ⟨p.depth, .operand⟩ (taken ++ row) := by
  obtain ⟨before, inside, rfl, hopened, hinside⟩ := h.split
  exact ⟨by simp, before, inside ++ row, List.append_assoc .., hopened,
    hinside.append_term hterm⟩

/-- A group that opens is the innermost one. -/
theorem opening (h : p.Fits taken) :
    Progress.Fits ⟨p.depth + 1, .opening⟩ (taken ++ [.opening]) := by
  obtain ⟨before, inside, rfl, hopened, hinside⟩ := h.split
  refine ⟨by simp, before ++ (inside ++ [.opening]), [], ?_, hopened.group hinside, rfl⟩
  rw [List.append_nil, List.append_assoc]

/-- A group that closes behind a condition becomes a term of the group around it. -/
theorem closing {depth : Nat} (h : Progress.Fits ⟨depth + 1, .operand⟩ taken) :
    Progress.Fits ⟨depth, .operand⟩ (taken ++ [.closing]) := by
  obtain ⟨outer, condition, rfl, hopened, hcondition⟩ := h.split
  cases hopened with
  | @group _ before inside last hbefore hinside =>
    have hterm : Term (.opening :: (condition ++ [.closing])) := .group hcondition
    refine ⟨by simp, before, inside ++ .opening :: (condition ++ [.closing]), ?_, hbefore,
      hinside.append_term hterm⟩
    simp

/-- A conjunction behind an operand waits for a term. -/
theorem conjunction {depth : Nat} (h : Progress.Fits ⟨depth, .operand⟩ taken) :
    Progress.Fits ⟨depth, .conjunction⟩ (taken ++ [.conjunction]) := by
  obtain ⟨before, inside, rfl, hopened, hinside⟩ := h.split
  exact ⟨by simp, before, inside ++ [.conjunction], List.append_assoc .., hopened, inside, hinside,
    rfl⟩

/-- Every symbol that is taken keeps what the check knows in line with what it has taken. -/
theorem step (h : p.Fits taken) {position : Nat} {s : Symbol} (hstep : p.step position s = .ok q) :
    q.Fits (taken ++ [s]) := by
  obtain ⟨depth, last⟩ := p
  cases s with
  | opening =>
    cases hstep
    exact h.opening
  | operand =>
    cases hstep
    exact h.term .operand
  | conjunction =>
    simp only [Progress.step] at hstep
    split at hstep
    · rename_i hlast
      cases hstep
      obtain rfl : last = .operand := hlast
      exact h.conjunction
    · cases hstep
  | closing =>
    simp only [Progress.step] at hstep
    split at hstep
    · cases hstep
    · rename_i hdepth
      obtain ⟨depth, rfl⟩ := Nat.exists_eq_succ_of_ne_zero hdepth
      cases last with
      | start => exact absurd (h.depth_start rfl) hdepth
      | opening => cases hstep
      | conjunction => cases hstep
      | operand =>
        cases hstep
        exact h.closing

/-- What the check knows after a row of symbols fits them, if it fitted those before. -/
theorem pass? (h : p.Fits taken) {row : List Symbol} (hpass : p.pass? row = some q) :
    q.Fits (taken ++ row) := by
  induction row generalizing p taken with
  | nil =>
    cases hpass
    rwa [List.append_nil]
  | cons s rest ih =>
    rw [Progress.pass?_cons] at hpass
    cases hstep : p.step 0 s with
    | error f => simp [hstep, Except.toOption] at hpass
    | ok r =>
      rw [hstep] at hpass
      have hrest := ih (h.step hstep) hpass
      rwa [List.append_assoc] at hrest

/-- With no group open and no conjunction last, the symbols taken are well formed. -/
theorem wellFormed (h : p.Fits taken) (hdepth : p.depth = 0) (hlast : p.last ≠ .conjunction) :
    WellFormed taken := by
  obtain ⟨depth, last⟩ := p
  obtain rfl : depth = 0 := hdepth
  obtain ⟨before, inside, rfl, hopened, hinside⟩ := h.split
  cases hopened
  cases last with
  | start => exact .inl hinside
  | opening => exact .inl hinside
  | operand => exact .inr hinside
  | conjunction => exact absurd rfl hlast

end Progress.Fits

/-- A row of symbols is well formed when the check takes all of it, with no group open and no
conjunction last. -/
theorem wellFormed_iff_pass? (row : List Symbol) :
    WellFormed row ↔ ∃ q, Progress.start.pass? row = some q ∧ q.depth = 0 ∧
      q.last ≠ .conjunction := by
  constructor
  · rintro (rfl | hcondition)
    · exact ⟨Progress.start, rfl, rfl, nofun⟩
    · exact ⟨⟨0, .operand⟩, hcondition.pass? Progress.start, rfl, nofun⟩
  · rintro ⟨q, hpass, hdepth, hlast⟩
    exact (Progress.Fits.start.pass? hpass).wellFormed hdepth hlast

/-- Criteria are valid exactly when their tokens, apart from empty field criteria, are none at all
or a condition of the grammar. As long as no token is refused, the depth is the number of groups
opened less the number of groups closed, so that it never falls below zero. -/
theorem validate_iff_wellFormed (c : Criteria) :
    (validate c = .ok () ↔ WellFormed (symbols c.tokens)) ∧
      ∀ n p, Progress.start.run 0 (c.tokens.take n) = .ok p →
        (p.depth : Int) = (symbols (c.tokens.take n)).count .opening -
          (symbols (c.tokens.take n)).count .closing := by
  constructor
  · rw [validate_eq_ok_iff_check, check_eq_ok_iff, wellFormed_iff_pass?]
  · intro n p hrun
    have hpass : Progress.start.pass? (symbols (c.tokens.take n)) = some p := by
      rw [← Progress.toOption_run Progress.start 0, hrun]
      rfl
    have hdepth := Progress.depth_of_pass? hpass
    have hstart : Progress.start.depth = 0 := rfl
    omega

/-- Empty field criteria count neither as the right side of a conjunction nor as the contents of a
group, and two groups may stand side by side. -/
theorem validate_iff_wellFormed_sample :
    (validate ⟨[.openGroup, .literal "a", .and, .field (.ofField "b"), .literal "c", .closeGroup,
        .openGroup, .literal "d", .closeGroup], [], none⟩ = .ok () ∧
      WellFormed [.opening, .operand, .conjunction, .operand, .closing, .opening, .operand,
        .closing]) ∧
    ¬ WellFormed (symbols [.openGroup, .field (.ofField "b"), .closeGroup]) := by
  refine ⟨⟨rfl, ?_⟩, ?_⟩
  · exact (validate_iff_wellFormed ⟨[.openGroup, .literal "a", .and, .field (.ofField "b"),
      .literal "c", .closeGroup, .openGroup, .literal "d", .closeGroup], [], none⟩).1.mp rfl
  · intro h
    have hvalid := (validate_iff_wellFormed
      ⟨[.openGroup, .field (.ofField "b"), .closeGroup], [], none⟩).1.mpr h
    cases hvalid

end BoundSql.Criteria
