import BoundSql.Proofs.Text.Nesting

/-!
# Openings that nothing closes

An opening is closed when a balanced row stands behind it and then a closing. A walk that starts
with nothing open fails behind an opening exactly when the opening is closed. So a walk that comes
through from nothing open ends with as many open things as there are openings that nothing closes.
-/

namespace BoundSql.Nesting

variable {α : Type} {side : α → Side}

/-- A row that closes what is open before it: it begins with a balanced row and a closing. -/
def Closes (side : α → Side) (row : List α) : Prop :=
  ∃ inside a behind, row = inside ++ a :: behind ∧ Balanced side inside ∧ side a = .closing

/-- A walk that fails has closed all that was open, and meets one more closing. -/
theorem exists_of_depth?_eq_none {row : List α} {depth : Nat} (h : depth? side row depth = none) :
    ∃ inside a behind, row = inside ++ a :: behind ∧ depth? side inside depth = some 0 ∧
      side a = .closing := by
  induction row generalizing depth with
  | nil => cases h
  | cons a rest ih =>
    rw [depth?_cons] at h
    cases hmove : (side a).move depth with
    | none =>
      have hclosing : side a = .closing ∧ depth = 0 := by
        cases hside : side a <;> cases depth <;> simp_all [Side.move]
      obtain ⟨hside, rfl⟩ := hclosing
      exact ⟨[], a, rest, rfl, rfl, hside⟩
    | some next =>
      rw [hmove, Option.bind_some] at h
      obtain ⟨inside, b, behind, rfl, hinside, hb⟩ := ih h
      have hwalk : depth? side (a :: inside) depth = some 0 := by
        rw [depth?_cons, hmove, Option.bind_some, hinside]
      exact ⟨a :: inside, b, behind, rfl, hwalk, hb⟩

/-- A walk from nothing open fails exactly along a row that closes what is open before it. -/
theorem depth?_eq_none_iff (row : List α) : depth? side row 0 = none ↔ Closes side row := by
  constructor
  · intro h
    obtain ⟨inside, a, behind, hrow, hinside, ha⟩ := exists_of_depth?_eq_none h
    exact ⟨inside, a, behind, hrow, (balanced_iff inside).mpr hinside, ha⟩
  · rintro ⟨inside, a, behind, rfl, hinside, ha⟩
    rw [depth?_append, hinside.depth?, Option.bind_some, depth?_cons, ha]
    rfl

instance (side : α → Side) (row : List α) : Decidable (Closes side row) :=
  decidable_of_iff _ (depth?_eq_none_iff row)

/-- How many openings of a row nothing behind them closes. -/
def unclosed (side : α → Side) : List α → Nat
  | [] => 0
  | a :: rest => unclosed side rest + if side a = .opening ∧ ¬ Closes side rest then 1 else 0

/-- One more thing that is open before a walk is open behind it. -/
theorem depth?_succ {row : List α} {depth last : Nat} (h : depth? side row depth = some last) :
    depth? side row (depth + 1) = some (last + 1) := by
  rw [depth?_eq_some_iff] at h ⊢
  obtain ⟨hbefore, hall⟩ := h
  refine ⟨fun before hprefix => ?_, by omega⟩
  have hclosed := hbefore before hprefix
  omega

/-- The walk from the least depth from which it comes through ends with the openings that nothing
closes. -/
theorem unclosed_eq_of_least {row : List α} {depth last : Nat}
    (h : depth? side row depth = some last)
    (hleast : ∀ lower < depth, depth? side row lower = none) : unclosed side row = last := by
  induction row generalizing depth last with
  | nil =>
    cases depth with
    | zero => exact Option.some.inj h
    | succ depth => cases hleast depth (Nat.lt_succ_self depth)
  | cons a rest ih =>
    rw [depth?_cons] at h
    simp only [depth?_cons] at hleast
    cases hside : side a with
    | neither =>
      simp only [hside, Side.move, Option.bind_some] at h hleast
      simp [unclosed, hside, ih h hleast]
    | closing =>
      rw [hside] at h
      cases depth with
      | zero => cases h
      | succ depth =>
        have hrest : ∀ lower < depth, depth? side rest lower = none := by
          intro lower hlower
          have hnone := hleast (lower + 1) (by omega)
          rwa [hside] at hnone
        simp [unclosed, hside, ih h hrest]
    | opening =>
      simp only [hside, Side.move, Option.bind_some] at h hleast
      cases hrest : depth? side rest 0 with
      | none =>
        -- the opening is closed, and the rest comes through from no lower depth
        have hcloses : Closes side rest := (depth?_eq_none_iff rest).mp hrest
        have hlower : ∀ lower < depth + 1, depth? side rest lower = none := by
          intro lower hlower
          cases lower with
          | zero => exact hrest
          | succ lower => exact hleast lower (by omega)
        simp [unclosed, hside, hcloses, ih h hlower]
      | some left =>
        have hopen : ¬ Closes side rest := by
          rw [← depth?_eq_none_iff, hrest]
          exact Option.some_ne_none left
        have hmore : depth? side rest (0 + 1) = some (left + 1) := depth?_succ hrest
        cases depth with
        | zero =>
          have hlast : left + 1 = last := Option.some.inj (hmore.symm.trans h)
          have hunclosed : unclosed side rest = left :=
            ih hrest fun lower hlower => absurd hlower (Nat.not_lt_zero lower)
          simp [unclosed, hside, hopen, hunclosed, hlast]
        | succ depth =>
          have hnone := hleast 0 (by omega)
          rw [hmore] at hnone
          cases hnone

/-- Behind a row that closes nothing but what it opens, those things are open that nothing in the
row closes. -/
theorem unclosed_eq {row : List α} {last : Nat} (h : depth? side row 0 = some last) :
    unclosed side row = last :=
  unclosed_eq_of_least h fun lower hlower => absurd hlower (Nat.not_lt_zero lower)

end BoundSql.Nesting
