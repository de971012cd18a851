import Mathlib.Data.List.Basic

/-!
# Rows that open and close

A row whose elements may open or close something is balanced when none of its prefixes closes more
than it opens, and the whole row closes what it opens. Walking along the row with the number of
things that are open decides this, and shows how balanced rows are put together. A text is balanced
when its parentheses are.
-/

namespace BoundSql

/-- What an element of a row does to the number of open things. -/
inductive Side where
  /-- It opens one. -/
  | opening
  /-- It closes one. -/
  | closing
  /-- It does neither. -/
  | neither
  deriving DecidableEq

/-- The number of open things behind an element; nothing, when it closes what was never opened. -/
def Side.move : Side → Nat → Option Nat
  | opening, depth => some (depth + 1)
  | closing, 0 => none
  | closing, depth + 1 => some depth
  | neither, depth => some depth

/-- An element is taken when it closes something that is open or that it opens itself. -/
theorem Side.move_eq_some_iff (s : Side) (depth next : Nat) :
    s.move depth = some next ↔
      next + (if s = closing then 1 else 0) = depth + if s = opening then 1 else 0 := by
  cases s with
  | opening => simp [move, eq_comm]
  | neither => simp [move, eq_comm]
  | closing =>
    cases depth with
    | zero => simp [move]
    | succ depth => simp [move, eq_comm]

namespace Nesting

variable {α : Type} {side : α → Side}

/-- How many elements of a row are on a side. -/
def count (side : α → Side) (s : Side) (row : List α) : Nat :=
  row.countP fun a => side a = s

/-- A row that closes in every prefix at most what is open there, and altogether what it opens. -/
structure Balanced (side : α → Side) (row : List α) : Prop where
  /-- No prefix closes more than it opens. -/
  closed_le : ∀ before, before <+: row → count side .closing before ≤ count side .opening before
  /-- The whole row closes as much as it opens. -/
  closed_eq : count side .closing row = count side .opening row

/-- The number of open things behind a row; nothing, once one is closed that was never opened. -/
def depth? (side : α → Side) (row : List α) (depth : Nat) : Option Nat :=
  row.foldlM (fun depth a => (side a).move depth) depth

/-- Nothing happens along the empty row. -/
@[simp] theorem depth?_nil (depth : Nat) : depth? side [] depth = some depth :=
  rfl

/-- A row is walked along from its first element. -/
theorem depth?_cons (a : α) (rest : List α) (depth : Nat) :
    depth? side (a :: rest) depth = ((side a).move depth).bind (depth? side rest) := by
  rw [depth?, List.foldlM_cons]
  rfl

/-- A row of one element does what the element does. -/
theorem depth?_singleton (a : α) : depth? side [a] = (side a).move := by
  funext depth
  rw [depth?_cons]
  exact Option.bind_fun_some _

/-- Two rows are walked along one after the other. -/
theorem depth?_append (row further : List α) (depth : Nat) :
    depth? side (row ++ further) depth = (depth? side row depth).bind (depth? side further) := by
  rw [depth?, List.foldlM_append]
  rfl

/-- How the numbers of elements on either side grow by one element. -/
theorem count_cons (s : Side) (a : α) (row : List α) :
    count side s (a :: row) = count side s row + if side a = s then 1 else 0 := by
  simp [count, List.countP_cons]

/-- What holds of every prefix of a row holds of the empty one and of those that begin like it. -/
theorem forall_prefix_cons {P : List α → Prop} {a : α} {rest : List α} :
    (∀ before, before <+: a :: rest → P before) ↔
      P [] ∧ ∀ before, before <+: rest → P (a :: before) := by
  constructor
  · intro h
    refine ⟨h [] List.nil_prefix, fun before hbefore => ?_⟩
    exact h (a :: before) (List.cons_prefix_cons.mpr ⟨rfl, hbefore⟩)
  · rintro ⟨hnone, hmore⟩ before hbefore
    rcases List.prefix_cons_iff.mp hbefore with rfl | ⟨tail, rfl, htail⟩
    · exact hnone
    · exact hmore tail htail

/-- Where a walk from some depth ends: it comes through when no prefix closes more than is open
before it and within it, and then what is open behind it is what was not closed. -/
theorem depth?_eq_some_iff (row : List α) (depth last : Nat) :
    depth? side row depth = some last ↔
      (∀ before, before <+: row →
        count side .closing before ≤ depth + count side .opening before) ∧
      last + count side .closing row = depth + count side .opening row := by
  have hnil (s : Side) : count side s [] = 0 := rfl
  induction row generalizing depth with
  | nil =>
    simp only [depth?_nil, Option.some.injEq, List.prefix_nil, forall_eq, hnil]
    omega
  | cons a rest ih =>
    simp only [depth?_cons, Option.bind_eq_some_iff, Side.move_eq_some_iff, ih, forall_prefix_cons,
      count_cons, hnil]
    -- the first element opens or closes, which shifts the bounds of all prefixes alike
    generalize (if side a = .opening then 1 else 0) = opened
    generalize (if side a = .closing then 1 else 0) = closed
    constructor
    · rintro ⟨next, hmove, hbefore, hall⟩
      refine ⟨⟨by omega, fun before h => ?_⟩, by omega⟩
      have hrest := hbefore before h
      omega
    · rintro ⟨⟨-, hbefore⟩, hall⟩
      -- the empty prefix of the rest says that what the first element closes was open
      have hfirst := hbefore [] List.nil_prefix
      rw [hnil, hnil] at hfirst
      refine ⟨depth + opened - closed, by omega, fun before h => ?_, by omega⟩
      have hrest := hbefore before h
      omega

/-- A row is balanced when the walk along it with nothing open ends with nothing open. -/
theorem balanced_iff (row : List α) : Balanced side row ↔ depth? side row 0 = some 0 := by
  rw [depth?_eq_some_iff]
  simp only [Nat.zero_add]
  exact ⟨fun h => ⟨h.closed_le, h.closed_eq⟩, fun h => ⟨h.1, h.2⟩⟩

instance (side : α → Side) (row : List α) : Decidable (Balanced side row) :=
  decidable_of_iff _ (balanced_iff row).symm

/-- A balanced row leaves the number of open things as it is, whatever is open before it. -/
theorem Balanced.depth? {row : List α} (h : Balanced side row) (depth : Nat) :
    depth? side row depth = some depth := by
  rw [depth?_eq_some_iff, h.closed_eq]
  refine ⟨fun before hbefore => ?_, rfl⟩
  have hclosed := h.closed_le before hbefore
  omega

/-- A row whose elements neither open nor close anything is balanced. -/
theorem Balanced.of_forall {row : List α} (h : ∀ a ∈ row, side a = .neither) :
    Balanced side row := by
  rw [balanced_iff]
  induction row with
  | nil => rfl
  | cons a rest ih =>
    rw [depth?_cons, h a List.mem_cons_self]
    exact ih fun b hb => h b (List.mem_cons_of_mem _ hb)

/-- Balanced rows in a row are balanced. -/
theorem Balanced.append {row further : List α} (h : Balanced side row)
    (hfurther : Balanced side further) : Balanced side (row ++ further) := by
  rw [balanced_iff, depth?_append, h.depth?, Option.bind_some, hfurther.depth?]

/-- Elements at either end that neither open nor close anything do not matter. -/
theorem depth?_of_ends {front back : List α} (row : List α)
    (hfront : ∀ a ∈ front, side a = .neither) (hback : ∀ a ∈ back, side a = .neither) :
    Nesting.depth? side (front ++ row ++ back) = Nesting.depth? side row := by
  funext depth
  have hend : Nesting.depth? side back = some := funext (Balanced.of_forall hback).depth?
  rw [depth?_append, depth?_append, (Balanced.of_forall hfront).depth?, Option.bind_some, hend,
    Option.bind_fun_some]

end Nesting

/-! ## Parentheses in texts -/

/-- What a character does to the number of open parentheses. -/
def parenthesis (c : Char) : Side :=
  if c = '(' then .opening else if c = ')' then .closing else .neither

namespace Text

/-- The number of open parentheses behind a text. -/
def depth? (s : String) : Nat → Option Nat :=
  Nesting.depth? parenthesis s.toList

/-- A text whose parentheses are balanced. -/
def Balanced (s : String) : Prop :=
  Nesting.Balanced parenthesis s.toList

instance (s : String) : Decidable (Balanced s) :=
  inferInstanceAs (Decidable (Nesting.Balanced parenthesis s.toList))

/-- A text is walked along piece by piece. -/
theorem depth?_append (s t : String) (depth : Nat) :
    depth? (s ++ t) depth = (depth? s depth).bind (depth? t) := by
  rw [depth?, String.toList_append, Nesting.depth?_append]
  rfl

/-- A text without parentheses is balanced. -/
theorem Balanced.of_forall {s : String} (h : ∀ c ∈ s.toList, parenthesis c = .neither) :
    Balanced s :=
  Nesting.Balanced.of_forall h

/-- A balanced text leaves the number of open parentheses as it is. -/
theorem Balanced.depth?_eq {s : String} (h : Balanced s) : depth? s = some :=
  funext (Nesting.Balanced.depth? h)

/-- Balanced texts in a row are balanced. -/
theorem Balanced.append {s t : String} (hs : Balanced s) (ht : Balanced t) : Balanced (s ++ t) := by
  unfold Balanced
  rw [String.toList_append]
  exact Nesting.Balanced.append hs ht

end Text

end BoundSql
