import BoundSql.Settings.Tree

/-!
# What an assignment changes

A value that is put at a path of names is found there, it takes the place of what was put there
before, and whatever stands on a path that parts from it stays. A plain value or a list that is in
the way of a path of names gives place to a table; no path of names led through it before.
-/

namespace BoundSql

/-- Two paths of names that part at some step. -/
inductive Path.Parts : Path → Path → Prop where
  /-- They part at once. -/
  | here {a b : String} {p q : Path} (h : a ≠ b) : Parts (.name a :: p) (.name b :: q)
  /-- They part further down. -/
  | later {a : String} {p q : Path} (h : Parts p q) : Parts (.name a :: p) (.name a :: q)

namespace Tree

/-- An entry is found once it is replaced or added. -/
theorem lookup_insert_self (name : String) (sub : Tree) (es : List (String × Tree)) :
    (insert name sub es).lookup name = some sub := by
  induction es with
  | nil => simp [insert]
  | cons e rest ih =>
    obtain ⟨key, node⟩ := e
    by_cases h : key = name
    · simp [insert, h]
    · have hne : (name == key) = false := beq_false_of_ne (Ne.symm h)
      simp [insert, h, List.lookup_cons, hne, ih]

/-- Every other entry is found as before. -/
theorem lookup_insert_of_ne {name other : String} (h : other ≠ name) (sub : Tree)
    (es : List (String × Tree)) : (insert name sub es).lookup other = es.lookup other := by
  have hne : (other == name) = false := beq_false_of_ne h
  induction es with
  | nil => simp [insert, List.lookup_cons, hne]
  | cons e rest ih =>
    obtain ⟨key, node⟩ := e
    by_cases hkey : key = name
    · simp [insert, List.lookup_cons, hkey, hne]
    · simp [insert, List.lookup_cons, hkey, ih]

/-- An entry that is replaced twice is the second one. -/
theorem insert_insert (name : String) (first second : Tree) (es : List (String × Tree)) :
    insert name second (insert name first es) = insert name second es := by
  induction es with
  | nil => simp [insert]
  | cons e rest ih =>
    by_cases h : e.1 = name
    · simp [insert, h]
    · simp [insert, h, ih]

/-- The way through a name leads on from what stands behind it. -/
theorem find?_name_cons (name : String) (q : Path) (t : Tree) :
    t.find? (.name name :: q) = (t.child? name).bind (find? q) := rfl

variable {change : Tree → Tree} {p q : Path}

/-- What stands behind a name after a change further down. -/
theorem child?_modify_self (name : String) (p : Path) (t : Tree) :
    (modify change (.name name :: p) t).child? name =
      some (modify change p ((t.child? name).getD absent)) :=
  lookup_insert_self name _ t.entries

/-- A change leaves what stands on a path that parts from it. -/
theorem find?_modify_of_parts (h : Path.Parts p q) (t : Tree) :
    (modify change p t).find? q = t.find? q := by
  induction h generalizing t with
  | @here a b p q hne =>
    have hchild : (modify change (.name a :: p) t).child? b = t.child? b :=
      lookup_insert_of_ne (Ne.symm hne) _ t.entries
    rw [find?_name_cons, find?_name_cons, hchild]
  | @later a p q hparts ih =>
    rw [find?_name_cons, find?_name_cons, child?_modify_self, Option.bind_some, ih]
    cases t.child? a with
    | some node => rfl
    | none =>
      -- the other path has a step left, and it leads nowhere from an empty place
      cases hparts <;> rfl

/-- A value that is put at a path of names is found there. -/
theorem find?_assign_value (names : List String) (value : Scalar) (t : Tree) :
    (t.assign ⟨names.map .name, .value value⟩).find? (names.map .name) = some (.leaf value) := by
  induction names generalizing t with
  | nil => rfl
  | cons name names ih =>
    rw [List.map_cons, find?_name_cons, assign, child?_modify_self]
    exact ih _

/-- A value takes the place of the one that was put at the same path of names before. -/
theorem assign_assign_value (names : List String) (first second : Scalar) (t : Tree) :
    (t.assign ⟨names.map .name, .value first⟩).assign ⟨names.map .name, .value second⟩ =
      t.assign ⟨names.map .name, .value second⟩ := by
  induction names generalizing t with
  | nil => rfl
  | cons name names ih =>
    have hbelow := ih ((t.child? name).getD absent)
    simp only [assign] at hbelow
    simp only [assign, List.map_cons, modify]
    have hchild := @child?_modify_self (fun _ => leaf first) name (names.map .name) t
    simp only [modify] at hchild
    rw [hchild, Option.getD_some, hbelow]
    exact congrArg table (insert_insert name _ _ t.entries)

/-- An assignment leaves what stands on a path that parts from its own. -/
theorem find?_assign_of_parts (content : Content) (h : Path.Parts p q) (t : Tree) :
    (t.assign ⟨p, content⟩).find? q = t.find? q :=
  find?_modify_of_parts h t

/-- There is a table on every part of the way to an assignment. -/
theorem find?_assign_above (content : Content) (name below : String) (p : Path) (t : Tree) :
    ∃ es, (t.assign ⟨.name name :: .name below :: p, content⟩).find? [.name name] =
      some (.table es) := by
  rw [assign, find?_name_cons, child?_modify_self, Option.bind_some]
  exact ⟨_, rfl⟩

end Tree

end BoundSql
