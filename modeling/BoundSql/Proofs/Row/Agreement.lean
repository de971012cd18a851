import BoundSql.Proofs.Text.Name
import BoundSql.Row.Fill

/-!
# Filling members agrees with looking up records

Members are filled column by column along a plan that never fills a member twice. Records are
read name by name, and the first matching column counts. For a member that no earlier member
shadows both ways find the same column, and for a shadowed one the plan finds none.
-/

namespace BoundSql

namespace Shape

/-- Whether a member in front of a place has a matching name: then no column reaches the place. -/
def isShadowed (shape : Shape) (i : Nat) (name : String) : Bool :=
  (shape.take i).any fun m => Name.same m.name name

/-- The value that the first matching column gives to a member, if the row reaches that far. -/
def firstMatch? (shape : Shape) (i : Nat) (columns : List String) (values : List Value) :
    Option Value :=
  (columns.findIdx? fun c => shape.position? c == some i).bind fun k => values[k]?

/-- Members filled column by column from an item and the places that are claimed already. -/
def fillFrom (shape : Shape) (engine : Engine) (claimed : List Nat) (item : Item)
    (columns : List String) (values : List Value) : Item :=
  ((shape.planFrom claimed columns).zip values).foldl
    (fun item (place, raw) => shape.assign engine item place raw) item

/-- A fresh item is filled from the initial contents with nothing claimed. -/
theorem fillOne_eq_fillFrom (shape : Shape) (engine : Engine) (columns : List String)
    (values : List Value) :
    shape.fillOne engine columns values =
      shape.fillFrom engine [] shape.initial columns values := rfl

/-- Assigning to one place leaves every other place as it was. -/
theorem getElem?_assign_of_ne (shape : Shape) (engine : Engine) (item : Item) (raw : Value)
    {i : Nat} {place : Option Nat} (h : place ≠ some i) :
    (shape.assign engine item place raw)[i]? = item[i]? := by
  unfold assign
  cases place with
  | none => rfl
  | some j =>
    have hne : j ≠ i := fun hji => h (congrArg some hji)
    cases hj : shape[j]? with
    | none => simp [hj]
    | some m =>
      cases hc : engine.cell? m.target raw with
      | none => simp [hj, hc]
      | some cell => simp [hj, hc, List.getElem?_set_ne hne]

/-- Assigning to a place puts the coerced value there, or leaves what was there. -/
theorem getElem?_assign_self (shape : Shape) (engine : Engine) (item : Item) (raw : Value)
    {i : Nat} {m : Member} (hm : shape[i]? = some m) :
    (shape.assign engine item (some i) raw)[i]? =
      item[i]?.map fun cell => (engine.cell? m.target raw).getD cell := by
  unfold assign
  cases hc : engine.cell? m.target raw with
  | none => simp [hm, hc]
  | some cell =>
    simp only [hm, hc, Option.bind_some, Option.map_some, Option.getD_some,
      List.getElem?_set_self']
    rfl

/-- A row without values changes nothing. -/
theorem fillFrom_nil (shape : Shape) (engine : Engine) (claimed : List Nat) (item : Item)
    (columns : List String) : shape.fillFrom engine claimed item columns [] = item := by
  simp [fillFrom]

/-- The first column of a row is put where its name leads, unless that place is claimed, and the
other columns follow. -/
theorem fillFrom_cons (shape : Shape) (engine : Engine) (claimed : List Nat) (item : Item)
    (column : String) (columns : List String) (raw : Value) (values : List Value) :
    shape.fillFrom engine claimed item (column :: columns) (raw :: values) =
      match shape.position? column with
      | none => shape.fillFrom engine claimed item columns values
      | some i =>
        if i ∈ claimed then shape.fillFrom engine claimed item columns values
        else
          shape.fillFrom engine (i :: claimed) (shape.assign engine item (some i) raw) columns
            values := by
  have hnone : shape.assign engine item none raw = item := rfl
  cases hp : shape.position? column with
  | none => simp only [fillFrom, planFrom, hp, List.zip_cons_cons, List.foldl_cons, hnone]
  | some i =>
    simp only [fillFrom, planFrom, hp]
    split <;> simp only [List.zip_cons_cons, List.foldl_cons, hnone]

/-- A claimed place is never written again. -/
theorem getElem?_fillFrom_of_mem (shape : Shape) (engine : Engine) {i : Nat} {claimed : List Nat}
    (h : i ∈ claimed) (item : Item) (columns : List String) (values : List Value) :
    (shape.fillFrom engine claimed item columns values)[i]? = item[i]? := by
  induction columns generalizing claimed item values with
  | nil => rfl
  | cons column columns ih =>
    cases values with
    | nil => rw [fillFrom_nil]
    | cons raw values =>
      rw [fillFrom_cons]
      split
      · exact ih h item values
      · rename_i j _
        split
        · exact ih h item values
        · rename_i hj
          have hne : some j ≠ some i := fun hji => hj (Option.some.inj hji ▸ h)
          rw [ih (List.mem_cons_of_mem j h), getElem?_assign_of_ne _ _ _ _ hne]

/-- An unclaimed place takes the value of the first column that leads to it, when that value can be
coerced, and keeps its contents otherwise. -/
theorem getElem?_fillFrom (shape : Shape) (engine : Engine) {i : Nat} {m : Member}
    (hm : shape[i]? = some m) {claimed : List Nat} (h : i ∉ claimed) (item : Item)
    (columns : List String) (values : List Value) :
    (shape.fillFrom engine claimed item columns values)[i]? =
      item[i]?.map fun cell =>
        ((shape.firstMatch? i columns values).bind (engine.cell? m.target)).getD cell := by
  induction columns generalizing claimed item values with
  | nil => simp [fillFrom, planFrom, firstMatch?]
  | cons column columns ih =>
    cases values with
    | nil => simp [fillFrom_nil, firstMatch?, Option.bind_eq_none_iff.mpr]
    | cons raw values =>
      rw [fillFrom_cons]
      have hskip (hp : shape.position? column ≠ some i) :
          shape.firstMatch? i (column :: columns) (raw :: values) =
            shape.firstMatch? i columns values := by
        have hb : (shape.position? column == some i) = false := beq_eq_false_iff_ne.mpr hp
        simp only [firstMatch?, List.findIdx?_cons, hb, Bool.false_eq_true, if_false]
        cases columns.findIdx? fun c => shape.position? c == some i <;> rfl
      split
      · rename_i hp
        rw [ih h, hskip (by simp [hp])]
      · rename_i j hp
        by_cases hji : j = i
        · subst hji
          have htake : shape.firstMatch? j (column :: columns) (raw :: values) = some raw := by
            simp [firstMatch?, List.findIdx?_cons, hp]
          rw [if_neg h, getElem?_fillFrom_of_mem _ _ List.mem_cons_self,
            getElem?_assign_self _ _ _ _ hm, htake]
          rfl
        · have hne : some j ≠ some i := fun hs => hji (Option.some.inj hs)
          rw [hskip (by simp [hp, hji])]
          split
          · exact ih h item values
          · have hfresh : i ∉ j :: claimed := by simp [h, Ne.symm hji]
            rw [ih hfresh, getElem?_assign_of_ne _ _ _ _ hne]

/-- Names that match each other are shadowed at the same places. -/
theorem isShadowed_congr (shape : Shape) (i : Nat) {a b : String} (h : Name.same a b = true) :
    shape.isShadowed i a = shape.isShadowed i b := by
  unfold isShadowed
  exact List.any_congr rfl fun m => Name.same_congr_right h m.name

/-- A column leads to a place when it matches the name there and no name in front of it. -/
theorem position?_eq_some_iff (shape : Shape) {i : Nat} {m : Member} (hm : shape[i]? = some m)
    (column : String) :
    shape.position? column = some i ↔
      Name.same m.name column = true ∧ shape.isShadowed i column = false := by
  obtain ⟨hi, rfl⟩ := List.getElem?_eq_some_iff.mp hm
  simp only [position?, Name.position?, List.findIdx?_map, List.findIdx?_eq_some_iff_getElem,
    Function.comp_apply, isShadowed, List.any_eq_false, List.mem_take_iff_getElem]
  constructor
  · rintro ⟨_, hsame, hfirst⟩
    refine ⟨hsame, ?_⟩
    rintro _ ⟨j, hj, rfl⟩
    exact hfirst j (by omega)
  · rintro ⟨hsame, hfirst⟩
    exact ⟨hi, hsame, fun j hj => hfirst _ ⟨j, by omega, rfl⟩⟩

/-- The column that fills a member is the one that a record finds under the member's name. -/
theorem firstMatch?_of_not_isShadowed (shape : Shape) {i : Nat} {m : Member}
    (hm : shape[i]? = some m) (hs : shape.isShadowed i m.name = false) (columns : List String)
    (values : List Value) (engine : Engine) :
    shape.firstMatch? i columns values = Record.get? ⟨columns, values, engine⟩ m.name := by
  have hpoint (c : String) : (shape.position? c == some i) = Name.same c m.name := by
    rw [Bool.eq_iff_iff, beq_iff_eq, position?_eq_some_iff shape hm, Name.same_comm c]
    exact ⟨And.left, fun h => ⟨h, (isShadowed_congr shape i h).symm.trans hs⟩⟩
  simp only [firstMatch?, Record.get?, Name.position?, hpoint]

/-- No column fills a member that an earlier one shadows. -/
theorem firstMatch?_of_isShadowed (shape : Shape) {i : Nat} {m : Member}
    (hm : shape[i]? = some m) (hs : shape.isShadowed i m.name = true) (columns : List String)
    (values : List Value) : shape.firstMatch? i columns values = none := by
  have hpoint (c : String) : (shape.position? c == some i) = false := by
    rw [beq_eq_false_iff_ne, ne_eq, position?_eq_some_iff shape hm]
    rintro ⟨hsame, hfirst⟩
    rw [← isShadowed_congr shape i hsame, hs] at hfirst
    exact Bool.noConfusion hfirst
  have hnone : columns.findIdx? (fun c => shape.position? c == some i) = none :=
    List.findIdx?_eq_none_iff.mpr fun c _ => hpoint c
  rw [firstMatch?, hnone, Option.bind_none]

end Shape

namespace Record

/-- Only the first matching column of a record counts. -/
theorem get?_append_cons (engine : Engine) {name column : String} {before : List String}
    (hbefore : ∀ c ∈ before, Name.same c name = false) (hcolumn : Name.same column name = true)
    (after : List String) (values : List Value) :
    get? ⟨before ++ column :: after, values, engine⟩ name = values[before.length]? := by
  have hfind : Name.position? (before ++ column :: after) name = some before.length := by
    have hnone : before.findIdx? (Name.same · name) = none :=
      List.findIdx?_eq_none_iff.mpr hbefore
    simp [Name.position?, List.findIdx?_append, hnone, List.findIdx?_cons, hcolumn]
  simp only [get?, hfind, Option.bind_some]

/-- A column is found under its own name when it comes first. -/
theorem getAs?_head (engine : Engine) (target : Target) (column : String) (columns : List String)
    (values : List Value) :
    getAs? ⟨column :: columns, values, engine⟩ target column = engine.scalar? target values := by
  have hnone : ∀ c ∈ ([] : List String), Name.same c column = false := by simp
  have hget := get?_append_cons engine hnone (Name.same_refl column) columns values
  rw [List.nil_append] at hget
  simp only [getAs?, hget, Engine.scalar?, List.length_nil, List.head?_eq_getElem?]

end Record

/-- A row fills a member with what a record of the same row holds under its name, coerced and
unwrapped, and with its initial contents when there is no such thing or an earlier member shadows
it. Later columns of the same name never count, and the scalar of a row is its first column. -/
theorem Shape.fillOne_agrees (shape : Shape) (engine : Engine) (columns : List String)
    (values : List Value) (i : Nat) (m : Member) (hm : shape[i]? = some m) :
    (shape.fillOne engine columns values)[i]? =
        some (if shape.isShadowed i m.name then m.initial
          else (Record.getAs? ⟨columns, values, engine⟩ m.target m.name).getD m.initial) ∧
      (∀ before column after, columns = before ++ column :: after →
        (∀ c ∈ before, Name.same c m.name = false) → Name.same column m.name = true →
        (values[before.length]?).bind (engine.cell? m.target) = none →
        (shape.fillOne engine columns values)[i]? = some m.initial) ∧
      (∀ target column rest, columns = column :: rest →
        engine.scalar? target values = Record.getAs? ⟨columns, values, engine⟩ target column) := by
  have hinitial : shape.initial[i]? = some m.initial := by simp [Shape.initial, hm]
  have hfill : (shape.fillOne engine columns values)[i]? =
      some (if shape.isShadowed i m.name then m.initial
        else (Record.getAs? ⟨columns, values, engine⟩ m.target m.name).getD m.initial) := by
    rw [fillOne_eq_fillFrom, getElem?_fillFrom shape engine hm List.not_mem_nil, hinitial,
      Option.map_some]
    cases hs : shape.isShadowed i m.name with
    | true => rw [firstMatch?_of_isShadowed shape hm hs]; rfl
    | false => rw [firstMatch?_of_not_isShadowed shape hm hs columns values engine]; rfl
  refine ⟨hfill, ?_, ?_⟩
  · rintro before column after rfl hbefore hcolumn hnone
    have hget :
        Record.getAs? ⟨before ++ column :: after, values, engine⟩ m.target m.name = none := by
      rw [Record.getAs?, Record.get?_append_cons engine hbefore hcolumn, hnone]
    rw [hfill, hget, Option.getD_none, ite_self]
  · rintro target column rest rfl
    exact (Record.getAs?_head engine target column rest values).symm

/-- The first column counts even when it holds nothing and a later one of the same name does. -/
theorem Shape.fillOne_agrees_missing :
    [Member.ofTarget "Id" (.integer .int64), Member.ofTarget "Name" .text][1]? =
        some (Member.ofTarget "Name" .text) ∧
      (Shape.fillOne [Member.ofTarget "Id" (.integer .int64), Member.ofTarget "Name" .text]
        Engine.standard ["NAME", "iD", "name"] [.null, .int 7, .text "Ann"])[1]? =
          some (.text "") := by
  refine ⟨rfl, ?_⟩
  exact (fillOne_agrees _ Engine.standard _ _ 1 (Member.ofTarget "Name" .text) rfl).2.1
    [] "NAME" ["iD", "name"] rfl (by simp) (by decide) rfl

end BoundSql
