import BoundSql.Proofs.Parameter.History

/-!
# Parameters that stay

A name that a set draws carries a counter that no later draw carries again. What is found under it
therefore stays as the set goes on: further values are bound under later names, explicit names of
another shape are other names, and a set that is taken in leaves what is there alone.
-/

namespace BoundSql.ParameterSet

/-- A set that has drawn names since, and still finds what it found under the names drawn before. -/
structure Keeps (s t : ParameterSet) : Prop where
  /-- The counter has not fallen. -/
  counter_le : s.counter ≤ t.counter
  /-- What a name found that was drawn before, it still finds. -/
  find?_eq : ∀ hint counter suffix, counter ≤ s.counter →
    ∀ p, s.find? (drawnName hint counter suffix) = some p →
      t.find? (drawnName hint counter suffix) = some p

variable {s t u : ParameterSet}

/-- A set keeps what it finds. -/
theorem Keeps.refl (s : ParameterSet) : s.Keeps s :=
  ⟨Nat.le_refl _, fun _ _ _ _ _ h => h⟩

/-- What is kept twice is kept. -/
theorem Keeps.trans (hst : s.Keeps t) (htu : t.Keeps u) : s.Keeps u := by
  refine ⟨Nat.le_trans hst.counter_le htu.counter_le, fun hint counter suffix hle p hp => ?_⟩
  have hkept := hst.find?_eq hint counter suffix hle p hp
  exact htu.find?_eq hint counter suffix (Nat.le_trans hle hst.counter_le) p hkept

/-- Binding one more value leaves the others alone, as its name carries a later counter. -/
theorem keeps_addTemp (s : ParameterSet) (value : Value) (hint : String) :
    s.Keeps (s.addTemp value hint).1 := by
  refine ⟨Nat.le_succ _, fun hint' counter suffix hle p hp => ?_⟩
  have hother : drawnName hint' counter suffix ≠ (s.addTemp value hint).2 := by
    intro hsame
    rw [addTemp_snd] at hsame
    have hcounter := counter_eq_of_drawnName_eq hsame
    omega
  rw [find?_of_entries_eq_put (History.entries_addTemp s value hint), Parameter.given,
    if_neg hother]
  exact hp

/-- Adding under a name that does not have the generated shape leaves the drawn names alone. -/
theorem keeps_addNamed (s : ParameterSet) {name : String}
    (hname : ¬ IsGenerated (Parameter.canonical name)) (value : Value) (direction : Direction) :
    s.Keeps (s.addNamed name value direction).1 := by
  refine ⟨Nat.le_refl _, fun hint counter suffix _ p hp => ?_⟩
  have hother : drawnName hint counter suffix ≠ (s.addNamed name value direction).2 := by
    intro hsame
    have hgenerated := isGenerated_drawnName hint counter suffix
    rw [hsame] at hgenerated
    exact hname hgenerated
  rw [find?_of_entries_eq_put (History.entries_addNamed s name value direction), Parameter.given,
    if_neg hother]
  exact hp

/-- Binding more values leaves the others alone. -/
theorem keeps_addTemps (s : ParameterSet) (bindings : List (String × Value)) :
    s.Keeps (s.addTemps bindings).1 := by
  induction bindings generalizing s with
  | nil => exact .refl s
  | cons binding rest ih => exact (s.keeps_addTemp binding.2 binding.1).trans (ih _)

/-- Taking in one parameter leaves the others alone. -/
theorem find?_importOne {p : Parameter} {name : String} (h : s.find? name = some p)
    (q : Parameter) : (s.importOne q).find? name = some p := by
  unfold importOne
  split
  · exact h
  · unfold find? at h ⊢
    rw [List.find?_append, h]
    rfl

/-- Taking in another set leaves the parameters alone. -/
theorem keeps_extend (s other : ParameterSet) : s.Keeps (s.extend other) := by
  refine ⟨Nat.le_add_right _ _, fun hint counter suffix _ p hp => ?_⟩
  suffices h : ∀ (others : List Parameter) (t : ParameterSet),
      t.find? (drawnName hint counter suffix) = some p →
        (others.foldl importOne t).find? (drawnName hint counter suffix) = some p from
    h other.entries s hp
  intro others
  induction others with
  | nil => exact fun t ht => ht
  | cons q rest ih => exact fun t ht => ih (t.importOne q) (find?_importOne ht q)

/-- A value that is bound next is found under the name that is drawn for it. -/
theorem get?_addTemp (s : ParameterSet) (value : Value) (hint : String) :
    (s.addTemp value hint).1.get? (s.addTemp value hint).2 =
      some (.given (s.addTemp value hint).2 value .input) := by
  have hcanonical : Parameter.canonical (s.addTemp value hint).2 = (s.addTemp value hint).2 := by
    rw [addTemp_snd]
    exact canonical_drawnName _ _ _
  rw [get?, hcanonical, find?_of_entries_eq_put (History.entries_addTemp s value hint)]
  exact if_pos rfl

/-- A set that has a value bound under a name that it drew. -/
def Binds (s : ParameterSet) (name : String) (value : Value) : Prop :=
  s.get? name = some (.given name value .input) ∧
    ∃ hint counter suffix, counter ≤ s.counter ∧ name = drawnName hint counter suffix

/-- A value that is bound next is bound under the name that is drawn for it. -/
theorem binds_addTemp (s : ParameterSet) (value : Value) (hint : String) :
    (s.addTemp value hint).1.Binds (s.addTemp value hint).2 value :=
  ⟨s.get?_addTemp value hint, hint, s.counter + 1, _, Nat.le_refl _, s.addTemp_snd value hint⟩

/-- A value that is bound under a drawn name stays so. -/
theorem Binds.keeps {name : String} {value : Value} (h : s.Binds name value) (hst : s.Keeps t) :
    t.Binds name value := by
  obtain ⟨hbound, hint, counter, suffix, hle, rfl⟩ := h
  refine ⟨?_, hint, counter, suffix, Nat.le_trans hle hst.counter_le, rfl⟩
  unfold get? at hbound ⊢
  rw [canonical_drawnName] at hbound ⊢
  exact hst.find?_eq hint counter suffix hle _ hbound

end BoundSql.ParameterSet
