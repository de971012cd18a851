import BoundSql.Proofs.Parameter.History

/-!
# Generated names are fresh

A set passes a counter with every name that it generates, and with every set that it takes in it
passes that set's counters as well. As long as no name of the generated shape is added explicitly, a
name with the next counter is therefore new, whichever suffixes were drawn before and come up again.
-/

namespace BoundSql.ParameterSet

/-- Putting a parameter keeps a set past its counters if it is past the counter of the new name. -/
theorem Passed.put {s t : ParameterSet} (h : s.Passed) {p : Parameter}
    (ht : t.entries = ParameterSet.put p s.entries) (hcounter : s.counter ≤ t.counter)
    (hp : IsGenerated p.name → ∃ hint counter suffix,
      counter ≤ t.counter ∧ p.name = drawnName hint counter suffix) : t.Passed := by
  intro name hname hgenerated
  rcases mem_names_of_entries_eq_put ht hname with hname | rfl
  · obtain ⟨hint, counter, suffix, hle, hdrawn⟩ := h name hname hgenerated
    exact ⟨hint, counter, suffix, Nat.le_trans hle hcounter, hdrawn⟩
  · exact hp hgenerated

/-- A set that takes in another one is past the counters of both. -/
theorem Passed.extend {s other : ParameterSet} (h : s.Passed) (hother : other.Passed)
    (hnames : other.WellNamed) : (s.extend other).Passed := by
  have hcounter : (s.extend other).counter = s.counter + other.counter := rfl
  intro name hname hgenerated
  rcases hnames.mem_names_extend hname with hname | hname
  · obtain ⟨hint, counter, suffix, hle, hdrawn⟩ := h name hname hgenerated
    exact ⟨hint, counter, suffix, by omega, hdrawn⟩
  · obtain ⟨hint, counter, suffix, hle, hdrawn⟩ := hother name hname hgenerated
    exact ⟨hint, counter, suffix, by omega, hdrawn⟩

namespace History

/-- A history in which no name whose canonical form has the generated shape is added explicitly,
neither to the set itself nor to one that is taken in. -/
def Unforged : History → Prop
  | empty _ => True
  | supplied h _ => h.Unforged
  | addNamed h name _ _ => h.Unforged ∧ ¬ IsGenerated (Parameter.canonical name)
  | addTemp h _ _ => h.Unforged
  | extend h other => h.Unforged ∧ other.Unforged

/-- A set is past the counters of all the names that were generated on the way to it. -/
theorem Unforged.passed {h : History} (hunforged : h.Unforged) : h.set.Passed := by
  induction h with
  | empty supply => exact (Numbered.empty supply).passed
  | supplied h supply ih => exact ih hunforged
  | addNamed h name value direction ih =>
    exact (ih hunforged.1).put (entries_addNamed h.set name value direction) (Nat.le_refl _)
      fun hgenerated => absurd hgenerated hunforged.2
  | addTemp h value hint ih =>
    exact (ih hunforged).put (entries_addTemp h.set value hint) (Nat.le_succ _)
      fun _ => ⟨hint, h.set.counter + 1, _, Nat.le_refl _, addTemp_snd h.set value hint⟩
  | extend h other ih ihother =>
    exact (ih hunforged.1).extend (ihother hunforged.2) other.wellNamed_set

/-- A generated name is new to its set, whatever suffixes are drawn: the parameter is added at the
end, and every name that found a parameter finds the same one. -/
theorem addTemp_fresh {h : History} (hunforged : h.Unforged) (value : Value) (hint : String) :
    let added := h.set.addTemp value hint
    h.set.contains added.2 = false ∧ added.1.size = h.set.size + 1 ∧
      added.1.entries = h.set.entries ++ [.given added.2 value .input] ∧
      ∀ name p, h.set.get? name = some p → added.1.get? name = some p := by
  intro added
  have hputs : h.set.Puts added.1 (.given added.2 value .input) :=
    h.wellNamed_set.puts (entries_addTemp h.set value hint)
  have hcanonical : Parameter.canonical added.2 = added.2 :=
    Parameter.canonical_of_isReference (isReference_addTemp h.set value hint)
  have hnew : added.2 ∉ h.set.names := by
    rw [addTemp_snd h.set value hint]
    exact hunforged.passed.drawnName_not_mem (Nat.lt_succ_self _) hint _
  have hcontains : h.set.contains added.2 = false := by
    rw [Bool.eq_false_iff, ne_eq, contains_iff, hcanonical]
    exact hnew
  have hentries := hputs.added hnew
  refine ⟨hcontains, ?_, hentries, ?_⟩
  · rw [size, hentries, List.length_append, List.length_singleton, size]
  · intro name p hfound
    -- The name that was added finds nothing before.
    have hother : Parameter.canonical name ≠ added.2 := by
      intro hsame
      have hmissing : (h.set.get? added.2).isSome = false := hcontains
      rw [get?, hcanonical, ← hsame, ← get?, hfound] at hmissing
      exact Bool.noConfusion hmissing
    rw [hputs.get?_other name hother, hfound]

/-- Two sets that drew the same name, of which the one takes in the other. -/
def sample : History :=
  let drawn := (empty fun _ => .ofNumber 0).addTemp (.int 1) "order_1"
  (drawn.addNamed "order date" .null .input).extend drawn

/-- The next name is new although the suffix comes up for the third time. -/
theorem addTemp_fresh_sample :
    sample.Unforged ∧
      sample.set.contains (sample.set.addTemp (.int 2) "order_1").2 = false := by
  have hexplicit : ¬ IsGenerated (Parameter.canonical "order date") := fun hgenerated =>
    absurd hgenerated.getElem?_reverse (by decide)
  have hunforged : sample.Unforged := ⟨⟨trivial, hexplicit⟩, trivial⟩
  exact ⟨hunforged, (addTemp_fresh hunforged (.int 2) "order_1").1⟩

end History

end BoundSql.ParameterSet
