import BoundSql.Proofs.Parameter.Name

/-!
# Sets of parameters and generated names

In a set whose names were all drawn, the next name is new: no name carries a larger counter than
the set. Binding values one after the other therefore adds one parameter each at the end, and a set
whose names are not taken is taken in as it is. Which names a set holds never depends on the values
that are bound to them.
-/

namespace BoundSql.ParameterSet

/-- The values in order. -/
def values (s : ParameterSet) : List Value :=
  s.entries.map Parameter.value

/-- A name that is not taken is put at the end. -/
theorem put_of_not_mem {p : Parameter} {entries : List Parameter}
    (h : p.name ∉ entries.map Parameter.name) : put p entries = entries ++ [p] := by
  induction entries with
  | nil => rfl
  | cons q rest ih =>
    obtain ⟨hq, hrest⟩ := not_or.mp (mt List.mem_cons.mpr h)
    rw [put, if_neg (Ne.symm hq), ih hrest, List.cons_append]

/-- Putting a parameter adds its name at the end unless it is taken. -/
theorem map_name_put (p : Parameter) (entries : List Parameter) :
    (put p entries).map Parameter.name =
      if p.name ∈ entries.map Parameter.name then entries.map Parameter.name
      else entries.map Parameter.name ++ [p.name] := by
  induction entries with
  | nil => rfl
  | cons q rest ih =>
    by_cases hq : q.name = p.name
    · simp [put, hq]
    · simp only [put, if_neg hq, List.map_cons, ih, List.mem_cons, Ne.symm hq, false_or]
      split <;> rfl

/-- A set has a parameter exactly under the canonical forms of its names. -/
theorem contains_iff (s : ParameterSet) (name : String) :
    s.contains name = true ↔ Parameter.canonical name ∈ s.names := by
  simp only [contains, get?, find?, names, List.find?_isSome, List.mem_map, beq_iff_eq]

/-- A set that has passed the counters with which its names of the generated shape were drawn. -/
def Passed (s : ParameterSet) : Prop :=
  ∀ name ∈ s.names, IsGenerated name → ∃ hint counter suffix,
    counter ≤ s.counter ∧ name = drawnName hint counter suffix

/-- A name that is drawn with a counter that a set has not reached is not taken. -/
theorem Passed.drawnName_not_mem {s : ParameterSet} (h : s.Passed) {counter : Nat}
    (hcounter : s.counter < counter) (hint : String) (suffix : Suffix) :
    drawnName hint counter suffix ∉ s.names := by
  intro hmem
  obtain ⟨hint', counter', suffix', hle, heq⟩ :=
    h _ hmem (isGenerated_drawnName hint counter suffix)
  have hcounters := counter_eq_of_drawnName_eq heq
  omega

/-- A set whose names were drawn with different counters, none of them larger than its own. -/
structure Numbered (s : ParameterSet) : Prop where
  /-- Every name was drawn with a counter that the set has passed. -/
  drawn : ∀ name ∈ s.names, ∃ hint counter suffix,
    counter ≤ s.counter ∧ name = drawnName hint counter suffix
  /-- No name occurs twice. -/
  nodup : s.names.Nodup

/-- The empty set has no names. -/
theorem Numbered.empty (supply : Supply) : (empty supply).Numbered :=
  ⟨fun _ hname => absurd hname List.not_mem_nil, List.nodup_nil⟩

/-- The names of a set whose names were drawn are canonical. -/
theorem Numbered.canonical_eq {s : ParameterSet} (h : s.Numbered) {name : String}
    (hname : name ∈ s.names) : Parameter.canonical name = name := by
  obtain ⟨hint, counter, suffix, -, rfl⟩ := h.drawn name hname
  exact canonical_drawnName hint counter suffix

/-- A set whose names were drawn has passed all their counters. -/
theorem Numbered.passed {s : ParameterSet} (h : s.Numbered) : s.Passed :=
  fun name hname _ => h.drawn name hname

/-- A set that has grown at its end by one parameter for each of some references. -/
structure Grows (s t : ParameterSet) (references : List String) (values : List Value) : Prop where
  /-- The names of the grown set were drawn as well. -/
  numbered : t.Numbered
  /-- The new names are the references. -/
  names_eq : t.names = s.names ++ references
  /-- The new parameters have the values. -/
  values_eq : t.values = s.values ++ values

/-- A set whose names were drawn has grown by nothing. -/
theorem Numbered.grows {s : ParameterSet} (h : s.Numbered) : s.Grows s [] [] where
  numbered := h
  names_eq := (List.append_nil _).symm
  values_eq := (List.append_nil _).symm

/-- A reference to a new parameter is a token from end to end. -/
theorem Grows.isReference {s t : ParameterSet} {references : List String} {values : List Value}
    (h : s.Grows t references values) {reference : String} (hmem : reference ∈ references) :
    Token.IsReference reference := by
  have hname : reference ∈ t.names := h.names_eq ▸ List.mem_append_right _ hmem
  obtain ⟨hint, counter, suffix, -, rfl⟩ := h.numbered.drawn _ hname
  exact isReference_drawnName hint counter suffix

/-- Growing twice adds the references and the values of both times in order. -/
theorem Grows.trans {s t u : ParameterSet} {references others : List String}
    {values further : List Value} (hst : s.Grows t references values)
    (htu : t.Grows u others further) : s.Grows u (references ++ others) (values ++ further) where
  numbered := htu.numbered
  names_eq := by rw [htu.names_eq, hst.names_eq, List.append_assoc]
  values_eq := by rw [htu.values_eq, hst.values_eq, List.append_assoc]

/-- The reference to a value that is bound next. -/
theorem addTemp_snd (s : ParameterSet) (value : Value) (hint : String) :
    (s.addTemp value hint).2 = drawnName hint (s.counter + 1) (s.supply (s.counter + 1)) :=
  canonical_generatedName _ _ _

/-- Binding a value adds one parameter at the end. -/
theorem Numbered.addTemp {s : ParameterSet} (h : s.Numbered) (value : Value) (hint : String) :
    s.Grows (s.addTemp value hint).1 [(s.addTemp value hint).2] [value.cleared] := by
  have hnew := h.passed.drawnName_not_mem (Nat.lt_succ_self s.counter) hint
    (s.supply (s.counter + 1))
  rw [← addTemp_snd s value hint] at hnew
  have hentries : (s.addTemp value hint).1.entries =
      s.entries ++ [⟨(s.addTemp value hint).2, value.cleared, value.kind, .input⟩] :=
    put_of_not_mem hnew
  have hnames : (s.addTemp value hint).1.names = s.names ++ [(s.addTemp value hint).2] := by
    rw [names, hentries, List.map_append]
    rfl
  refine ⟨⟨fun name hname => ?_, ?_⟩, hnames, ?_⟩
  · rw [hnames, List.mem_append, List.mem_singleton] at hname
    rcases hname with hname | rfl
    · obtain ⟨hint', counter, suffix, hle, heq⟩ := h.drawn name hname
      exact ⟨hint', counter, suffix, Nat.le_succ_of_le hle, heq⟩
    · exact ⟨hint, s.counter + 1, _, Nat.le_refl _, addTemp_snd s value hint⟩
  · rw [hnames, List.nodup_append]
    exact ⟨h.nodup, by simp, fun a ha b hb heq =>
      hnew (List.mem_singleton.mp hb ▸ heq ▸ ha)⟩
  · rw [values, hentries, List.map_append]
    rfl

/-- Binding values adds one parameter each at the end, in the order of the values. -/
theorem Numbered.addTemps {s : ParameterSet} (h : s.Numbered) (bindings : List (String × Value)) :
    s.Grows (s.addTemps bindings).1 (s.addTemps bindings).2
      (bindings.map fun binding => binding.2.cleared) := by
  induction bindings generalizing s with
  | nil => exact h.grows
  | cons binding rest ih =>
    have hfirst := h.addTemp binding.2 binding.1
    exact hfirst.trans (ih hfirst.numbered)

/-- Of parameters whose names are canonical and different, those whose names are not taken are added
at the end. -/
theorem foldl_importOne {s : ParameterSet} {others : List Parameter}
    (hcanonical : ∀ p ∈ others, Parameter.canonical p.name = p.name)
    (hnodup : (others.map Parameter.name).Nodup) :
    others.foldl importOne s =
      { s with entries := s.entries ++ others.filter fun p => p.name ∉ s.names } := by
  induction others generalizing s with
  | nil => simp
  | cons p rest ih =>
    obtain ⟨hp, hrest⟩ := List.nodup_cons.mp hnodup
    have hcanonicalRest : ∀ q ∈ rest, Parameter.canonical q.name = q.name :=
      fun q hq => hcanonical q (List.mem_cons_of_mem p hq)
    have hcontains := s.contains_iff p.name
    rw [hcanonical p List.mem_cons_self] at hcontains
    rw [List.foldl_cons, importOne]
    by_cases hmem : p.name ∈ s.names
    · rw [if_pos (hcontains.mpr hmem), ih hcanonicalRest hrest]
      simp [hmem]
    · rw [if_neg (mt hcontains.mp hmem), ih hcanonicalRest hrest]
      -- The names that follow are different from the one that was just added.
      have hsame : (rest.filter fun q =>
            q.name ∉ ({ s with entries := s.entries ++ [p] } : ParameterSet).names) =
          rest.filter fun q => q.name ∉ s.names := by
        refine List.filter_congr fun q hq => ?_
        have hne : q.name ≠ p.name := fun heq => hp (heq ▸ List.mem_map_of_mem hq)
        simp [names, hne]
      rw [hsame]
      simp [hmem]

/-- A set whose names are not taken is taken in as it is. -/
theorem Numbered.extend {s other : ParameterSet} (h : s.Numbered) (hother : other.Numbered)
    (hapart : ∀ name ∈ other.names, name ∉ s.names) :
    s.Grows (s.extend other) other.names other.values := by
  have hentries : (s.extend other).entries = s.entries ++ other.entries := by
    have hfold := foldl_importOne (s := s)
      (fun p hp => hother.canonical_eq (List.mem_map_of_mem hp)) hother.nodup
    have hall : (other.entries.filter fun p => p.name ∉ s.names) = other.entries :=
      List.filter_eq_self.mpr fun p hp => by simp [hapart p.name (List.mem_map_of_mem hp)]
    simp only [ParameterSet.extend, hfold, hall]
  have hnames : (s.extend other).names = s.names ++ other.names := by
    rw [names, hentries, List.map_append]
    rfl
  refine ⟨⟨fun name hname => ?_, ?_⟩, hnames, ?_⟩
  · rw [hnames, List.mem_append] at hname
    rcases hname with hname | hname
    · obtain ⟨hint, counter, suffix, hle, heq⟩ := h.drawn name hname
      exact ⟨hint, counter, suffix, Nat.le_add_right_of_le hle, heq⟩
    · obtain ⟨hint, counter, suffix, hle, heq⟩ := hother.drawn name hname
      exact ⟨hint, counter, suffix, Nat.le_add_left_of_le hle, heq⟩
  · rw [hnames, List.nodup_append]
    exact ⟨h.nodup, hother.nodup, fun a ha b hb heq => hapart b hb (heq ▸ ha)⟩
  · rw [values, hentries, List.map_append]
    rfl

/-- Two sets that differ at most in what is bound to their names. -/
structure Alike (s t : ParameterSet) : Prop where
  /-- Both draw the same suffixes. -/
  supply_eq : s.supply = t.supply
  /-- Both have drawn as many names. -/
  counter_eq : s.counter = t.counter
  /-- Both have the same names in the same order. -/
  names_eq : s.names = t.names

/-- A set is like itself. -/
theorem Alike.refl (s : ParameterSet) : s.Alike s :=
  ⟨rfl, rfl, rfl⟩

/-- Which names a set has after one was added does not depend on the values. -/
theorem Alike.addNamed {s t : ParameterSet} (h : s.Alike t) (name : String) (v w : Value) :
    (s.addNamed name v).1.Alike (t.addNamed name w).1 where
  supply_eq := h.supply_eq
  counter_eq := h.counter_eq
  names_eq := by
    have hnames := h.names_eq
    simp only [names] at hnames
    simp only [ParameterSet.addNamed, names, map_name_put, hnames]

/-- Two sets of which one is like the other draw the same name. -/
theorem Alike.addTemp_snd {s t : ParameterSet} (h : s.Alike t) (v w : Value) (hint : String) :
    (s.addTemp v hint).2 = (t.addTemp w hint).2 := by
  rw [ParameterSet.addTemp_snd, ParameterSet.addTemp_snd, h.supply_eq, h.counter_eq]

/-- Two sets of which one is like the other stay so when values are bound. -/
theorem Alike.addTemp {s t : ParameterSet} (h : s.Alike t) (v w : Value) (hint : String) :
    (s.addTemp v hint).1.Alike (t.addTemp w hint).1 := by
  have hcounter : ({ s with counter := s.counter + 1 } : ParameterSet).Alike
      { t with counter := t.counter + 1 } :=
    ⟨h.supply_eq, congrArg (· + 1) h.counter_eq, h.names_eq⟩
  have hadd := hcounter.addNamed
    (generatedName hint (s.counter + 1) (s.supply (s.counter + 1))) v w
  unfold ParameterSet.addTemp
  rw [h.counter_eq, h.supply_eq] at hadd ⊢
  exact hadd

/-- Binding values under the same hints draws the same names. -/
theorem Alike.addTemps {s t : ParameterSet} (h : s.Alike t)
    {bindings others : List (String × Value)}
    (hhints : bindings.map Prod.fst = others.map Prod.fst) :
    (s.addTemps bindings).1.Alike (t.addTemps others).1 ∧
      (s.addTemps bindings).2 = (t.addTemps others).2 := by
  induction bindings generalizing s t others with
  | nil =>
    obtain rfl := List.map_eq_nil_iff.mp hhints.symm
    exact ⟨h, rfl⟩
  | cons binding rest ih =>
    obtain ⟨other, others, rfl, hhint, hrest⟩ := List.map_eq_cons_iff.mp hhints.symm
    obtain ⟨hint, v⟩ := binding
    obtain ⟨hint', w⟩ := other
    obtain rfl : hint' = hint := hhint
    obtain ⟨halike, hnames⟩ := ih (h.addTemp v w hint') hrest.symm
    refine ⟨halike, ?_⟩
    simp only [ParameterSet.addTemps, hnames, h.addTemp_snd v w hint']

/-- Which names are taken in depends on names only. -/
theorem names_foldl_importOne (s : ParameterSet) (others : List Parameter) :
    (others.foldl importOne s).names =
      (others.map Parameter.name).foldl
        (fun names name => if Parameter.canonical name ∈ names then names else names ++ [name])
        s.names := by
  induction others generalizing s with
  | nil => rfl
  | cons p rest ih =>
    have hone : (s.importOne p).names =
        if Parameter.canonical p.name ∈ s.names then s.names else s.names ++ [p.name] := by
      unfold importOne
      simp only [contains_iff]
      split
      · rfl
      · simp [names]
    rw [List.foldl_cons, ih, hone, List.map_cons, List.foldl_cons]

/-- Taking in a set is the same for sets that differ at most in values. -/
theorem Alike.extend {s t s' t' : ParameterSet} (h : s.Alike t) (h' : s'.Alike t') :
    (s.extend s').Alike (t.extend t') where
  supply_eq := by
    have hsupply (s : ParameterSet) (others : List Parameter) :
        (others.foldl importOne s).supply = s.supply := by
      induction others generalizing s with
      | nil => rfl
      | cons p rest ih =>
        rw [List.foldl_cons, ih, importOne]
        split <;> rfl
    simp only [ParameterSet.extend, hsupply, h.supply_eq]
  counter_eq := by simp only [ParameterSet.extend, h.counter_eq, h'.counter_eq]
  names_eq := by
    have hnames := h.names_eq
    have hnames' := h'.names_eq
    have hs := names_foldl_importOne s s'.entries
    have ht := names_foldl_importOne t t'.entries
    simp only [names] at hnames hnames' hs ht
    simp only [ParameterSet.extend, names, hs, ht, hnames, hnames']

end BoundSql.ParameterSet
