import BoundSql.Proofs.Parameter.Map

/-!
# Histories of sets of parameters

A history is the calls that build a set of parameters. Whatever they are, the set is a map from
canonical names in the order in which the names first came up: it finds under a name what was given
under it last, or first by the sets that were taken in, with the kind of the value as it was given
and no absent date.
-/

namespace BoundSql.ParameterSet

/-- The calls that build a set of parameters, the last one outermost. -/
inductive History where
  /-- The set without parameters. -/
  | empty (supply : Supply)
  /-- Other suffixes are drawn from now on. -/
  | supplied (h : History) (supply : Supply)
  /-- A parameter is added under a name. -/
  | addNamed (h : History) (name : String) (value : Value) (direction : Direction)
  /-- A parameter is added under a generated name. -/
  | addTemp (h : History) (value : Value) (hint : String)
  /-- Another set is taken in. -/
  | extend (h other : History)

namespace History

/-- The set that a history builds. -/
def set : History → ParameterSet
  | empty supply => ParameterSet.empty supply
  | supplied h supply => { h.set with supply }
  | addNamed h name value direction => (h.set.addNamed name value direction).1
  | addTemp h value hint => (h.set.addTemp value hint).1
  | extend h other => h.set.extend other.set

/-- The value and the direction that count for a canonical name: those that were given last, or else
those that count in the set that was taken in. -/
def given? (name : String) : History → Option (Value × Direction)
  | empty _ => none
  | supplied h _ => h.given? name
  | addNamed h spelling value direction =>
    if name = Parameter.canonical spelling then some (value, direction) else h.given? name
  | addTemp h value hint =>
    if name = (h.set.addTemp value hint).2 then some (value, .input) else h.given? name
  | extend h other => (h.given? name).or (other.given? name)

/-- Adding under a name puts a parameter under its canonical form. -/
theorem entries_addNamed (s : ParameterSet) (name : String) (value : Value)
    (direction : Direction) : (s.addNamed name value direction).1.entries =
      put (.given (s.addNamed name value direction).2 value direction) s.entries :=
  rfl

/-- Adding under a generated name puts a parameter under that name. -/
theorem entries_addTemp (s : ParameterSet) (value : Value) (hint : String) :
    (s.addTemp value hint).1.entries =
      put (.given (s.addTemp value hint).2 value .input) s.entries :=
  rfl

/-- A reference that adding under a generated name gives back is a token from end to end. -/
theorem isReference_addTemp (s : ParameterSet) (value : Value) (hint : String) :
    Token.IsReference (s.addTemp value hint).2 :=
  Parameter.isReference_canonical _

/-- The names of a set are different tokens. -/
theorem wellNamed_set (h : History) : h.set.WellNamed := by
  induction h with
  | empty supply =>
    have hnames : (ParameterSet.empty supply).names = [] := rfl
    exact ⟨hnames ▸ List.nodup_nil, fun name hname => absurd hname (hnames ▸ List.not_mem_nil)⟩
  | supplied h supply ih => exact ⟨ih.nodup, ih.isReference⟩
  | addNamed h name value direction ih =>
    exact ih.put (entries_addNamed h.set name value direction)
      (Parameter.isReference_canonical name)
  | addTemp h value hint ih =>
    exact ih.put (entries_addTemp h.set value hint) (isReference_addTemp h.set value hint)
  | extend h other ih ihother => exact ih.extend ihother

/-- Putting a value under a name makes it count for the name, and leaves what counts for others. -/
theorem find?_of_entries_eq_put_given {s t : ParameterSet} {key : String} {value : Value}
    {direction : Direction} (ht : t.entries = put (.given key value direction) s.entries)
    {name : String} {before : Option (Value × Direction)}
    (hs : s.find? name = before.map fun given => Parameter.given name given.1 given.2) :
    t.find? name = (if name = key then some (value, direction) else before).map fun given =>
      Parameter.given name given.1 given.2 := by
  have hfind : t.find? name =
      if name = key then some (.given key value direction) else s.find? name :=
    find?_of_entries_eq_put ht name
  by_cases hname : name = key
  · rw [hfind, if_pos hname, if_pos hname, hname, Option.map_some]
  · rw [hfind, if_neg hname, if_neg hname, hs]

/-- A set finds under a canonical name what counts for the name. -/
theorem find?_set (h : History) (name : String) :
    h.set.find? name =
      (h.given? name).map fun given => Parameter.given name given.1 given.2 := by
  induction h with
  | empty supply => rfl
  | supplied h supply ih => exact ih
  | addNamed h spelling value direction ih =>
    exact find?_of_entries_eq_put_given (entries_addNamed h.set spelling value direction) ih
  | addTemp h value hint ih =>
    exact find?_of_entries_eq_put_given (entries_addTemp h.set value hint) ih
  | extend h other ih ihother =>
    rw [set, other.wellNamed_set.find?_extend, ih, ihother, given?, Option.map_or]

/-- Every entry of a set is what counts for its name. -/
theorem given?_of_mem (h : History) {p : Parameter} (hp : p ∈ h.set.entries) :
    ∃ value, h.given? p.name = some (value, p.direction) ∧
      p = Parameter.given p.name value p.direction := by
  have hfound : h.set.find? p.name = some p :=
    h.wellNamed_set.find?_eq_some_iff.mpr ⟨hp, rfl⟩
  rw [h.find?_set, Option.map_eq_some_iff] at hfound
  obtain ⟨⟨value, direction⟩, hgiven, hsame⟩ := hfound
  have hdirection : direction = p.direction := congrArg Parameter.direction hsame
  subst hdirection
  exact ⟨value, hgiven, hsame.symm⟩

/-- Whatever the calls are, the set is a map from canonical names that keeps the order of insertion.
Its names are different tokens; no value in it is an absent date, each entry has the kind of the
value that counts for its name, and every name that a value counts for is found. Adding a parameter
gives back the name under which it is found, by every spelling and behind any markers; all other
names find what they found before, an entry of the name is replaced where it stands, and a new one
comes at the end. Taking in another set adds its entries whose names are not taken at the end. -/
theorem set_isMap (h : History) :
    h.set.names.Nodup ∧ (∀ name ∈ h.set.names, Token.IsReference name) ∧
    (∀ p ∈ h.set.entries, p.value.isAbsent = false ∧
      ∃ value, h.given? p.name = some (value, p.direction) ∧
        p.value = value.cleared ∧ p.kind = value.kind) ∧
    (∀ name, h.set.get? name = (h.given? (Parameter.canonical name)).map fun given =>
      Parameter.given (Parameter.canonical name) given.1 given.2) ∧
    (∀ name value direction,
      let added := h.set.addNamed name value direction
      let p := Parameter.given (Parameter.canonical name) value direction
      added.2 = p.name ∧ h.set.Puts added.1 p ∧
      ∀ markers, (∀ c ∈ markers, Parameter.isMarker c = true) →
        added.1.get? (String.ofList (markers ++ name.toList)) = some p) ∧
    (∀ value hint,
      let added := h.set.addTemp value hint
      h.set.Puts added.1 (.given added.2 value .input)) ∧
    ∀ other : History, (h.set.extend other.set).entries =
      h.set.entries ++ other.set.entries.filter fun p => p.name ∉ h.set.names := by
  have hset := h.wellNamed_set
  refine ⟨hset.nodup, hset.isReference, ?_, ?_, ?_, ?_, ?_⟩
  · intro p hp
    obtain ⟨value, hgiven, hsame⟩ := h.given?_of_mem hp
    have hvalue : p.value = value.cleared := congrArg Parameter.value hsame
    have hkind : p.kind = value.kind := congrArg Parameter.kind hsame
    have habsent : p.value.isAbsent = false := by
      rw [hvalue]
      exact value.isAbsent_cleared
    exact ⟨habsent, value, hgiven, hvalue, hkind⟩
  · intro name
    exact h.find?_set (Parameter.canonical name)
  · intro name value direction added p
    have hputs : h.set.Puts added.1 p := hset.puts (entries_addNamed h.set name value direction)
    refine ⟨rfl, hputs, ?_⟩
    intro markers hmarkers
    exact hputs.get?_eq _ (Parameter.canonical_append_of_isMarker hmarkers name)
  · intro value hint added
    exact hset.puts (entries_addTemp h.set value hint)
  · intro other
    exact other.wellNamed_set.entries_extend h.set

end History

end BoundSql.ParameterSet
