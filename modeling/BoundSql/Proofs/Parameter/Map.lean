import BoundSql.Proofs.Parameter.Set
import BoundSql.Proofs.Text.Name

/-!
# Sets of parameters are maps

The canonical form of a name is a token from end to end, and is canonical itself; markers in front
of a name make no difference. Putting a parameter replaces the entry of its name where it stands or
comes at the end, and is seen under the spellings of its name only. Taking in a set adds the entries
whose names are not taken.

Sets with different tokens for names can be taken in one by one or all at once. The entries come in
the same order, each name finds what the first set that has it finds, and the counters add up. The
set without parameters adds nothing to a set, and takes it in as it is.
-/

namespace BoundSql

/-- A value in place of an absent one is not absent. -/
theorem Value.isAbsent_cleared (v : Value) : v.cleared.isAbsent = false := by
  unfold cleared
  split
  · rfl
  · rename_i h
    exact Bool.eq_false_iff.mpr h

namespace Parameter

/-- The parameter that carries a value as it was given under a name. -/
def given (name : String) (value : Value) (direction : Direction) : Parameter :=
  ⟨name, value.cleared, value.kind, direction⟩

/-- What stands for a character can be part of a token. -/
theorem isWord_safe (c : Char) : Token.isWord (safe c) = true := by
  unfold safe
  split
  · assumption
  · decide

/-- The canonical form of a name is a token from end to end. -/
theorem isReference_canonical (name : String) : Token.IsReference (canonical name) := by
  refine ⟨canonicalWord name.toList, ?_, ?_, rfl⟩
  · unfold canonicalWord
    split
    · exact List.cons_ne_nil _ _
    · rename_i hbare
      exact mt List.map_eq_nil_iff.mp hbare
  · intro c hc
    unfold canonicalWord at hc
    split at hc
    · rw [List.mem_singleton.mp hc]
      decide
    · obtain ⟨d, -, rfl⟩ := List.mem_map.mp hc
      exact isWord_safe d

/-- A name that is a token from end to end is canonical. -/
theorem canonical_of_isReference {name : String} (h : Token.IsReference name) :
    canonical name = name := by
  obtain ⟨word, hne, hword, rfl⟩ := h
  exact canonical_at_of_isWord hne hword

/-- Markers in front of a name make no difference. -/
theorem canonical_append_of_isMarker {markers : List Char}
    (h : ∀ c ∈ markers, isMarker c = true) (name : String) :
    canonical (String.ofList (markers ++ name.toList)) = canonical name := by
  have hdrop : (markers ++ name.toList).dropWhile isMarker = name.toList.dropWhile isMarker :=
    List.dropWhile_append_of_pos h
  simp only [canonical, canonicalWord, String.toList_ofList, hdrop]

end Parameter

namespace ParameterSet

/-- A set whose names are different tokens. -/
structure WellNamed (s : ParameterSet) : Prop where
  /-- No name occurs twice. -/
  nodup : s.names.Nodup
  /-- Every name is a token from end to end. -/
  isReference : ∀ name ∈ s.names, Token.IsReference name

/-- A name finds the one entry of the name. -/
theorem WellNamed.find?_eq_some_iff {s : ParameterSet} (h : s.WellNamed) {name : String}
    {p : Parameter} : s.find? name = some p ↔ p ∈ s.entries ∧ p.name = name :=
  Keyed.find?_eq_some_iff h.nodup fun _ => beq_iff_eq

/-- What becomes of a set when a parameter is put under its name. -/
structure Puts (s t : ParameterSet) (p : Parameter) : Prop where
  /-- Every spelling of the name finds the parameter. -/
  get?_eq : ∀ spelling, Parameter.canonical spelling = p.name → t.get? spelling = some p
  /-- Every other name finds what it found before. -/
  get?_other : ∀ other, Parameter.canonical other ≠ p.name → t.get? other = s.get? other
  /-- An entry of the name is replaced where it stands, and no entry is added. -/
  replaced : ∀ i : Nat, s.names[i]? = some p.name →
    t.entries = s.entries.set i p ∧ t.size = s.size
  /-- A name that is not taken comes at the end. -/
  added : p.name ∉ s.names → t.entries = s.entries ++ [p]

/-- A name finds the parameter that was put under it, or what it found before. -/
theorem find?_put_entries (p : Parameter) (entries : List Parameter) (name : String) :
    (put p entries).find? (·.name == name) =
      if name = p.name then some p else entries.find? (·.name == name) := by
  induction entries with
  | nil =>
    by_cases hname : name = p.name
    · simp [put, hname]
    · simp [put, hname, Ne.symm hname]
  | cons q rest ih =>
    by_cases hq : q.name = p.name
    · by_cases hname : name = p.name
      · simp [put, hq, hname]
      · simp [put, hq, hname, Ne.symm hname]
    · by_cases hname : name = p.name
      · have hne : (q.name == name) = false := beq_eq_false_iff_ne.mpr (hname ▸ hq)
        simp only [put, if_neg hq, List.find?_cons, hne, ih, if_pos hname]
      · simp only [put, if_neg hq, List.find?_cons, ih, if_neg hname]

/-- A set finds a parameter that was put into it under its name, and what it found before under
every other name. -/
theorem find?_of_entries_eq_put {s t : ParameterSet} {p : Parameter}
    (ht : t.entries = put p s.entries) (name : String) :
    t.find? name = if name = p.name then some p else s.find? name := by
  rw [find?, ht, find?_put_entries]
  rfl

/-- Among different names the entry of the name is replaced where it stands. -/
theorem put_eq_set {p : Parameter} {entries : List Parameter}
    (hnodup : (entries.map Parameter.name).Nodup) {i : Nat}
    (h : (entries.map Parameter.name)[i]? = some p.name) : put p entries = entries.set i p := by
  induction entries generalizing i with
  | nil => exact nomatch h
  | cons q rest ih =>
    obtain ⟨hq, hrest⟩ := List.nodup_cons.mp hnodup
    cases i with
    | zero =>
      have heq : q.name = p.name := Option.some.inj h
      rw [put, if_pos heq, List.set_cons_zero]
    | succ i =>
      have hp : p.name ∈ rest.map Parameter.name := List.mem_of_getElem? h
      have hne : q.name ≠ p.name := fun heq => hq (heq ▸ hp)
      rw [put, if_neg hne, ih hrest h, List.set_cons_succ]

/-- Putting a parameter into the entries of a set does what putting it into the set should do. -/
theorem WellNamed.puts {s t : ParameterSet} (h : s.WellNamed) {p : Parameter}
    (ht : t.entries = put p s.entries) : s.Puts t p where
  get?_eq spelling hspelling := by
    rw [get?, find?_of_entries_eq_put ht, if_pos hspelling]
  get?_other other hother := by
    rw [get?, find?_of_entries_eq_put ht, if_neg hother]
    rfl
  replaced i hi := by
    have hentries : t.entries = s.entries.set i p := ht.trans (put_eq_set h.nodup hi)
    exact ⟨hentries, by rw [size, hentries, List.length_set, size]⟩
  added hname := ht.trans (put_of_not_mem hname)

/-- Putting a parameter into the entries of a set adds its name at the end unless it is taken. -/
theorem names_of_entries_eq_put {s t : ParameterSet} {p : Parameter}
    (ht : t.entries = put p s.entries) :
    t.names = if p.name ∈ s.names then s.names else s.names ++ [p.name] := by
  rw [names, ht, map_name_put]
  rfl

/-- A name of a set into which a parameter was put is an old one or the name of the parameter. -/
theorem mem_names_of_entries_eq_put {s t : ParameterSet} {p : Parameter}
    (ht : t.entries = put p s.entries) {name : String} (hname : name ∈ t.names) :
    name ∈ s.names ∨ name = p.name := by
  rw [names_of_entries_eq_put ht] at hname
  split at hname
  · exact .inl hname
  · exact (List.mem_append.mp hname).imp_right List.mem_singleton.mp

/-- Putting a parameter whose name is a token keeps the names different tokens. -/
theorem WellNamed.put {s t : ParameterSet} (h : s.WellNamed) {p : Parameter}
    (ht : t.entries = ParameterSet.put p s.entries) (hp : Token.IsReference p.name) :
    t.WellNamed := by
  constructor
  · rw [names_of_entries_eq_put ht]
    split
    · exact h.nodup
    · rename_i hnew
      rw [← List.concat_eq_append, List.nodup_concat]
      exact ⟨hnew, h.nodup⟩
  · intro name hname
    rcases mem_names_of_entries_eq_put ht hname with hname | rfl
    · exact h.isReference name hname
    · exact hp

/-- Taking in a set adds the entries whose names are not taken, and its counter. -/
theorem WellNamed.extend_eq (s : ParameterSet) {other : ParameterSet} (h : other.WellNamed) :
    s.extend other =
      { s with
        entries := s.entries ++ other.entries.filter fun p => p.name ∉ s.names
        counter := s.counter + other.counter } := by
  have hcanonical : ∀ p ∈ other.entries, Parameter.canonical p.name = p.name := fun p hp =>
    Parameter.canonical_of_isReference (h.isReference _ (List.mem_map_of_mem hp))
  simp only [extend, foldl_importOne hcanonical h.nodup]

/-- Taking in a set adds the entries whose names are not taken. -/
theorem WellNamed.entries_extend (s : ParameterSet) {other : ParameterSet} (h : other.WellNamed) :
    (s.extend other).entries =
      s.entries ++ other.entries.filter fun p => p.name ∉ s.names :=
  congrArg entries (h.extend_eq s)

/-- Taking in a set adds the names that are not taken. -/
theorem WellNamed.names_extend (s : ParameterSet) {other : ParameterSet} (h : other.WellNamed) :
    (s.extend other).names = s.names ++ other.names.filter fun name => name ∉ s.names := by
  rw [names, h.entries_extend s, List.map_append, names, names, List.filter_map]
  rfl

/-- The names of a set that took in another one are the names of both. -/
theorem WellNamed.mem_names_extend_iff {s other : ParameterSet} (h : other.WellNamed)
    {name : String} : name ∈ (s.extend other).names ↔ name ∈ s.names ∨ name ∈ other.names := by
  rw [h.names_extend s, List.mem_append, List.mem_filter, decide_eq_true_eq]
  constructor
  · exact Or.imp_right And.left
  · rintro (hname | hname)
    · exact .inl hname
    · exact or_iff_not_imp_left.mpr fun hnew => ⟨hname, hnew⟩

/-- A name of a set that took in another one is a name of one of the two. -/
theorem WellNamed.mem_names_extend {s other : ParameterSet} (h : other.WellNamed) {name : String}
    (hname : name ∈ (s.extend other).names) : name ∈ s.names ∨ name ∈ other.names :=
  h.mem_names_extend_iff.mp hname

/-- The names of two sets stay different tokens when the one is taken in by the other. -/
theorem WellNamed.extend {s other : ParameterSet} (h : s.WellNamed) (hother : other.WellNamed) :
    (s.extend other).WellNamed := by
  constructor
  · rw [hother.names_extend s, List.nodup_append]
    refine ⟨h.nodup, hother.nodup.filter _, ?_⟩
    rintro name hname added hadded rfl
    exact of_decide_eq_true (List.mem_filter.mp hadded).2 hname
  · intro name hname
    rcases hother.mem_names_extend hname with hname | hname
    · exact h.isReference name hname
    · exact hother.isReference name hname

/-- A name finds the entry that it had, or else the entry that it had in the set that was taken in.
-/
theorem WellNamed.find?_extend (s : ParameterSet) {other : ParameterSet} (h : other.WellNamed)
    (name : String) : (s.extend other).find? name = (s.find? name).or (other.find? name) := by
  rw [find?, h.entries_extend s, List.find?_append, List.find?_filter]
  cases hfound : s.find? name with
  | some p =>
    rw [find?] at hfound
    rw [hfound]
    rfl
  | none =>
    have hnot : name ∉ s.names := by
      intro hmem
      obtain ⟨p, hp, rfl⟩ := List.mem_map.mp hmem
      have hne := List.find?_eq_none.mp hfound p hp
      exact hne (beq_self_eq_true _)
    rw [find?] at hfound
    rw [hfound, Option.none_or, Option.none_or, find?]
    congr 1
    funext p
    by_cases hp : p.name = name
    · simp [hp, hnot]
    · simp [hp]

end ParameterSet

/-! ## Taking in sets of parameters -/

namespace ParameterSet

attribute [ext] ParameterSet

variable {s t u : ParameterSet}

/-- A set without parameters adds nothing. -/
theorem extend_empty (s : ParameterSet) (supply : Supply) : s.extend (empty supply) = s :=
  rfl

/-- A set is taken in as it is where there are no parameters yet. -/
theorem WellNamed.empty_extend (h : s.WellNamed) (supply : Supply) :
    (empty supply).extend s = { s with supply } := by
  have hnames : (empty supply).names = [] := rfl
  have hall : (s.entries.filter fun p => p.name ∉ (empty supply).names) = s.entries :=
    List.filter_eq_self.mpr fun p _ => by simp [hnames]
  rw [h.extend_eq, hall]
  simp [empty]

/-- Sets can be taken in one by one or all at once. -/
theorem WellNamed.extend_assoc (s : ParameterSet) (ht : t.WellNamed) (hu : u.WellNamed) :
    (s.extend t).extend u = s.extend (t.extend u) := by
  have hsupply : ((s.extend t).extend u).supply = (s.extend (t.extend u)).supply := by
    rw [hu.extend_eq (s.extend t), ht.extend_eq s, (ht.extend hu).extend_eq s]
  have hcounter : ((s.extend t).extend u).counter = (s.extend (t.extend u)).counter :=
    Nat.add_assoc _ _ _
  -- An entry of `u` is added either way when neither `s` nor `t` has its name.
  have hentries : ((s.extend t).extend u).entries = (s.extend (t.extend u)).entries := by
    rw [hu.entries_extend, ht.entries_extend, (ht.extend hu).entries_extend, hu.entries_extend,
      List.filter_append, List.filter_filter, List.append_assoc]
    congr 2
    refine List.filter_congr fun p _ => ?_
    simp only [ht.mem_names_extend_iff, not_or, Bool.decide_and]
  exact ParameterSet.ext hsupply hentries hcounter

/-- A name finds the parameter that it had, or else the one that it had in the set that was taken
in. -/
theorem WellNamed.get?_extend (s : ParameterSet) (ht : t.WellNamed) (name : String) :
    (s.extend t).get? name = (s.get? name).or (t.get? name) :=
  ht.find?_extend s (Parameter.canonical name)

end ParameterSet

end BoundSql
