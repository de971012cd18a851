import BoundSql.Proofs.Statement.Closure
import BoundSql.Proofs.Statement.Deployment

/-!
# Table prefixes put in twice

Names without braces leave no token in the text that they are put into. What takes the place of a
token ends in a separator that occurs in no token, and holds no brace, so a token of the new text
lies between two such places, where it would have been found before. Putting the names in once more
therefore changes nothing, and the text of a draft with table prefixes, to which the same prefixes
are put in when it is merged, comes in as it is.
-/

namespace BoundSql

namespace Prefixes

/-- Prefixes with an owner and a qualifier, and without a brace in any of the names. -/
structure Unbraced (p : Prefixes) : Prop where
  /-- There is an owner. -/
  owner_ne : p.owner ≠ ""
  /-- There is a qualifier. -/
  qualifier_ne : p.qualifier ≠ ""
  /-- No name has a brace of either kind. -/
  braceless : ∀ name ∈ p.names, '\x7b' ∉ name.toList ∧ '\x7d' ∉ name.toList

variable {p : Prefixes}

/-- What takes the place of a token holds no opening brace. -/
theorem Unbraced.opening_not_mem_replacement (h : p.Unbraced) (t : Slot) :
    '\x7b' ∉ p.replacement t :=
  not_mem_replacement (by decide) (by decide) (fun name hname => (h.braceless name hname).1) t

/-- What takes the place of a token has a separator behind characters that close no token. -/
theorem Unbraced.exists_replacement_eq (h : p.Unbraced) (t : Slot) :
    ∃ front separator back, p.replacement t = front ++ separator :: back ∧
      '\x7d' ∉ front ∧ separates separator = true := by
  have hpart {name : String} (hne : name ≠ "") (separator : Char) :
      part name separator = name.toList ++ [separator] := by
    rw [part, if_neg (mt String.isEmpty_iff.mp hne)]
  have howner : '\x7d' ∉ p.owner.toList := (h.braceless _ (by simp [names])).2
  have hqualifier : '\x7d' ∉ p.qualifier.toList := (h.braceless _ (by simp [names])).2
  cases t with
  | owner | moduleOwner => exact ⟨_, '.', [], hpart h.owner_ne '.', howner, by decide⟩
  | qualifier => exact ⟨_, '_', [], hpart h.qualifier_ne '_', hqualifier, by decide⟩
  | moduleQualifier =>
    refine ⟨p.qualifier.toList, '_', part p.moduleQualifier '_', ?_, hqualifier, by decide⟩
    rw [replacement, hpart h.qualifier_ne, List.append_assoc, List.singleton_append]

/-- A word that is closed by a brace and has no separator stands at the front of a text with the
names put in only if it stands there before. -/
theorem Unbraced.prefix_of_prefix_substituted (h : p.Unbraced) {word cs : List Char}
    (hword : ∀ c, separates c = true → c ∉ word) (hclosed : ∀ c ∈ word.getLast?, c = '\x7d')
    (hahead : word <+: p.substituted cs) : word <+: cs := by
  fun_induction p.substituted cs generalizing word with
  | case1 => exact hahead
  | case2 c rest t ht ih =>
    -- The word ends in front of the separator, and no name closes it, so it is empty.
    obtain ⟨front, separator, back, hreplacement, hfront, hseparates⟩ := h.exists_replacement_eq t
    rw [hreplacement, List.append_assoc, List.cons_append, ← List.isPrefixOf_iff_prefix,
      isPrefixOf_append_cons (hword separator hseparates), List.isPrefixOf_iff_prefix] at hahead
    cases hlast : word.getLast? with
    | none => rw [List.getLast?_eq_none_iff.mp hlast]; exact List.nil_prefix
    | some last =>
      have hmem : last ∈ front := hahead.subset (List.mem_of_getLast? hlast)
      exact absurd (hclosed last hlast ▸ hmem) hfront
  | case3 c rest ht ih =>
    cases word with
    | nil => exact List.nil_prefix
    | cons d word =>
      obtain ⟨rfl, hrest⟩ := List.cons_prefix_cons.mp hahead
      refine List.cons_prefix_cons.mpr ⟨rfl, ih ?_ ?_ hrest⟩
      · exact fun c hc hmem => hword c hc (List.mem_cons_of_mem _ hmem)
      · cases word with
        | nil => simp
        | cons e word => exact hclosed

/-- A word that begins with a character is part of a text only if it is so behind a front without
that character. -/
theorem infix_of_infix_append {c : Char} {word front cs : List Char} (hc : c ∉ front)
    (h : c :: word <:+: front ++ cs) : c :: word <:+: cs := by
  induction front with
  | nil => exact h
  | cons d front ih =>
    obtain ⟨hd, hfront⟩ := not_or.mp (mt List.mem_cons.mpr hc)
    rcases List.infix_cons_iff.mp h with hahead | hinside
    · exact absurd (List.cons_prefix_cons.mp hahead).1 hd
    · exact ih hfront hinside

/-- Names without braces leave no token behind. -/
theorem Unbraced.tokenless_substituted (h : p.Unbraced) (cs : List Char) :
    Tokenless (p.substituted cs) := by
  fun_induction p.substituted cs with
  | case1 => exact tokenless_nil
  | case2 c rest t ht ih =>
    intro u hu
    obtain ⟨word, hword⟩ := exists_spelling_eq_cons u
    refine ih u ?_
    rw [hword] at hu ⊢
    exact infix_of_infix_append (h.opening_not_mem_replacement t) hu
  | case3 c rest ht ih =>
    have hsubstituted : c :: p.substituted rest = p.substituted (c :: rest) := by
      rw [substituted, ht]
    refine tokenless_cons_iff.mpr ⟨front?_eq_none_iff.mpr fun u hu => ?_, ih⟩
    -- A token at the front of the new text was at the front of the old one.
    have hclosed : ∀ c ∈ u.spelling.getLast?, c = '\x7d' := fun c hc => by
      rw [getLast?_spelling] at hc
      exact (Option.some.inj hc).symm
    rw [hsubstituted] at hu
    exact front?_eq_none_iff.mp ht u
      (h.prefix_of_prefix_substituted (fun c hc => not_mem_spelling hc u) hclosed hu)

/-- A text without tokens stays as it is. -/
theorem substituted_of_tokenless (p : Prefixes) {cs : List Char} (h : Tokenless cs) :
    p.substituted cs = cs := by
  fun_induction p.substituted cs with
  | case1 => rfl
  | case2 c rest t ht ih =>
    rw [tokenless_cons_iff, ht] at h
    exact absurd h.1 (Option.some_ne_none t)
  | case3 c rest ht ih => rw [ih (tokenless_cons_iff.mp h).2]

/-- A string without tokens stays as it is. -/
theorem substitute_of_tokenless (p : Prefixes) {s : String} (h : Tokenless s.toList) :
    p.substitute s = s := by
  rw [substitute, p.substituted_of_tokenless h, String.ofList_toList]

/-- Names without braces leave no token behind in a string. -/
theorem Unbraced.tokenless_substitute (h : p.Unbraced) (s : String) :
    Tokenless (p.substitute s).toList := by
  rw [substitute, String.toList_ofList]
  exact h.tokenless_substituted s.toList

/-- Joining two texts without tokens makes no token. -/
theorem Tokenless.joined {text piece : String} (htext : Tokenless text.toList)
    (hpiece : Tokenless piece.toList) : Tokenless (Spacing.joined text piece).toList := by
  rw [← slots_eq_nil_iff] at htext hpiece ⊢
  rw [slots_joined, htext, hpiece, List.append_nil]

/-- Trimming a text without tokens makes no token. -/
theorem Tokenless.trim {s : String} (h : Tokenless s.toList) : Tokenless (Text.trim s).toList := by
  obtain ⟨front, back, hs, -, -⟩ := Text.exists_trimmed s.toList
  rw [Text.toList_trim]
  exact h.of_part ⟨front, back, hs.symm⟩

end Prefixes

namespace Draft

variable {p : Prefixes}

/-- No token is left in the text of a draft with table prefixes whose names have no braces. -/
theorem closed_tokenless (hp : p.Unbraced) :
    Closed fun b => b.prefixes = some p → Prefixes.Tokenless b.text.toList where
  empty _ _ _ := Prefixes.tokenless_nil
  append {b} hb piece hprefixes := by
    have hpiece := hp.tokenless_substitute piece
    rw [← prefixed_of_some (b := b) hprefixes] at hpiece
    exact (hb hprefixes).joined hpiece
  withClause hb _ := hb
  addNamed hb _ _ := hb
  addTemp hb _ _ := hb
  merge {b other} hb _ hprefixes := by
    have hpiece := hp.tokenless_substitute (Text.trim other.text)
    rw [← prefixed_of_some (b := b) hprefixes] at hpiece
    exact (hb hprefixes).joined hpiece

end Draft

/-- Names without braces, put into a text once, leave no token in it, and putting them in once more
changes nothing. A draft that is built with such table prefixes, whatever is appended and merged on
the way, therefore comes in as it is when it is merged into another draft with the same prefixes:
its text is trimmed and joined as a piece without any token would be. -/
theorem Recipe.substituted_twice {H : Type} (f : Filling H) {p : Prefixes} (hp : p.Unbraced) :
    (∀ s : String, (∀ t : Prefixes.Slot, ¬t.spelling <:+: (p.substitute s).toList) ∧
      p.substitute (p.substitute s) = p.substitute s) ∧
    ∀ (b : Draft) (r : Recipe H), b.prefixes = some p → (r.draft f).prefixes = some p →
      (b.merge (r.draft f)).text = Spacing.joined b.text (Text.trim (r.draft f).text) := by
  constructor
  · intro s
    have htokenless := hp.tokenless_substitute s
    exact ⟨htokenless, p.substitute_of_tokenless htokenless⟩
  · intro b r hb hr
    have htokenless : Prefixes.Tokenless (r.draft f).text.toList :=
      (Draft.closed_tokenless hp).draft f r hr
    rw [Draft.merge, Draft.prefixed_of_some hb, p.substitute_of_tokenless htokenless.trim]

/-- Prefixes of which the owner begins with a blank and the qualifier with a comma. -/
def Prefixes.loose : Prefixes :=
  ⟨" dbo", ",crm", ""⟩

/-- The halves of a token around another token are no token once the other one is replaced, in a
text and in drafts that are merged. -/
theorem Recipe.substituted_twice_halves :
    Prefixes.loose.Unbraced ∧
      Prefixes.loose.substitute (Prefixes.loose.substitute "\x7bown\x7bowner\x7der\x7d") =
        "\x7bown dbo.er\x7d" ∧
      let b := (braces.withPrefixes (some Prefixes.loose)).draft .sample
      (b.merge b).text = Spacing.joined b.text (Text.trim b.text) := by
  have hunbraced : Prefixes.loose.Unbraced := ⟨by decide, by decide, by decide⟩
  obtain ⟨htexts, hdrafts⟩ := substituted_twice .sample hunbraced
  have honce : Prefixes.loose.substitute "\x7bown\x7bowner\x7der\x7d" = "\x7bown dbo.er\x7d" := by
    decide +kernel
  exact ⟨hunbraced, (htexts _).2.trans honce, hdrafts _ _ rfl rfl⟩

end BoundSql
