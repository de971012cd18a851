import BoundSql.Proofs.Parameter.Map
import BoundSql.Proofs.Statement.Closure
import BoundSql.Proofs.Statement.Spacing

/-!
# Merging is associative

Sets of parameters with the taking in of other sets are a monoid, and a name finds what the first of
the sets that has it finds. Texts joined piece by piece are one as well. Drafts without table
prefixes can therefore be merged one by one or all at once, provided that the text of the one in the
middle has no blanks at its ends: those are trimmed when the draft is merged, and kept when another
one is merged into it.
-/

namespace BoundSql

/-- Drafts can be merged one by one or all at once. -/
theorem Draft.merge_assoc {b c d : Draft} (hb : b.prefixes = none) (hc : c.prefixes = none)
    (htrim : Text.trim c.text = c.text) (hcNamed : c.parameters.WellNamed)
    (hdNamed : d.parameters.WellNamed) : (b.merge c).merge d = b.merge (c.merge d) := by
  have htexts : Spacing.joined (Spacing.joined b.text (Text.trim c.text)) (Text.trim d.text) =
      Spacing.joined b.text (Text.trim (Spacing.joined c.text (Text.trim d.text))) := by
    rw [Spacing.trim_joined htrim (Text.trim_trim d.text), htrim, Spacing.joined_assoc]
  have hparameters := hcNamed.extend_assoc b.parameters hdNamed
  simp only [merge, prefixed, hb, hc, htexts, hparameters]

section Recipe

variable {H : Type}

/-- Taking in sets of parameters and merging drafts are associative. For sets that are built by any
calls the set without parameters adds nothing and takes in a set as it is, but for the suffixes that
are drawn later; a name finds the entry that it had, or else the one that it has in the set that is
taken in; and three sets make the same set either way, with the same entries in the same order and
the same counter. Three drafts, of which the first two have no table prefixes and the text of the
second neither begins nor ends with a blank, make the same draft either way, so that every later
call does the same as well. -/
theorem Recipe.merging_assoc (f : Filling H) :
    (∀ s : ParameterSet.History,
      (∀ supply, s.set.extend (.empty supply) = s.set ∧
        (ParameterSet.empty supply).extend s.set = { s.set with supply }) ∧
      ∀ t : ParameterSet.History,
        (∀ name, (s.set.extend t.set).get? name = (s.set.get? name).or (t.set.get? name)) ∧
        ∀ u : ParameterSet.History,
          (s.set.extend t.set).extend u.set = s.set.extend (t.set.extend u.set)) ∧
    ∀ a b c : Recipe H, (a.draft f).prefixes = none → (b.draft f).prefixes = none →
      (∀ first ∈ (b.draft f).text.toList.head?, Text.isBlank first = false) →
      (∀ last ∈ (b.draft f).text.toList.getLast?, Text.isBlank last = false) →
      ((a.draft f).merge (b.draft f)).merge (c.draft f) =
        (a.draft f).merge ((b.draft f).merge (c.draft f)) := by
  constructor
  · intro s
    refine ⟨fun supply => ?_, fun t => ⟨?_, fun u => ?_⟩⟩
    · exact ⟨s.set.extend_empty supply, s.wellNamed_set.empty_extend supply⟩
    · exact t.wellNamed_set.get?_extend s.set
    · exact t.wellNamed_set.extend_assoc s.set u.wellNamed_set
  · intro a b c ha hb hfirst hlast
    have htrim := (Text.trim_eq_self_iff (b.draft f).text).mpr ⟨hfirst, hlast⟩
    exact Draft.merge_assoc ha hb htrim (b.wellNamed f) (c.wellNamed f)

end Recipe

/-- A piece of a statement next to a parameter. -/
def Recipe.piece (number : Nat) (text name : String) (absent : Bool) : Recipe Bool :=
  .call (.call (.empty (.series number) none) (.append text)) (.addNamed name absent)

/-- The drafts behind the first begin with commas and give its parameter other values, and the last
one has blanks at its ends. -/
theorem Recipe.merging_assoc_commas :
    let a := (piece 1 "SET A = @p" "p" false).draft .sample
    let b := (piece 2 ", B = @p" ":p" true).draft .sample
    let c := (piece 3 " , C = @q " "$q" false).draft .sample
    (a.prefixes = none ∧ b.prefixes = none ∧
      (∀ first ∈ b.text.toList.head?, Text.isBlank first = false) ∧
      ∀ last ∈ b.text.toList.getLast?, Text.isBlank last = false) ∧
    (a.merge b).merge c = a.merge (b.merge c) := by
  intro a b c
  obtain ⟨hfirst, hlast⟩ := (Text.trim_eq_self_iff b.text).mp (by decide)
  exact ⟨⟨rfl, rfl, hfirst, hlast⟩,
    (merging_assoc .sample).2 (piece 1 "SET A = @p" "p" false) (piece 2 ", B = @p" ":p" true)
      (piece 3 " , C = @q " "$q" false) rfl rfl hfirst hlast⟩

end BoundSql
