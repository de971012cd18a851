import BoundSql.Proofs.Statement.Emission
import BoundSql.Proofs.Statement.Recipe
import Mathlib.Data.List.Forall2

/-!
# Values never reach the text

Two runs of the same calls with different values have the same text and the same names after every
call, as long as corresponding values are both missing or both present and corresponding phrases
have as many words. Every clause and every predicate looks at a value only to see whether it is
missing, and at a phrase only to count its words.
-/

namespace BoundSql

namespace Draft

/-- Two drafts that differ at most in the values of their parameters. -/
structure Alike (b c : Draft) : Prop where
  /-- Both have the same text. -/
  text_eq : b.text = c.text
  /-- Both put in the same table prefixes. -/
  prefixes_eq : b.prefixes = c.prefixes
  /-- Both end in the same clause. -/
  clause_eq : b.clause = c.clause
  /-- Their parameters differ at most in their values. -/
  parameters : b.parameters.Alike c.parameters

/-- A draft is like itself. -/
theorem Alike.refl (b : Draft) : b.Alike b :=
  ⟨rfl, rfl, rfl, .refl _⟩

/-- The same piece goes behind two texts together with parameters that differ at most in values. -/
theorem Alike.emit {b c : Draft} (h : b.Alike c) {s t : ParameterSet} (hparameters : s.Alike t)
    (piece : String) :
    ({ b with parameters := s }.append piece).Alike ({ c with parameters := t }.append piece) where
  text_eq := by simp only [Draft.append, prefixed, h.text_eq, h.prefixes_eq]
  prefixes_eq := h.prefixes_eq
  clause_eq := rfl
  parameters := hparameters

/-- The same piece goes behind two texts. -/
theorem Alike.append {b c : Draft} (h : b.Alike c) (piece : String) :
    (b.append piece).Alike (c.append piece) :=
  h.emit h.parameters piece

/-- A comparison looks at its value only to see whether it is missing. -/
theorem Alike.compare {b c : Draft} (h : b.Alike c) (column operator : String) {v w : Value}
    (hnull : v.isNull = w.isNull) (isAssignment : Bool) :
    (b.compare column operator v isAssignment).Alike
      (c.compare column operator w isAssignment) := by
  unfold Draft.compare
  rw [hnull]
  split
  · exact h.append _
  · have hreference := h.parameters.addTemp_snd v w column
    simp only [Draft.addTemp, hreference]
    exact h.emit (h.parameters.addTemp v w column) _

/-- A test for being different looks at its value only to see whether it is missing. -/
theorem Alike.notEqualTo {b c : Draft} (h : b.Alike c) (column : String) {v w : Value}
    (hnull : v.isNull = w.isNull) : (b.notEqualTo column v).Alike (c.notEqualTo column w) := by
  unfold Draft.notEqualTo
  rw [hnull]
  split
  · exact h.append _
  · exact h.compare column "<>" hnull false

/-- Drafts that differ at most in values are merged with the same effect on text and names. -/
theorem Alike.merge {b c d e : Draft} (h : b.Alike c) (h' : d.Alike e) :
    (b.merge d).Alike (c.merge e) where
  text_eq := by simp only [Draft.merge, prefixed, h.text_eq, h.prefixes_eq, h'.text_eq]
  prefixes_eq := h.prefixes_eq
  clause_eq := rfl
  parameters := h.parameters.extend h'.parameters

/-- An assignment looks at its value only to see whether it is missing. -/
theorem Alike.set {b c : Draft} (h : b.Alike c) (column : String) {v w : Value}
    (hnull : v.isNull = w.isNull) : (b.set column v).Alike (c.set column w) := by
  unfold Draft.set
  rw [h.clause_eq]
  have hcompare := (h.append (if c.clause = .set then "," else "SET")).compare column "=" hnull true
  exact ⟨hcompare.text_eq, hcompare.prefixes_eq, rfl, hcompare.parameters⟩

/-- A sort key continues the same list. -/
theorem Alike.orderBy {b c : Draft} (h : b.Alike c) (column : String) (order : SortOrder) :
    (b.orderBy column order).Alike (c.orderBy column order) := by
  unfold Draft.orderBy
  rw [h.clause_eq]
  have hkey := (h.append (if c.clause = .orderBy then "," else "ORDER BY")).append
    (column ++ " " ++ order.keyword)
  exact ⟨hkey.text_eq, hkey.prefixes_eq, rfl, hkey.parameters⟩

/-- A new row shows its columns only. -/
theorem Alike.insertInto {b c : Draft} (h : b.Alike c) (table : String)
    {row other : List (String × Value)} (hcolumns : row.map Prod.fst = other.map Prod.fst) :
    (b.insertInto table row).Alike (c.insertInto table other) := by
  obtain ⟨halike, hreferences⟩ := h.parameters.addTemps hcolumns
  simp only [Draft.insertInto, Draft.addTemps, hreferences, hcolumns]
  exact h.emit halike _

/-- A text is never missing. -/
theorem Alike.compareText {b c : Draft} (h : b.Alike c) (column operator pattern other : String) :
    (b.compare column operator (.text pattern)).Alike
      (c.compare column operator (.text other)) := by
  have hnull : (Value.text pattern).isNull = (Value.text other).isNull := rfl
  exact h.compare column operator hnull false

/-- A test for words shows how many words there are. -/
theorem Alike.likeWords {b c : Draft} (h : b.Alike c) (column : String)
    {words others : List (List Char)} (hlength : words.length = others.length) :
    (b.likeWords column words).Alike (c.likeWords column others) := by
  induction words generalizing b c others with
  | nil =>
    obtain rfl := List.length_eq_zero_iff.mp hlength.symm
    exact h
  | cons word rest ih =>
    obtain ⟨other, others, rfl⟩ := List.exists_cons_of_length_eq_add_one hlength.symm
    have hrest : rest.length = others.length := Nat.succ.inj hlength
    have hword : (b.likeWord column word).Alike (c.likeWord column other) :=
      h.compareText column "LIKE" _ _
    cases rest with
    | nil =>
      obtain rfl := List.length_eq_zero_iff.mp hrest.symm
      exact hword
    | cons next rest =>
      obtain ⟨next', others, rfl⟩ := List.exists_cons_of_length_eq_add_one hrest.symm
      exact ih (hword.append "AND") hrest

/-- A test for a pattern shows at most how many words the pattern has. -/
theorem Alike.like {b c : Draft} (h : b.Alike c) (column : String) {pattern other : String}
    (mode : LikeMode) {fullText : Bool}
    (hwords : fullText = true →
      (Text.words pattern.toList).length = (Text.words other.toList).length) :
    (b.like column pattern mode fullText).Alike (c.like column other mode fullText) := by
  unfold Draft.like
  cases fullText with
  | false => exact h.compareText column "LIKE" _ _
  | true =>
    have hlength := hwords rfl
    rw [if_pos rfl, if_pos rfl]
    cases hpattern : Text.words pattern.toList with
    | nil =>
      rw [hpattern] at hlength
      rw [List.length_eq_zero_iff.mp hlength.symm]
      exact h.compareText column "LIKE" _ _
    | cons word rest =>
      rw [hpattern] at hlength
      obtain ⟨word', rest', hother⟩ := List.exists_cons_of_length_eq_add_one hlength.symm
      rw [hother] at hlength ⊢
      exact ((h.append "(").likeWords column hlength).append ")"

/-- Membership in a list of values shows how many values there are. -/
theorem Alike.inList {b c : Draft} (h : b.Alike c) (column : String) {vs ws : List Value}
    (hlength : vs.length = ws.length) : (b.inList column vs).Alike (c.inList column ws) := by
  have hhints : (vs.map fun v => (column, v)).map Prod.fst =
      (ws.map fun v => (column, v)).map Prod.fst := by
    simp only [List.map_map, Function.comp_def, List.map_const', hlength]
  obtain ⟨halike, hreferences⟩ := h.parameters.addTemps hhints
  rw [inList_eq, inList_eq, hreferences]
  exact h.emit halike _

/-- Membership in the results of drafts that differ at most in values looks the same. -/
theorem Alike.inSubquery {b c d e : Draft} (h : b.Alike c) (column : String) (h' : d.Alike e) :
    (b.inSubquery column d).Alike (c.inSubquery column e) :=
  ((h.append _).merge h').append _

/-- A range looks the same whatever its ends are. -/
theorem Alike.between {b c : Draft} (h : b.Alike c) (column : String)
    (low high low' high' : Value) :
    (b.between column low high).Alike (c.between column low' high') := by
  have hlow := h.parameters.addTemp low low' column
  have hhigh := hlow.addTemp high high' column
  have hlowReference := h.parameters.addTemp_snd low low' column
  have hhighReference := hlow.addTemp_snd high high' column
  simp only [Draft.between, Draft.addTemp, hlowReference, hhighReference]
  exact h.emit hhigh _

end Draft

/-- Two comparisons of one form that differ at most in values, with the same values missing, as many
words and as many values. -/
inductive Comparison.Alike : Comparison → Comparison → Prop where
  /-- Equal to a value. -/
  | equal {v w : Value} (h : v.isNull = w.isNull) : Alike (equal v) (equal w)
  /-- Different from a value. -/
  | notEqual {v w : Value} (h : v.isNull = w.isNull) : Alike (notEqual v) (notEqual w)
  /-- Greater than a value. -/
  | greaterThan {v w : Value} (h : v.isNull = w.isNull) : Alike (greaterThan v) (greaterThan w)
  /-- At least a value. -/
  | greaterOrEqual {v w : Value} (h : v.isNull = w.isNull) :
      Alike (greaterOrEqual v) (greaterOrEqual w)
  /-- Less than a value. -/
  | lessThan {v w : Value} (h : v.isNull = w.isNull) : Alike (lessThan v) (lessThan w)
  /-- At most a value. -/
  | lessOrEqual {v w : Value} (h : v.isNull = w.isNull) : Alike (lessOrEqual v) (lessOrEqual w)
  /-- Like a pattern. -/
  | like {pattern other : String} {mode : LikeMode} {fullText : Bool}
      (h : fullText = true →
        (Text.words pattern.toList).length = (Text.words other.toList).length) :
      Alike (like pattern mode fullText) (like other mode fullText)
  /-- Member of a list of values. -/
  | inList {vs ws : List Value} (h : vs.length = ws.length) : Alike (inList vs) (inList ws)
  /-- Member of the result of a statement. -/
  | inSubquery {b c : Draft} (h : b.Alike c) : Alike (inSubquery b) (inSubquery c)
  /-- Between two values. -/
  | between {low high low' high' : Value} : Alike (between low high) (between low' high')
  /-- Missing. -/
  | isNull : Alike isNull isNull
  /-- Present. -/
  | isNotNull : Alike isNotNull isNotNull

/-- Two field criteria about one column whose comparisons, if any, differ at most in values. -/
structure FieldCriterion.Alike (c d : FieldCriterion) : Prop where
  /-- Both are about the same column. -/
  field_eq : c.field = d.field
  /-- Neither has a comparison, or both have and they differ at most in values. -/
  comparison : Option.Rel Comparison.Alike c.comparison d.comparison

/-- Two tokens of criteria that differ at most in values. -/
inductive CriteriaToken.Alike : CriteriaToken → CriteriaToken → Prop where
  /-- A group opens. -/
  | openGroup : Alike openGroup openGroup
  /-- A group closes. -/
  | closeGroup : Alike closeGroup closeGroup
  /-- Both sides must hold. -/
  | and : Alike and and
  /-- One side must hold. -/
  | or : Alike or or
  /-- A field criterion. -/
  | field {c d : FieldCriterion} (h : c.Alike d) : Alike (field c) (field d)
  /-- Raw text. -/
  | literal (text : String) : Alike (literal text) (literal text)

namespace Draft.Alike

/-- Comparisons that differ at most in values look the same. -/
theorem comparing {b c : Draft} (h : b.Alike c) (column : String) {d e : Comparison}
    (h' : d.Alike e) : (b.comparing column d).Alike (c.comparing column e) := by
  cases h' with
  | equal hnull => exact h.compare column "=" hnull false
  | notEqual hnull => exact h.notEqualTo column hnull
  | greaterThan hnull => exact h.compare column ">" hnull false
  | greaterOrEqual hnull => exact h.compare column ">=" hnull false
  | lessThan hnull => exact h.compare column "<" hnull false
  | lessOrEqual hnull => exact h.compare column "<=" hnull false
  | like hwords => exact h.like column _ hwords
  | inList hlength => exact h.inList column hlength
  | inSubquery hsubquery => exact h.inSubquery column hsubquery
  | between => exact h.between column _ _ _ _
  | isNull => exact h.append _
  | isNotNull => exact h.append _

/-- Field criteria that differ at most in values look the same. -/
theorem criterion {b c : Draft} (h : b.Alike c) {d e : FieldCriterion} (h' : d.Alike e) :
    (b.criterion d).Alike (c.criterion e) := by
  obtain ⟨column, comparison⟩ := d
  obtain ⟨column', comparison'⟩ := e
  obtain ⟨rfl, hcomparison⟩ := h'
  cases hcomparison with
  | none => exact h
  | some hcomparison => exact h.comparing _ hcomparison

/-- Tokens of criteria that differ at most in values look the same. -/
theorem criteriaToken {b c : Draft} (h : b.Alike c) {t u : CriteriaToken} (h' : t.Alike u) :
    (b.criteriaToken t).Alike (c.criteriaToken u) := by
  cases h' with
  | openGroup => exact h.append _
  | closeGroup => exact h.append _
  | and => exact h.append _
  | or => exact h.append _
  | field hfield => exact h.criterion hfield
  | literal text => exact h.append _

/-- Criteria that differ at most in values compile to the same text. -/
theorem compile {b c : Draft} (h : b.Alike c) {ts us : List CriteriaToken}
    (h' : List.Forall₂ CriteriaToken.Alike ts us) :
    (ts.foldl Draft.criteriaToken b).Alike (us.foldl Draft.criteriaToken c) := by
  induction h' generalizing b c with
  | nil => exact h
  | cons hfirst _ ih => exact ih (h.criteriaToken hfirst)

end Draft.Alike

/-- Two fillings with the same values missing and as many words in the same phrases. -/
structure Filling.Alike {H : Type} (f g : Filling H) : Prop where
  /-- The same values are missing. -/
  isNull_eq : ∀ h, (f.value h).isNull = (g.value h).isNull
  /-- The same phrases have as many words. -/
  words_eq : ∀ h, (Text.words (f.phrase h).toList).length = (Text.words (g.phrase h).toList).length

section Runs

variable {H : Type} {f g : Filling H}

/-- A test looks the same for both fillings. -/
theorem Filling.Alike.comparison (h : f.Alike g) (t : Test H) :
    (t.comparison f).Alike (t.comparison g) := by
  cases t with
  | equal v => exact .equal (h.isNull_eq v)
  | notEqual v => exact .notEqual (h.isNull_eq v)
  | greaterThan v => exact .greaterThan (h.isNull_eq v)
  | greaterOrEqual v => exact .greaterOrEqual (h.isNull_eq v)
  | lessThan v => exact .lessThan (h.isNull_eq v)
  | lessOrEqual v => exact .lessOrEqual (h.isNull_eq v)
  | like pattern mode => exact .like fun hfalse => Bool.noConfusion hfalse
  | likeWords phrase mode => exact .like fun _ => h.words_eq phrase
  | inList vs => exact .inList (by simp only [List.length_map])
  | between low high => exact .between
  | isNull => exact .isNull
  | isNotNull => exact .isNotNull

/-- A test that is set looks the same for both fillings. -/
theorem Filling.Alike.held (h : f.Alike g) (t : Test H) : (t.held f).Alike (t.held g) := by
  have hcomparison := h.comparison t
  cases t with
  | notEqual v =>
    unfold Test.held Comparison.differentFrom
    dsimp only
    rw [h.isNull_eq v]
    split
    · exact .isNotNull
    · exact .notEqual (h.isNull_eq v)
  | _ => exact hcomparison

/-- A call looks the same for both fillings. -/
theorem Draft.Alike.call {b c : Draft} (h : b.Alike c) (hfilling : f.Alike g) (call : Call H) :
    (b.call f call).Alike (c.call g call) := by
  cases call with
  | append text => exact h.append _
  | compare column operator v isAssignment =>
    exact h.compare column operator (hfilling.isNull_eq v) isAssignment
  | select columns => exact h.append _
  | selectDistinct columns => exact h.append _
  | fromTable table => exact h.append _
  | insertInto table row => exact h.insertInto table (by simp only [List.map_map]; rfl)
  | update table => exact h.append _
  | set column v => exact h.set column (hfilling.isNull_eq v)
  | deleteFrom table => exact h.append _
  | condition connective column operator v =>
    exact (h.append connective.keyword).compare column operator (hfilling.isNull_eq v) false
  | rawCondition connective text => exact (h.append connective.keyword).append text
  | innerJoin table => exact h.append _
  | leftJoin table => exact h.append _
  | onColumns left operator right => exact h.append _
  | orderBy column order => exact h.orderBy column order
  | groupBy columns => exact h.append _
  | openGroup => exact h.append _
  | closeGroup => exact h.append _
  | test column t => exact h.comparing column (hfilling.comparison t)
  | addNamed name v =>
    exact ⟨h.text_eq, h.prefixes_eq, h.clause_eq, h.parameters.addNamed name _ _⟩
  | addTemp v hint => exact ⟨h.text_eq, h.prefixes_eq, h.clause_eq, h.parameters.addTemp _ _ hint⟩

/-- A conjunction of field criteria that differ at most in values looks the same. -/
theorem Criteria.conjoined_alike {conjunction : CriteriaToken}
    (hconjunction : conjunction.Alike conjunction) {fields others : List FieldCriterion}
    (h : List.Forall₂ FieldCriterion.Alike fields others) :
    List.Forall₂ CriteriaToken.Alike (conjoined conjunction fields)
      (conjoined conjunction others) := by
  induction h with
  | nil => exact .nil
  | cons hfirst hrest ih =>
    cases hrest with
    | nil => exact .cons (.field hfirst) .nil
    | cons _ _ => exact .cons (.field hfirst) (.cons hconjunction ih)

/-- Field criteria without a comparison are left out on both sides. -/
theorem FieldCriterion.filter_alike {fields others : List FieldCriterion}
    (h : List.Forall₂ Alike fields others) :
    List.Forall₂ Alike (fields.filter (!·.isEmpty)) (others.filter (!·.isEmpty)) := by
  induction h with
  | nil => exact .nil
  | @cons c d _ _ hfirst _ ih =>
    obtain ⟨column, comparison⟩ := c
    obtain ⟨column', comparison'⟩ := d
    obtain ⟨hfield, hcomparison⟩ := hfirst
    cases hcomparison with
    | none => exact ih
    | some hcomparison => exact .cons ⟨hfield, .some hcomparison⟩ ih

/-- A call on criteria extends both rows of tokens by the same tokens. -/
theorem Criteria.call_alike {c d : Criteria}
    (h : List.Forall₂ CriteriaToken.Alike c.tokens d.tokens) (call : CriteriaCall) :
    List.Forall₂ CriteriaToken.Alike (c.call call).tokens (d.call call).tokens := by
  have hpush {t : CriteriaToken} (ht : t.Alike t) :
      List.Forall₂ CriteriaToken.Alike (c.push t).tokens (d.push t).tokens :=
    List.rel_append h (.cons ht .nil)
  cases call with
  | openGroup => exact hpush .openGroup
  | closeGroup => exact hpush .closeGroup
  | and => exact hpush .and
  | or => exact hpush .or
  | literal text => exact hpush (.literal text)
  | literalWith template arguments => exact hpush (.literal _)
  | addOrderBy expression => exact h
  | setMaxRecords n => exact h

mutual

/-- A recipe builds drafts that differ at most in values. -/
theorem Recipe.alike (h : f.Alike g) : (r : Recipe H) → (r.draft f).Alike (r.draft g)
  | .empty _ _ => .refl _
  | .call r c => (r.alike h).call h c
  | .merge r other => (r.alike h).merge (other.alike h)
  | .inSubquery r column subquery => (r.alike h).inSubquery column (subquery.alike h)
  | .compile r criteria => (r.alike h).compile (criteria.alike h)

/-- A recipe builds criteria that differ at most in values. -/
theorem CriteriaRecipe.alike (h : f.Alike g) : (r : CriteriaRecipe H) →
    List.Forall₂ CriteriaToken.Alike (r.criteria f).tokens (r.criteria g).tokens
  | .empty => .nil
  | .call r c => Criteria.call_alike (r.alike h) c
  | .push r field => List.rel_append (r.alike h) (.cons (.field (field.alike h)) .nil)
  | .conjoin r all fields => by
    have hfields := FieldCriterion.filter_alike (fields.alike h)
    cases all with
    | false => exact List.rel_append (r.alike h) (Criteria.conjoined_alike .or hfields)
    | true => exact List.rel_append (r.alike h) (Criteria.conjoined_alike .and hfields)

/-- A recipe builds field criteria that differ at most in values. -/
theorem FieldRecipe.alike (h : f.Alike g) :
    (r : FieldRecipe H) → (r.criterion f).Alike (r.criterion g)
  | .ofField _ => ⟨rfl, .none⟩
  | .test r t => ⟨(r.alike h).field_eq, .some (h.held t)⟩
  | .inSubquery r subquery => ⟨(r.alike h).field_eq, .some (.inSubquery (subquery.alike h))⟩
  | .cleared r => ⟨(r.alike h).field_eq, .none⟩

/-- Recipes build field criteria that differ at most in values. -/
theorem FieldRecipes.alike (h : f.Alike g) : (rs : FieldRecipes H) →
    List.Forall₂ FieldCriterion.Alike (rs.criteria f) (rs.criteria g)
  | .nil => .nil
  | .cons first rest => .cons (first.alike h) (rest.alike h)

end

/-- Two runs of the same calls with values of which the same are missing and phrases with as many
words have the same text and the same names after every call, and so do their finished statements
and the pages of their rows. -/
theorem Recipe.secrecy (h : f.Alike g) (r : Recipe H) (page : Page) :
    (∀ stage ∈ r.stages, (stage.draft f).text = (stage.draft g).text ∧
      (stage.draft f).parameters.names = (stage.draft g).parameters.names) ∧
    ((r.draft f).finish.sql = (r.draft g).finish.sql ∧
      (r.draft f).finish.parameters.map Parameter.name =
        (r.draft g).finish.parameters.map Parameter.name) ∧
    ((page.wrap (r.draft f)).sql = (page.wrap (r.draft g)).sql ∧
      (page.wrap (r.draft f)).parameters.map Parameter.name =
        (page.wrap (r.draft g)).parameters.map Parameter.name) := by
  have halike := r.alike h
  have htext := halike.text_eq
  have hnames := halike.parameters.names_eq
  refine ⟨fun stage _ => ?_, ⟨?_, hnames⟩, ⟨?_, hnames⟩⟩
  · exact ⟨(stage.alike h).text_eq, (stage.alike h).parameters.names_eq⟩
  · simp only [Draft.finish, htext]
  · unfold Page.wrap
    rw [htext]

/-- A text, or a number, and another phrase of two words. -/
def Filling.other : Filling Bool where
  value absent := if absent then .text "Robert'); DROP TABLE Users" else .int 7
  pattern _ := "B"
  phrase _ := "tax return"

/-- A text in place of a date, another number and other words leave the text of the sample and the
names of its parameters as they are. -/
theorem Recipe.secrecy_sample :
    Filling.sample.Alike .other ∧
      (sample.draft .sample).text = (sample.draft .other).text ∧
      (sample.draft .sample).parameters.names = (sample.draft .other).parameters.names := by
  have halike : Filling.sample.Alike .other := ⟨by decide, by decide⟩
  have hsecrecy := Recipe.secrecy halike sample ⟨10, 0⟩
  exact ⟨halike, hsecrecy.1 sample sample.mem_stages⟩

end Runs

end BoundSql
