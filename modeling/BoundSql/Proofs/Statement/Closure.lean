import BoundSql.Proofs.Parameter.History
import BoundSql.Proofs.Statement.Emission
import BoundSql.Proofs.Statement.Recipe

/-!
# What holds of every draft

Every call on a draft comes down to a few moves: a piece of text is appended, a parameter is added
under a given or a generated name, a draft is merged, and the clause that the text ends in is noted.
What holds of the empty draft and stays with each of these moves therefore holds of every draft that
a recipe builds, with subqueries and criteria at any depth.
-/

namespace BoundSql

/-- A property of drafts that holds of the empty draft and stays with every move. -/
structure Draft.Closed (P : Draft → Prop) : Prop where
  /-- It holds of a draft without text. -/
  empty : ∀ supply prefixes, P (Draft.empty supply prefixes)
  /-- It stays when a piece of text is appended. -/
  append : ∀ {b}, P b → ∀ piece, P (b.append piece)
  /-- It stays when the clause is noted. -/
  withClause : ∀ {b}, P b → ∀ clause, P { b with clause }
  /-- It stays when a parameter is added under a name. -/
  addNamed : ∀ {b}, P b → ∀ name value, P (b.addNamed name value).1
  /-- It stays when a parameter is added under a generated name. -/
  addTemp : ∀ {b}, P b → ∀ value hint, P (b.addTemp value hint).1
  /-- It stays when a draft is merged of which it holds as well. -/
  merge : ∀ {b other}, P b → P other → P (b.merge other)

/-- A comparison whose subquery, if it has one, has a property. -/
def Comparison.Meets (P : Draft → Prop) : Comparison → Prop
  | inSubquery subquery => P subquery
  | _ => True

/-- A field criterion whose subquery, if it has one, has a property. -/
def FieldCriterion.Meets (P : Draft → Prop) (c : FieldCriterion) : Prop :=
  ∀ comparison ∈ c.comparison, comparison.Meets P

/-- A token of criteria whose subquery, if it has one, has a property. -/
def CriteriaToken.Meets (P : Draft → Prop) : CriteriaToken → Prop
  | field c => c.Meets P
  | _ => True

namespace Draft.Closed

variable {P : Draft → Prop} {b : Draft}

/-- The property stays when parameters are added under generated names. -/
theorem addTemps (h : Closed P) (hb : P b) (bindings : List (String × Value)) :
    P (b.addTemps bindings).1 := by
  induction bindings generalizing b with
  | nil => exact hb
  | cons binding rest ih => exact ih (h.addTemp hb binding.2 binding.1)

/-- The property stays when a comparison is appended. -/
theorem compare (h : Closed P) (hb : P b) (column operator : String) (v : Value)
    (isAssignment : Bool) : P (b.compare column operator v isAssignment) := by
  unfold Draft.compare
  split
  · exact h.append hb _
  · exact h.append (h.addTemp hb v column) _

/-- The property stays when a test for words is appended. -/
theorem likeWords (h : Closed P) (hb : P b) (column : String) (words : List (List Char)) :
    P (b.likeWords column words) := by
  induction words generalizing b with
  | nil => exact hb
  | cons word rest ih =>
    have hword : P (b.likeWord column word) := h.compare hb column "LIKE" _ false
    cases rest with
    | nil => exact hword
    | cons next rest => exact ih (h.append hword "AND")

/-- The property stays when a test for a pattern is appended. -/
theorem like (h : Closed P) (hb : P b) (column pattern : String) (mode : LikeMode)
    (fullText : Bool) : P (b.like column pattern mode fullText) := by
  unfold Draft.like
  split
  · split
    · exact h.compare hb column "LIKE" _ false
    · exact h.append (h.likeWords (h.append hb "(") column _) ")"
  · exact h.compare hb column "LIKE" _ false

/-- The property stays when a comparison of a criterion is appended. -/
theorem comparing (h : Closed P) (hb : P b) (column : String) {c : Comparison}
    (hc : c.Meets P) : P (b.comparing column c) := by
  cases c with
  | equal v | greaterThan v | greaterOrEqual v | lessThan v | lessOrEqual v =>
    exact h.compare hb column _ v false
  | notEqual v =>
    simp only [Draft.comparing, notEqualTo]
    split
    · exact h.append hb _
    · exact h.compare hb column "<>" v false
  | like pattern mode fullText => exact h.like hb column pattern mode fullText
  | inList vs =>
    simp only [Draft.comparing, inList_eq]
    exact h.append (h.addTemps hb _) _
  | inSubquery subquery => exact h.append (h.merge (h.append hb _) hc) ")"
  | between low high => exact h.append (h.addTemp (h.addTemp hb low column) high column) _
  | isNull | isNotNull => exact h.append hb _

/-- The property stays when a token of criteria is appended. -/
theorem criteriaToken (h : Closed P) (hb : P b) {t : CriteriaToken} (ht : t.Meets P) :
    P (b.criteriaToken t) := by
  cases t with
  | openGroup | closeGroup | and | or | literal text => exact h.append hb _
  | field c =>
    simp only [Draft.criteriaToken, Draft.criterion]
    split
    · rename_i comparison hcomparison
      exact h.comparing hb _ (ht comparison hcomparison)
    · exact hb

/-- The property stays when criteria are compiled. -/
theorem compile (h : Closed P) (hb : P b) {tokens : List CriteriaToken}
    (htokens : ∀ t ∈ tokens, t.Meets P) : P (tokens.foldl Draft.criteriaToken b) := by
  induction tokens generalizing b with
  | nil => exact hb
  | cons t rest ih =>
    have hfirst := h.criteriaToken hb (htokens t List.mem_cons_self)
    exact ih hfirst fun u hu => htokens u (List.mem_cons_of_mem t hu)

variable {H : Type}

/-- The property stays with every call. -/
theorem call (h : Closed P) (hb : P b) (f : Filling H) (c : Call H) : P (b.call f c) := by
  cases c with
  | append | select | selectDistinct | fromTable | update | deleteFrom | innerJoin | leftJoin
  | onColumns | groupBy | openGroup | closeGroup => exact h.append hb _
  | compare column operator v isAssignment => exact h.compare hb column operator _ isAssignment
  | insertInto table row => exact h.append (h.addTemps hb _) _
  | set column v => exact h.withClause (h.compare (h.append hb _) column "=" _ true) .set
  | condition connective column operator v =>
    exact h.compare (h.append hb connective.keyword) column operator _ false
  | rawCondition connective text => exact h.append (h.append hb connective.keyword) text
  | orderBy column order => exact h.withClause (h.append (h.append hb _) _) .orderBy
  | test column t =>
    have htest : (t.comparison f).Meets P := by
      cases t <;> exact trivial
    exact h.comparing hb column htest
  | addNamed name v => exact h.addNamed hb name _
  | addTemp v hint => exact h.addTemp hb _ hint

end Draft.Closed

/-- A conjunction of field criteria that have a property has it. -/
theorem Criteria.meets_of_mem_conjoined {P : Draft → Prop} {conjunction : CriteriaToken}
    (h : conjunction.Meets P) {fields : List FieldCriterion} (hfields : ∀ c ∈ fields, c.Meets P) :
    ∀ t ∈ conjoined conjunction fields, t.Meets P := by
  induction fields with
  | nil => exact fun t ht => absurd ht List.not_mem_nil
  | cons c rest ih =>
    have hc : (CriteriaToken.field c).Meets P := hfields c List.mem_cons_self
    have hrest := ih fun d hd => hfields d (List.mem_cons_of_mem c hd)
    cases rest with
    | nil => exact List.forall_mem_singleton.mpr hc
    | cons next rest =>
      rw [conjoined]
      · exact List.forall_mem_cons.mpr ⟨hc, List.forall_mem_cons.mpr ⟨h, hrest⟩⟩
      · exact fun hnil => nomatch hnil

/-- Criteria that have a property keep it when a conjunction of field criteria that have it comes
behind them. -/
theorem Criteria.meets_pushConjoined {P : Draft → Prop} {c : Criteria}
    (hc : ∀ t ∈ c.tokens, t.Meets P) {conjunction : CriteriaToken} (h : conjunction.Meets P)
    {fields : List FieldCriterion} (hfields : ∀ d ∈ fields, d.Meets P) :
    ∀ t ∈ (c.pushConjoined conjunction fields).tokens, t.Meets P := by
  have hkept : ∀ d ∈ fields.filter (!·.isEmpty), d.Meets P :=
    fun d hd => hfields d (List.mem_filter.mp hd).1
  exact List.forall_mem_append.mpr ⟨hc, meets_of_mem_conjoined h hkept⟩

/-- Criteria that have a property keep it with every call that brings no field criteria. -/
theorem Criteria.meets_call {P : Draft → Prop} {c : Criteria} (hc : ∀ t ∈ c.tokens, t.Meets P)
    (call : CriteriaCall) : ∀ t ∈ (c.call call).tokens, t.Meets P := by
  have hpush {token : CriteriaToken} (htoken : token.Meets P) :
      ∀ t ∈ (c.push token).tokens, t.Meets P :=
    List.forall_mem_append.mpr ⟨hc, List.forall_mem_singleton.mpr htoken⟩
  cases call with
  | openGroup | closeGroup | and | or | literal text | literalWith template arguments =>
    exact hpush trivial
  | addOrderBy expression | setMaxRecords n => exact hc

section Recipe

variable {H : Type} {P : Draft → Prop}

/-- Setting a test asks for no subquery. -/
theorem Test.meets_held (f : Filling H) (t : Test H) : (t.held f).Meets P := by
  cases t with
  | notEqual v =>
    simp only [held, Comparison.differentFrom]
    split <;> exact trivial
  | _ => exact trivial

mutual

/-- What stays with every move holds of every draft. -/
theorem Draft.Closed.draft (h : Draft.Closed P) (f : Filling H) (r : Recipe H) :
    P (r.draft f) := by
  cases r with
  | empty supply prefixes => exact h.empty supply prefixes
  | call r c => exact h.call (h.draft f r) f c
  | merge r other => exact h.merge (h.draft f r) (h.draft f other)
  | inSubquery r column subquery =>
    -- A subquery is merged between two pieces of text.
    exact h.append (h.merge (h.append (h.draft f r) _) (h.draft f subquery)) ")"
  | compile r criteria => exact h.compile (h.draft f r) (h.criteria f criteria)

/-- It holds of all subqueries in criteria. -/
theorem Draft.Closed.criteria (h : Draft.Closed P) (f : Filling H) :
    (r : CriteriaRecipe H) → ∀ t ∈ (r.criteria f).tokens, t.Meets P
  | .empty => fun _ ht => absurd ht List.not_mem_nil
  | .call r c => Criteria.meets_call (h.criteria f r) c
  | .push r field =>
    have hfield : (CriteriaToken.field (field.criterion f)).Meets P := h.criterion f field
    List.forall_mem_append.mpr ⟨h.criteria f r, List.forall_mem_singleton.mpr hfield⟩
  | .conjoin r all fields => by
    have hr := h.criteria f r
    have hfields := h.fields f fields
    cases all with
    | false =>
      have hor : CriteriaToken.or.Meets P := trivial
      exact Criteria.meets_pushConjoined hr hor hfields
    | true =>
      have hand : CriteriaToken.and.Meets P := trivial
      exact Criteria.meets_pushConjoined hr hand hfields

/-- It holds of the subquery of a field criterion. -/
theorem Draft.Closed.criterion (h : Draft.Closed P) (f : Filling H) :
    (r : FieldRecipe H) → (r.criterion f).Meets P
  | .ofField _ | .cleared _ => fun _ hc => nomatch hc
  | .test _ t => fun _ hc => Option.some.inj hc ▸ t.meets_held f
  | .inSubquery _ subquery => fun _ hc => Option.some.inj hc ▸ h.draft f subquery

/-- It holds of the subqueries of a row of field criteria. -/
theorem Draft.Closed.fields (h : Draft.Closed P) (f : Filling H) :
    (rs : FieldRecipes H) → ∀ c ∈ rs.criteria f, c.Meets P
  | .nil => fun _ hc => absurd hc List.not_mem_nil
  | .cons first rest => List.forall_mem_cons.mpr ⟨h.criterion f first, h.fields f rest⟩

end

end Recipe

/-- The parameters of every draft have a history. -/
theorem Recipe.exists_history {H : Type} (f : Filling H) (r : Recipe H) :
    ∃ history : ParameterSet.History, (r.draft f).parameters = history.set := by
  have hclosed : Draft.Closed fun b => ∃ h : ParameterSet.History, b.parameters = h.set := by
    refine ⟨fun supply _ => ⟨.empty supply, rfl⟩, fun hb _ => hb, fun hb _ => hb, ?_, ?_, ?_⟩
    · rintro b ⟨h, hb⟩ name value
      exact ⟨.addNamed h name value .input, by rw [ParameterSet.History.set, ← hb]; rfl⟩
    · rintro b ⟨h, hb⟩ value hint
      exact ⟨.addTemp h value hint, by rw [ParameterSet.History.set, ← hb]; rfl⟩
    · rintro b other ⟨h, hb⟩ ⟨h', hother⟩
      exact ⟨.extend h h', by rw [ParameterSet.History.set, ← hb, ← hother]; rfl⟩
  exact hclosed.draft f r

/-- The names of the parameters of a draft are different tokens. -/
theorem Recipe.wellNamed {H : Type} (f : Filling H) (r : Recipe H) :
    (r.draft f).parameters.WellNamed := by
  obtain ⟨h, hset⟩ := r.exists_history f
  exact hset ▸ h.wellNamed_set

end BoundSql
