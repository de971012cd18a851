import BoundSql.Proofs.Statement.Emission
import BoundSql.Proofs.Statement.Recipe

/-!
# Text and parameters stay in step

A draft that is built by a regular recipe refers to its parameters in the order in which the calls
bound their values, each of them once. This holds of the text as it stands, of the finished
statement and of every page of its rows.
-/

namespace BoundSql

/-- The values that a comparison binds, in order. -/
def Comparison.bound : Comparison → List Value
  | equal v | notEqual v | greaterThan v | greaterOrEqual v | lessThan v | lessOrEqual v => v.bound
  | like pattern mode fullText => (mode.sought pattern fullText).map Value.text
  | inList vs => vs.map Value.cleared
  | inSubquery subquery => subquery.parameters.values
  | between low high => [low.cleared, high.cleared]
  | isNull | isNotNull => []

/-- The names of the parameters that a comparison takes in from another draft. -/
def Comparison.imported : Comparison → List String
  | inSubquery subquery => subquery.parameters.names
  | _ => []

/-- A comparison whose subquery, if it has one, is sound. -/
def Comparison.Sound : Comparison → Prop
  | inSubquery subquery => subquery.Sound
  | _ => True

/-- The values that a field criterion binds, in order. -/
def FieldCriterion.bound (c : FieldCriterion) : List Value :=
  c.comparison.elim [] Comparison.bound

/-- The names that a field criterion takes in from another draft. -/
def FieldCriterion.imported (c : FieldCriterion) : List String :=
  c.comparison.elim [] Comparison.imported

/-- A field criterion that compares a column without at signs soundly, or not at all. -/
def FieldCriterion.Sound (c : FieldCriterion) : Prop :=
  ∀ comparison ∈ c.comparison, Plain c.field ∧ comparison.Sound

namespace CriteriaToken

/-- The values that a token of criteria binds, in order. -/
def bound : CriteriaToken → List Value
  | field c => c.bound
  | _ => []

/-- The names that a token of criteria takes in from another draft. -/
def imported : CriteriaToken → List String
  | field c => c.imported
  | _ => []

/-- A token of criteria that is sound where it compares and has no at signs where it is text. -/
def Sound : CriteriaToken → Prop
  | field c => c.Sound
  | literal text => Plain text
  | _ => True

end CriteriaToken

namespace Draft

/-- A draft into which the tokens of some criteria take in only names that are not taken when their
turn comes. -/
def Apart (b : Draft) : List CriteriaToken → Prop
  | [] => True
  | t :: rest =>
    (∀ name ∈ t.imported, name ∉ b.parameters.names) ∧ (b.criteriaToken t).Apart rest

/-- A sound comparison binds its values. -/
theorem Sound.comparing {b : Draft} (h : b.Sound) {column : String} (hcolumn : Plain column)
    {c : Comparison} (hc : c.Sound) (hapart : ∀ name ∈ c.imported, name ∉ b.parameters.names) :
    b.Emits (b.comparing column c) c.bound := by
  cases c with
  | equal v => exact h.compare hcolumn (by decide) v false
  | notEqual v => exact h.notEqualTo hcolumn v
  | greaterThan v => exact h.compare hcolumn (by decide) v false
  | greaterOrEqual v => exact h.compare hcolumn (by decide) v false
  | lessThan v => exact h.compare hcolumn (by decide) v false
  | lessOrEqual v => exact h.compare hcolumn (by decide) v false
  | like pattern mode fullText => exact h.like hcolumn pattern mode fullText
  | inList vs => exact h.inList hcolumn vs
  | inSubquery subquery => exact h.inSubquery hcolumn hc hapart
  | between low high => exact h.between hcolumn low high
  | isNull => exact h.append (plain_append.mpr ⟨hcolumn, by decide⟩)
  | isNotNull => exact h.append (plain_append.mpr ⟨hcolumn, by decide⟩)

/-- A sound token of criteria binds its values. -/
theorem Sound.criteriaToken {b : Draft} (h : b.Sound) {t : CriteriaToken} (ht : t.Sound)
    (hapart : ∀ name ∈ t.imported, name ∉ b.parameters.names) :
    b.Emits (b.criteriaToken t) t.bound := by
  cases t with
  | openGroup => exact h.append (by decide)
  | closeGroup => exact h.append (by decide)
  | and => exact h.append (by decide)
  | or => exact h.append (by decide)
  | field c =>
    obtain ⟨column, comparison⟩ := c
    cases comparison with
    | none => exact h.emits
    | some comparison =>
      obtain ⟨hcolumn, hsound⟩ := ht comparison rfl
      exact h.comparing hcolumn hsound hapart
  | literal text => exact h.append ht

/-- Sound criteria bind the values of their tokens from left to right. -/
theorem Sound.compile {b : Draft} (h : b.Sound) {tokens : List CriteriaToken}
    (htokens : ∀ t ∈ tokens, t.Sound) (hapart : b.Apart tokens) :
    b.Emits (tokens.foldl Draft.criteriaToken b) (tokens.flatMap CriteriaToken.bound) := by
  induction tokens generalizing b with
  | nil => exact h.emits
  | cons t rest ih =>
    have hfirst := h.criteriaToken (htokens t List.mem_cons_self) hapart.1
    have hrest := ih hfirst.sound (fun u hu => htokens u (List.mem_cons_of_mem t hu)) hapart.2
    exact hfirst.trans hrest

end Draft

variable {H : Type}

/-- The texts that a caller gives in a call that prints what it binds. -/
def Call.texts : Call H → List String
  | append text | rawCondition _ text => [text]
  | compare column operator _ _ | condition _ column operator _ => [column, operator]
  | select columns | selectDistinct columns | groupBy columns => columns
  | fromTable table | update table | deleteFrom table | innerJoin table | leftJoin table => [table]
  | insertInto table row => table :: row.map Prod.fst
  | set column _ | orderBy column _ | test column _ => [column]
  | onColumns left operator right => [left, operator, right]
  | openGroup | closeGroup | addNamed _ _ | addTemp _ _ => []

/-- The values that a call binds, in order. -/
def Call.bound (f : Filling H) : Call H → List Value
  | compare _ _ v _ | condition _ _ _ v | set _ v => (f.value v).bound
  | insertInto _ row => row.map fun entry => (f.value entry.2).cleared
  | test _ t => (t.comparison f).bound
  | addNamed _ v | addTemp v _ => [(f.value v).cleared]
  | _ => []

/-- A call that prints what it binds, with texts that have no at signs. -/
def Call.Regular : Call H → Prop
  | addNamed _ _ | addTemp _ _ => False
  | c => ∀ text ∈ c.texts, Plain text

/-- A call on criteria whose text has no at signs. -/
def CriteriaCall.Regular : CriteriaCall → Prop
  | literal text => Plain text
  | literalWith template arguments => Plain (Template.fill template (arguments.map Value.shown))
  | _ => True

mutual

/-- The values that the calls of a recipe bind, in the order of the calls. -/
def Recipe.bound (f : Filling H) : Recipe H → List Value
  | .empty _ _ => []
  | .call r c => r.bound f ++ c.bound f
  | .merge r other => r.bound f ++ other.bound f
  | .inSubquery r _ subquery => r.bound f ++ subquery.bound f
  | .compile r criteria => r.bound f ++ criteria.bound f

/-- The values that compiling criteria binds, in the order of the calls that built them. -/
def CriteriaRecipe.bound (f : Filling H) : CriteriaRecipe H → List Value
  | .empty => []
  | .call r _ => r.bound f
  | .push r field => r.bound f ++ field.bound f
  | .conjoin r _ fields => r.bound f ++ fields.bound f

/-- The values that a field criterion binds. -/
def FieldRecipe.bound (f : Filling H) : FieldRecipe H → List Value
  | .ofField _ => []
  | .test _ t => (t.comparison f).bound
  | .inSubquery _ subquery => subquery.bound f
  | .cleared _ => []

/-- The values that field criteria bind, in order. -/
def FieldRecipes.bound (f : Filling H) : FieldRecipes H → List Value
  | .nil => []
  | .cons first rest => first.bound f ++ rest.bound f

end

mutual

/-- A recipe whose texts and table prefixes have no at signs, whose parameters come from calls that
print them, and whose merged drafts and subqueries are regular and bring in no name that is taken
when they are merged. -/
def Recipe.Regular (f : Filling H) : Recipe H → Prop
  | .empty _ prefixes => ∀ p ∈ prefixes, ∀ name ∈ p.names, Plain name
  | .call r c => r.Regular f ∧ c.Regular
  | .merge r other => r.Regular f ∧ other.Regular f ∧
      ∀ name ∈ (other.draft f).parameters.names, name ∉ (r.draft f).parameters.names
  | .inSubquery r column subquery => r.Regular f ∧ Plain column ∧ subquery.Regular f ∧
      ∀ name ∈ (subquery.draft f).parameters.names, name ∉ (r.draft f).parameters.names
  | .compile r criteria => r.Regular f ∧ criteria.Regular f ∧
      (r.draft f).Apart (criteria.criteria f).tokens

/-- Criteria whose texts have no at signs and whose subqueries are regular. -/
def CriteriaRecipe.Regular (f : Filling H) : CriteriaRecipe H → Prop
  | .empty => True
  | .call r c => r.Regular f ∧ c.Regular
  | .push r field => r.Regular f ∧ field.Regular f
  | .conjoin r _ fields => r.Regular f ∧ fields.Regular f

/-- A field criterion whose column has no at signs and whose subquery is regular. -/
def FieldRecipe.Regular (f : Filling H) : FieldRecipe H → Prop
  | .ofField _ => True
  | .test r _ => Plain r.field
  | .inSubquery r subquery => Plain r.field ∧ subquery.Regular f
  | .cleared _ => True

/-- Field criteria that are all regular. -/
def FieldRecipes.Regular (f : Filling H) : FieldRecipes H → Prop
  | .nil => True
  | .cons first rest => first.Regular f ∧ rest.Regular f

end

/-- A regular call binds its values. -/
theorem Draft.Sound.call {b : Draft} (h : b.Sound) (f : Filling H) {c : Call H} (hc : c.Regular) :
    b.Emits (b.call f c) (c.bound f) := by
  have hkeyword {keyword text : String} (hplain : Plain keyword) (htext : Plain text) :
      b.Emits (b.append (keyword ++ text)) [] := h.append (plain_append.mpr ⟨hplain, htext⟩)
  cases c with
  | append text => exact h.append (hc text (by simp [Call.texts]))
  | compare column operator v isAssignment =>
    exact h.compare (hc column (by simp [Call.texts])) (hc operator (by simp [Call.texts])) _ _
  | select columns => exact hkeyword (by decide) (Draft.plain_columnList hc)
  | selectDistinct columns => exact hkeyword (by decide) (Draft.plain_columnList hc)
  | fromTable table => exact hkeyword (by decide) (hc table (by simp [Call.texts]))
  | insertInto table row =>
    have hcolumns : (row.map fun entry => (entry.1, f.value entry.2)).map Prod.fst =
        row.map Prod.fst := by
      rw [List.map_map]
      rfl
    have hinsert := h.insertInto (hc table (by simp [Call.texts]))
      (hcolumns ▸ fun column hmem => hc column (List.mem_cons_of_mem table hmem))
    rw [List.map_map] at hinsert
    exact hinsert
  | update table => exact hkeyword (by decide) (hc table (by simp [Call.texts]))
  | set column v => exact h.set (hc column (by simp [Call.texts])) _
  | deleteFrom table => exact hkeyword (by decide) (hc table (by simp [Call.texts]))
  | condition connective column operator v =>
    exact h.condition connective (hc column (by simp [Call.texts]))
      (hc operator (by simp [Call.texts])) _
  | rawCondition connective text =>
    have hfirst := h.append connective.plain_keyword
    exact hfirst.trans (hfirst.sound.append (hc text (by simp [Call.texts])))
  | innerJoin table => exact hkeyword (by decide) (hc table (by simp [Call.texts]))
  | leftJoin table => exact hkeyword (by decide) (hc table (by simp [Call.texts]))
  | onColumns left operator right =>
    refine h.append ?_
    simp only [plain_append]
    exact ⟨⟨⟨⟨⟨by decide, hc left (by simp [Call.texts])⟩, by decide⟩,
      hc operator (by simp [Call.texts])⟩, by decide⟩, hc right (by simp [Call.texts])⟩
  | orderBy column order => exact h.orderBy (hc column (by simp [Call.texts])) order
  | groupBy columns => exact hkeyword (by decide) (plain_commas hc)
  | openGroup => exact h.append (by decide)
  | closeGroup => exact h.append (by decide)
  | test column t =>
    have hsound : (t.comparison f).Sound := by
      cases t <;> exact trivial
    have himported : (t.comparison f).imported = [] := by
      cases t <;> rfl
    refine h.comparing (hc column (by simp [Call.texts])) hsound fun name hname => ?_
    rw [himported] at hname
    exact absurd hname List.not_mem_nil
  | addNamed name v => exact hc.elim
  | addTemp v hint => exact hc.elim

/-- Being different from a value binds the value unless that is the missing one. -/
theorem Comparison.bound_differentFrom (v : Value) : (differentFrom v).bound = v.bound := by
  unfold differentFrom
  split
  · rename_i hnull
    have hbound : v.bound = [] := if_pos hnull
    exact hbound.symm
  · rfl

/-- Being different from a value asks for no subquery. -/
theorem Comparison.sound_differentFrom (v : Value) : (differentFrom v).Sound := by
  unfold differentFrom
  split <;> exact trivial

/-- Setting a test holds a comparison that binds what the test binds. -/
theorem Test.bound_held (f : Filling H) (t : Test H) :
    (t.held f).bound = (t.comparison f).bound := by
  cases t with
  | notEqual v => exact Comparison.bound_differentFrom (f.value v)
  | _ => rfl

/-- Setting a test holds no subquery. -/
theorem Test.sound_held (f : Filling H) (t : Test H) : (t.held f).Sound := by
  cases t with
  | notEqual v => exact Comparison.sound_differentFrom (f.value v)
  | _ => exact trivial

/-- A conjunction of field criteria binds what the criteria bind. -/
theorem Criteria.flatMap_conjoined {conjunction : CriteriaToken} (h : conjunction.bound = [])
    (fields : List FieldCriterion) :
    (conjoined conjunction fields).flatMap CriteriaToken.bound =
      fields.flatMap FieldCriterion.bound := by
  induction fields with
  | nil => rfl
  | cons c rest ih =>
    cases rest with
    | nil => rfl
    | cons next rest =>
      rw [conjoined, List.flatMap_cons, List.flatMap_cons, h, ih]
      · rfl
      · exact fun hnil => nomatch hnil

/-- A conjunction of sound field criteria is sound. -/
theorem Criteria.sound_of_mem_conjoined {conjunction : CriteriaToken} (h : conjunction.Sound)
    {fields : List FieldCriterion} (hfields : ∀ c ∈ fields, c.Sound) :
    ∀ t ∈ conjoined conjunction fields, t.Sound := by
  induction fields with
  | nil => exact fun t ht => absurd ht List.not_mem_nil
  | cons c rest ih =>
    have hc := hfields c List.mem_cons_self
    have hrest := ih fun d hd => hfields d (List.mem_cons_of_mem c hd)
    cases rest with
    | nil => exact fun t ht => List.mem_singleton.mp ht ▸ hc
    | cons next rest =>
      rw [conjoined]
      · intro t ht
        rcases List.mem_cons.mp ht with rfl | ht
        · exact hc
        · rcases List.mem_cons.mp ht with rfl | ht
          · exact h
          · exact hrest t ht
      · exact fun hnil => nomatch hnil

/-- Field criteria without a comparison bind nothing, so leaving them out changes nothing. -/
theorem FieldCriterion.flatMap_filter (fields : List FieldCriterion) :
    (fields.filter (!·.isEmpty)).flatMap bound = fields.flatMap bound := by
  induction fields with
  | nil => rfl
  | cons c rest ih =>
    obtain ⟨column, comparison⟩ := c
    cases comparison with
    | none => exact ih
    | some comparison => exact congrArg (comparison.bound ++ ·) ih

/-- A call on criteria with a text without at signs leaves sound criteria sound, and what they bind
as it is. -/
theorem Criteria.sound_call {c : Criteria} (hc : ∀ t ∈ c.tokens, t.Sound) {call : CriteriaCall}
    (hcall : call.Regular) :
    (∀ t ∈ (c.call call).tokens, t.Sound) ∧
      (c.call call).tokens.flatMap CriteriaToken.bound =
        c.tokens.flatMap CriteriaToken.bound := by
  have hpush {token : CriteriaToken} (htoken : token.Sound) (hbound : token.bound = []) :
      (∀ t ∈ (c.push token).tokens, t.Sound) ∧
        (c.push token).tokens.flatMap CriteriaToken.bound =
          c.tokens.flatMap CriteriaToken.bound := by
    refine ⟨fun t ht => ?_, ?_⟩
    · rcases List.mem_append.mp ht with ht | ht
      · exact hc t ht
      · exact List.mem_singleton.mp ht ▸ htoken
    · simp [Criteria.push, hbound]
  cases call with
  | openGroup => exact hpush trivial rfl
  | closeGroup => exact hpush trivial rfl
  | and => exact hpush trivial rfl
  | or => exact hpush trivial rfl
  | literal text => exact hpush hcall rfl
  | literalWith template arguments => exact hpush hcall rfl
  | addOrderBy expression => exact ⟨hc, rfl⟩
  | setMaxRecords n => exact ⟨hc, rfl⟩

/-- A conjunction of sound field criteria extends sound criteria by what the field criteria bind. -/
theorem Criteria.sound_pushConjoined {c : Criteria} (hc : ∀ t ∈ c.tokens, t.Sound)
    {conjunction : CriteriaToken} (hsound : conjunction.Sound) (hbound : conjunction.bound = [])
    {fields : List FieldCriterion} (hfields : ∀ d ∈ fields, d.Sound) :
    (∀ t ∈ (c.pushConjoined conjunction fields).tokens, t.Sound) ∧
      (c.pushConjoined conjunction fields).tokens.flatMap CriteriaToken.bound =
        c.tokens.flatMap CriteriaToken.bound ++ fields.flatMap FieldCriterion.bound := by
  refine ⟨fun t ht => ?_, ?_⟩
  · rcases List.mem_append.mp ht with ht | ht
    · exact hc t ht
    · exact sound_of_mem_conjoined hsound
        (fun d hd => hfields d (List.mem_filter.mp hd).1) t ht
  · rw [pushConjoined, List.flatMap_append, flatMap_conjoined hbound,
      FieldCriterion.flatMap_filter]

mutual

/-- A regular recipe builds a sound draft with the values that its calls bind. -/
theorem Recipe.sound (f : Filling H) : (r : Recipe H) → r.Regular f →
    (r.draft f).Sound ∧ (r.draft f).parameters.values = r.bound f
  | .empty supply prefixes, h => ⟨.empty supply h, rfl⟩
  | .call r c, h => by
    obtain ⟨hsound, hvalues⟩ := r.sound f h.1
    have hcall := hsound.call f h.2
    exact ⟨hcall.sound, hcall.values_eq.trans (congrArg (· ++ c.bound f) hvalues)⟩
  | .merge r other, h => by
    obtain ⟨hr, hother, hapart⟩ := h
    obtain ⟨hsound, hvalues⟩ := r.sound f hr
    obtain ⟨hsound', hvalues'⟩ := other.sound f hother
    have hmerge := hsound.merge hsound' hapart
    exact ⟨hmerge.sound, hmerge.values_eq.trans (congrArg₂ (· ++ ·) hvalues hvalues')⟩
  | .inSubquery r column subquery, h => by
    obtain ⟨hr, hcolumn, hsubquery, hapart⟩ := h
    obtain ⟨hsound, hvalues⟩ := r.sound f hr
    obtain ⟨hsound', hvalues'⟩ := subquery.sound f hsubquery
    have hin := hsound.inSubquery hcolumn hsound' hapart
    exact ⟨hin.sound, hin.values_eq.trans (congrArg₂ (· ++ ·) hvalues hvalues')⟩
  | .compile r criteria, h => by
    obtain ⟨hr, hcriteria, hapart⟩ := h
    obtain ⟨hsound, hvalues⟩ := r.sound f hr
    obtain ⟨htokens, hbound⟩ := criteria.sound f hcriteria
    have hcompile := hsound.compile htokens hapart
    exact ⟨hcompile.sound, hcompile.values_eq.trans (congrArg₂ (· ++ ·) hvalues hbound)⟩

/-- A regular recipe builds sound criteria with the values that their calls bind. -/
theorem CriteriaRecipe.sound (f : Filling H) : (r : CriteriaRecipe H) → r.Regular f →
    (∀ t ∈ (r.criteria f).tokens, t.Sound) ∧
      (r.criteria f).tokens.flatMap CriteriaToken.bound = r.bound f
  | .empty, _ => ⟨fun _ ht => absurd ht List.not_mem_nil, rfl⟩
  | .call r c, h => by
    obtain ⟨hsound, hbound⟩ := r.sound f h.1
    obtain ⟨hsound', hbound'⟩ := Criteria.sound_call hsound h.2
    exact ⟨hsound', hbound'.trans hbound⟩
  | .push r field, h => by
    obtain ⟨hsound, hbound⟩ := r.sound f h.1
    obtain ⟨hfield, hbound'⟩ := field.sound f h.2
    refine ⟨fun t ht => ?_, ?_⟩
    · rcases List.mem_append.mp ht with ht | ht
      · exact hsound t ht
      · exact List.mem_singleton.mp ht ▸ hfield
    · simp only [CriteriaRecipe.criteria, Criteria.push, List.flatMap_append, hbound,
        List.flatMap_singleton, CriteriaRecipe.bound]
      exact congrArg (r.bound f ++ ·) hbound'
  | .conjoin r all fields, h => by
    obtain ⟨hsound, hbound⟩ := r.sound f h.1
    obtain ⟨hfields, hbound'⟩ := fields.sound f h.2
    rw [CriteriaRecipe.bound, ← hbound, ← hbound']
    cases all with
    | false =>
      have hor : CriteriaToken.or.Sound := trivial
      exact Criteria.sound_pushConjoined hsound hor rfl hfields
    | true =>
      have hand : CriteriaToken.and.Sound := trivial
      exact Criteria.sound_pushConjoined hsound hand rfl hfields

/-- A regular recipe builds a sound field criterion with the values that it binds. -/
theorem FieldRecipe.sound (f : Filling H) : (r : FieldRecipe H) → r.Regular f →
    (r.criterion f).Sound ∧ (r.criterion f).bound = r.bound f
  | .ofField _, _ => ⟨fun _ hc => (nomatch hc), rfl⟩
  | .test r t, h => by
    refine ⟨fun c hc => ?_, t.bound_held f⟩
    obtain rfl := Option.some.inj hc
    exact ⟨(r.field_criterion f).symm ▸ h, t.sound_held f⟩
  | .inSubquery r subquery, h => by
    obtain ⟨hsound, hvalues⟩ := subquery.sound f h.2
    refine ⟨fun c hc => ?_, hvalues⟩
    obtain rfl := Option.some.inj hc
    exact ⟨(r.field_criterion f).symm ▸ h.1, hsound⟩
  | .cleared _, _ => ⟨fun _ hc => (nomatch hc), rfl⟩

/-- Regular recipes build sound field criteria with the values that they bind. -/
theorem FieldRecipes.sound (f : Filling H) : (rs : FieldRecipes H) → rs.Regular f →
    (∀ c ∈ rs.criteria f, c.Sound) ∧ (rs.criteria f).flatMap FieldCriterion.bound = rs.bound f
  | .nil, _ => ⟨fun _ hc => absurd hc List.not_mem_nil, rfl⟩
  | .cons first rest, h => by
    obtain ⟨hfirst, hbound⟩ := first.sound f h.1
    obtain ⟨hrest, hbound'⟩ := rest.sound f h.2
    refine ⟨fun c hc => ?_, ?_⟩
    · rcases List.mem_cons.mp hc with rfl | hc
      · exact hfirst
      · exact hrest c hc
    · exact congrArg₂ (· ++ ·) hbound hbound'

end

/-- A text whose tokens are the names of some parameters in order, each of them once, while the
parameters have the given values. -/
structure InStep (sql : String) (parameters : List Parameter) (values : List Value) : Prop where
  /-- The tokens are the names. -/
  names_eq : Token.names sql = parameters.map Parameter.name
  /-- No name occurs twice. -/
  nodup : (parameters.map Parameter.name).Nodup
  /-- The values stand in order. -/
  values_eq : parameters.map Parameter.value = values

/-- A text that refers to the parameters of a sound draft is in step with them. -/
theorem Draft.Sound.inStep {b : Draft} (h : b.Sound) {sql : String}
    (hsql : Token.Refers sql.toList b.parameters.names) :
    InStep sql b.parameters.entries b.parameters.values where
  names_eq := hsql.names_eq
  nodup := h.numbered.nodup
  values_eq := rfl

/-- The digits of a number have no at signs. -/
theorem plain_digits (n : Nat) : Plain (String.ofList (Numeral.digits n)) := by
  intro hmem
  rw [String.toList_ofList] at hmem
  exact absurd (Numeral.isDigit_of_mem_digits hmem) (by decide)

/-- The text of a page around the text of the rows that the page is cut from. -/
def Page.frame (page : Page) (inner : String) : String :=
  "SELECT * FROM ( " ++ inner ++ " ) AS PagedResult WHERE RowNumber > " ++
    String.ofList (Numeral.digits page.lower.toNat) ++ " AND RowNumber < " ++
    String.ofList (Numeral.digits page.upper.toNat)

/-- A page is framed around the trimmed text of a draft. -/
theorem Page.sql_wrap (page : Page) (b : Draft) :
    (page.wrap b).sql = page.frame (Text.trim b.text) :=
  rfl

/-- What stands behind the inner text of a page has no at signs and may follow a token. -/
theorem Page.exists_frame (page : Page) : ∃ tail, Plain tail ∧ Token.Stops tail.toList ∧
    ∀ inner, page.frame inner = "SELECT * FROM ( " ++ inner ++ tail := by
  refine ⟨" ) AS PagedResult WHERE RowNumber > " ++
    (String.ofList (Numeral.digits page.lower.toNat) ++
      (" AND RowNumber < " ++ String.ofList (Numeral.digits page.upper.toNat))),
    ?_, ?_, fun inner => ?_⟩
  · simp only [plain_append]
    exact ⟨by decide, plain_digits _, by decide, plain_digits _⟩
  · rw [String.toList_append]
    exact Token.Stops.cons rfl _
  · have hassoc (s t u v w x : String) :
        s ++ t ++ u ++ v ++ w ++ x = s ++ t ++ (u ++ (v ++ (w ++ x))) := by
      simp only [String.append_assoc]
    exact hassoc _ _ _ _ _ _

/-- A page of a sound draft refers to the parameters of the draft. -/
theorem Draft.Sound.refers_wrap {b : Draft} (h : b.Sound) (page : Page) :
    Token.Refers (page.wrap b).sql.toList b.parameters.names := by
  have htrimmed : Token.Refers (Text.trim b.text).toList b.parameters.names := by
    rw [Text.toList_trim]
    exact h.refers.trimmed
  obtain ⟨tail, hplain, hstops, hframe⟩ := page.exists_frame
  rw [page.sql_wrap, hframe]
  exact (htrimmed.prepend (by decide)).postpend hplain hstops

/-- A draft that a regular recipe builds is in step with its parameters, which have the values that
the calls bound, and so are its finished statement and every page of its rows. -/
theorem Recipe.inStep_of_regular (f : Filling H) {r : Recipe H} (h : r.Regular f) (page : Page) :
    InStep (r.draft f).text (r.draft f).parameters.entries (r.bound f) ∧
      InStep (r.draft f).finish.sql (r.draft f).finish.parameters (r.bound f) ∧
      InStep (page.wrap (r.draft f)).sql (page.wrap (r.draft f)).parameters (r.bound f) := by
  obtain ⟨hsound, hvalues⟩ := r.sound f h
  have htrimmed : Token.Refers (r.draft f).finish.sql.toList (r.draft f).parameters.names := by
    rw [Draft.finish, Text.toList_trim]
    exact hsound.refers.trimmed
  rw [← hvalues]
  exact ⟨hsound.inStep hsound.refers, hsound.inStep htrimmed,
    hsound.inStep (hsound.refers_wrap page)⟩

/-- A name with an absent date, a subquery and two words: four parameters in the order of the
calls. -/
theorem Recipe.inStep_sample :
    sample.Regular .sample ∧
      InStep (sample.draft .sample).text (sample.draft .sample).parameters.entries
        [.null, .int 5, .text "%annual%", .text "%report%"] := by
  have hname (suffix suffix' : Suffix) :
      ParameterSet.drawnName "Number" 1 suffix ≠
        ParameterSet.drawnName "\x7bowner\x7dName" 1 suffix' := by
    intro h
    have hword := (List.cons.inj (String.ofList_injective h)).2
    have hfirst : some 'N' = some 'o' := congrArg List.head? hword
    exact absurd hfirst (by decide)
  have hregular : sample.Regular .sample := by
    refine ⟨⟨⟨fun p hp => Option.some.inj hp ▸ by decide, ?_⟩, by decide,
      ⟨fun p hp => (nomatch hp), ?_⟩, fun name hnumber howner => ?_⟩, ?_⟩
    · exact (by decide : ∀ text ∈ ["\x7bowner\x7dName", "="], Plain text)
    · exact (by decide : ∀ text ∈ ["Number"], Plain text)
    · have hnumber' := List.mem_singleton.mp hnumber
      have howner' := List.mem_singleton.mp howner
      rw [hnumber', ParameterSet.canonical_generatedName] at howner'
      exact hname _ _ (howner'.trans (ParameterSet.canonical_generatedName _ _ _))
    · exact (by decide : ∀ text ∈ ["Title"], Plain text)
  have hstep := (Recipe.inStep_of_regular .sample hregular ⟨10, 0⟩).1
  exact ⟨hregular, hstep⟩

end BoundSql
