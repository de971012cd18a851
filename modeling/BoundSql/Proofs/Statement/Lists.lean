import BoundSql.Proofs.Parameter.Keep
import BoundSql.Proofs.Statement.Recipe
import BoundSql.Proofs.Statement.Spacing
import Mathlib.Data.List.Forall2

/-!
# Lists that calls continue

Assignments and sort keys are listed by one call each. The first call of a run writes the keyword
and every further one a comma, whatever parameters are added in between; the keyword comes again
after any other call that appends text or merges a draft, even if it adds nothing to the text. Which
of the two a call writes therefore depends on the last such call alone.
-/

namespace BoundSql

/-! ## The last call that wrote text -/

/-- A token of criteria that writes nothing: a field criterion without a comparison. -/
def CriteriaToken.isSilent : CriteriaToken → Bool
  | field c => c.isEmpty
  | _ => false

variable {H : Type}

/-- The clause that a call leaves the text in; adding a parameter leaves it as it is. -/
def Call.clause? : Call H → Option Clause
  | set _ _ => some .set
  | orderBy _ _ => some .orderBy
  | addNamed _ _ | addTemp _ _ => none
  | _ => some .other

/-- The clause of the last call that wrote text, merged a draft or compiled criteria that write. -/
def Recipe.clause (f : Filling H) : Recipe H → Clause
  | empty _ _ | merge _ _ | inSubquery _ _ _ => .other
  | call r c => c.clause?.getD (r.clause f)
  | compile r criteria =>
    if (criteria.criteria f).tokens.all CriteriaToken.isSilent then r.clause f else .other

namespace Draft

/-- A comparison leaves nothing that can be continued. -/
theorem clause_compare (b : Draft) (column operator : String) (v : Value) (isAssignment : Bool) :
    (b.compare column operator v isAssignment).clause = .other := by
  unfold compare
  split <;> rfl

/-- A comparison of a criterion leaves nothing that can be continued. -/
theorem clause_comparing (b : Draft) (column : String) (c : Comparison) :
    (b.comparing column c).clause = .other := by
  cases c with
  | equal v | greaterThan v | greaterOrEqual v | lessThan v | lessOrEqual v =>
    exact b.clause_compare column _ v false
  | notEqual v =>
    simp only [comparing, notEqualTo]
    split
    · rfl
    · exact b.clause_compare column "<>" v false
  | like pattern mode fullText =>
    simp only [comparing, like]
    split
    · split
      · exact b.clause_compare column "LIKE" _ false
      · rfl
    · exact b.clause_compare column "LIKE" _ false
  | inList vs =>
    simp only [comparing, inList]
    split <;> rfl
  | inSubquery subquery | between low high | isNull | isNotNull => rfl

/-- A token of criteria leaves the clause as it is or leaves nothing that can be continued. -/
theorem clause_criteriaToken (b : Draft) (t : CriteriaToken) :
    (b.criteriaToken t).clause = if t.isSilent then b.clause else .other := by
  cases t with
  | openGroup | closeGroup | and | or | literal text => rfl
  | field c =>
    obtain ⟨column, comparison⟩ := c
    cases comparison with
    | none => rfl
    | some comparison => exact b.clause_comparing column comparison

/-- Criteria leave the clause as it is unless one of their tokens writes. -/
theorem clause_compile (b : Draft) (tokens : List CriteriaToken) :
    (tokens.foldl criteriaToken b).clause =
      if tokens.all CriteriaToken.isSilent then b.clause else .other := by
  induction tokens generalizing b with
  | nil => rfl
  | cons t rest ih =>
    rw [List.foldl_cons, ih, clause_criteriaToken, List.all_cons]
    cases t.isSilent with
    | true => rfl
    | false => exact ite_self _

/-- A call leaves the clause that it is listed with. -/
theorem clause_call (f : Filling H) (b : Draft) (c : Call H) :
    (b.call f c).clause = c.clause?.getD b.clause := by
  cases c with
  | compare column operator v isAssignment => exact b.clause_compare column operator _ isAssignment
  | condition connective column operator v => exact clause_compare _ column operator _ false
  | test column t => exact b.clause_comparing column _
  | _ => rfl

end Draft

/-- The clause of a draft is that of the last call that wrote text. -/
theorem Recipe.clause_draft (f : Filling H) : (r : Recipe H) → (r.draft f).clause = r.clause f
  | .empty _ _ | .merge _ _ | .inSubquery _ _ _ => rfl
  | .call r c => by rw [draft, clause, Draft.clause_call, r.clause_draft f]
  | .compile r criteria => by
    rw [draft, clause, Criteria.compile, Draft.clause_compile, r.clause_draft f]

/-! ## Lists and their entries -/

/-- A list that successive calls continue. -/
inductive Listing where
  /-- The assignments of an update. -/
  | assignments
  /-- The sort keys of a query. -/
  | sortKeys
  deriving DecidableEq

/-- What one call lists. -/
inductive ListEntry where
  /-- A value that a column is assigned. -/
  | assignment (column : String) (value : Value)
  /-- A column that rows are sorted by. -/
  | sortKey (column : String) (order : SortOrder)
  deriving DecidableEq

namespace Listing

/-- The clause that a list is. -/
def clause : Listing → Clause
  | assignments => .set
  | sortKeys => .orderBy

/-- The keyword in front of a list. -/
def keyword : Listing → String
  | assignments => "SET"
  | sortKeys => "ORDER BY"

/-- A text with a row of items listed behind it. If the text ends in the list, the items continue it
behind a comma; otherwise they make a list of their own behind the keyword, which is set off as
pieces are. -/
def listed (l : Listing) (text : String) (clause : Clause) (items : List String) : String :=
  if items = [] then text
  else if clause = l.clause then text ++ ", " ++ Spacing.commas items
  else Spacing.joined text (l.keyword ++ " " ++ Spacing.commas items)

/-- A call in a run of calls that make a list: it lists a column that begins with neither a blank
nor a comma, or it adds a parameter, under a name that is not of the generated shape if it is given
one. -/
def Admits (l : Listing) : Call H → Prop
  | .set column _ => l = assignments ∧ Spacing.Firm column
  | .orderBy column _ => l = sortKeys ∧ Spacing.Firm column
  | .addTemp _ _ => True
  | .addNamed name _ => ¬ ParameterSet.IsGenerated (Parameter.canonical name)
  | _ => False

end Listing

/-- What a call lists, if anything. -/
def Call.entry? (f : Filling H) : Call H → Option ListEntry
  | set column v => some (.assignment column (f.value v))
  | orderBy column order => some (.sortKey column order)
  | _ => none

/-- How an entry is written in a draft: an assignment against a parameter that the value is bound
to, or against the missing value as such; a sort key with its order. -/
def Draft.Lists (b : Draft) : ListEntry → String → Prop
  | .assignment column v, item =>
    if v.isNull then item = column ++ " = NULL"
    else ∃ name, item = column ++ " = " ++ name ∧ b.parameters.Binds name v
  | .sortKey column order, item => item = column ++ " " ++ order.keyword

/-! ## One call -/

namespace Listing

/-- What a call writes in front of what it lists. -/
def lead (l : Listing) (clause : Clause) : String :=
  if clause = l.clause then "," else l.keyword

/-- Items are listed behind what the first of the calls writes. -/
theorem listed_eq_joined (l : Listing) (text : String) (clause : Clause) {items : List String}
    (h : items ≠ []) :
    l.listed text clause items =
      Spacing.joined text (l.lead clause ++ " " ++ Spacing.commas items) := by
  rw [listed, lead, if_neg h]
  split
  · have hcomma := Spacing.joined_comma text (" " ++ Spacing.commas items)
    rw [← String.append_assoc] at hcomma
    rw [hcomma, String.append_assoc, String.append_assoc]
    rfl
  · rfl

/-- What a call writes in front does not end with a blank. -/
theorem isBlank_lead (l : Listing) (clause : Clause) :
    (l.lead clause).toList.getLast?.map Text.isBlank = some false := by
  unfold lead
  split
  · decide
  · cases l <;> decide

/-- One item is listed by two pieces. -/
theorem listed_singleton (l : Listing) (text : String) (clause : Clause) {item : String}
    (h : Spacing.Firm item) :
    l.listed text clause [item] = Spacing.joined (Spacing.joined text (l.lead clause)) item := by
  rw [l.listed_eq_joined text clause (List.cons_ne_nil _ _),
    Spacing.joined_joined text (l.isBlank_lead clause) h]
  rfl

/-- Items that are listed behind others are listed with them. -/
theorem listed_append (l : Listing) (text : String) (clause : Clause) (items more : List String) :
    l.listed (l.listed text clause items) (if items = [] then clause else l.clause) more =
      l.listed text clause (items ++ more) := by
  by_cases hitems : items = []
  · rw [hitems, if_pos rfl]
    rfl
  · by_cases hmore : more = []
    · rw [hmore, List.append_nil]
      rfl
    · -- The first row ends the text, so the second one is behind a comma whatever stood before.
      have hne : l.lead clause ++ " " ++ Spacing.commas items ≠ "" := by simp
      have hboth : items ++ more ≠ [] := List.append_ne_nil_of_left_ne_nil hitems more
      rw [if_neg hitems, l.listed_eq_joined text clause hitems,
        l.listed_eq_joined text clause hboth, Spacing.commas_append hitems hmore, listed,
        if_neg hmore, if_pos rfl, String.append_assoc, ← Spacing.joined_append text hne]
      simp only [String.append_assoc]

end Listing

namespace Draft

variable {l : Listing} {b c d : Draft} {entries more : List ListEntry}

/-- A draft in which entries are listed behind the text of another one. -/
structure Extends (l : Listing) (b d : Draft) (entries : List ListEntry) : Prop where
  /-- The table prefixes are the same. -/
  prefixes_eq : d.prefixes = b.prefixes
  /-- The parameters stay. -/
  keeps : b.parameters.Keeps d.parameters
  /-- The entries are written and listed. -/
  listed : ∃ items, List.Forall₂ d.Lists entries items ∧
    d.text = l.listed b.text b.clause items ∧ d.clause = if items = [] then b.clause else l.clause

/-- An entry goes on being written while the parameters stay. -/
theorem Lists.keeps {entry : ListEntry} {item : String} (hitem : b.Lists entry item)
    (h : b.parameters.Keeps d.parameters) : d.Lists entry item := by
  cases entry with
  | assignment column v =>
    by_cases hnull : v.isNull = true
    · rw [Lists, if_pos hnull] at hitem ⊢
      exact hitem
    · rw [Lists, if_neg hnull] at hitem ⊢
      obtain ⟨name, hwritten, hbinds⟩ := hitem
      exact ⟨name, hwritten, hbinds.keeps h⟩
  | sortKey column order => exact hitem

/-- Parameters alone list nothing. -/
theorem Extends.of_keeps {parameters : ParameterSet} (h : b.parameters.Keeps parameters) :
    Extends l b { b with parameters } [] :=
  ⟨rfl, h, [], .nil, rfl, rfl⟩

/-- A draft in which further entries are listed has all of them listed. -/
theorem Extends.trans (h : Extends l b c entries) (h' : Extends l c d more) :
    Extends l b d (entries ++ more) := by
  obtain ⟨items, hitems, htext, hclause⟩ := h.listed
  obtain ⟨items', hitems', htext', hclause'⟩ := h'.listed
  refine ⟨h'.prefixes_eq.trans h.prefixes_eq, h.keeps.trans h'.keeps, items ++ items', ?_, ?_, ?_⟩
  -- What the first calls bound is still bound after the later ones.
  · exact List.rel_append (hitems.imp fun _ _ hitem => hitem.keeps h'.keeps) hitems'
  · rw [htext', htext, hclause, l.listed_append]
  · rw [hclause', hclause]
    cases items' with
    | nil => rw [List.append_nil, if_pos rfl]
    | cons item rest =>
      have hne : item :: rest ≠ [] := List.cons_ne_nil _ _
      rw [if_neg hne, if_neg (List.append_ne_nil_of_right_ne_nil items hne)]

/-- What a call that lists an item makes of a draft: the item is appended behind its lead, together
with further parameters. -/
def listing (b : Draft) (l : Listing) (parameters : ParameterSet) (item : String) : Draft :=
  { { b.append (l.lead b.clause) with parameters }.append item with clause := l.clause }

/-- An item that is written for an entry lists the entry. -/
theorem extends_listing (hb : b.prefixes = none) {parameters : ParameterSet}
    (h : b.parameters.Keeps parameters) {entry : ListEntry} {item : String}
    (hfirm : Spacing.Firm item) (hitem : (b.listing l parameters item).Lists entry item) :
    Extends l b (b.listing l parameters item) [entry] := by
  have htext : (b.listing l parameters item).text =
      Spacing.joined (Spacing.joined b.text (b.prefixed (l.lead b.clause))) (b.prefixed item) := rfl
  refine ⟨rfl, h, [item], .cons hitem .nil, ?_, rfl⟩
  rw [htext, prefixed_of_none hb, prefixed_of_none hb,
    l.listed_singleton b.text b.clause hfirm]

/-- An assignment of the missing value binds nothing. -/
theorem set_of_isNull (b : Draft) (column : String) {v : Value} (h : v.isNull = true) :
    b.set column v = b.listing .assignments b.parameters (column ++ " = NULL") := by
  have hform : column ++ " = NULL" = column ++ " " ++ nullForm true := by
    rw [String.append_assoc]
    rfl
  rw [hform]
  simp only [set, compare, if_pos h]
  rfl

/-- Any other assignment binds its value. -/
theorem set_of_not_isNull (b : Draft) (column : String) {v : Value} (h : ¬ v.isNull = true) :
    b.set column v = b.listing .assignments (b.parameters.addTemp v column).1
      (column ++ " = " ++ (b.parameters.addTemp v column).2) := by
  have hform : column ++ " = " = column ++ " " ++ "=" ++ " " := by
    simp only [String.append_assoc]
    rfl
  rw [hform]
  simp only [set, compare, if_neg h]
  rfl

/-- A call that a list admits lists its entry, if it has one. -/
theorem extends_call (f : Filling H) (hb : b.prefixes = none) {c : Call H} (hc : l.Admits c) :
    Extends l b (b.call f c) (c.entry? f).toList := by
  cases c with
  | set column v =>
    obtain ⟨rfl, hcolumn⟩ := hc
    by_cases hnull : (f.value v).isNull = true
    · rw [call, set_of_isNull b column hnull]
      refine extends_listing hb (.refl _) (hcolumn.append _) ?_
      rw [Lists, if_pos hnull]
    · rw [call, set_of_not_isNull b column hnull, String.append_assoc]
      refine extends_listing hb (b.parameters.keeps_addTemp _ _) (hcolumn.append _) ?_
      rw [Lists, if_neg hnull, ← String.append_assoc]
      exact ⟨_, rfl, b.parameters.binds_addTemp _ _⟩
  | orderBy column order =>
    obtain ⟨rfl, hcolumn⟩ := hc
    have hfirm : Spacing.Firm (column ++ " " ++ order.keyword) :=
      (hcolumn.append " ").append order.keyword
    exact extends_listing hb (.refl _) hfirm rfl
  | addNamed name v => exact .of_keeps (b.parameters.keeps_addNamed hc _ .input)
  | addTemp v hint => exact .of_keeps (b.parameters.keeps_addTemp _ hint)
  | _ => exact hc.elim

/-- A run of calls that a list admits lists their entries in order. -/
theorem extends_foldl (f : Filling H) (hb : b.prefixes = none) {calls : List (Call H)}
    (hcalls : ∀ c ∈ calls, l.Admits c) :
    Extends l b (calls.foldl (call f) b) (calls.filterMap (Call.entry? f)) := by
  induction calls generalizing b with
  | nil => exact .of_keeps (.refl _)
  | cons c rest ih =>
    obtain ⟨hc, hrest⟩ := List.forall_mem_cons.mp hcalls
    have hfirst := extends_call f hb hc
    have hall := hfirst.trans (ih (hfirst.prefixes_eq.trans hb) hrest)
    have hentries : (c :: rest).filterMap (Call.entry? f) =
        (c.entry? f).toList ++ rest.filterMap (Call.entry? f) := by
      rw [List.filterMap_cons]
      cases c.entry? f <;> rfl
    rw [hentries]
    exact hall

end Draft

/-- Further calls on a recipe are further calls on its draft. -/
theorem Recipe.draft_foldl (f : Filling H) (r : Recipe H) (calls : List (Call H)) :
    (calls.foldl call r).draft f = calls.foldl (Draft.call f) (r.draft f) := by
  induction calls generalizing r with
  | nil => rfl
  | cons c rest ih => exact ih (r.call c)

/-- Calls that make a list make one list. On a draft without table prefixes, assignments or sort
keys, with any parameters added in between, are listed behind the keyword with commas between them;
behind a comma instead of the keyword if the last call before them that wrote text made the same
list. An assignment is written against a parameter that is still bound to its value in the end, or
against the missing value as such. Afterwards the last call that wrote text is one that made the
list, if there was any. -/
theorem Recipe.lists_continue (f : Filling H) {r : Recipe H} (hr : (r.draft f).prefixes = none)
    (l : Listing) {calls : List (Call H)} (hcalls : ∀ c ∈ calls, l.Admits c) :
    let entries := calls.filterMap (Call.entry? f)
    let s := calls.foldl call r
    (∃ items, List.Forall₂ (s.draft f).Lists entries items ∧
        (s.draft f).text = l.listed (r.draft f).text (r.clause f) items) ∧
      s.clause f = if entries = [] then r.clause f else l.clause := by
  intro entries s
  have hextends : Draft.Extends l (r.draft f) (s.draft f) entries := by
    rw [r.draft_foldl f calls]
    exact Draft.extends_foldl f hr hcalls
  obtain ⟨items, hitems, htext, hclause⟩ := hextends.listed
  rw [s.clause_draft f, r.clause_draft f] at hclause
  rw [r.clause_draft f] at htext
  refine ⟨⟨items, hitems, htext⟩, hclause.trans ?_⟩
  have hlength : entries.length = items.length := hitems.length_eq
  simp only [← List.length_eq_zero_iff, hlength]

/-- Every place is filled with the value that stands there. -/
def Filling.verbatim : Filling Value where
  value v := v
  pattern v := v.shown
  phrase v := v.shown

/-- An update of which the assignments are still to come. -/
def Recipe.updating : Recipe Value :=
  .call (.empty (.series 1) none) (.update "T")

/-- Two assignments, the second one of the missing value, with parameters added in between. -/
def Call.assigning : List (Call Value) :=
  [.set "A" (.date Date.least), .addTemp (.int 2) "A", .addNamed "A" .null, .set "B" .null]

/-- A least date is bound, the missing value is not, and the keyword is written once. -/
theorem Recipe.lists_continue_assigning :
    ((updating.draft .verbatim).prefixes = none ∧
      ∀ c ∈ Call.assigning, Listing.assignments.Admits c) ∧
      ∃ name, ((Call.assigning.foldl call updating).draft .verbatim).text =
          "UPDATE T SET A = " ++ name ++ ", B = NULL" ∧
        ((Call.assigning.foldl call updating).draft .verbatim).parameters.Binds name
          (.date Date.least) := by
  have hprefixes : (updating.draft .verbatim).prefixes = none := rfl
  have hexplicit : ¬ ParameterSet.IsGenerated (Parameter.canonical "A") := fun hgenerated =>
    absurd hgenerated.getElem?_reverse (by decide)
  have hadmits : ∀ c ∈ Call.assigning, Listing.assignments.Admits c := by
    have hA : Spacing.Firm "A" := ⟨'A', by decide, by decide, by decide⟩
    have hB : Spacing.Firm "B" := ⟨'B', by decide, by decide, by decide⟩
    exact List.forall_mem_cons.mpr ⟨⟨rfl, hA⟩, List.forall_mem_cons.mpr ⟨trivial,
      List.forall_mem_cons.mpr ⟨hexplicit, List.forall_mem_singleton.mpr ⟨rfl, hB⟩⟩⟩⟩
  obtain ⟨⟨items, hitems, htext⟩, -⟩ := lists_continue .verbatim hprefixes .assignments hadmits
  obtain ⟨first, rest, hfirst, hrest, rfl⟩ := List.forall₂_cons_left_iff.mp hitems
  obtain ⟨second, last, hsecond, hlast, rfl⟩ := List.forall₂_cons_left_iff.mp hrest
  obtain rfl := List.forall₂_nil_left_iff.mp hlast
  obtain ⟨name, hname, hbinds⟩ := hfirst
  obtain rfl : second = "B = NULL" := hsecond
  refine ⟨⟨hprefixes, hadmits⟩, name, ?_, hbinds⟩
  have hlead : Spacing.joined "UPDATE T" "SET" = "UPDATE T SET" := by decide
  calc ((Call.assigning.foldl call updating).draft .verbatim).text
      = Spacing.joined "UPDATE T" ("SET" ++ (" " ++ Spacing.commas [first, "B = NULL"])) := htext
    _ = "UPDATE T SET" ++ (" " ++ Spacing.commas [first, "B = NULL"]) := by
      rw [Spacing.joined_append "UPDATE T" (by decide), hlead]
    _ = "UPDATE T SET A = " ++ name ++ ", B = NULL" := by
      apply String.toList_injective
      simp [Spacing.commas, Spacing.separated, hname]

end BoundSql
