import BoundSql.Proofs.Parameter.Keep
import BoundSql.Proofs.Statement.Emission
import BoundSql.Proofs.Statement.Surfaces

/-!
# Comparisons with values that stand for none

A comparison with the missing value is written as a test that needs no parameter. Whether a value
is the missing one is asked before it is bound, and binding puts the missing value in place of a
least date or instant. A comparison with one of these is therefore written against a parameter that
holds the missing value, and no other comparison is. Later calls draw later names, so what a
comparison refers to stays bound as it was.
-/

namespace BoundSql

/-! ## Questions -/

/-- A comparison of a column with a value. -/
structure Question where
  /-- The column. -/
  column : String
  /-- The operator. -/
  operator : String
  /-- The value. -/
  value : Value

/-- A comparison as it is asked in a draft. -/
structure Asked extends Question where
  /-- The name of the parameter that it is written with, if any. -/
  reference : Option String

/-- How a comparison is written: against a parameter, or as a test for a missing column. -/
def Asked.written (a : Asked) : String :=
  match a.reference with
  | some name => a.column ++ " " ++ a.operator ++ " " ++ name
  | none => a.column ++ " IS NULL"

/-- A comparison against a parameter that is bound to the missing value. -/
def Asked.AgainstNull (a : Asked) (b : Draft) : Prop :=
  ∃ name p, a.reference = some name ∧ b.parameters.get? name = some p ∧ p.value.isNull = true

namespace Draft

/-- A draft that goes on from another one. -/
structure Continues (b b' : Draft) : Prop where
  /-- The table prefixes are the same. -/
  prefixes_eq : b'.prefixes = b.prefixes
  /-- Text has come behind. -/
  text_eq : ∃ added, b'.text = b.text ++ added
  /-- The parameters stay. -/
  keeps : b.parameters.Keeps b'.parameters

/-- A comparison that stands in the text of a draft. -/
structure Stands (b : Draft) (a : Asked) : Prop where
  /-- It is part of the text, as table prefixes leave it. -/
  written : ∃ front back, b.text = front ++ b.prefixed a.written ++ back
  /-- It needs no parameter exactly when its value is the missing one. -/
  missing : a.reference = none ↔ a.value.isNull = true
  /-- Otherwise its parameter has its value, under a name drawn before. -/
  bound : ∀ name, a.reference = some name →
    b.parameters.get? name = some (.given name a.value .input) ∧
      ∃ hint counter suffix, counter ≤ b.parameters.counter ∧
        name = ParameterSet.drawnName hint counter suffix

variable {b b' b'' : Draft} {a : Asked}

/-- A draft goes on from itself. -/
theorem Continues.refl (b : Draft) : b.Continues b :=
  ⟨rfl, ⟨"", String.append_empty.symm⟩, .refl _⟩

/-- Going on twice is going on. -/
theorem Continues.trans (h : b.Continues b') (h' : b'.Continues b'') : b.Continues b'' := by
  obtain ⟨first, hfirst⟩ := h.text_eq
  obtain ⟨second, hsecond⟩ := h'.text_eq
  refine ⟨h'.prefixes_eq.trans h.prefixes_eq, ⟨first ++ second, ?_⟩, h.keeps.trans h'.keeps⟩
  rw [hsecond, hfirst, String.append_assoc]

/-- Table prefixes leave the same of a piece as long as they are the same. -/
theorem Continues.prefixed_eq (h : b.Continues b') (piece : String) :
    b'.prefixed piece = b.prefixed piece := by
  unfold prefixed
  rw [h.prefixes_eq]

/-- A comparison that stands in a draft goes on standing. -/
theorem Stands.continues (ha : b.Stands a) (h : b.Continues b') : b'.Stands a := by
  obtain ⟨front, back, htext⟩ := ha.written
  obtain ⟨added, hadded⟩ := h.text_eq
  refine ⟨⟨front, back ++ added, ?_⟩, ha.missing, fun name hname => ?_⟩
  · rw [hadded, htext, h.prefixed_eq, String.append_assoc]
  · have hbound : b.parameters.Binds name a.value := ha.bound name hname
    exact hbound.keeps h.keeps

/-- A comparison is against the missing value exactly when its value stands for none. -/
theorem Stands.againstNull_iff (h : b.Stands a) : a.AgainstNull b ↔ a.value.isAbsent = true := by
  constructor
  · rintro ⟨name, p, hname, hp, hnull⟩
    have hpresent : ¬ a.value.isNull = true := by
      rw [← h.missing, hname]
      exact nofun
    rw [(h.bound name hname).1] at hp
    cases hp
    by_contra habsent
    have hcleared : a.value.cleared = a.value := if_neg habsent
    rw [Parameter.given, hcleared] at hnull
    exact hpresent hnull
  · intro habsent
    have hpresent : ¬ a.value.isNull = true := by
      intro hnull
      cases hvalue : a.value <;> rw [hvalue] at habsent hnull <;> cases hnull
      cases habsent
    cases hreference : a.reference with
    | none => exact absurd (h.missing.mp hreference) hpresent
    | some name =>
      have hcleared : a.value.cleared = .null := if_pos habsent
      refine ⟨name, _, hreference, (h.bound name hreference).1, ?_⟩
      rw [Parameter.given, hcleared]
      rfl

/-- A draft that goes on from another one and asks some questions. -/
structure Asks (b b' : Draft) (questions : List Question) : Prop where
  /-- The draft goes on. -/
  continues : b.Continues b'
  /-- The questions stand in it. -/
  asked : ∃ asked : List Asked, asked.map Asked.toQuestion = questions ∧ ∀ a ∈ asked, b'.Stands a

/-- A draft that goes on may ask nothing. -/
theorem Continues.asks (h : b.Continues b') : b.Asks b' [] :=
  ⟨h, [], rfl, fun _ ha => nomatch ha⟩

/-- Drafts in a row ask their questions in a row. -/
theorem Asks.trans {questions further : List Question} (h : b.Asks b' questions)
    (h' : b'.Asks b'' further) : b.Asks b'' (questions ++ further) := by
  obtain ⟨hcontinues, asked, hasked, hstands⟩ := h
  obtain ⟨hcontinues', asked', hasked', hstands'⟩ := h'
  refine ⟨hcontinues.trans hcontinues', asked ++ asked', ?_, fun a ha => ?_⟩
  · rw [List.map_append, hasked, hasked']
  · rcases List.mem_append.mp ha with ha | ha
    · exact (hstands a ha).continues hcontinues'
    · exact hstands' a ha

/-! ## Calls -/

/-- A piece that comes with more parameters is part of the text, and the draft goes on. -/
theorem continues_append (b : Draft) {parameters : ParameterSet}
    (h : b.parameters.Keeps parameters) (piece : String) :
    b.Continues ({ b with parameters }.append piece) := by
  obtain ⟨gap, hjoined, -⟩ := Spacing.exists_joined b.text (b.prefixed piece)
  refine ⟨rfl, ⟨gap ++ b.prefixed piece, ?_⟩, h⟩
  rw [← String.append_assoc]
  exact hjoined

/-- A piece of text asks nothing of its own. -/
theorem asks_append (b : Draft) (piece : String) : b.Asks (b.append piece) [] :=
  (b.continues_append (.refl _) piece).asks

/-- A comparison that is appended as it is written, together with the parameter that it refers to if
it needs one, is asked. -/
theorem asks_written (b : Draft) {parameters : ParameterSet} (h : b.parameters.Keeps parameters)
    (a : Asked) (hmissing : a.reference = none ↔ a.value.isNull = true)
    (hbound : ∀ name, a.reference = some name →
      parameters.get? name = some (.given name a.value .input) ∧
        ∃ hint counter suffix, counter ≤ parameters.counter ∧
          name = ParameterSet.drawnName hint counter suffix) :
    b.Asks ({ b with parameters }.append a.written) [a.toQuestion] := by
  refine ⟨b.continues_append h a.written, [a], rfl, fun a' ha' => ?_⟩
  obtain rfl := List.mem_singleton.mp ha'
  obtain ⟨gap, hjoined, -⟩ := Spacing.exists_joined b.text (b.prefixed a'.written)
  refine ⟨⟨b.text ++ gap, "", ?_⟩, hmissing, hbound⟩
  rw [String.append_empty]
  exact hjoined

/-- A comparison asks its question: as a test for a missing column and with the parameters as they
were, or against a parameter that is bound for it. -/
theorem asks_compare (b : Draft) (column operator : String) (v : Value) :
    b.Asks (b.compare column operator v) [⟨column, operator, v⟩] := by
  by_cases hnull : v.isNull = true
  · rw [compare_of_isNull b column operator hnull]
    exact b.asks_written (.refl _) ⟨⟨column, operator, v⟩, none⟩ ⟨fun _ => hnull, fun _ => rfl⟩
      nofun
  · have hcall : b.compare column operator v =
        { b with parameters := (b.parameters.addTemp v column).1 }.append
          (column ++ " " ++ operator ++ " " ++ (b.parameters.addTemp v column).2) := if_neg hnull
    rw [hcall]
    have hkeeps := b.parameters.keeps_addTemp v column
    have hbinds := b.parameters.binds_addTemp v column
    -- what the new name looks like does not matter
    generalize b.parameters.addTemp v column = drawn at hkeeps hbinds
    obtain ⟨parameters, name⟩ := drawn
    refine b.asks_written hkeeps ⟨⟨column, operator, v⟩, some name⟩
      ⟨nofun, fun hno => absurd hno hnull⟩ fun name' hsame => ?_
    cases hsame
    exact hbinds

/-- A test for words asks for each of them. -/
theorem asks_likeWords (b : Draft) (column : String) (words : List (List Char)) :
    b.Asks (b.likeWords column words) (words.map fun word =>
      ⟨column, "LIKE", .text (LikeMode.contains.decorate (String.ofList word))⟩) := by
  induction words generalizing b with
  | nil => exact (Continues.refl b).asks
  | cons word rest ih =>
    have hword := b.asks_compare column "LIKE" (.text (LikeMode.contains.decorate (.ofList word)))
    cases rest with
    | nil => exact hword
    | cons next rest => exact (hword.trans (asks_append _ "AND")).trans (ih _)

/-- A test for a pattern asks for each pattern that it seeks. -/
theorem asks_like (b : Draft) (column pattern : String) (mode : LikeMode) (fullText : Bool) :
    b.Asks (b.like column pattern mode fullText)
      ((mode.sought pattern fullText).map fun sought => ⟨column, "LIKE", .text sought⟩) := by
  unfold like LikeMode.sought
  cases fullText with
  | false => exact b.asks_compare column "LIKE" (.text (mode.decorate pattern))
  | true =>
    rw [if_pos rfl, if_pos rfl]
    cases Text.words pattern.toList with
    | nil => exact b.asks_compare column "LIKE" (.text "%%")
    | cons word rest =>
      rw [List.map_map]
      have hopened := b.asks_append "("
      have hwords := hopened.trans (asks_likeWords _ column (word :: rest))
      have hclosed := hwords.trans (asks_append _ ")")
      rwa [List.append_nil] at hclosed

end Draft

/-- The comparisons that a comparison of a criterion makes with single values. Lists, subqueries and
ranges make none, and neither do the tests for missing and present columns. -/
def Comparison.questions (column : String) : Comparison → List Question
  | .equal v => [⟨column, "=", v⟩]
  | .notEqual v => if v.isNull then [] else [⟨column, "<>", v⟩]
  | .greaterThan v => [⟨column, ">", v⟩]
  | .greaterOrEqual v => [⟨column, ">=", v⟩]
  | .lessThan v => [⟨column, "<", v⟩]
  | .lessOrEqual v => [⟨column, "<=", v⟩]
  | .like pattern mode fullText =>
    (mode.sought pattern fullText).map fun sought => ⟨column, "LIKE", .text sought⟩
  | .inList _ | .inSubquery _ | .between _ _ | .isNull | .isNotNull => []

/-- The comparisons that a field criterion makes. -/
def FieldCriterion.questions (f : FieldCriterion) : List Question :=
  f.comparison.elim [] (Comparison.questions f.field)

/-- The comparisons that a token makes. -/
def CriteriaToken.questions : CriteriaToken → List Question
  | .field f => f.questions
  | _ => []

/-- A call that compares columns with values. -/
inductive Inquiry where
  /-- The comparison itself. -/
  | compare (column operator : String) (v : Value)
  /-- A keyword and a comparison. -/
  | condition (k : Draft.Connective) (column operator : String) (v : Value)
  /-- The call of a comparator. -/
  | relate (column : String) (v : Value) (r : Comparator)
  /-- A test for a pattern. -/
  | like (column pattern : String) (mode : LikeMode) (fullText : Bool)
  /-- A field criterion. -/
  | criterion (f : FieldCriterion)
  /-- Criteria. -/
  | criteria (c : Criteria)

namespace Inquiry

/-- What a call makes of a draft. -/
def run (b : Draft) : Inquiry → Draft
  | compare column operator v => b.compare column operator v
  | condition k column operator v => b.condition k column operator v
  | relate column v r => b.relate column v r
  | like column pattern mode fullText => b.like column pattern mode fullText
  | criterion f => b.criterion f
  | criteria c => c.compile b

/-- The comparisons that a call makes. -/
def questions : Inquiry → List Question
  | compare column operator v | condition _ column operator v => [⟨column, operator, v⟩]
  | relate column v r => (r.held v).questions column
  | like column pattern mode fullText =>
    (Comparison.like pattern mode fullText).questions column
  | criterion f => f.questions
  | criteria c => c.tokens.flatMap CriteriaToken.questions

end Inquiry

namespace Draft

/-- A comparison of a criterion asks its questions. -/
theorem asks_comparing (b : Draft) (column : String) (comparison : Comparison) :
    b.Asks (b.comparing column comparison) (comparison.questions column) := by
  cases comparison with
  | equal v | greaterThan v | greaterOrEqual v | lessThan v | lessOrEqual v =>
    exact b.asks_compare column _ v
  | notEqual v =>
    simp only [comparing, notEqualTo, Comparison.questions]
    split
    · exact b.asks_append _
    · exact b.asks_compare column "<>" v
  | like pattern mode fullText => exact b.asks_like column pattern mode fullText
  | inList vs =>
    simp only [comparing, inList_eq]
    exact (b.continues_append (b.parameters.keeps_addTemps _) _).asks
  | inSubquery subquery =>
    have hopened := b.asks_append (column ++ " IN (")
    have hmerged := continues_append (b.append (column ++ " IN ("))
      (ParameterSet.keeps_extend _ subquery.parameters) (Text.trim subquery.text)
    exact (hopened.trans hmerged.asks).trans (asks_append _ ")")
  | between low high =>
    have hkeeps := (b.parameters.keeps_addTemp low column).trans
      (ParameterSet.keeps_addTemp _ high column)
    exact (b.continues_append hkeeps _).asks
  | isNull | isNotNull => exact b.asks_append _

/-- A field criterion asks its questions. -/
theorem asks_criterion (b : Draft) (f : FieldCriterion) : b.Asks (b.criterion f) f.questions := by
  obtain ⟨column, comparison⟩ := f
  cases comparison with
  | none => exact (Continues.refl b).asks
  | some comparison => exact b.asks_comparing column comparison

/-- A token asks its questions. -/
theorem asks_criteriaToken (b : Draft) (t : CriteriaToken) :
    b.Asks (b.criteriaToken t) t.questions := by
  cases t with
  | field f => exact b.asks_criterion f
  | openGroup | closeGroup | and | or | literal => exact b.asks_append _

/-- Tokens ask their questions one after the other. -/
theorem asks_tokens (b : Draft) (tokens : List CriteriaToken) :
    b.Asks (tokens.foldl criteriaToken b) (tokens.flatMap CriteriaToken.questions) := by
  induction tokens generalizing b with
  | nil => exact (Continues.refl b).asks
  | cons t rest ih => exact (b.asks_criteriaToken t).trans (ih _)

/-- A call asks its questions. -/
theorem asks_inquiry (b : Draft) (inquiry : Inquiry) :
    b.Asks (inquiry.run b) inquiry.questions := by
  cases inquiry with
  | compare column operator v => exact b.asks_compare column operator v
  | condition k column operator v =>
    exact (b.asks_append k.keyword).trans (asks_compare _ column operator v)
  | relate column v r =>
    have hheld := b.asks_comparing column (r.held v)
    rwa [comparing_held] at hheld
  | like column pattern mode fullText => exact b.asks_like column pattern mode fullText
  | criterion f => exact b.asks_criterion f
  | criteria c => exact b.asks_tokens c.tokens

/-- When a call compares with a parameter that is bound to the missing value. Whatever the draft,
every comparison that the call makes stands in the text afterwards: with a reference to a parameter
that has its value or, for the missing value, as a test that no parameter is made for. One of the
parameters is bound to the missing value if and only if a value is compared with that is a least
date or instant. -/
theorem against_null_iff (b : Draft) (inquiry : Inquiry) :
    ∃ asked : List Asked, asked.map Asked.toQuestion = inquiry.questions ∧
      (∀ a ∈ asked, (inquiry.run b).Stands a) ∧
      (∀ a ∈ asked, a.reference = none → ∀ d : Draft,
        (d.compare a.column a.operator a.value).parameters = d.parameters) ∧
      ((∃ a ∈ asked, a.AgainstNull (inquiry.run b)) ↔
        ∃ q ∈ inquiry.questions, q.value.isAbsent = true) := by
  obtain ⟨-, asked, hasked, hstands⟩ := b.asks_inquiry inquiry
  refine ⟨asked, hasked, hstands, fun a ha hnone d => ?_, ?_⟩
  · rw [compare_of_isNull d a.column a.operator ((hstands a ha).missing.mp hnone)]
    rfl
  · rw [← hasked]
    constructor
    · rintro ⟨a, ha, hnull⟩
      exact ⟨a.toQuestion, List.mem_map_of_mem ha, (hstands a ha).againstNull_iff.mp hnull⟩
    · rintro ⟨q, hq, habsent⟩
      obtain ⟨a, ha, rfl⟩ := List.mem_map.mp hq
      exact ⟨a, ha, (hstands a ha).againstNull_iff.mpr habsent⟩

/-- A comparison with the least date refers to a parameter that holds the missing value. -/
theorem against_null_least_date :
    let b := (empty (.series 1)).compare "Closed" "=" (.date Date.least)
    ∃ name p, b.text = "Closed = " ++ name ∧ b.parameters.get? name = some p ∧
      p.value = .null := by
  intro b
  have hbound := (ParameterSet.empty (.series 1)).get?_addTemp (.date Date.least) "Closed"
  exact ⟨_, _, rfl, hbound, rfl⟩

end Draft

end BoundSql
