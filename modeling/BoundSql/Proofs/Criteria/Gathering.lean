import BoundSql.Proofs.Criteria.Grammar

/-!
# Gathered field criteria

Asking for all or for one of some field criteria pushes those that are not empty, with a conjunction
between neighbours. On its own, such a row of tokens takes the check from anywhere to the same depth
with an operand behind it, and it compiles to the field criteria with the word of the conjunction
between neighbours. Empty field criteria leave no trace, wherever they stand.
-/

namespace BoundSql

/-- Whether all or only one of some field criteria must hold. -/
inductive Demand where
  /-- All of them must hold. -/
  | all
  /-- One of them must hold. -/
  | one
  deriving DecidableEq

namespace Demand

/-- The token between neighbours. -/
def conjunction : Demand → CriteriaToken
  | all => .and
  | one => .or

/-- The word between neighbours. -/
def word : Demand → String
  | all => "AND"
  | one => "OR"

/-- Asks criteria for all or for one of some field criteria. -/
def gather : Demand → Criteria → List FieldCriterion → Criteria
  | all => Criteria.matchAll
  | one => Criteria.matchOne

/-- What is gathered is pushed with the token between neighbours. -/
theorem gather_eq (d : Demand) (c : Criteria) (fields : List FieldCriterion) :
    d.gather c fields = c.pushConjoined d.conjunction fields := by
  cases d <;> rfl

/-- The token between neighbours is a conjunction to the check. -/
theorem symbol?_conjunction (d : Demand) :
    Criteria.symbol? d.conjunction = some .conjunction := by
  cases d <;> rfl

/-- The token between neighbours compiles to the word. -/
theorem criteriaToken_conjunction (d : Demand) (b : Draft) :
    b.criteriaToken d.conjunction = b.append d.word := by
  cases d <;> rfl

end Demand

/-- Appends field criteria one after the other, with a word between neighbours. -/
def Draft.joining (b : Draft) (word : String) : List FieldCriterion → Draft
  | [] => b
  | first :: rest => rest.foldl (fun b f => (b.append word).criterion f) (b.criterion first)

namespace Criteria

/-- Field criteria with a conjunction between neighbours are their tokens interspersed with it. -/
theorem conjoined_eq_intersperse (conjunction : CriteriaToken) (fields : List FieldCriterion) :
    conjoined conjunction fields =
      (fields.map CriteriaToken.field).intersperse conjunction := by
  induction fields with
  | nil => rfl
  | cons f rest ih =>
    cases rest with
    | nil => rfl
    | cons g rest =>
      have htokens : conjoined conjunction (f :: g :: rest) =
          .field f :: conjunction :: conjoined conjunction (g :: rest) := rfl
      rw [htokens, ih]
      rfl

/-- Conjoined field criteria compile one after the other, with the word between neighbours. -/
theorem foldl_conjoined (d : Demand) (b : Draft) (fields : List FieldCriterion) :
    (conjoined d.conjunction fields).foldl Draft.criteriaToken b = b.joining d.word fields := by
  cases fields with
  | nil => rfl
  | cons first rest =>
    induction rest generalizing b first with
    | nil => rfl
    | cons g rest ih =>
      have hnext : (b.criteriaToken (.field first)).criteriaToken d.conjunction =
          (b.criterion first).append d.word :=
        d.criteriaToken_conjunction (b.criterion first)
      rw [conjoined, List.foldl_cons, List.foldl_cons, hnext, ih]
      · rfl
      · exact List.cons_ne_nil g rest

/-- Conjoined field criteria of which none is empty take the check to the same depth, with an
operand behind it. -/
theorem pass?_conjoined (d : Demand) (p : Progress) {first : FieldCriterion}
    {rest : List FieldCriterion} (h : ∀ f ∈ first :: rest, f.isEmpty = false) :
    p.pass? (symbols (conjoined d.conjunction (first :: rest))) =
      some ⟨p.depth, .operand⟩ := by
  have hoperand {f : FieldCriterion} (hf : f.isEmpty = false) :
      symbol? (.field f) = some .operand := by simp [symbol?, hf]
  induction rest generalizing p first with
  | nil =>
    rw [conjoined, symbols, List.filterMap_cons_some (hoperand (h first List.mem_cons_self))]
    rfl
  | cons g rest ih =>
    have hfirst := hoperand (h first List.mem_cons_self)
    have hrest : ∀ f ∈ g :: rest, f.isEmpty = false := fun f hf => h f (List.mem_cons_of_mem _ hf)
    have hsymbols : symbols (conjoined d.conjunction (first :: g :: rest)) =
        [.operand, .conjunction] ++ symbols (conjoined d.conjunction (g :: rest)) := by
      rw [conjoined, symbols, List.filterMap_cons_some hfirst,
        List.filterMap_cons_some d.symbol?_conjunction]
      · rfl
      · exact List.cons_ne_nil g rest
    -- the conjunction finds its operand, and stands at the same depth
    have hpair : p.pass? [.operand, .conjunction] = some ⟨p.depth, .conjunction⟩ := rfl
    rw [hsymbols, Progress.pass?_append, hpair, Option.bind_some]
    exact ih ⟨p.depth, .conjunction⟩ hrest

/-- Conjoined field criteria of which none is empty are valid. -/
theorem check_conjoined (d : Demand) {fields : List FieldCriterion}
    (h : ∀ f ∈ fields, f.isEmpty = false) : check (conjoined d.conjunction fields) = .ok () := by
  cases fields with
  | nil => rfl
  | cons first rest =>
    rw [check_eq_ok_iff]
    exact ⟨⟨0, .operand⟩, pass?_conjoined d Progress.start h, rfl, nofun⟩

/-- What asking criteria for all or for one of some field criteria does, empty ones among them. The
tokens grow by those that are not empty, in their order, with the conjunction between neighbours,
and nothing else changes. What grows from no tokens is valid. Compiled into any draft, with the
suffixes that it hands out, the field criteria stand behind what was there before as if each of them
had been appended in turn with the word of the conjunction between neighbours. And when all of them
are empty, criteria and drafts stay what they were. -/
theorem gather_exact (d : Demand) (c : Criteria) (fields : List FieldCriterion) :
    let kept := fields.filter fun f => !f.isEmpty
    d.gather c fields =
        { c with tokens := c.tokens ++ (kept.map CriteriaToken.field).intersperse d.conjunction } ∧
      validate (d.gather .empty fields) = .ok () ∧
      (∀ b : Draft, (d.gather c fields).compile b = (c.compile b).joining d.word kept) ∧
      ((∀ f ∈ fields, f.isEmpty = true) →
        d.gather c fields = c ∧ ∀ b : Draft, (d.gather .empty fields).compile b = b) := by
  intro kept
  have hkept : ∀ f ∈ kept, f.isEmpty = false := by
    intro f hf
    simpa using (List.mem_filter.mp hf).2
  have htokens (c : Criteria) :
      d.gather c fields = { c with tokens := c.tokens ++ conjoined d.conjunction kept } :=
    d.gather_eq c fields
  refine ⟨?_, ?_, fun b => ?_, fun hempty => ?_⟩
  · rw [htokens, conjoined_eq_intersperse]
  · rw [validate_eq_ok_iff_check, htokens]
    exact check_conjoined d hkept
  · rw [htokens, compile, List.foldl_append, foldl_conjoined]
    rfl
  · have hnone : kept = [] := by
      rw [List.filter_eq_nil_iff]
      intro f hf
      simp [hempty f hf]
    refine ⟨?_, fun b => ?_⟩
    · rw [htokens, hnone, conjoined, List.append_nil]
    · rw [htokens, hnone]
      rfl

/-- Of four field criteria, the second and the fourth of which ask for something, the tokens are
those two with a conjunction between them; of two that ask for nothing there are none. -/
theorem gather_exact_sparse :
    let asked (field : String) : FieldCriterion := ⟨field, some .isNull⟩
    let idle (field : String) : FieldCriterion := .ofField field
    (Demand.one.gather .empty [idle "A", asked "B", idle "C", asked "D"]).tokens =
        [.field (asked "B"), .or, .field (asked "D")] ∧
      (∀ f ∈ [idle "A", idle "C"], f.isEmpty = true) ∧
      Demand.all.gather .empty [idle "A", idle "C"] = .empty := by
  intro asked idle
  have hidle : ∀ f ∈ [idle "A", idle "C"], f.isEmpty = true := by decide
  have hgrown := (gather_exact .one .empty [idle "A", asked "B", idle "C", asked "D"]).1
  have hsame := ((gather_exact .all .empty [idle "A", idle "C"]).2.2.2 hidle).1
  exact ⟨congrArg Criteria.tokens hgrown, hidle, hsame⟩

end Criteria

end BoundSql
