import BoundSql.Proofs.Criteria.Grammar
import BoundSql.Proofs.Parameter.History
import BoundSql.Proofs.Statement.Emission
import BoundSql.Proofs.Text.Nesting

/-!
# The parentheses of compiled criteria

A draft that grows by a piece of text grows by what the piece opens and closes; the space between
them does neither. Every predicate prints its own parentheses in balance, in one piece or in
several, so that only the groups of criteria move the number of open parentheses. Compiling criteria
therefore walks along their tokens.
-/

namespace BoundSql

/-! ## Texts without parentheses -/

namespace Text

/-- Blanks are no parentheses. -/
theorem parenthesis_of_isBlank {c : Char} (h : isBlank c = true) : parenthesis c = .neither := by
  have hopening : c ≠ '(' := by
    rintro rfl
    cases h
  have hclosing : c ≠ ')' := by
    rintro rfl
    cases h
  rw [parenthesis, if_neg hopening, if_neg hclosing]

/-- Trimming a text takes no parentheses away. -/
theorem depth?_trim (s : String) : depth? (trim s) = depth? s := by
  obtain ⟨front, back, hs, hfront, hback⟩ := exists_trimmed s.toList
  unfold depth?
  rw [toList_trim, hs, Nesting.depth?_of_ends _ (fun c hc => parenthesis_of_isBlank (hfront c hc))
    fun c hc => parenthesis_of_isBlank (hback c hc), ← hs]

/-- A reference has no parentheses. -/
theorem balanced_of_isReference {name : String} (h : Token.IsReference name) : Balanced name := by
  obtain ⟨word, -, hword, rfl⟩ := h
  refine .of_forall fun c hc => ?_
  rw [String.toList_ofList, List.mem_cons] at hc
  have hneither (d : Char) (hd : Token.isWord d = false) (hat : d ≠ '@') : c ≠ d := by
    rintro rfl
    rcases hc with hc | hc
    · exact hat hc
    · rw [hword _ hc] at hd
      cases hd
  rw [parenthesis, if_neg (hneither '(' rfl (by decide)), if_neg (hneither ')' rfl (by decide))]

/-- Balanced names have commas between them and stay balanced. -/
theorem balanced_commas {names : List String} (h : ∀ name ∈ names, Balanced name) :
    Balanced (Spacing.commas names) := by
  have hcomma : Balanced ", " := by decide
  refine Spacing.commas_induction (P := fun _ text => Balanced text) (by decide) h ?_
  intro name hname _ text htext
  exact ((h name hname).append hcomma).append htext

end Text

/-- The references to values that are bound next are tokens from end to end. -/
theorem ParameterSet.isReference_addTemps (s : ParameterSet) (bindings : List (String × Value)) :
    ∀ r ∈ (s.addTemps bindings).2, Token.IsReference r := by
  induction bindings generalizing s with
  | nil => exact fun r hr => nomatch hr
  | cons binding rest ih =>
    intro r hr
    rcases List.mem_cons.mp hr with rfl | hr
    · exact History.isReference_addTemp s binding.2 binding.1
    · exact ih _ r hr

/-- A test for membership in a list of references is balanced when its column is. -/
theorem Draft.balanced_membership {column : String} (hcolumn : Text.Balanced column)
    {references : List String} (h : ∀ r ∈ references, Token.IsReference r) :
    Text.Balanced (membership column references) := by
  unfold membership
  split
  · decide
  · have hlist : Text.Balanced (Spacing.commas references) :=
      Text.balanced_commas fun r hr => Text.balanced_of_isReference (h r hr)
    -- the list stands between parentheses that belong to different pieces
    have hdepth :
        Text.depth? (column ++ " IN (" ++ Spacing.commas references ++ ")") 0 = some 0 := by
      simp only [Text.depth?_append, hcolumn.depth?_eq, hlist.depth?_eq, Option.bind_some]
      rfl
    exact (Nesting.balanced_iff _).mpr hdepth

/-! ## Drafts that grow -/

namespace Draft

/-- A draft without table prefixes whose text is that of another one with more behind it, which
moves the number of open parentheses. -/
structure Nests (b b' : Draft) (move : Nat → Option Nat) : Prop where
  /-- There are no table prefixes. -/
  prefixes : b'.prefixes = none
  /-- What stands behind the text of the other draft moves the number. -/
  added : ∃ added, b'.text = b.text ++ added ∧ Text.depth? added = move

variable {a b c : Draft} {move : Nat → Option Nat} {column : String}

/-- A draft has grown by nothing. -/
theorem Nests.refl (h : b.prefixes = none) : b.Nests b some :=
  ⟨h, "", String.append_empty.symm, rfl⟩

/-- Drafts in a row move the number one after the other. -/
theorem Nests.trans {further : Nat → Option Nat} (hab : a.Nests b move) (hbc : b.Nests c further) :
    a.Nests c fun depth => (move depth).bind further := by
  obtain ⟨-, first, hfirst, rfl⟩ := hab
  obtain ⟨hprefixes, second, hsecond, rfl⟩ := hbc
  refine ⟨hprefixes, first ++ second, ?_, funext (Text.depth?_append first second)⟩
  rw [hsecond, hfirst, String.append_assoc]

/-- A piece moves the number as it does on its own, whatever parameters come with it. -/
theorem nests_append (h : b.prefixes = none) (parameters : ParameterSet) (piece : String) :
    b.Nests ({ b with parameters }.append piece) (Text.depth? piece) := by
  have hpiece : { b with parameters }.prefixed piece = piece := prefixed_of_none h piece
  obtain ⟨gap, hjoined, hgap⟩ := Spacing.exists_joined b.text piece
  have hflat : Text.Balanced gap := by
    rcases hgap with rfl | rfl
    · decide
    · decide
  refine ⟨h, gap ++ piece, ?_, ?_⟩
  · simp only [append, hpiece]
    rw [hjoined, String.append_assoc]
  · funext depth
    rw [Text.depth?_append, hflat.depth?_eq, Option.bind_some]

/-- A balanced piece leaves the number as it is. -/
theorem nests_append_balanced (h : b.prefixes = none) (parameters : ParameterSet) {piece : String}
    (hpiece : Text.Balanced piece) : b.Nests ({ b with parameters }.append piece) some := by
  rw [← hpiece.depth?_eq]
  exact nests_append h parameters piece

/-- A comparison leaves the number as it is. -/
theorem nests_compare (h : b.prefixes = none) (hcolumn : Text.Balanced column) {operator : String}
    (hoperator : Text.Balanced operator) (v : Value) :
    b.Nests (b.compare column operator v) some := by
  have hspace : Text.Balanced " " := by decide
  have hlead := hcolumn.append hspace
  unfold compare
  split
  · have hform : Text.Balanced (nullForm false) := by decide
    exact nests_append_balanced h b.parameters (hlead.append hform)
  · have hreference : Text.Balanced (b.parameters.addTemp v column).2 :=
      Text.balanced_of_isReference (ParameterSet.History.isReference_addTemp b.parameters v column)
    exact nests_append_balanced h _ (((hlead.append hoperator).append hspace).append hreference)

/-- A test for being different leaves the number as it is. -/
theorem nests_notEqualTo (h : b.prefixes = none) (hcolumn : Text.Balanced column) (v : Value) :
    b.Nests (b.notEqualTo column v) some := by
  unfold notEqualTo
  split
  · have hform : Text.Balanced " IS NOT NULL" := by decide
    exact nests_append_balanced h b.parameters (hcolumn.append hform)
  · have hoperator : Text.Balanced "<>" := by decide
    exact nests_compare h hcolumn hoperator v

/-- A test for words leaves the number as it is. -/
theorem nests_likeWords (h : b.prefixes = none) (hcolumn : Text.Balanced column)
    (words : List (List Char)) : b.Nests (b.likeWords column words) some := by
  induction words generalizing b with
  | nil => exact .refl h
  | cons word rest ih =>
    have hoperator : Text.Balanced "LIKE" := by decide
    have hword : b.Nests (b.likeWord column word) some := nests_compare h hcolumn hoperator _
    cases rest with
    | nil => exact hword
    | cons next rest =>
      have hkeyword : Text.Balanced "AND" := by decide
      have hand := nests_append_balanced hword.prefixes (b.likeWord column word).parameters hkeyword
      exact (hword.trans hand).trans (ih hand.prefixes)

/-- A test for a pattern leaves the number as it is: a full-text test closes the group that it
opens. -/
theorem nests_like (h : b.prefixes = none) (hcolumn : Text.Balanced column) (pattern : String)
    (mode : LikeMode) (fullText : Bool) : b.Nests (b.like column pattern mode fullText) some := by
  have hoperator : Text.Balanced "LIKE" := by decide
  unfold like
  split
  · split
    · exact nests_compare h hcolumn hoperator _
    · have hopened : b.Nests b.openGroup Side.opening.move := nests_append h b.parameters "("
      have hwords := nests_likeWords hopened.prefixes hcolumn (Text.words pattern.toList)
      have hclosed := nests_append hwords.prefixes (b.openGroup.likeWords column
        (Text.words pattern.toList)).parameters ")"
      exact (hopened.trans hwords).trans hclosed
  · exact nests_compare h hcolumn hoperator _

/-- A test for membership in a list leaves the number as it is. -/
theorem nests_inList (h : b.prefixes = none) (hcolumn : Text.Balanced column) (vs : List Value) :
    b.Nests (b.inList column vs) some := by
  rw [inList_eq]
  exact nests_append_balanced h _
    (balanced_membership hcolumn (b.parameters.isReference_addTemps _))

/-- Merging moves the number as the text of the other draft does. -/
theorem nests_merge (h : b.prefixes = none) (other : Draft) :
    b.Nests (b.merge other) (Text.depth? other.text) := by
  rw [← Text.depth?_trim]
  exact nests_append h (b.parameters.extend other.parameters) (Text.trim other.text)

/-- A test for membership in the result of a balanced statement leaves the number as it is. -/
theorem nests_inSubquery (h : b.prefixes = none) (hcolumn : Text.Balanced column)
    {subquery : Draft} (hsubquery : Text.Balanced subquery.text) :
    b.Nests (b.inSubquery column subquery) some := by
  have hopened := nests_append h b.parameters (column ++ " IN (")
  have hmerged := nests_merge hopened.prefixes subquery
  have hclosed := nests_append hmerged.prefixes
    ((b.append (column ++ " IN (")).merge subquery).parameters ")"
  have hall := (hopened.trans hmerged).trans hclosed
  -- the first piece opens the parenthesis that the last one closes
  have hmove (depth : Nat) : Text.depth? (column ++ " IN (") depth = some (depth + 1) := by
    rw [Text.depth?_append, hcolumn.depth?_eq]
    rfl
  simp only [hmove, hsubquery.depth?_eq, Option.bind_some] at hall
  exact hall

/-- A range leaves the number as it is. -/
theorem nests_between (h : b.prefixes = none) (hcolumn : Text.Balanced column) (low high : Value) :
    b.Nests (b.between column low high) some := by
  have hbetween : Text.Balanced " BETWEEN " := by decide
  have hand : Text.Balanced " AND " := by decide
  have hlow : Text.Balanced (b.parameters.addTemp low column).2 :=
    Text.balanced_of_isReference (ParameterSet.History.isReference_addTemp b.parameters low column)
  have hhigh := Text.balanced_of_isReference
    (ParameterSet.History.isReference_addTemp (b.parameters.addTemp low column).1 high column)
  have hlead := (hcolumn.append hbetween).append hlow
  exact nests_append_balanced h _ ((hlead.append hand).append hhigh)

end Draft

/-! ## Criteria -/

/-- The texts that a comparison prints as they are, besides its column. -/
def Comparison.texts : Comparison → List String
  | .inSubquery subquery => [subquery.text]
  | _ => []

/-- The texts that a token prints as they are: a field criterion without a comparison prints
nothing. -/
def CriteriaToken.texts : CriteriaToken → List String
  | .field ⟨column, some comparison⟩ => column :: comparison.texts
  | .literal text => [text]
  | _ => []

/-- What a token does to the number of open groups. -/
def CriteriaToken.side : CriteriaToken → Side
  | .openGroup => .opening
  | .closeGroup => .closing
  | _ => .neither

namespace Draft

variable {b : Draft}

/-- A comparison of balanced texts leaves the number as it is. -/
theorem nests_comparing (h : b.prefixes = none) {column : String} (hcolumn : Text.Balanced column)
    (comparison : Comparison) (htexts : ∀ text ∈ comparison.texts, Text.Balanced text) :
    b.Nests (b.comparing column comparison) some := by
  cases comparison with
  | equal v | greaterThan v | greaterOrEqual v | lessThan v | lessOrEqual v =>
    exact nests_compare h hcolumn (by decide) v
  | notEqual v => exact nests_notEqualTo h hcolumn v
  | like pattern mode fullText => exact nests_like h hcolumn pattern mode fullText
  | inList vs => exact nests_inList h hcolumn vs
  | inSubquery subquery => exact nests_inSubquery h hcolumn (htexts _ (List.mem_singleton_self _))
  | between low high => exact nests_between h hcolumn low high
  | isNull | isNotNull => exact nests_append_balanced h b.parameters (hcolumn.append (by decide))

/-- A token moves the number of open parentheses as it moves the number of open groups. -/
theorem nests_criteriaToken (h : b.prefixes = none) (t : CriteriaToken)
    (htexts : ∀ text ∈ t.texts, Text.Balanced text) : b.Nests (b.criteriaToken t) t.side.move := by
  cases t with
  | openGroup =>
    have hmove : Text.depth? "(" = Side.opening.move := Nesting.depth?_singleton '('
    rw [CriteriaToken.side, ← hmove]
    exact nests_append h b.parameters "("
  | closeGroup =>
    have hmove : Text.depth? ")" = Side.closing.move := Nesting.depth?_singleton ')'
    rw [CriteriaToken.side, ← hmove]
    exact nests_append h b.parameters ")"
  | and | or => exact nests_append_balanced h b.parameters (by decide)
  | literal text =>
    exact nests_append_balanced h b.parameters (htexts text (List.mem_singleton_self _))
  | field f =>
    obtain ⟨column, comparison⟩ := f
    cases comparison with
    | none => exact .refl h
    | some comparison =>
      have hcolumn : Text.Balanced column := htexts column List.mem_cons_self
      exact nests_comparing h hcolumn comparison fun text htext =>
        htexts text (List.mem_cons_of_mem _ htext)

/-- Compiling criteria moves the number of open parentheses as a walk along the tokens moves the
number of open groups. -/
theorem nests_tokens (h : b.prefixes = none) (tokens : List CriteriaToken)
    (htexts : ∀ t ∈ tokens, ∀ text ∈ t.texts, Text.Balanced text) :
    b.Nests (tokens.foldl criteriaToken b) (Nesting.depth? CriteriaToken.side tokens) := by
  induction tokens generalizing b with
  | nil => exact .refl h
  | cons t rest ih =>
    have hfirst := nests_criteriaToken h t (htexts t List.mem_cons_self)
    have hrest := ih hfirst.prefixes fun t' ht' => htexts t' (List.mem_cons_of_mem _ ht')
    have hwalk : Nesting.depth? CriteriaToken.side (t :: rest) = fun depth =>
        (t.side.move depth).bind (Nesting.depth? CriteriaToken.side rest) :=
      funext (Nesting.depth?_cons t rest)
    rw [hwalk]
    exact hfirst.trans hrest

end Draft

namespace Criteria

/-- What a symbol does to the number of open groups. -/
def Symbol.side : Symbol → Side
  | .opening => .opening
  | .closing => .closing
  | _ => .neither

/-- A token does to the number of open groups what its symbol does; a token without one does
nothing. -/
theorem side_eq (t : CriteriaToken) :
    t.side = ((symbol? t).map Symbol.side).getD .neither := by
  cases t with
  | field f =>
    cases hempty : f.isEmpty <;> simp [symbol?, hempty, CriteriaToken.side, Symbol.side]
  | _ => rfl

/-- Tokens are walked along as their symbols are. -/
theorem depth?_symbols (tokens : List CriteriaToken) (depth : Nat) :
    Nesting.depth? Symbol.side (symbols tokens) depth =
      Nesting.depth? CriteriaToken.side tokens depth := by
  induction tokens generalizing depth with
  | nil => rfl
  | cons t rest ih =>
    have hside := side_eq t
    have hrest : Nesting.depth? Symbol.side (symbols rest) =
        Nesting.depth? CriteriaToken.side rest := funext ih
    rw [Nesting.depth?_cons, ← hrest]
    cases hsymbol : symbol? t with
    | none =>
      have hsymbols : symbols (t :: rest) = symbols rest := List.filterMap_cons_none hsymbol
      rw [hsymbol] at hside
      rw [hsymbols, hside]
      rfl
    | some s =>
      have hsymbols : symbols (t :: rest) = s :: symbols rest := List.filterMap_cons_some hsymbol
      rw [hsymbol] at hside
      rw [hsymbols, hside, Nesting.depth?_cons]
      rfl

/-- A symbol that the check takes moves its depth as it moves the number of open groups. -/
theorem Progress.move_step {p q : Progress} {position : Nat} {s : Symbol}
    (h : p.step position s = .ok q) : s.side.move p.depth = some q.depth := by
  rw [Side.move_eq_some_iff]
  have hdepth := depth_step h
  cases s <;> simp [Symbol.side] at hdepth ⊢ <;> omega

/-- What the check takes moves its depth as it moves the number of open groups. -/
theorem Progress.depth?_pass? {p q : Progress} {taken : List Symbol} (h : p.pass? taken = some q) :
    Nesting.depth? Symbol.side taken p.depth = some q.depth := by
  induction taken generalizing p with
  | nil =>
    cases h
    rfl
  | cons s rest ih =>
    rw [pass?_cons] at h
    cases hstep : p.step 0 s with
    | error f => simp [hstep, Except.toOption] at h
    | ok r =>
      rw [hstep] at h
      rw [Nesting.depth?_cons, move_step hstep, Option.bind_some]
      exact ih h

/-- The groups of valid criteria are balanced. -/
theorem balanced_of_validate {c : Criteria} (h : validate c = .ok ()) :
    Nesting.Balanced CriteriaToken.side c.tokens := by
  obtain ⟨q, hpass, hdepth, -⟩ := (check_eq_ok_iff c.tokens).mp ((validate_eq_ok_iff_check c).mp h)
  have hwalk : Nesting.depth? Symbol.side (symbols c.tokens) 0 = some q.depth :=
    Progress.depth?_pass? hpass
  rw [Nesting.balanced_iff, ← depth?_symbols, hwalk, hdepth]

/-- Criteria whose columns, raw texts and subqueries are balanced compile to a balanced text behind
the text of the draft, whatever draft without table prefixes they are compiled into, if and only if
their groups are balanced, and those of valid criteria are: full-text tests, lists, subqueries,
ranges and empty field criteria never open or close anything that they do not close or open
themselves. -/
theorem compile_balanced_iff (c : Criteria) (b : Draft) (hprefixes : b.prefixes = none)
    (htexts : ∀ t ∈ c.tokens, ∀ text ∈ t.texts, Text.Balanced text) :
    ∃ added, (c.compile b).text = b.text ++ added ∧
      (Text.Balanced added ↔ Nesting.Balanced CriteriaToken.side c.tokens) ∧
      (validate c = .ok () → Text.Balanced added) := by
  obtain ⟨-, added, hadded, hwalk⟩ := Draft.nests_tokens hprefixes c.tokens htexts
  have hiff : Text.Balanced added ↔ Nesting.Balanced CriteriaToken.side c.tokens := by
    rw [Nesting.balanced_iff, ← hwalk]
    exact Nesting.balanced_iff added.toList
  exact ⟨added, hadded, hiff, fun hvalid => hiff.mpr (balanced_of_validate hvalid)⟩

/-- A group of a full-text test, a list and a subquery, an empty field criterion, and a range. -/
def gathered : Criteria where
  tokens :=
    let subquery := { Draft.empty (.series 1) with text := " SELECT Id FROM T WHERE (Open = 1)\n" }
    [.openGroup, .field ⟨"Name", some (.like "big dog" .contains true)⟩, .and,
      .field ⟨"lower(Kind)", some (.inList [.text "a", .text "b"])⟩, .or,
      .field ⟨"Id", some (.inSubquery subquery)⟩, .closeGroup, .field ⟨")", none⟩, .and,
      .field ⟨"Age", some (.between (.bool false) (.bool true))⟩]

/-- All of these criteria are valid, and so compile to a balanced text. -/
theorem compile_balanced_iff_gathered :
    validate gathered = .ok () ∧
      (∀ t ∈ gathered.tokens, ∀ text ∈ t.texts, Text.Balanced text) ∧
      ∃ added, (gathered.compile (.empty (.series 2))).text = "" ++ added ∧
        Text.Balanced added := by
  have hvalid : validate gathered = .ok () := rfl
  have htexts : ∀ t ∈ gathered.tokens, ∀ text ∈ t.texts, Text.Balanced text := by decide
  obtain ⟨added, hadded, -, hbalanced⟩ :=
    compile_balanced_iff gathered (.empty (.series 2)) rfl htexts
  exact ⟨hvalid, htexts, added, hadded, hbalanced hvalid⟩

end Criteria

end BoundSql
