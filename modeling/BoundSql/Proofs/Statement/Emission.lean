import BoundSql.Criteria.Basic
import BoundSql.Proofs.Parameter.Set
import BoundSql.Proofs.Prefixes
import BoundSql.Proofs.Statement.Spacing
import BoundSql.Statement.Page

/-!
# What clauses and predicates print and bind

A sound draft refers to its parameters from left to right, each of them once. Every clause and every
predicate prints one piece of text for the values that it binds, with the references in the order of
the values and a blank, a comma or a parenthesis behind each. A sound draft therefore stays sound,
and its parameters grow by the values.
-/

namespace BoundSql

/-- A text without at signs. -/
def Plain (s : String) : Prop :=
  '@' ∉ s.toList

instance (s : String) : Decidable (Plain s) :=
  inferInstanceAs (Decidable ('@' ∉ s.toList))

/-- Two texts in a row have no at signs when neither has. -/
theorem plain_append {s t : String} : Plain (s ++ t) ↔ Plain s ∧ Plain t := by
  simp [Plain, String.toList_append]

namespace Token.Refers

/-- A piece of text behind another one refers to what both refer to. -/
theorem joined {text piece : String} {names others : List String} (htext : Refers text.toList names)
    (hpiece : Refers piece.toList others) :
    Refers (Spacing.joined text piece).toList (names ++ others) := by
  unfold Spacing.joined
  split
  · -- The space that is put in stops the last token of the text.
    rw [String.toList_append, String.toList_append, List.append_assoc]
    have hspaced : Refers (" ".toList ++ piece.toList) others := hpiece.plain_append (by decide)
    exact htext.append hspaced (Or.inl (Stops.cons rfl _))
  · rename_i hneeded
    rw [String.toList_append]
    refine htext.append hpiece ?_
    cases hlast : text.toList.getLast? with
    | none => exact Or.inr fun c hc => nomatch hc
    | some last =>
      cases hfirst : piece.toList.head? with
      | none => exact Or.inl fun c hc => by rw [hfirst] at hc; exact nomatch hc
      | some first =>
        simp only [Spacing.needed, hlast, hfirst, Bool.not_eq_true', Bool.not_eq_false] at hneeded
        rcases Bool.or_eq_true_iff.mp hneeded with hblank | hcomma
        · rcases Bool.or_eq_true_iff.mp hblank with hblank | hblank
          · exact Or.inr fun c hc => Option.some.inj hc ▸ isStop_of_isBlank hblank
          · exact Or.inl fun c hc => by
              rw [hfirst] at hc
              exact Option.some.inj hc ▸ isStop_of_isBlank hblank
        · exact Or.inl fun c hc => by
            rw [hfirst] at hc
            simp [← Option.some.inj hc, isStop, beq_iff_eq.mp hcomma]

/-- References with commas between them are referred to in their order. -/
theorem commas {references : List String} (h : ∀ r ∈ references, IsReference r) :
    Refers (Spacing.commas references).toList references := by
  have hcomma : '@' ∉ ", ".toList := by decide
  refine Spacing.commas_induction (P := fun names text => Refers text.toList names)
    (plain List.not_mem_nil) (fun r hr => of_isReference (h r hr)) ?_
  intro reference hmem rest text htext
  rw [String.toList_append, String.toList_append, List.append_assoc]
  exact (of_isReference (h reference hmem)).append (htext.plain_append hcomma)
    (Or.inl (Stops.cons rfl _))

/-- A text may have a text without at signs in front of it. -/
theorem prepend {s t : String} {names : List String} (hs : Plain s) (ht : Refers t.toList names) :
    Refers (s ++ t).toList names := by
  rw [String.toList_append]
  exact ht.plain_append hs

/-- A text may be followed by one without at signs that begins with a character that may follow a
token. -/
theorem postpend {s t : String} {names : List String} (hs : Refers s.toList names) (ht : Plain t)
    (hstops : Stops t.toList) : Refers (s ++ t).toList names := by
  rw [String.toList_append]
  exact hs.append_plain ht hstops

end Token.Refers

/-- Names without at signs have none with commas between them either. -/
theorem plain_commas {names : List String} (h : ∀ name ∈ names, Plain name) :
    Plain (Spacing.commas names) := by
  refine Spacing.commas_induction (P := fun _ text => Plain text) (by decide) h ?_
  intro name hname _ text htext
  exact plain_append.mpr ⟨plain_append.mpr ⟨h name hname, by decide⟩, htext⟩

/-- What is bound for a value that is printed only when it is there. -/
def Value.bound (v : Value) : List Value :=
  if v.isNull then [] else [v.cleared]

/-- The patterns that a test for a pattern seeks. -/
def LikeMode.sought (mode : LikeMode) (pattern : String) (fullText : Bool) : List String :=
  if fullText then
    match Text.words pattern.toList with
    | [] => ["%%"]
    | words => words.map fun word => contains.decorate (String.ofList word)
  else
    [mode.decorate pattern]

namespace Draft

/-- A draft that refers to its parameters from left to right, each of them once. -/
structure Sound (b : Draft) : Prop where
  /-- The text refers to the parameters in order. -/
  refers : Token.Refers b.text.toList b.parameters.names
  /-- The table prefixes have no at signs. -/
  plain : ∀ p ∈ b.prefixes, ∀ name ∈ p.names, Plain name
  /-- The names of the parameters were drawn, each of them once. -/
  numbered : b.parameters.Numbered

/-- A draft that is sound and binds some values behind those of another draft. -/
structure Emits (b b' : Draft) (values : List Value) : Prop where
  /-- The draft is sound. -/
  sound : b'.Sound
  /-- The values come behind those of the other draft. -/
  values_eq : b'.parameters.values = b.parameters.values ++ values

/-- A sound draft has bound nothing behind its own values. -/
theorem Sound.emits {b : Draft} (h : b.Sound) : b.Emits b [] :=
  ⟨h, (List.append_nil _).symm⟩

/-- Drafts in a row bind their values in a row. -/
theorem Emits.trans {a b c : Draft} {values further : List Value} (hab : a.Emits b values)
    (hbc : b.Emits c further) : a.Emits c (values ++ further) :=
  ⟨hbc.sound, by rw [hbc.values_eq, hab.values_eq, List.append_assoc]⟩

/-- Which clause a draft ends in has no effect on what it binds. -/
theorem Emits.withClause {b b' : Draft} {values : List Value} (h : b.Emits b' values)
    (clause : Clause) : b.Emits { b' with clause } values :=
  ⟨⟨h.sound.refers, h.sound.plain, h.sound.numbered⟩, h.values_eq⟩

/-- The empty draft is sound. -/
theorem Sound.empty (supply : Supply) {prefixes : Option Prefixes}
    (h : ∀ p ∈ prefixes, ∀ name ∈ p.names, Plain name) : (empty supply prefixes).Sound where
  refers := .plain List.not_mem_nil
  plain := h
  numbered := .empty supply

/-- Table prefixes without at signs leave the references of a piece as they are. -/
theorem Sound.prefixed {b : Draft} (h : b.Sound) {piece : String} {names : List String}
    (hpiece : Token.Refers piece.toList names) : Token.Refers (b.prefixed piece).toList names := by
  have hplain := h.plain
  unfold Draft.prefixed
  cases hp : b.prefixes with
  | none => exact hpiece
  | some p =>
    rw [hp] at hplain
    have hsubstituted := hpiece.substituted (hplain p rfl)
    rwa [← String.toList_ofList (l := p.substituted piece.toList)] at hsubstituted

/-- A piece that refers to new parameters is appended together with them. -/
theorem Sound.emit {b : Draft} (h : b.Sound) {parameters : ParameterSet} {references : List String}
    {values : List Value} {piece : String}
    (hgrows : b.parameters.Grows parameters references values)
    (hpiece : Token.Refers piece.toList references) :
    b.Emits ({ b with parameters }.append piece) values where
  sound := {
    refers := by
      have hjoined := h.refers.joined (h.prefixed hpiece)
      rw [← hgrows.names_eq] at hjoined
      exact hjoined
    plain := h.plain
    numbered := hgrows.numbered }
  values_eq := hgrows.values_eq

/-- A piece of text without at signs binds nothing. -/
theorem Sound.append {b : Draft} (h : b.Sound) {piece : String} (hpiece : Plain piece) :
    b.Emits (b.append piece) [] :=
  h.emit h.numbered.grows (.plain hpiece)

/-- Merging a sound draft whose names are not taken binds the values of that draft. -/
theorem Sound.merge {b other : Draft} (h : b.Sound) (hother : other.Sound)
    (hapart : ∀ name ∈ other.parameters.names, name ∉ b.parameters.names) :
    b.Emits (b.merge other) other.parameters.values := by
  have htrimmed : Token.Refers (Text.trim other.text).toList other.parameters.names := by
    rw [Text.toList_trim]
    exact hother.refers.trimmed
  exact h.emit (h.numbered.extend hother.numbered hapart) htrimmed

/-- A comparison binds its value unless that is the missing one. -/
theorem Sound.compare {b : Draft} (h : b.Sound) {column operator : String} (hcolumn : Plain column)
    (hoperator : Plain operator) (v : Value) (isAssignment : Bool) :
    b.Emits (b.compare column operator v isAssignment) v.bound := by
  unfold Draft.compare Value.bound
  split
  · refine h.append (plain_append.mpr ⟨plain_append.mpr ⟨hcolumn, by decide⟩, ?_⟩)
    cases isAssignment <;> decide
  · have hgrows := h.numbered.addTemp v column
    have hreference := Token.Refers.of_isReference (hgrows.isReference (List.mem_singleton_self _))
    refine h.emit hgrows (hreference.prepend ?_)
    simp only [plain_append]
    exact ⟨⟨⟨hcolumn, by decide⟩, hoperator⟩, by decide⟩

/-- A test for being different binds its value unless that is the missing one. -/
theorem Sound.notEqualTo {b : Draft} (h : b.Sound) {column : String} (hcolumn : Plain column)
    (v : Value) : b.Emits (b.notEqualTo column v) v.bound := by
  unfold Draft.notEqualTo
  split
  · rename_i hnull
    have hbound : v.bound = [] := if_pos hnull
    rw [hbound]
    exact h.append (plain_append.mpr ⟨hcolumn, by decide⟩)
  · have hoperator : Plain "<>" := by decide
    exact h.compare hcolumn hoperator v false

/-- The keyword of a condition has no at sign. -/
theorem Connective.plain_keyword (connective : Connective) : Plain connective.keyword := by
  cases connective <;> decide

/-- A condition binds what its comparison binds. -/
theorem Sound.condition {b : Draft} (h : b.Sound) (connective : Connective)
    {column operator : String} (hcolumn : Plain column) (hoperator : Plain operator) (v : Value) :
    b.Emits (b.condition connective column operator v) v.bound := by
  have hkeyword := h.append connective.plain_keyword
  exact hkeyword.trans (hkeyword.sound.compare hcolumn hoperator v false)

/-- An assignment binds what its comparison binds, at the front of the list or behind a comma. -/
theorem Sound.set {b : Draft} (h : b.Sound) {column : String} (hcolumn : Plain column) (v : Value) :
    b.Emits (b.set column v) v.bound := by
  have hlead : Plain (if b.clause = .set then "," else "SET") := by
    split <;> decide
  have hfirst := h.append hlead
  exact (hfirst.trans (hfirst.sound.compare hcolumn (by decide) v true)).withClause .set

/-- A sort key binds nothing. -/
theorem Sound.orderBy {b : Draft} (h : b.Sound) {column : String} (hcolumn : Plain column)
    (order : SortOrder) : b.Emits (b.orderBy column order) [] := by
  have hlead : Plain (if b.clause = .orderBy then "," else "ORDER BY") := by
    split <;> decide
  have hkey : Plain (column ++ " " ++ order.keyword) := by
    refine plain_append.mpr ⟨plain_append.mpr ⟨hcolumn, by decide⟩, ?_⟩
    cases order <;> decide
  have hfirst := h.append hlead
  exact (hfirst.trans (hfirst.sound.append hkey)).withClause .orderBy

/-- A new row binds all of its values in the order of its columns. -/
theorem Sound.insertInto {b : Draft} (h : b.Sound) {table : String} {row : List (String × Value)}
    (htable : Plain table) (hcolumns : ∀ column ∈ row.map Prod.fst, Plain column) :
    b.Emits (b.insertInto table row) (row.map fun entry => entry.2.cleared) := by
  have hgrows := h.numbered.addTemps row
  have hreferences := Token.Refers.commas fun r hr => hgrows.isReference hr
  refine h.emit hgrows ((hreferences.prepend ?_).postpend (by decide) ?_)
  · simp only [plain_append]
    exact ⟨⟨⟨⟨by decide, htable⟩, by decide⟩, plain_commas hcolumns⟩, by decide⟩
  · exact Token.Stops.cons rfl _

/-- A list of columns has no at sign when none of its columns has. -/
theorem plain_columnList {columns : List String} (h : ∀ column ∈ columns, Plain column) :
    Plain (columnList columns) := by
  unfold columnList
  split
  · decide
  · exact plain_commas h

/-- A test for words binds one pattern for each word in order. -/
theorem Sound.likeWords {b : Draft} (h : b.Sound) {column : String} (hcolumn : Plain column)
    (words : List (List Char)) :
    b.Emits (b.likeWords column words)
      (words.map fun word => .text (LikeMode.contains.decorate (String.ofList word))) := by
  induction words generalizing b with
  | nil => exact h.emits
  | cons word rest ih =>
    have hword : b.Emits (b.likeWord column word)
        [.text (LikeMode.contains.decorate (String.ofList word))] :=
      h.compare hcolumn (by decide) _ false
    cases rest with
    | nil => exact hword
    | cons next rest =>
      have hkeyword : Plain "AND" := by decide
      have hand := hword.trans (hword.sound.append hkeyword)
      exact hand.trans (ih hand.sound)

/-- A test for a pattern binds the patterns that it seeks. -/
theorem Sound.like {b : Draft} (h : b.Sound) {column : String} (hcolumn : Plain column)
    (pattern : String) (mode : LikeMode) (fullText : Bool) :
    b.Emits (b.like column pattern mode fullText)
      ((mode.sought pattern fullText).map Value.text) := by
  have hoperator : Plain "LIKE" := by decide
  unfold Draft.like LikeMode.sought
  cases fullText with
  | false => exact h.compare hcolumn hoperator (.text _) false
  | true =>
    rw [if_pos rfl, if_pos rfl]
    cases Text.words pattern.toList with
    | nil => exact h.compare hcolumn hoperator (.text "%%") false
    | cons word rest =>
      rw [List.map_map]
      have hopen : b.Emits b.openGroup [] := h.append (by decide)
      have hwords := hopen.trans (hopen.sound.likeWords hcolumn (word :: rest))
      have hparenthesis : Plain ")" := by decide
      have hall := hwords.trans (hwords.sound.append hparenthesis)
      rwa [List.append_nil] at hall

/-- The text of a test for membership in a list of references. -/
def membership (column : String) (references : List String) : String :=
  if references = [] then "1 = 0" else column ++ " IN (" ++ Spacing.commas references ++ ")"

/-- Membership in a list of values is one piece of text behind the parameters of the values. -/
theorem inList_eq (b : Draft) (column : String) (vs : List Value) :
    b.inList column vs =
      { b with parameters := (b.parameters.addTemps (vs.map fun v => (column, v))).1 }.append
        (membership column (b.parameters.addTemps (vs.map fun v => (column, v))).2) := by
  by_cases hnone : (b.parameters.addTemps (vs.map fun v => (column, v))).2 = []
  · rw [membership, if_pos hnone]
    exact if_pos hnone
  · rw [membership, if_neg hnone]
    exact if_neg hnone

/-- A test for membership refers to its references in order. -/
theorem refers_membership {column : String} (hcolumn : Plain column) {references : List String}
    (h : ∀ r ∈ references, Token.IsReference r) :
    Token.Refers (membership column references).toList references := by
  unfold membership
  split
  · rename_i hnone
    rw [hnone]
    exact .plain (by decide)
  · have hprefix : Plain (column ++ " IN (") := plain_append.mpr ⟨hcolumn, by decide⟩
    exact ((Token.Refers.commas h).prepend hprefix).postpend (by decide) (Token.Stops.cons rfl _)

/-- Membership in a list of values binds all of them in order. -/
theorem Sound.inList {b : Draft} (h : b.Sound) {column : String} (hcolumn : Plain column)
    (vs : List Value) : b.Emits (b.inList column vs) (vs.map Value.cleared) := by
  have hgrows := h.numbered.addTemps (vs.map fun v => (column, v))
  rw [List.map_map] at hgrows
  rw [inList_eq]
  exact h.emit hgrows (refers_membership hcolumn fun r hr => hgrows.isReference hr)

/-- Membership in the result of a sound draft whose names are not taken binds what that binds. -/
theorem Sound.inSubquery {b subquery : Draft} (h : b.Sound) {column : String}
    (hcolumn : Plain column) (hsubquery : subquery.Sound)
    (hapart : ∀ name ∈ subquery.parameters.names, name ∉ b.parameters.names) :
    b.Emits (b.inSubquery column subquery) subquery.parameters.values := by
  have hprefix : Plain (column ++ " IN (") := plain_append.mpr ⟨hcolumn, by decide⟩
  have hparenthesis : Plain ")" := by decide
  have hopen := h.append hprefix
  have hmerge := hopen.sound.merge hsubquery hapart
  have hclose := hmerge.sound.append hparenthesis
  have hall := (hopen.trans hmerge).trans hclose
  rwa [List.append_nil] at hall

/-- A range binds its lower and then its upper end. -/
theorem Sound.between {b : Draft} (h : b.Sound) {column : String} (hcolumn : Plain column)
    (low high : Value) : b.Emits (b.between column low high) [low.cleared, high.cleared] := by
  have hlow := h.numbered.addTemp low column
  have hhigh := hlow.numbered.addTemp high column
  have hlowReference := Token.Refers.of_isReference (hlow.isReference (List.mem_singleton_self _))
  have hhighReference := Token.Refers.of_isReference (hhigh.isReference (List.mem_singleton_self _))
  have hprefix : Plain (column ++ " BETWEEN ") := plain_append.mpr ⟨hcolumn, by decide⟩
  have hkeyword : Plain " AND " := by decide
  have hback := hhighReference.prepend hkeyword
  have hboth := hlowReference.append hback (Or.inl ?_)
  · refine h.emit (hlow.trans hhigh) ?_
    rw [← String.toList_append] at hboth
    have hpiece := hboth.prepend hprefix
    rwa [← String.append_assoc, ← String.append_assoc] at hpiece
  · rw [String.toList_append]
    exact Token.Stops.cons rfl _

end Draft

end BoundSql
