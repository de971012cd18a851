import BoundSql.Proofs.Statement.Emission
import BoundSql.Proofs.Statement.Recipe
import BoundSql.Proofs.Statement.Spacing

/-!
# Table prefixes are put in once

A draft with table prefixes puts them into every piece of text as it comes. The same calls without
prefixes give a text into which the prefixes can be put at the end, in one pass, with the same
result. Pieces meet only at a blank, at a comma or at an empty text, so no token arises or breaks
where they meet; and a token, like what takes its place, neither is nor begins with a blank or a
comma, so spaces are put in at the same places.
-/

namespace BoundSql

namespace Prefixes

open Spacing

/-- Prefixes with an owner and a qualifier that begin neither with a blank nor with a comma. -/
structure Firm (p : Prefixes) : Prop where
  /-- There is an owner, and it begins with neither. -/
  owner : Spacing.Firm p.owner
  /-- There is a qualifier, and it begins with neither. -/
  qualifier : Spacing.Firm p.qualifier

/-- No token is written with a character that clings. -/
theorem separates_of_clings {c : Char} (h : clings c = true) : separates c = true := by
  simp only [separates, List.all_eq_true, decide_eq_true_eq]
  intro t _ hc
  have hspelling : t.spelling.all (fun d => !clings d) = true := by
    cases t <;> rfl
  have hnot := List.all_eq_true.mp hspelling c hc
  rw [h] at hnot
  exact Bool.noConfusion hnot

/-- A firm name with a separator behind it begins firmly and ends in the separator. -/
theorem part_of_firm {name : String} (h : Spacing.Firm name) (separator : Char) :
    (part name separator).head?.map clings = some false ∧
      (part name separator).getLast? = some separator := by
  obtain ⟨c, hc, hblank, hcomma⟩ := h
  obtain ⟨rest, hname⟩ := List.head?_eq_some_iff.mp hc
  have hpart : part name separator = c :: (rest ++ [separator]) := by
    unfold part
    have hne : ¬name.isEmpty = true := by
      intro hempty
      rw [String.isEmpty_iff.mp hempty] at hname
      exact nomatch hname
    rw [if_neg hne, hname, List.cons_append]
  rw [hpart]
  refine ⟨?_, ?_⟩
  · simp [clings, hblank, hcomma]
  · rw [← List.cons_append, List.getLast?_concat]

/-- What takes the place of a piece meets what stands around it as the piece does. -/
theorem Firm.sameEnds_replaced {p : Prefixes} (h : p.Firm) (piece : Piece) :
    SameEnds (piece.replaced p) piece.chars := by
  cases piece with
  | plain c => exact ⟨rfl, rfl, rfl⟩
  | token t =>
    have hspelling : t.spelling.head?.map clings = some false ∧
        t.spelling.getLast?.map Text.isBlank = some false := by
      cases t <;> decide
    obtain ⟨hownerHead, hownerLast⟩ := part_of_firm h.owner '.'
    obtain ⟨hqualifierHead, hqualifierLast⟩ := part_of_firm h.qualifier '_'
    rw [Piece.chars, Piece.replaced]
    refine .of_not_clings ?_ hspelling.1 (Eq.trans ?_ hspelling.2.symm)
    · cases t with
      | owner | moduleOwner => exact hownerHead
      | qualifier => exact hqualifierHead
      | moduleQualifier =>
        rw [replacement, List.head?_append, Option.map_or, hqualifierHead]
        rfl
    · cases t with
      | owner | moduleOwner => rw [replacement, hownerLast]; decide
      | qualifier => rw [replacement, hqualifierLast]; decide
      | moduleQualifier =>
        rw [replacement, List.getLast?_append, Option.map_or, hqualifierLast]
        unfold part
        split
        · decide
        · rw [List.getLast?_concat]
          decide

/-- Cutting a text into pieces takes blanks and commas on their own. -/
theorem cuts_pieces : Cuts pieces fun c => [.plain c] where
  nil := by rw [pieces]
  append_cons hc cs ds := by
    rw [pieces_append_cons (separates_of_clings hc), List.append_assoc]
    rfl

/-- Putting in firm names rewrites texts. -/
theorem Firm.rewrites {p : Prefixes} (h : p.Firm) : Rewrites p.substituted := by
  have hpieces : p.substituted = fun cs => (pieces cs).flatMap (Piece.replaced p) :=
    funext p.substituted_eq_flatMap
  rw [hpieces]
  exact .of_pieces cuts_pieces flatMap_chars_pieces (fun _ => rfl)
    fun _ piece _ => h.sameEnds_replaced piece

/-- Joining two texts makes, breaks and drops no token. -/
theorem slots_joined (text piece : String) :
    slots (joined text piece) = slots text ++ slots piece := by
  unfold slots
  rw [cuts_pieces.joined, List.filterMap_append, List.filterMap_append]
  split
  · have hspace : [Piece.plain ' '].filterMap Piece.slot? = [] := rfl
    rw [hspace, List.append_nil]
  · rw [List.filterMap_nil, List.append_nil]

/-- Putting firm names into two texts that are joined is the same as joining them with the names put
in. -/
theorem Firm.substitute_joined {p : Prefixes} (h : p.Firm) (text piece : String) :
    p.substitute (joined text piece) = joined (p.substitute text) (p.substitute piece) :=
  h.rewrites.joined text piece

end Prefixes

namespace Draft

/-- The draft with table prefixes put into its text, as into every piece that comes. -/
def deployed (b : Draft) (p : Prefixes) : Draft :=
  { b with text := p.substitute b.text, prefixes := some p }

/-- A draft without table prefixes, and the same draft with table prefixes put into its text. -/
structure Deploys (p : Prefixes) (b c : Draft) : Prop where
  /-- The one draft has no table prefixes. -/
  bare : b.prefixes = none
  /-- The other one is the same with the table prefixes put in. -/
  eq_deployed : c = b.deployed p

namespace Deploys

variable {p : Prefixes} {b c : Draft}

/-- The empty draft has no text to put prefixes into. -/
theorem empty (supply : Supply) (p : Prefixes) :
    Deploys p (Draft.empty supply none) (Draft.empty supply (some p)) where
  bare := rfl
  eq_deployed := by
    have hnil : p.substitute "" = "" := by
      simp [Prefixes.substitute, Prefixes.substituted]
    have htext : p.substitute (Draft.empty supply none).text = "" := hnil
    rw [deployed, htext]
    rfl

/-- Both drafts may be given the same parameters. -/
theorem withParameters (h : Deploys p b c) (parameters : ParameterSet) :
    Deploys p { b with parameters } { c with parameters } where
  bare := h.bare
  eq_deployed := by rw [h.eq_deployed]; rfl

/-- Both drafts may be said to end in the same clause. -/
theorem withClause (h : Deploys p b c) (clause : Clause) :
    Deploys p { b with clause } { c with clause } where
  bare := h.bare
  eq_deployed := by rw [h.eq_deployed]; rfl

/-- Both drafts have the same parameters. -/
theorem parameters_eq (h : Deploys p b c) : c.parameters = b.parameters := by
  rw [h.eq_deployed]
  rfl

/-- Both drafts end in the same clause. -/
theorem clause_eq (h : Deploys p b c) : c.clause = b.clause := by
  rw [h.eq_deployed]
  rfl

/-- A piece is appended to both drafts, with the prefixes put in on the one side. -/
theorem append (h : Deploys p b c) (hp : p.Firm) (piece : String) :
    Deploys p (b.append piece) (c.append piece) where
  bare := h.bare
  eq_deployed := by
    rw [h.eq_deployed]
    simp only [Draft.append, prefixed, deployed, h.bare, hp.substitute_joined]

/-- A draft is merged into both drafts, with the prefixes put into its text on the one side. -/
theorem merge (h : Deploys p b c) (hp : p.Firm) (other : Draft) :
    Deploys p (b.merge other) (c.merge other) where
  bare := h.bare
  eq_deployed := by
    rw [h.eq_deployed]
    simp only [Draft.merge, prefixed, deployed, h.bare, hp.substitute_joined]

/-- A comparison binds the same parameter on both sides. -/
theorem compare (h : Deploys p b c) (hp : p.Firm) (column operator : String) (v : Value)
    (isAssignment : Bool) :
    Deploys p (b.compare column operator v isAssignment)
      (c.compare column operator v isAssignment) := by
  simp only [Draft.compare, addTemp, h.parameters_eq]
  split
  · exact h.append hp _
  · exact (h.withParameters _).append hp _

/-- An assignment continues the same list on both sides. -/
theorem set (h : Deploys p b c) (hp : p.Firm) (column : String) (v : Value) :
    Deploys p (b.set column v) (c.set column v) := by
  simp only [Draft.set, h.clause_eq]
  exact ((h.append hp _).compare hp column "=" v true).withClause .set

/-- A sort key continues the same list on both sides. -/
theorem orderBy (h : Deploys p b c) (hp : p.Firm) (column : String) (order : SortOrder) :
    Deploys p (b.orderBy column order) (c.orderBy column order) := by
  simp only [Draft.orderBy, h.clause_eq]
  exact ((h.append hp _).append hp _).withClause .orderBy

/-- A new row binds the same parameters on both sides. -/
theorem insertInto (h : Deploys p b c) (hp : p.Firm) (table : String)
    (row : List (String × Value)) :
    Deploys p (b.insertInto table row) (c.insertInto table row) := by
  simp only [Draft.insertInto, addTemps, h.parameters_eq]
  exact (h.withParameters _).append hp _

/-- A test for words binds the same parameters on both sides. -/
theorem likeWords (h : Deploys p b c) (hp : p.Firm) (column : String) (words : List (List Char)) :
    Deploys p (b.likeWords column words) (c.likeWords column words) := by
  induction words generalizing b c with
  | nil => exact h
  | cons word rest ih =>
    have hword : Deploys p (b.likeWord column word) (c.likeWord column word) :=
      h.compare hp column "LIKE" _ false
    cases rest with
    | nil => exact hword
    | cons next rest => exact ih (hword.append hp "AND")

/-- A test for a pattern binds the same parameters on both sides. -/
theorem like (h : Deploys p b c) (hp : p.Firm) (column pattern : String) (mode : LikeMode)
    (fullText : Bool) :
    Deploys p (b.like column pattern mode fullText) (c.like column pattern mode fullText) := by
  unfold Draft.like
  split
  · split
    · exact h.compare hp column "LIKE" _ false
    · exact ((h.append hp "(").likeWords hp column _).append hp ")"
  · exact h.compare hp column "LIKE" _ false

/-- Membership in a list of values binds the same parameters on both sides. -/
theorem inList (h : Deploys p b c) (hp : p.Firm) (column : String) (vs : List Value) :
    Deploys p (b.inList column vs) (c.inList column vs) := by
  rw [inList_eq, inList_eq, h.parameters_eq]
  exact (h.withParameters _).append hp _

/-- Membership in the rows of a subquery merges the subquery into both drafts. -/
theorem inSubquery (h : Deploys p b c) (hp : p.Firm) (column : String) (subquery : Draft) :
    Deploys p (b.inSubquery column subquery) (c.inSubquery column subquery) :=
  ((h.append hp _).merge hp subquery).append hp ")"

/-- A range binds the same parameters on both sides. -/
theorem between (h : Deploys p b c) (hp : p.Firm) (column : String) (low high : Value) :
    Deploys p (b.between column low high) (c.between column low high) := by
  simp only [Draft.between, addTemp, h.parameters_eq]
  exact (h.withParameters _).append hp _

/-- A comparison of any form keeps the two drafts together. -/
theorem comparing (h : Deploys p b c) (hp : p.Firm) (column : String) (comparison : Comparison) :
    Deploys p (b.comparing column comparison) (c.comparing column comparison) := by
  cases comparison with
  | equal v => exact h.compare hp column "=" v false
  | notEqual v =>
    simp only [Draft.comparing, Draft.notEqualTo]
    split
    · exact h.append hp _
    · exact h.compare hp column "<>" v false
  | greaterThan v => exact h.compare hp column ">" v false
  | greaterOrEqual v => exact h.compare hp column ">=" v false
  | lessThan v => exact h.compare hp column "<" v false
  | lessOrEqual v => exact h.compare hp column "<=" v false
  | like pattern mode fullText => exact h.like hp column pattern mode fullText
  | inList vs => exact h.inList hp column vs
  | inSubquery subquery => exact h.inSubquery hp column subquery
  | between low high => exact h.between hp column low high
  | isNull => exact h.append hp _
  | isNotNull => exact h.append hp _

/-- A token of criteria keeps the two drafts together. -/
theorem criteriaToken (h : Deploys p b c) (hp : p.Firm) (token : CriteriaToken) :
    Deploys p (b.criteriaToken token) (c.criteriaToken token) := by
  cases token with
  | openGroup | closeGroup | and | or | literal text => exact h.append hp _
  | field f =>
    simp only [Draft.criteriaToken, Draft.criterion]
    split
    · exact h.comparing hp _ _
    · exact h

/-- Criteria compile into both drafts alike. -/
theorem compile (h : Deploys p b c) (hp : p.Firm) (tokens : List CriteriaToken) :
    Deploys p (tokens.foldl Draft.criteriaToken b) (tokens.foldl Draft.criteriaToken c) := by
  induction tokens generalizing b c with
  | nil => exact h
  | cons token rest ih => exact ih (h.criteriaToken hp token)

/-- A call keeps the two drafts together. -/
theorem call {H : Type} (h : Deploys p b c) (hp : p.Firm) (f : Filling H) (call : Call H) :
    Deploys p (b.call f call) (c.call f call) := by
  cases call with
  | append text | select columns | selectDistinct columns | fromTable table | update table
  | deleteFrom table | innerJoin table | leftJoin table | onColumns left operator right
  | groupBy columns | openGroup | closeGroup => exact h.append hp _
  | compare column operator v isAssignment => exact h.compare hp column operator _ isAssignment
  | insertInto table row => exact h.insertInto hp table _
  | set column v => exact h.set hp column _
  | condition connective column operator v =>
    exact (h.append hp connective.keyword).compare hp column operator _ false
  | rawCondition connective text => exact (h.append hp connective.keyword).append hp text
  | orderBy column order => exact h.orderBy hp column order
  | test column t => exact h.comparing hp column _
  | addNamed name v =>
    simp only [Draft.call, addNamed, h.parameters_eq]
    exact h.withParameters _
  | addTemp v hint =>
    simp only [Draft.call, addTemp, h.parameters_eq]
    exact h.withParameters _

end Deploys

end Draft

namespace Recipe

variable {H : Type}

/-- The same calls on an empty draft with other table prefixes, or with none. Drafts that are
merged, subqueries and criteria stay as they are. -/
def withPrefixes (prefixes : Option Prefixes) : Recipe H → Recipe H
  | empty supply _ => empty supply prefixes
  | call r c => call (r.withPrefixes prefixes) c
  | merge r other => merge (r.withPrefixes prefixes) other
  | inSubquery r column subquery => inSubquery (r.withPrefixes prefixes) column subquery
  | compile r criteria => compile (r.withPrefixes prefixes) criteria

/-- The same calls with and without table prefixes build two drafts of which the one is the other
with the prefixes put in. -/
theorem deploys (f : Filling H) {p : Prefixes} (hp : p.Firm) : (r : Recipe H) →
    Draft.Deploys p ((r.withPrefixes none).draft f) ((r.withPrefixes (some p)).draft f)
  | .empty supply _ => .empty supply p
  | .call r c => (r.deploys f hp).call hp f c
  | .merge r other => (r.deploys f hp).merge hp (other.draft f)
  | .inSubquery r column subquery => (r.deploys f hp).inSubquery hp column (subquery.draft f)
  | .compile r criteria => (r.deploys f hp).compile hp (criteria.criteria f).tokens

/-- Calls on a draft with firm table prefixes give the text that the same calls give without
prefixes, with the prefixes put in once at the end, and the same parameters. The tokens in the text
without prefixes are those of the pieces: a piece that is appended, or a draft that is merged,
brings in its own tokens and leaves the others as they are. -/
theorem text_withPrefixes (f : Filling H) {p : Prefixes} (hp : p.Firm) (r : Recipe H) :
    let bare := (r.withPrefixes none).draft f
    let deployed := (r.withPrefixes (some p)).draft f
    deployed.text = p.substitute bare.text ∧ deployed.parameters = bare.parameters ∧
      (∀ piece, Prefixes.slots (bare.append piece).text =
        Prefixes.slots bare.text ++ Prefixes.slots piece) ∧
      ∀ other : Draft, Prefixes.slots (bare.merge other).text =
        Prefixes.slots bare.text ++ Prefixes.slots (Text.trim other.text) := by
  intro bare deployed
  have hdeploys : Draft.Deploys p bare deployed := r.deploys f hp
  have hpiece (piece : String) : bare.prefixed piece = piece := by
    rw [Draft.prefixed, hdeploys.bare]
  refine ⟨?_, hdeploys.parameters_eq, ?_, ?_⟩
  · rw [hdeploys.eq_deployed]
    rfl
  · intro piece
    rw [Draft.append, hpiece]
    exact Prefixes.slots_joined bare.text piece
  · intro other
    rw [Draft.merge, hpiece]
    exact Prefixes.slots_joined bare.text (Text.trim other.text)

/-- A token in further braces, half a token, and its other half from a draft that is merged. -/
def braces : Recipe Bool :=
  let opened := .call (.empty (.series 1) none)
    (.append "FROM \x7b\x7b\x7bowner\x7d\x7d\x7dA, \x7bown")
  let closed := .call (.empty (.series 2) none) (.append " er\x7dB ")
  .call (.merge opened closed) (.condition .first "\x7b\x7bqualifier\x7d\x7dId" "=" false)

/-- Prefixes whose owner is itself written like a token. -/
def nested : Prefixes :=
  ⟨"\x7bowner\x7d", "app", "sales"⟩

/-- An owner that is itself written like a token is put in once. -/
theorem text_withPrefixes_braces :
    nested.Firm ∧ ((braces.withPrefixes (some nested)).draft .sample).text =
      nested.substitute ((braces.withPrefixes none).draft .sample).text := by
  have hfirm : nested.Firm :=
    ⟨⟨'\x7b', by decide, by decide, by decide⟩, ⟨'a', by decide, by decide, by decide⟩⟩
  exact ⟨hfirm, (text_withPrefixes .sample hfirm braces).1⟩

end Recipe

end BoundSql
