import BoundSql.Proofs.Literal
import BoundSql.Proofs.Number.Figure
import BoundSql.Proofs.Statement.Binding
import BoundSql.Proofs.Statement.Closure
import BoundSql.Proofs.Statement.Spacing

/-!
# Texts with their parameters written out

A draft can be shown with the literals of its parameters in the places of their names. Every literal
begins and ends in a character that joining and trimming treat as they treat the ends of a name, so
drafts can be shown before or after they are merged, trimmed or wrapped into a page. Literals are
written as they are, whatever names they contain, and a name is never taken for a longer one.
-/

namespace BoundSql

/-! ## Replacing tokens -/

/-- A text that can stand in the place of a name: it begins with neither a blank nor a comma, and
does not end with a blank. -/
structure Spacing.Upright (cs : List Char) : Prop where
  /-- It begins with neither a blank nor a comma. -/
  first : cs.head?.map clings = some false
  /-- It does not end with a blank. -/
  last : cs.getLast?.map Text.isBlank = some false

namespace Token

/-- A character that clings is never part of a token. -/
theorem isWord_of_clings {c : Char} (h : Spacing.clings c = true) : isWord c = false := by
  by_contra hword
  have hstop := isStop_of_isWord (Bool.eq_true_of_not_eq_false hword)
  rw [isStop, ← Spacing.clings, h, Bool.true_or] at hstop
  exact Bool.noConfusion hstop

/-- Texts are cut into tokens and characters at every blank and at every comma. -/
theorem cuts_pieces : Spacing.Cuts pieces fun c => [.plain c] where
  nil := by rw [pieces]
  append_cons hc cs ds := by
    have hat : ∀ c, Spacing.clings c = true → c ≠ '@' := by
      rintro c h rfl
      exact absurd h (by decide)
    rw [pieces_append_cons (isWord_of_clings hc) (hat _ hc), List.append_assoc,
      List.singleton_append]

/-- A token that a text is cut into begins with its at sign and ends in one of its characters. -/
theorem upright_chars {cs word : List Char} (h : .token word ∈ pieces cs) :
    Spacing.Upright (Piece.token word).chars := by
  obtain ⟨hne, hword⟩ := isWord_of_mem_pieces h
  obtain ⟨init, last, rfl⟩ := (List.eq_nil_or_concat' word).resolve_left hne
  have hend : (Piece.token (init ++ [last])).chars.getLast? = some last := by
    rw [Piece.chars, ← List.cons_append, List.getLast?_concat]
  refine ⟨rfl, ?_⟩
  rw [hend, Option.map_some, isBlank_of_isWord (hword last (by simp))]

variable {find : String → Option String}

/-- Texts that can stand in the place of names are put in without a change to blanks, commas and
ends. -/
theorem rewrites_replaced (h : ∀ name, ∀ found ∈ find name, Spacing.Upright found.toList) :
    Spacing.Rewrites fun cs => (pieces cs).flatMap (Piece.replaced find) := by
  refine .of_pieces cuts_pieces flatMap_chars_pieces (fun _ => rfl) fun cs p hp => ?_
  unfold Piece.replaced
  split
  · rename_i found hfound
    cases p with
    | plain c => exact nomatch hfound
    | token word =>
      have hnew := h _ found hfound
      have hold := upright_chars hp
      exact .of_not_clings hnew.first hold.first (hnew.last.trans hold.last.symm)
  · exact ⟨rfl, rfl, rfl⟩

/-- Texts are joined before or after their tokens are replaced. -/
theorem replace_joined (h : ∀ name, ∀ found ∈ find name, Spacing.Upright found.toList)
    (s t : String) :
    replace find (Spacing.joined s t) = Spacing.joined (replace find s) (replace find t) :=
  (rewrites_replaced h).joined s t

/-- Texts are trimmed before or after their tokens are replaced. -/
theorem replace_trim (h : ∀ name, ∀ found ∈ find name, Spacing.Upright found.toList)
    (s : String) : replace find (Text.trim s) = Text.trim (replace find s) := by
  have htrimmed := (rewrites_replaced h).trimmed s.toList
  rw [replace, Text.toList_trim, htrimmed, Text.trim, replace, String.toList_ofList]

/-- Tokens are replaced apart in two texts of which the first does not run on into the second. -/
theorem replace_append (find : String → Option String) (s : String) {t : String}
    (h : Halts t.toList) : replace find (s ++ t) = replace find s ++ replace find t := by
  unfold replace
  rw [String.toList_append, pieces_append_of_halts _ h, List.flatMap_append, String.ofList_append]

/-- A text without at signs stays, in front of any other. -/
theorem replace_plain_append (find : String → Option String) {s : String} (h : Plain s)
    (t : String) : replace find (s ++ t) = s ++ replace find t := by
  have hkept : (s.toList.map Piece.plain).flatMap (Piece.replaced find) = s.toList := by
    rw [List.flatMap_map]
    exact List.flatMap_singleton' _
  unfold replace
  rw [String.toList_append, pieces_append_of_not_mem h, List.flatMap_append, hkept,
    String.ofList_append, String.ofList_toList]

/-- A text without at signs stays. -/
theorem replace_of_plain (find : String → Option String) {s : String} (h : Plain s) :
    replace find s = s := by
  have hkept := replace_plain_append find h ""
  have hnil : replace find "" = "" := by
    rw [replace, String.toList_empty, pieces]
    rfl
  rwa [hnil, String.append_empty] at hkept

/-- A token is replaced, or stays when nothing is found for it, whatever stands in front of it and
behind it. -/
theorem replace_reference (find : String → Option String) {name : String} (h : IsReference name)
    (front : String) {rest : String} (hrest : Halts rest.toList) :
    replace find (front ++ name ++ rest) =
      replace find front ++ (find name).getD name ++ replace find rest := by
  obtain ⟨word, hne, hword, rfl⟩ := h
  have hat : Halts (String.ofList ('@' :: word) ++ rest).toList := by
    rw [String.toList_append, String.toList_ofList]
    exact fun c hc => Option.some.inj hc ▸ by decide
  have htoken : replace find (String.ofList ('@' :: word) ++ rest) =
      (find (String.ofList ('@' :: word))).getD (String.ofList ('@' :: word)) ++
        replace find rest := by
    rw [replace, String.toList_append, String.toList_ofList, List.cons_append,
      pieces_token hne hword hrest, List.flatMap_cons, String.ofList_append, replace]
    congr 1
    unfold Piece.replaced
    simp only [Piece.name?, Option.bind_some]
    cases find (String.ofList ('@' :: word)) with
    | none => rfl
    | some found => exact String.ofList_toList
  rw [String.append_assoc, replace_append find front hat, htoken, String.append_assoc]

/-- What is found for a name matters only where the name is a token of the text. -/
theorem replace_congr {find find' : String → Option String} {s : String}
    (h : ∀ name ∈ names s, find name = find' name) : replace find s = replace find' s := by
  unfold replace
  congr 1
  refine List.flatMap_congr fun p hp => ?_
  unfold Piece.replaced
  cases hname : p.name? with
  | none => rfl
  | some name =>
    have hmem : name ∈ names s := List.mem_filterMap.mpr ⟨p, hp, hname⟩
    simp only [Option.bind_some, h name hmem]

end Token

/-! ## Literals in the places of names -/

/-- What is written as a number can stand in the place of a name. -/
theorem Numeral.Figures.upright {cs : List Char} (h : Figures cs) (hne : cs ≠ []) :
    Spacing.Upright cs := by
  have hfigure {c : Char} (hc : isFigure c = true) : Spacing.clings c = false := by
    have hcomma : c ≠ ',' := by
      rintro rfl
      exact absurd hc (by decide)
    rw [Spacing.clings, isBlank_of_isFigure hc, Bool.false_or, beq_eq_false_iff_ne]
    exact hcomma
  constructor
  · rw [List.head?_eq_some_head hne, Option.map_some, hfigure (h _ (List.head_mem hne))]
  · rw [List.getLast?_eq_some_getLast hne, Option.map_some,
      isBlank_of_isFigure (h _ (List.getLast_mem hne))]

/-- Every literal can stand in the place of a name. -/
theorem Value.upright_literal (v : Value) : Spacing.Upright v.literal.toList := by
  have hquoted (h : v.isQuoted = true) : Spacing.Upright v.literal.toList := by
    rw [toList_literal h, Quoted.literal]
    refine ⟨rfl, ?_⟩
    rw [← List.cons_append, List.getLast?_concat]
    rfl
  cases v with
  | null => exact ⟨by decide, by decide⟩
  | bool b => cases b <;> exact ⟨by decide, by decide⟩
  | int n =>
    rw [literal, shown, String.toList_ofList]
    exact (Numeral.figures_signed _).upright (Numeral.signed_ne_nil _)
  | float x =>
    rw [literal, shown, String.toList_ofList]
    exact x.figures_text.upright x.text_ne_nil
  | decimal d =>
    rw [literal, shown, String.toList_ofList]
    exact d.figures_text.upright d.text_ne_nil
  | blob bytes =>
    rw [toList_literal_blob]
    refine ⟨rfl, ?_⟩
    rw [← List.cons_append, ← List.cons_append, List.getLast?_concat]
    rfl
  | text | date | dateTime | dateTimeOffset | guid => exact hquoted rfl

/-- What is written in the place of a name is a literal. -/
theorem upright_of_mem_literal? (parameters : List Parameter) (name : String) :
    ∀ found ∈ literal? parameters name, Spacing.Upright found.toList := by
  intro found hfound
  obtain ⟨p, -, rfl⟩ := Option.map_eq_some_iff.mp hfound
  exact p.value.upright_literal

/-- In a set that takes in another one, a name stands for the literal that it stood for, or else for
the one that it stood for in the set that was taken in. -/
theorem ParameterSet.WellNamed.literal?_extend (s : ParameterSet) {other : ParameterSet}
    (h : other.WellNamed) (name : String) :
    literal? (s.extend other).entries name =
      (literal? s.entries name).or (literal? other.entries name) := by
  have hfind := h.find?_extend s name
  simp only [ParameterSet.find?] at hfind
  simp only [literal?, hfind, Option.map_or]

/-- A name that is not in a set stands for no literal. -/
theorem literal?_eq_none {s : ParameterSet} {name : String} (h : name ∉ s.names) :
    literal? s.entries name = none := by
  rw [literal?, Option.map_eq_none_iff, List.find?_eq_none]
  intro p hp hsame
  exact h (beq_iff_eq.mp hsame ▸ List.mem_map_of_mem hp)

/-! ## Drafts with their parameters written out -/

namespace Draft

/-- A draft that is merged can be shown before or after, unless a text has a token that names a
parameter of the other draft. -/
theorem debugText_merge {a b : Draft} (hprefixes : a.prefixes = none)
    (hnamed : b.parameters.WellNamed)
    (ha : ∀ name ∈ Token.names a.text, name ∉ b.parameters.names)
    (hb : ∀ name ∈ Token.names b.text, name ∉ a.parameters.names) :
    (a.merge b).debugText = Spacing.joined a.debugText (Text.trim b.debugText) := by
  have hupright := upright_of_mem_literal? (a.merge b).parameters.entries
  have hfound (name : String) : literal? (a.merge b).parameters.entries name =
      (literal? a.parameters.entries name).or (literal? b.parameters.entries name) :=
    hnamed.literal?_extend a.parameters name
  have htext : (a.merge b).text = Spacing.joined a.text (Text.trim b.text) := by
    rw [merge, prefixed_of_none hprefixes]
  -- Only names that are tokens of a text matter to it, and these are found in one draft alone.
  have hleft : inlined a.text (a.merge b).parameters.entries = a.debugText := by
    refine Token.replace_congr fun name hname => ?_
    rw [hfound, literal?_eq_none (ha name hname), Option.or_none]
  have hright : inlined b.text (a.merge b).parameters.entries = b.debugText := by
    refine Token.replace_congr fun name hname => ?_
    rw [hfound, literal?_eq_none (hb name hname), Option.none_or]
  calc (a.merge b).debugText
      = inlined (Spacing.joined a.text (Text.trim b.text)) (a.merge b).parameters.entries := by
        rw [debugText, htext]
    _ = Spacing.joined (inlined a.text (a.merge b).parameters.entries)
          (Text.trim (inlined b.text (a.merge b).parameters.entries)) := by
        rw [inlined, Token.replace_joined hupright, Token.replace_trim hupright]
        rfl
    _ = Spacing.joined a.debugText (Text.trim b.debugText) := by rw [hleft, hright]

/-- A finished statement can be shown before or after it is trimmed. -/
theorem debugText_finish (b : Draft) : b.finish.debugText = Text.trim b.debugText :=
  Token.replace_trim (upright_of_mem_literal? _) b.text

/-- A draft can be shown before or after it is framed as a page. -/
theorem debugText_wrap (b : Draft) (page : Page) :
    (page.wrap b).debugText = page.frame (Text.trim b.debugText) := by
  obtain ⟨tail, hplain, hstops, hframe⟩ := page.exists_frame
  have hfront : Plain "SELECT * FROM ( " := by decide
  rw [Statement.debugText, page.sql_wrap, hframe, hframe, inlined,
    Token.replace_append _ _ hstops.halts, Token.replace_plain_append _ hfront,
    Token.replace_of_plain _ hplain, Token.replace_trim (upright_of_mem_literal? _)]
  rfl

/-- The parameters of a draft are written out one token at a time: the literal of a parameter stands
in the place of its name, and every other token stays, longer and shorter ones included. What
stands in front of the token and behind it is written out as if it stood alone, so nothing that was
put in is looked at again. -/
structure WritesOut (b : Draft) : Prop where
  /-- The literal of a parameter is put in as it is. -/
  parameter : ∀ p ∈ b.parameters.entries, ∀ front rest, Token.Halts rest.toList →
    inlined (front ++ p.name ++ rest) b.parameters.entries =
      inlined front b.parameters.entries ++ p.value.literal ++ inlined rest b.parameters.entries
  /-- A token that names no parameter stays. -/
  other : ∀ name, Token.IsReference name → name ∉ b.parameters.names →
    ∀ front rest, Token.Halts rest.toList →
      inlined (front ++ name ++ rest) b.parameters.entries =
        inlined front b.parameters.entries ++ name ++ inlined rest b.parameters.entries

/-- A draft whose parameters have different tokens as names writes them out one at a time. -/
theorem writesOut {b : Draft} (h : b.parameters.WellNamed) : b.WritesOut := by
  constructor
  · intro p hp front rest hrest
    have hname := h.isReference p.name (List.mem_map_of_mem hp)
    have hfound : literal? b.parameters.entries p.name = some p.value.literal :=
      congrArg (Option.map fun q : Parameter => q.value.literal)
        (h.find?_eq_some_iff.mpr ⟨hp, rfl⟩)
    rw [inlined, Token.replace_reference _ hname front hrest, hfound]
    rfl
  · intro name hname hother front rest hrest
    rw [inlined, Token.replace_reference _ hname front hrest, literal?_eq_none hother]
    rfl

end Draft

/-- Showing a draft with its parameters written out goes with every way to compose drafts. Merging
another draft into one without table prefixes gives what is shown of the one with what is shown of
the other behind it, trimmed and set off as pieces are, unless one of the texts has a token that
names a parameter of the other draft. Of a finished statement the trimmed text is shown, and of a
page the frame of the page around the trimmed text. Each parameter is written as its literal,
whatever the literal holds and whatever other names begin with its name. -/
theorem Recipe.debugText_composes {H : Type} (f : Filling H) (r : Recipe H) :
    (∀ s : Recipe H, (r.draft f).prefixes = none →
      (∀ name ∈ Token.names (r.draft f).text, name ∉ (s.draft f).parameters.names) →
      (∀ name ∈ Token.names (s.draft f).text, name ∉ (r.draft f).parameters.names) →
      ((r.draft f).merge (s.draft f)).debugText =
        Spacing.joined (r.draft f).debugText (Text.trim (s.draft f).debugText)) ∧
      (r.draft f).finish.debugText = Text.trim (r.draft f).debugText ∧
      (∀ page : Page, (page.wrap (r.draft f)).debugText =
        page.frame (Text.trim (r.draft f).debugText)) ∧
      (r.draft f).WritesOut := by
  refine ⟨fun s hprefixes hr hs => ?_, ?_, fun page => ?_, ?_⟩
  · exact Draft.debugText_merge hprefixes (s.wellNamed f) hr hs
  · exact (r.draft f).debugText_finish
  · exact (r.draft f).debugText_wrap page
  · exact Draft.writesOut (r.wellNamed f)

/-- Texts that hold names. -/
def Filling.naming : Filling Bool where
  value quoting := .text (if quoting then "it's @p1 @q" else "@p")
  pattern _ := "@p"
  phrase _ := "@p1 @q"

/-- A name with which another one begins, and a text with both names. -/
def Recipe.named : Recipe Bool :=
  let bound := .call (.call (.empty (.series 1) none) (.addNamed "p" true)) (.addNamed "p1" false)
  .call bound (.append "a = @p AND b = @p1 ")

/-- A third name, and a text with blanks at both ends. -/
def Recipe.renamed : Recipe Bool :=
  .call (.call (.empty (.series 2) none) (.addNamed "q" false)) (.append " AND c = @q ")

/-- Names in values stay as they are when the two drafts are merged and shown. -/
theorem Recipe.debugText_composes_named :
    ((named.draft .naming).prefixes = none ∧
      (∀ name ∈ Token.names (named.draft .naming).text,
        name ∉ (renamed.draft .naming).parameters.names) ∧
      (∀ name ∈ Token.names (renamed.draft .naming).text,
        name ∉ (named.draft .naming).parameters.names)) ∧
      ((named.draft .naming).merge (renamed.draft .naming)).debugText =
        "a = 'it''s @p1 @q' AND b = '@p' AND c = '@p'" := by
  have hprefixes : (named.draft .naming).prefixes = none := rfl
  have hnamed : ∀ name ∈ Token.names (named.draft .naming).text,
      name ∉ (renamed.draft .naming).parameters.names := by decide +kernel
  have hrenamed : ∀ name ∈ Token.names (renamed.draft .naming).text,
      name ∉ (named.draft .naming).parameters.names := by decide +kernel
  have hmerge := (debugText_composes .naming named).1 renamed hprefixes hnamed hrenamed
  have hshown : Spacing.joined (named.draft .naming).debugText
      (Text.trim (renamed.draft .naming).debugText) =
        "a = 'it''s @p1 @q' AND b = '@p' AND c = '@p'" := by decide +kernel
  exact ⟨⟨hprefixes, hnamed, hrenamed⟩, hmerge.trans hshown⟩

end BoundSql
