import BoundSql.Proofs.Text.Blank
import BoundSql.Statement.Draft

/-!
# Texts that are joined piece by piece

Two texts meet at a space that is put in, at a blank, at a comma, or where one of them is empty. A
reading of texts that cuts at every blank and at every comma therefore reads joined texts as it
reads them apart. If what it gives are texts that begin and end in the manner of those that were
read, then texts can be read before or after they are joined, and before or after they are trimmed.
-/

namespace BoundSql.Spacing

/-- Whether a character needs no space in front of it: a blank, or a comma. -/
def clings (c : Char) : Bool :=
  Text.isBlank c || c == ','

/-- A name that begins with a character that is neither a blank nor a comma. -/
def Firm (name : String) : Prop :=
  ∃ c ∈ name.toList.head?, Text.isBlank c = false ∧ c ≠ ','

/-- Whether a space is needed depends on what the two characters are that would meet. -/
theorem needed_congr {text piece text' piece' : List Char}
    (htext : text.getLast?.map Text.isBlank = text'.getLast?.map Text.isBlank)
    (hpiece : piece.head?.map clings = piece'.head?.map clings) :
    needed text piece = needed text' piece' := by
  have hneeded (text piece : List Char) : needed text piece =
      (text.getLast?.map Text.isBlank).elim false fun last =>
        (piece.head?.map clings).elim false fun first => !(last || first) := by
    unfold needed
    cases text.getLast? with
    | none => rfl
    | some last =>
      cases piece.head? with
      | none => rfl
      | some first => simp only [Option.map_some, Option.elim_some, clings, Bool.or_assoc]
  rw [hneeded, hneeded, htext, hpiece]

/-- Texts that need no space between them meet at an end that is empty, at a blank, or at a
character that clings to what stands before it. -/
theorem meets_of_not_needed {text piece : List Char} (h : needed text piece = false) :
    text = [] ∨ piece = [] ∨
      (∃ front last, text = front ++ [last] ∧ Text.isBlank last = true) ∨
      ∃ first rest, piece = first :: rest ∧ clings first = true := by
  rcases List.eq_nil_or_concat' text with rfl | ⟨front, last, rfl⟩
  · exact .inl rfl
  · cases piece with
    | nil => exact .inr (.inl rfl)
    | cons first rest =>
      have hmeet : (Text.isBlank last || clings first) = true := by
        simp only [needed, List.getLast?_concat, List.head?_cons, Bool.not_eq_false'] at h
        rwa [clings, ← Bool.or_assoc]
      rcases Bool.or_eq_true_iff.mp hmeet with hlast | hfirst
      · exact .inr (.inr (.inl ⟨front, last, rfl, hlast⟩))
      · exact .inr (.inr (.inr ⟨first, rest, rfl, hfirst⟩))

/-! ## Pieces behind one another -/

/-- What stands between a text and the piece behind it is a space or nothing. -/
theorem exists_joined (text piece : String) :
    ∃ gap, joined text piece = text ++ gap ++ piece ∧ (gap = " " ∨ gap = "") := by
  unfold joined
  split
  · exact ⟨" ", rfl, .inl rfl⟩
  · exact ⟨"", by rw [String.append_empty], .inr rfl⟩

/-- What stands behind a text that is not empty has no part in whether a space is needed. -/
theorem joined_append (text : String) {piece : String} (hpiece : piece ≠ "")
    (more : String) : joined text (piece ++ more) = joined text piece ++ more := by
  have hhead : (piece ++ more).toList.head? = piece.toList.head? := by
    cases hcs : piece.toList with
    | nil => exact absurd (String.toList_eq_nil_iff.mp hcs) hpiece
    | cons c cs => rw [String.toList_append, hcs]; rfl
  have hneeded : needed text.toList (piece ++ more).toList = needed text.toList piece.toList := by
    unfold needed
    rw [hhead]
  unfold joined
  rw [hneeded]
  split
  · simp only [String.append_assoc]
  · simp only [String.append_assoc]

/-- A piece that begins with a comma needs no space in front of it. -/
theorem joined_comma (text more : String) : joined text ("," ++ more) = text ++ ("," ++ more) := by
  have hfirst : ("," ++ more).toList.head? = some ',' := by
    rw [String.toList_append]
    rfl
  have hneeded : needed text.toList ("," ++ more).toList = false := by
    rw [needed, hfirst]
    cases text.toList.getLast? <;> simp
  rw [joined, hneeded, if_neg Bool.false_ne_true]

/-- An empty piece changes nothing. -/
theorem joined_empty (text : String) : joined text "" = text := by
  have hneeded : needed text.toList "".toList = false := by
    unfold needed
    cases text.toList.getLast? <;> rfl
  rw [joined, hneeded, if_neg Bool.false_ne_true, String.append_empty]

/-- Nothing needs to be set off from an empty text. -/
theorem empty_joined (piece : String) : joined "" piece = piece :=
  String.empty_append

/-- Pieces can be joined from the front or from the back. -/
theorem joined_assoc (text piece more : String) :
    joined (joined text piece) more = joined text (joined piece more) := by
  by_cases hpiece : piece = ""
  · rw [hpiece, joined_empty, empty_joined]
  · -- The space in front of `more` depends on the end of `piece`, whatever stands before it.
    have hend : (joined text piece).toList.getLast? = piece.toList.getLast? := by
      obtain ⟨gap, hjoined, -⟩ := exists_joined text piece
      have hne : piece.toList ≠ [] := mt String.toList_eq_nil_iff.mp hpiece
      rw [hjoined, String.toList_append, List.getLast?_append_of_ne_nil _ hne]
    have hneeded : needed (joined text piece).toList more.toList =
        needed piece.toList more.toList := by
      rw [needed, needed, hend]
    rw [joined.eq_1 (joined text piece), joined.eq_1 piece, hneeded]
    split
    · rw [String.append_assoc, String.append_assoc, joined_append text hpiece]
    · rw [joined_append text hpiece]

/-- A firm name is set off by a space from a piece that does not end with a blank. -/
theorem joined_joined (text : String) {piece name : String}
    (hpiece : piece.toList.getLast?.map Text.isBlank = some false) (hname : Firm name) :
    joined (joined text piece) name = joined text (piece ++ " " ++ name) := by
  obtain ⟨first, hfirst, hblank, hcomma⟩ := hname
  obtain ⟨last, hlast, hlastBlank⟩ := Option.map_eq_some_iff.mp hpiece
  have hneeded : needed piece.toList name.toList = true := by
    rw [needed, hlast, Option.mem_def.mp hfirst]
    simp only [hlastBlank, hblank, beq_eq_false_iff_ne.mpr hcomma, Bool.or_self, Bool.not_false]
  rw [joined_assoc, joined.eq_1 piece, hneeded, if_pos rfl]

/-- A name is firm by its front. -/
theorem Firm.append {name : String} (h : Firm name) (more : String) : Firm (name ++ more) := by
  obtain ⟨c, hc, hfirm⟩ := h
  refine ⟨c, ?_, hfirm⟩
  rw [Option.mem_def, String.toList_append, List.head?_append, Option.mem_def.mp hc, Option.some_or]

/-- A separator stands between a name and the names behind it. -/
theorem separated_cons (separator name : String) {rest : List String} (h : rest ≠ []) :
    separated separator (name :: rest) = name ++ separator ++ separated separator rest :=
  separated.eq_3 separator name rest h

/-- What holds of the empty text, of every name on its own, and of a name in front of names with
commas for which it holds, holds of names with commas between them. -/
theorem commas_induction {P : List String → String → Prop} {names : List String} (hnil : P [] "")
    (hone : ∀ name ∈ names, P [name] name)
    (hcons : ∀ name ∈ names, ∀ rest text, P rest text →
      P (name :: rest) (name ++ ", " ++ text)) : P names (commas names) := by
  unfold commas
  induction names with
  | nil => exact hnil
  | cons name rest ih =>
    have hrest := ih (fun n hn => hone n (List.mem_cons_of_mem _ hn))
      fun n hn => hcons n (List.mem_cons_of_mem _ hn)
    cases rest with
    | nil => exact hone name List.mem_cons_self
    | cons next rest =>
      rw [separated_cons _ _ (List.cons_ne_nil next rest)]
      exact hcons name List.mem_cons_self _ _ hrest

/-- Names in two lists have a comma between the lists as between neighbours. -/
theorem commas_append {names more : List String} (hnames : names ≠ []) (hmore : more ≠ []) :
    commas (names ++ more) = commas names ++ ", " ++ commas more := by
  unfold commas
  induction names with
  | nil => exact absurd rfl hnames
  | cons name rest ih =>
    rw [List.cons_append, separated_cons _ _ (List.append_ne_nil_of_right_ne_nil rest hmore)]
    by_cases hrest : rest = []
    · rw [hrest]
      rfl
    · rw [ih hrest, separated_cons _ _ hrest]
      simp only [String.append_assoc]

/-! ## What joining leaves -/

/-- A text is the front of what a piece is joined to it. -/
theorem prefix_joined (text piece : String) : text.toList <+: (joined text piece).toList := by
  obtain ⟨gap, hjoined, -⟩ := exists_joined text piece
  refine ⟨gap.toList ++ piece.toList, ?_⟩
  rw [hjoined, String.toList_append, String.toList_append, List.append_assoc]

/-- But for blanks, joining neither adds nor drops a character. -/
theorem solid_joined (text piece : String) :
    Text.solid (joined text piece).toList =
      Text.solid text.toList ++ Text.solid piece.toList := by
  obtain ⟨gap, hjoined, hgap⟩ := exists_joined text piece
  have hblank : Text.solid gap.toList = [] := by
    rcases hgap with rfl | rfl <;> rfl
  rw [hjoined, String.toList_append, String.toList_append, Text.solid_append, Text.solid_append,
    hblank, List.append_nil]

/-- Joining runs no words together unless the piece begins with a comma, and cuts none. -/
theorem words_joined (text : String) {piece : String} (h : piece.toList.head? ≠ some ',') :
    Text.words (joined text piece).toList =
      Text.words text.toList ++ Text.words piece.toList := by
  unfold joined
  split
  · have hspace : Text.isBlank ' ' = true := by decide
    rw [String.toList_append, String.toList_append, List.append_assoc]
    exact Text.words_append_cons hspace _ _
  · rename_i hneeded
    rw [String.toList_append]
    rcases meets_of_not_needed (Bool.eq_false_iff.mpr hneeded) with
      hnil | hnil | ⟨front, last, htext, hlast⟩ | ⟨first, rest, hpiece, hfirst⟩
    · rw [hnil, List.nil_append, Text.words_nil, List.nil_append]
    · rw [hnil, List.append_nil, Text.words_nil, List.append_nil]
    · rw [htext, List.append_assoc, List.singleton_append, Text.words_append_cons hlast,
        Text.words_append_cons hlast, Text.words_nil, List.append_nil]
    · have hcomma : first ≠ ',' := by
        rintro rfl
        exact h (by rw [hpiece]; rfl)
      have hblank : Text.isBlank first = true := by
        simpa [clings, hcomma] using hfirst
      have halone := Text.words_append_cons hblank [] rest
      rw [List.nil_append, Text.words_nil, List.nil_append] at halone
      rw [hpiece, Text.words_append_cons hblank, halone]

/-- Joined texts that have nothing to trim have nothing to trim together. -/
theorem trim_joined {text piece : String} (htext : Text.trim text = text)
    (hpiece : Text.trim piece = piece) : Text.trim (joined text piece) = joined text piece := by
  by_cases htextEmpty : text = ""
  · rw [htextEmpty, empty_joined, hpiece]
  · by_cases hpieceEmpty : piece = ""
    · rw [hpieceEmpty, joined_empty, htext]
    · -- The front is that of the text, and the back is that of the piece.
      have hfront := ((Text.trim_eq_self_iff text).mp htext).1
      have hback := ((Text.trim_eq_self_iff piece).mp hpiece).2
      have htextNe : text.toList ≠ [] := mt String.toList_eq_nil_iff.mp htextEmpty
      have hpieceNe : piece.toList ≠ [] := mt String.toList_eq_nil_iff.mp hpieceEmpty
      obtain ⟨gap, hjoined, -⟩ := exists_joined text piece
      rw [Text.trim_eq_self_iff, hjoined, String.toList_append, String.toList_append]
      constructor
      · rwa [List.append_assoc, List.head?_append_of_ne_nil _ htextNe]
      · rwa [List.getLast?_append_of_ne_nil _ hpieceNe]

/-! ## Texts that meet others alike -/

/-- Two texts that meet what stands around them in the same manner. -/
structure SameEnds (cs ds : List Char) : Prop where
  /-- Both cling at the front, or neither. -/
  clings : cs.head?.map clings = ds.head?.map clings
  /-- Both are blank at the front, or neither. -/
  first : cs.head?.map Text.isBlank = ds.head?.map Text.isBlank
  /-- Both are blank at the back, or neither. -/
  last : cs.getLast?.map Text.isBlank = ds.getLast?.map Text.isBlank

/-- A text that does not cling at the front is not blank there. -/
theorem isBlank_of_not_clings {cs : List Char} (h : cs.head?.map clings = some false) :
    cs.head?.map Text.isBlank = some false := by
  obtain ⟨c, hc, hclings⟩ := Option.map_eq_some_iff.mp h
  rw [hc, Option.map_some, (Bool.or_eq_false_iff.mp hclings).1]

/-- Texts that neither cling at the front nor are blank at the back meet others alike. -/
theorem SameEnds.of_not_clings {cs ds : List Char} (hcs : cs.head?.map Spacing.clings = some false)
    (hds : ds.head?.map Spacing.clings = some false)
    (hlast : cs.getLast?.map Text.isBlank = ds.getLast?.map Text.isBlank) : SameEnds cs ds where
  clings := hcs.trans hds.symm
  first := (isBlank_of_not_clings hcs).trans (isBlank_of_not_clings hds).symm
  last := hlast

/-- Rows of texts meet others alike when the texts do one by one. -/
theorem SameEnds.flatMap {α : Type} {f g : α → List Char} {as : List α}
    (h : ∀ a ∈ as, SameEnds (f a) (g a)) : SameEnds (as.flatMap f) (as.flatMap g) := by
  induction as with
  | nil => exact ⟨rfl, rfl, rfl⟩
  | cons a rest ih =>
    obtain ⟨ha, hrest⟩ := List.forall_mem_cons.mp h
    have hends := ih hrest
    constructor
    · simp only [List.flatMap_cons, List.head?_append, Option.map_or, ha.clings, hends.clings]
    · simp only [List.flatMap_cons, List.head?_append, Option.map_or, ha.first, hends.first]
    · simp only [List.flatMap_cons, List.getLast?_append, Option.map_or, ha.last, hends.last]

/-! ## Readings that cut -/

/-- A reading of texts that cuts at every blank and at every comma: what it gives for one of them is
the same everywhere, and so is what it gives for the text on either side. -/
structure Cuts {α : Type} (g : List Char → List α) (single : Char → List α) : Prop where
  /-- Nothing is read in the empty text. -/
  nil : g [] = []
  /-- A character that clings is read on its own. -/
  append_cons : ∀ {c : Char}, clings c = true →
    ∀ cs ds, g (cs ++ c :: ds) = g cs ++ single c ++ g ds

section Cuts

variable {α β : Type} {g : List Char → List α} {single : Char → List α}

/-- What is read can be worked on piece by piece. -/
theorem Cuts.flatMap (h : Cuts g single) (f : α → List β) :
    Cuts (fun cs => (g cs).flatMap f) fun c => (single c).flatMap f where
  nil := by rw [h.nil, List.flatMap_nil]
  append_cons hc cs ds := by rw [h.append_cons hc, List.flatMap_append, List.flatMap_append]

/-- Texts that need no space between them are read apart. -/
theorem Cuts.append_of_not_needed (h : Cuts g single) {text piece : List Char}
    (hneeded : needed text piece = false) : g (text ++ piece) = g text ++ g piece := by
  rcases meets_of_not_needed hneeded with
    rfl | rfl | ⟨front, last, rfl, hlast⟩ | ⟨first, rest, rfl, hfirst⟩
  · rw [List.nil_append, h.nil, List.nil_append]
  · rw [List.append_nil, h.nil, List.append_nil]
  · have hclings : clings last = true := by rw [clings, hlast, Bool.true_or]
    rw [List.append_assoc, List.singleton_append, h.append_cons hclings,
      h.append_cons hclings, h.nil, List.append_nil]
  · have halone := h.append_cons hfirst [] rest
    rw [List.nil_append, h.nil, List.nil_append] at halone
    rw [h.append_cons hfirst, halone, List.append_assoc]

/-- Joined texts are read apart, and the space between them if there is one. -/
theorem Cuts.joined (h : Cuts g single) (text piece : String) :
    g (joined text piece).toList = g text.toList ++
      (if needed text.toList piece.toList then single ' ' else []) ++ g piece.toList := by
  unfold Spacing.joined
  split
  · have hspace : clings ' ' = true := by decide
    rw [String.toList_append, String.toList_append, List.append_assoc]
    exact h.append_cons hspace _ _
  · rename_i hneeded
    rw [String.toList_append, List.append_nil]
    exact h.append_of_not_needed (Bool.eq_false_iff.mpr hneeded)

end Cuts

/-! ## Readings that rewrite -/

/-- A reading of texts that keeps blanks and commas as they are, and gives texts that meet others as
those that were read. -/
structure Rewrites (g : List Char → List Char) : Prop extends Cuts g (fun c => [c]) where
  /-- What is given begins and ends in the manner of what was read. -/
  sameEnds : ∀ cs, SameEnds (g cs) cs

namespace Rewrites

variable {g : List Char → List Char}

/-- A text that is cut into pieces is rewritten by rewriting piece by piece. -/
theorem of_pieces {α : Type} {pieces : List Char → List α} {plain : Char → α}
    {chars replaced : α → List Char} (hcuts : Cuts pieces fun c => [plain c])
    (hchars : ∀ cs, (pieces cs).flatMap chars = cs) (hplain : ∀ c, replaced (plain c) = [c])
    (hends : ∀ cs, ∀ a ∈ pieces cs, SameEnds (replaced a) (chars a)) :
    Rewrites fun cs => (pieces cs).flatMap replaced where
  nil := (hcuts.flatMap replaced).nil
  append_cons hc cs ds := by
    rw [(hcuts.flatMap replaced).append_cons hc, List.flatMap_singleton, hplain]
  sameEnds cs := by
    have hsame := SameEnds.flatMap (hends cs)
    rwa [hchars] at hsame

/-- Joined texts are rewritten one by one. -/
theorem joined (h : Rewrites g) (text piece : String) :
    String.ofList (g (Spacing.joined text piece).toList) =
      Spacing.joined (String.ofList (g text.toList)) (String.ofList (g piece.toList)) := by
  have hneeded : needed (g text.toList) (g piece.toList) = needed text.toList piece.toList :=
    needed_congr (h.sameEnds _).last (h.sameEnds _).clings
  apply String.toList_injective
  rw [String.toList_ofList, h.toCuts.joined, Spacing.joined, String.toList_ofList,
    String.toList_ofList, hneeded]
  split
  · simp only [String.toList_append, String.toList_ofList]
    rfl
  · simp only [String.toList_append, String.toList_ofList, List.append_nil]

/-- Blanks at the front stay. -/
theorem append_left (h : Rewrites g) {front : List Char}
    (hfront : ∀ c ∈ front, Text.isBlank c = true) (cs : List Char) :
    g (front ++ cs) = front ++ g cs := by
  induction front with
  | nil => rfl
  | cons c rest ih =>
    have hclings : clings c = true := by rw [clings, hfront c List.mem_cons_self, Bool.true_or]
    have hfirst := h.append_cons hclings [] (rest ++ cs)
    rw [List.nil_append, h.nil, List.nil_append] at hfirst
    rw [List.cons_append, hfirst, ih fun d hd => hfront d (List.mem_cons_of_mem c hd)]
    rfl

/-- Blanks at the back stay. -/
theorem append_right (h : Rewrites g) {back : List Char}
    (hback : ∀ c ∈ back, Text.isBlank c = true) (cs : List Char) :
    g (cs ++ back) = g cs ++ back := by
  cases back with
  | nil => rw [List.append_nil, List.append_nil]
  | cons c rest =>
    have hclings : clings c = true := by rw [clings, hback c List.mem_cons_self, Bool.true_or]
    have hrest := h.append_left (fun d hd => hback d (List.mem_cons_of_mem c hd)) []
    rw [List.append_nil, h.nil, List.append_nil] at hrest
    rw [h.append_cons hclings, hrest, List.append_assoc]
    rfl

/-- A text can be trimmed before or after it is rewritten. -/
theorem trimmed (h : Rewrites g) (cs : List Char) : g (Text.trimmed cs) = Text.trimmed (g cs) := by
  obtain ⟨front, back, hcs, hfront, hback⟩ := Text.exists_trimmed cs
  have hkept : Text.trimmed (g (Text.trimmed cs)) = g (Text.trimmed cs) := by
    have hends := h.sameEnds (Text.trimmed cs)
    refine Text.trimmed_of_ends (fun c hc => ?_) fun c hc => ?_
    · have hfirst := hends.first
      rw [hc, Option.map_some] at hfirst
      obtain ⟨d, hd, hsame⟩ := Option.map_eq_some_iff.mp hfirst.symm
      exact hsame.symm.trans (Text.isBlank_of_mem_head?_trimmed d hd)
    · have hlast := hends.last
      rw [hc, Option.map_some] at hlast
      obtain ⟨d, hd, hsame⟩ := Option.map_eq_some_iff.mp hlast.symm
      exact hsame.symm.trans (Text.isBlank_of_mem_getLast?_trimmed d hd)
  conv_rhs => rw [hcs, h.append_right hback, h.append_left hfront]
  rw [Text.trimmed_append_right hback, Text.trimmed_append_left hfront, hkept]

end Rewrites

end BoundSql.Spacing
