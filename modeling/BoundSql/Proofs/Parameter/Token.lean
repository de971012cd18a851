import BoundSql.Parameter.Token
import BoundSql.Proofs.Text.Blank
import Mathlib.Data.List.Induction
import Mathlib.Data.List.TakeWhile

/-!
# Texts that refer to parameters

A text refers to a row of names when its at signs open the tokens of exactly these names, from left
to right, and each token is followed by a blank, a comma, a closing parenthesis or the end of the
text. Such texts can be joined, trimmed and filled with table prefixes without a token being made,
lost or lengthened, because none of these touches the inside of a token or the character behind it.
-/

namespace BoundSql.Token

/-- The characters that may follow a token. -/
def isStop (c : Char) : Bool :=
  Text.isBlank c || c == ',' || c == ')'

/-- Nothing, or a text that begins with a character that may follow a token. -/
def Stops (cs : List Char) : Prop :=
  ∀ c ∈ cs.head?, isStop c = true

/-- A text whose tokens are the given names from left to right, none of them touched by what
follows it. -/
inductive Refers : List Char → List String → Prop where
  /-- A text without at signs refers to nothing. -/
  | plain {cs : List Char} (h : '@' ∉ cs) : Refers cs []
  /-- The first token stands behind a text without at signs. -/
  | token {cs word rest : List Char} {names : List String} (hplain : '@' ∉ cs)
      (hne : word ≠ []) (hword : ∀ c ∈ word, isWord c = true) (hstops : Stops rest)
      (hrest : Refers rest names) :
      Refers (cs ++ '@' :: (word ++ rest)) (String.ofList ('@' :: word) :: names)

/-- A name that is a token from end to end. -/
def IsReference (name : String) : Prop :=
  ∃ word : List Char, word ≠ [] ∧ (∀ c ∈ word, isWord c = true) ∧
    name = String.ofList ('@' :: word)

/-- The code points of the characters of a token. -/
theorem toNat_of_isWord {c : Char} (h : isWord c = true) :
    (65 ≤ c.toNat ∧ c.toNat ≤ 90) ∨ (97 ≤ c.toNat ∧ c.toNat ≤ 122) ∨
      (48 ≤ c.toNat ∧ c.toNat ≤ 57) ∨ c.toNat = 95 := by
  simp only [isWord, Bool.or_eq_true, Bool.and_eq_true, decide_eq_true_eq, beq_iff_eq,
    Char.le_def, UInt32.le_iff_toNat_le] at h
  rcases h with ((h | h) | h) | rfl
  · exact Or.inl h
  · exact Or.inr (Or.inl h)
  · exact Or.inr (Or.inr (Or.inl h))
  · exact Or.inr (Or.inr (Or.inr rfl))

/-- No character of a token is blank. -/
theorem isBlank_of_isWord {c : Char} (h : isWord c = true) : Text.isBlank c = false := by
  have hrange := toNat_of_isWord h
  simp only [Text.isBlank, Bool.or_eq_false_iff, Bool.and_eq_false_iff, decide_eq_false_iff_not,
    beq_eq_false_iff_ne]
  omega

/-- No character of a token may follow one. -/
theorem isStop_of_isWord {c : Char} (h : isWord c = true) : isStop c = false := by
  have hcomma : c ≠ ',' := by rintro rfl; exact absurd h (by decide)
  have hparen : c ≠ ')' := by rintro rfl; exact absurd h (by decide)
  simp [isStop, isBlank_of_isWord h, hcomma, hparen]

/-- A blank may follow a token. -/
theorem isStop_of_isBlank {c : Char} (h : Text.isBlank c = true) : isStop c = true := by
  simp [isStop, h]

/-- A text that begins with a character that may follow a token. -/
theorem Stops.cons {c : Char} (h : isStop c = true) (cs : List Char) : Stops (c :: cs) := by
  intro d hd
  rw [← Option.some.inj hd]
  exact h

/-- A text begins as its front does, unless the front is empty. -/
theorem Stops.append {cs : List Char} (h : Stops cs) {ds : List Char}
    (hnil : cs = [] → Stops ds) : Stops (cs ++ ds) := by
  cases cs with
  | nil => exact hnil rfl
  | cons c rest => exact h

/-- What is left of a text that stops a token stops it as well. -/
theorem Stops.of_append {cs ds : List Char} (h : Stops (cs ++ ds)) : Stops cs := by
  cases cs with
  | nil => exact fun _ hc => nomatch hc
  | cons c rest => exact h

namespace Refers

/-- The last character of a token and what follows it is the last one of the whole text. -/
theorem getLast?_at (cs : List Char) {ds : List Char} (hne : ds ≠ []) :
    (cs ++ '@' :: ds).getLast? = ds.getLast? := by
  obtain ⟨init, c, rfl⟩ := (List.eq_nil_or_concat' ds).resolve_left hne
  simp [List.getLast?_append, List.getLast?_cons]

/-- Text without at signs may stand in front. -/
theorem plain_append {cs ds : List Char} {names : List String} (hplain : '@' ∉ cs)
    (h : Refers ds names) : Refers (cs ++ ds) names := by
  cases h with
  | plain hds => exact plain (by simp [hplain, hds])
  | token hcs hne hword hstops hrest =>
    rw [← List.append_assoc]
    exact token (by simp [hplain, hcs]) hne hword hstops hrest

/-- A text can be followed by another one that stops its last token, or when it ends in a character
that no token ends in. -/
theorem append {cs ds : List Char} {names others : List String} (h : Refers cs names)
    (hds : Refers ds others) (hseam : Stops ds ∨ ∀ c ∈ cs.getLast?, isStop c = true) :
    Refers (cs ++ ds) (names ++ others) := by
  induction h with
  | plain hplain => exact hds.plain_append hplain
  | @token cs word rest names hplain hne hword hstops hrest ih =>
    rw [List.append_assoc, List.cons_append, List.append_assoc, List.cons_append]
    rcases List.eq_nil_or_concat' rest with rfl | ⟨front, last, rfl⟩
    · -- The text ends inside its last token, so only what follows can stop it.
      have hds' : Stops ds := by
        refine hseam.resolve_right fun hlast => ?_
        obtain ⟨init, c, rfl⟩ := (List.eq_nil_or_concat' word).resolve_left hne
        rw [List.append_nil, getLast?_at _ hne] at hlast
        have hstop : isStop c = true := hlast c (by simp)
        rw [isStop_of_isWord (hword c (by simp))] at hstop
        exact Bool.noConfusion hstop
      exact token hplain hne hword hds' (ih (Or.inl hds'))
    · refine token hplain hne hword (hstops.append (by simp)) (ih ?_)
      refine hseam.imp_right fun hlast c hc => hlast c ?_
      rw [getLast?_at _ (by simp)]
      simpa using hc

/-- A token that is not touched by what follows it may be followed by text without at signs. -/
theorem append_plain {cs ds : List Char} {names : List String} (h : Refers cs names)
    (hplain : '@' ∉ ds) (hstops : Stops ds) : Refers (cs ++ ds) names := by
  have happend := h.append (plain hplain) (Or.inl hstops)
  rwa [List.append_nil] at happend

/-- A token on its own refers to its name. -/
theorem of_isReference {name : String} (h : IsReference name) : Refers name.toList [name] := by
  obtain ⟨word, hne, hword, rfl⟩ := h
  have htoken := @token [] word [] [] List.not_mem_nil hne hword (fun _ hc => nomatch hc)
    (plain List.not_mem_nil)
  simpa using htoken

/-- Dropping the blanks at the front leaves every token in place. -/
theorem trimStart {cs : List Char} {names : List String} (h : Refers cs names) :
    Refers (Text.trimStart cs) names := by
  have hsub (cs : List Char) (hplain : '@' ∉ cs) : '@' ∉ cs.dropWhile Text.isBlank :=
    fun hmem => hplain ((List.dropWhile_sublist _).subset hmem)
  cases h with
  | plain hplain => exact plain (hsub _ hplain)
  | @token cs word rest names hplain hne hword hstops hrest =>
    have hat : ('@' :: (word ++ rest)).dropWhile Text.isBlank = '@' :: (word ++ rest) :=
      List.dropWhile_cons_of_neg (by decide)
    rw [Text.trimStart, List.dropWhile_append, hat]
    split
    · exact @token [] word rest names List.not_mem_nil hne hword hstops hrest
    · exact token (hsub _ hplain) hne hword hstops hrest

/-- A blank at the back can be dropped. -/
theorem of_concat {cs : List Char} {c : Char} (hc : Text.isBlank c = true) {names : List String}
    (h : Refers (cs ++ [c]) names) : Refers cs names := by
  generalize hx : cs ++ [c] = xs at h
  induction h generalizing cs with
  | plain hplain =>
    subst hx
    exact plain fun hmem => hplain (List.mem_append_left _ hmem)
  | @token front word rest names hplain hne hword hstops hrest ih =>
    rcases List.eq_nil_or_concat' rest with rfl | ⟨init, last, rfl⟩
    · obtain ⟨init, last, rfl⟩ := (List.eq_nil_or_concat' word).resolve_left hne
      have hlast : some c = some last := by
        simpa [getLast?_at _ hne] using congrArg List.getLast? hx
      have hblank := isBlank_of_isWord (hword last (by simp))
      rw [← Option.some.inj hlast, hc] at hblank
      exact Bool.noConfusion hblank
    · rw [← List.append_assoc word, ← List.cons_append, ← List.append_assoc] at hx
      obtain ⟨rfl, rfl⟩ := List.append_inj' hx rfl |>.imp id List.singleton_inj.mp
      exact token hplain hne hword hstops.of_append (ih rfl)

/-- Dropping the blanks at the back leaves every token in place. -/
theorem trimEnd {cs : List Char} {names : List String} (h : Refers cs names) :
    Refers (Text.trimEnd cs) names := by
  induction cs using List.reverseRecOn with
  | nil => exact h
  | append_singleton cs c ih =>
    cases hc : Text.isBlank c with
    | true => rw [Text.trimEnd_concat_of_isBlank hc]; exact ih (h.of_concat hc)
    | false => rw [Text.trimEnd_concat_of_not_isBlank hc]; exact h

/-- Trimming leaves every token in place. -/
theorem trimmed {cs : List Char} {names : List String} (h : Refers cs names) :
    Refers (Text.trimmed cs) names :=
  h.trimStart.trimEnd

end Refers

/-- Characters in front of the first at sign are pieces of their own. -/
theorem pieces_append_of_not_mem {cs : List Char} (hplain : '@' ∉ cs) (ds : List Char) :
    pieces (cs ++ ds) = cs.map .plain ++ pieces ds := by
  induction cs with
  | nil => rfl
  | cons c rest ih =>
    have hne : c ≠ '@' := fun hc => hplain (hc ▸ List.mem_cons_self)
    rw [List.cons_append, pieces, if_neg (fun h => hne h.1),
      ih fun hmem => hplain (List.mem_cons_of_mem c hmem), List.map_cons, List.cons_append]

/-- They have no names. -/
theorem filterMap_pieces_append {cs : List Char} (hplain : '@' ∉ cs) (ds : List Char) :
    (pieces (cs ++ ds)).filterMap Piece.name? = (pieces ds).filterMap Piece.name? := by
  have hnone : (cs.map Piece.plain).filterMap Piece.name? = [] := by
    rw [List.filterMap_map, List.filterMap_eq_nil_iff]
    exact fun _ _ => rfl
  rw [pieces_append_of_not_mem hplain, List.filterMap_append, hnone, List.nil_append]

/-- The characters of a token behind its at sign. -/
theorem isWord_of_mem_pieces {cs word : List Char} (h : .token word ∈ pieces cs) :
    word ≠ [] ∧ ∀ c ∈ word, isWord c = true := by
  fun_induction pieces cs with
  | case1 => exact absurd h List.not_mem_nil
  | case2 c rest htoken ih =>
    rcases List.mem_cons.mp h with hfirst | hrest
    · rw [Piece.token.inj hfirst]
      exact ⟨htoken.2, List.all_eq_true.mp List.all_takeWhile⟩
    · exact ih hrest
  | case3 c rest hplain ih =>
    have hne : Piece.token word ≠ .plain c := by simp
    exact ih (List.mem_of_ne_of_mem hne h)

/-- A text that no token runs on into: it begins with a character that no token has behind its at
sign, or it is empty. -/
def Halts (cs : List Char) : Prop :=
  ∀ c ∈ cs.head?, isWord c = false

/-- A text that begins with a character that may follow a token is one. -/
theorem Stops.halts {cs : List Char} (h : Stops cs) : Halts cs := by
  intro c hc
  by_contra hword
  have hstop := h c hc
  rw [isStop_of_isWord (by simpa using hword)] at hstop
  exact Bool.noConfusion hstop

/-- The characters of a token are taken and dropped up to a text that no token runs on into. -/
theorem Halts.span {cs : List Char} (h : Halts cs) (ds : List Char) :
    (ds ++ cs).takeWhile isWord = ds.takeWhile isWord ∧
      (ds ++ cs).dropWhile isWord = ds.dropWhile isWord ++ cs := by
  have hcs : cs.takeWhile isWord = [] ∧ cs.dropWhile isWord = cs := by
    cases cs with
    | nil => exact ⟨rfl, rfl⟩
    | cons c rest =>
      have hc : ¬isWord c = true := by simp [h c rfl]
      exact ⟨List.takeWhile_cons_of_neg hc, List.dropWhile_cons_of_neg hc⟩
  induction ds with
  | nil => exact hcs
  | cons d ds ih =>
    cases hd : isWord d with
    | true => simp [hd, ih]
    | false => simp [hd]

/-- A token is taken whole, up to the first character that is not part of it. -/
theorem pieces_token {word rest : List Char} (hne : word ≠ [])
    (hword : ∀ c ∈ word, isWord c = true) (hrest : Halts rest) :
    pieces ('@' :: (word ++ rest)) = .token word :: pieces rest := by
  have htake : (word ++ rest).takeWhile isWord = word :=
    (hrest.span word).1.trans (List.takeWhile_eq_self_iff.mpr hword)
  have hdrop : (word ++ rest).dropWhile isWord = rest := by
    rw [(hrest.span word).2, List.dropWhile_eq_nil_iff.mpr hword, List.nil_append]
  rw [pieces, htake, hdrop, if_pos ⟨rfl, hne⟩]

/-- A text is cut into pieces apart from a text that no token runs on into. -/
theorem pieces_append_of_halts (cs : List Char) {ds : List Char} (h : Halts ds) :
    pieces (cs ++ ds) = pieces cs ++ pieces ds := by
  fun_induction pieces cs with
  | case1 => rfl
  | case2 c rest htoken ih =>
    obtain ⟨htake, hdrop⟩ := h.span rest
    rw [List.cons_append, pieces, htake, hdrop, if_pos htoken, ih, List.cons_append]
  | case3 c rest hplain ih =>
    rw [List.cons_append, pieces, (h.span rest).1, if_neg hplain, ih, List.cons_append]

/-- Any character but the at sign is a piece of its own where no token runs on into it. -/
theorem pieces_append_cons {c : Char} (hword : isWord c = false) (hat : c ≠ '@')
    (cs ds : List Char) : pieces (cs ++ c :: ds) = pieces cs ++ .plain c :: pieces ds := by
  have hhalts : Halts (c :: ds) := fun d hd => Option.some.inj hd ▸ hword
  rw [pieces_append_of_halts cs hhalts, pieces, if_neg fun h => hat h.1]

/-- The tokens of a text are the names that it refers to. -/
theorem Refers.names_eq {s : String} {expected : List String} (h : Refers s.toList expected) :
    names s = expected := by
  unfold names
  generalize s.toList = cs at h
  induction h with
  | plain hplain =>
    have hnone := filterMap_pieces_append hplain []
    rw [List.append_nil] at hnone
    rw [hnone, pieces, List.filterMap_nil]
  | token hplain hne hword hstops hrest ih =>
    rw [filterMap_pieces_append hplain, pieces_token hne hword hstops.halts, List.filterMap_cons]
    exact congrArg _ ih

end BoundSql.Token
