import BoundSql.Prefixes
import BoundSql.Proofs.Parameter.Token

/-!
# Table prefixes are put in between separators

A character that no prefix token is written with separates what stands before it from what stands
behind it: tokens are replaced on either side as if the other were not there. References to
parameters therefore stay as they are, whatever stands around them.
-/

namespace BoundSql

namespace Prefixes

/-- Whether a character occurs in no token, so that no token runs across it. -/
def separates (c : Char) : Bool :=
  Slot.all.all fun t => c ∉ t.spelling

/-- No token is written with a character that separates. -/
theorem not_mem_spelling {c : Char} (h : separates c = true) (t : Slot) : c ∉ t.spelling := by
  simp only [separates, List.all_eq_true, decide_eq_true_eq] at h
  cases t <;> exact h _ (by decide)

/-- A pattern is sought in front of a character that it does not hold. -/
theorem isPrefixOf_append_cons {pattern : List Char} {c : Char} (h : c ∉ pattern)
    (cs ds : List Char) : pattern.isPrefixOf (cs ++ c :: ds) = pattern.isPrefixOf cs := by
  induction pattern generalizing cs with
  | nil => rfl
  | cons x pattern ih =>
    obtain ⟨hx, hpattern⟩ := not_or.mp (mt List.mem_cons.mpr h)
    cases cs with
    | nil => simp [List.isPrefixOf, Ne.symm hx]
    | cons y cs => simp only [List.cons_append, List.isPrefixOf, ih hpattern]

/-- A token at the front of a text ends before the first character that separates. -/
theorem front?_append_cons {c : Char} (h : separates c = true) (cs ds : List Char) :
    front? (cs ++ c :: ds) = front? cs := by
  unfold front?
  congr 1
  funext t
  exact isPrefixOf_append_cons (not_mem_spelling h t) cs ds

/-- A token at the front of a text is part of the text. -/
theorem spelling_prefix_of_front? {cs : List Char} {t : Slot} (h : front? cs = some t) :
    t.spelling <+: cs :=
  List.isPrefixOf_iff_prefix.mp
    (List.find?_some (p := fun t : Slot => t.spelling.isPrefixOf cs) h)

/-- A text has no token at its front exactly when none is written there. -/
theorem front?_eq_none_iff {cs : List Char} :
    front? cs = Option.none ↔ ∀ t : Slot, ¬t.spelling <+: cs := by
  simp only [front?, List.find?_eq_none, List.isPrefixOf_iff_prefix]
  exact ⟨fun h t => h t (by cases t <;> decide), fun h t _ => h t⟩

/-- Every token begins with a brace. -/
theorem exists_spelling_eq_cons (t : Slot) : ∃ rest, t.spelling = '\x7b' :: rest := by
  cases t <;> exact ⟨_, rfl⟩

/-- Every token ends with a closing brace. -/
theorem getLast?_spelling (t : Slot) : t.spelling.getLast? = some '\x7d' := by
  cases t <;> rfl

/-- A text that begins with another character has no token at its front. -/
theorem front?_cons_of_ne {c : Char} (h : c ≠ '\x7b') (cs : List Char) :
    front? (c :: cs) = Option.none := by
  refine front?_eq_none_iff.mpr fun t ht => ?_
  obtain ⟨rest, hrest⟩ := exists_spelling_eq_cons t
  rw [hrest] at ht
  exact h (List.cons_prefix_cons.mp ht).1.symm

/-- A character that is no brace stays as it is at the front of a text. -/
theorem substituted_cons_of_ne (p : Prefixes) {c : Char} (h : c ≠ '\x7b') (cs : List Char) :
    p.substituted (c :: cs) = c :: p.substituted cs := by
  rw [substituted, front?_cons_of_ne h]

/-- A text without braces stays as it is at the front of another one. -/
theorem substituted_append_of_forall_ne (p : Prefixes) {cs : List Char}
    (h : ∀ c ∈ cs, c ≠ '\x7b') (ds : List Char) :
    p.substituted (cs ++ ds) = cs ++ p.substituted ds := by
  induction cs with
  | nil => rfl
  | cons c cs ih =>
    rw [List.cons_append, substituted_cons_of_ne p (h c List.mem_cons_self),
      ih fun d hd => h d (List.mem_cons_of_mem c hd), List.cons_append]

/-- A piece of a text: a token, or one character outside every token. -/
inductive Piece where
  /-- A character outside every token. -/
  | plain (c : Char)
  /-- A token. -/
  | token (slot : Slot)
  deriving DecidableEq

/-- A text cut into its tokens and the characters between them. -/
def pieces (cs : List Char) : List Piece :=
  match cs with
  | [] => []
  | c :: rest =>
    match front? (c :: rest) with
    | some t => .token t :: pieces ((c :: rest).drop t.spelling.length)
    | Option.none => .plain c :: pieces rest
termination_by cs.length
decreasing_by
  · have := t.spelling_length_pos
    simp only [List.length_drop, List.length_cons]
    omega
  · simp

/-- The characters that a piece stands for. -/
def Piece.chars : Piece → List Char
  | plain c => [c]
  | token t => t.spelling

/-- A piece with the names put in, if it is a token. -/
def Piece.replaced (p : Prefixes) : Piece → List Char
  | plain c => [c]
  | token t => p.replacement t

/-- What a piece stands for, if it is a token. -/
def Piece.slot? : Piece → Option Slot
  | plain _ => Option.none
  | token t => some t

/-- The tokens of a text, from left to right. -/
def slots (s : String) : List Slot :=
  (pieces s.toList).filterMap Piece.slot?

/-- The pieces of a text make up the text. -/
theorem flatMap_chars_pieces (cs : List Char) : (pieces cs).flatMap Piece.chars = cs := by
  fun_induction pieces cs with
  | case1 => rfl
  | case2 c rest t ht ih =>
    obtain ⟨back, hback⟩ := spelling_prefix_of_front? ht
    have hdrop : (c :: rest).drop t.spelling.length = back := by
      rw [← hback, List.drop_left]
    rw [List.flatMap_cons, ih, hdrop]
    exact hback
  | case3 c rest ht ih => rw [List.flatMap_cons, ih, Piece.chars, List.singleton_append]

/-- Replacing tokens replaces every piece that is a token, once, and no other. -/
theorem substituted_eq_flatMap (p : Prefixes) (cs : List Char) :
    p.substituted cs = (pieces cs).flatMap (Piece.replaced p) := by
  fun_induction p.substituted cs with
  | case1 => simp [pieces]
  | case2 c rest t ht ih => rw [pieces, ht, List.flatMap_cons, ← ih, Piece.replaced]
  | case3 c rest ht ih =>
    rw [pieces, ht, List.flatMap_cons, ← ih, Piece.replaced, List.singleton_append]

/-- A text in which no token is written. -/
def Tokenless (cs : List Char) : Prop :=
  ∀ t : Slot, ¬t.spelling <:+: cs

/-- No token is written in a part of a text in which none is written. -/
theorem Tokenless.of_part {cs ds : List Char} (h : Tokenless cs) (hds : ds <:+: cs) :
    Tokenless ds :=
  fun t ht => h t (ht.trans hds)

/-- No token is written in a text exactly when none is written at its front or behind its first
character. -/
theorem tokenless_cons_iff {c : Char} {cs : List Char} :
    Tokenless (c :: cs) ↔ front? (c :: cs) = Option.none ∧ Tokenless cs := by
  simp only [Tokenless, List.infix_cons_iff, not_or, forall_and, front?_eq_none_iff]

/-- No token is written in the empty text. -/
theorem tokenless_nil : Tokenless [] := by
  intro t ht
  have hlength := ht.length_le
  have hpos := t.spelling_length_pos
  rw [List.length_nil] at hlength
  omega

/-- The tokens that a text is cut into are none exactly when none is written anywhere in it. -/
theorem slots_eq_nil_iff (s : String) : slots s = [] ↔ Tokenless s.toList := by
  unfold slots
  fun_induction pieces s.toList with
  | case1 => exact iff_of_true rfl tokenless_nil
  | case2 c rest t ht ih =>
    refine iff_of_false (List.cons_ne_nil _ _) fun h => ?_
    rw [tokenless_cons_iff, ht] at h
    exact nomatch h.1
  | case3 c rest ht ih =>
    rw [tokenless_cons_iff, ← ih]
    exact (and_iff_right ht).symm

/-- A character that separates is a piece between those on its left and those on its right. -/
theorem pieces_append_cons {c : Char} (h : separates c = true) (cs ds : List Char) :
    pieces (cs ++ c :: ds) = pieces cs ++ .plain c :: pieces ds := by
  fun_induction pieces cs with
  | case1 =>
    have hnone : front? (c :: ds) = Option.none := front?_append_cons h [] ds
    rw [List.nil_append, pieces, hnone, List.nil_append]
  | case2 d rest t ht ih =>
    have hlen : t.spelling.length ≤ (d :: rest).length := (spelling_prefix_of_front? ht).length_le
    have hfront : front? (d :: (rest ++ c :: ds)) = some t :=
      (front?_append_cons h (d :: rest) ds).trans ht
    rw [List.cons_append, pieces, hfront, ← List.cons_append]
    dsimp only
    rw [List.drop_append_of_le_length hlen, ih, List.cons_append]
  | case3 d rest ht ih =>
    have hfront : front? (d :: (rest ++ c :: ds)) = Option.none :=
      (front?_append_cons h (d :: rest) ds).trans ht
    rw [List.cons_append, pieces, hfront]
    exact congrArg (.plain d :: ·) ih

/-- Tokens on either side of a character that separates are replaced independently. -/
theorem substituted_append_cons (p : Prefixes) {c : Char} (h : separates c = true)
    (cs ds : List Char) :
    p.substituted (cs ++ c :: ds) = p.substituted cs ++ c :: p.substituted ds := by
  simp only [substituted_eq_flatMap, pieces_append_cons h, List.flatMap_append, List.flatMap_cons,
    Piece.replaced, List.singleton_append]

/-- The names that a deployment gives. -/
def names (p : Prefixes) : List String :=
  [p.owner, p.qualifier, p.moduleQualifier]

/-- What takes the place of a token has a character that separates no names only if one of the names
has it. -/
theorem not_mem_replacement {p : Prefixes} {c : Char} (hdot : c ≠ '.') (hunderscore : c ≠ '_')
    (h : ∀ name ∈ p.names, c ∉ name.toList) (t : Slot) : c ∉ p.replacement t := by
  have hpart {name : String} (hname : name ∈ p.names) {d : Char} (hd : c ≠ d) :
      c ∉ part name d := by
    unfold part
    split <;> simp [h name hname, hd]
  have howner : c ∉ part p.owner '.' := hpart (by simp [names]) hdot
  have hqualifier : c ∉ part p.qualifier '_' := hpart (by simp [names]) hunderscore
  have hmodule : c ∉ part p.moduleQualifier '_' := hpart (by simp [names]) hunderscore
  cases t with
  | owner => exact howner
  | qualifier => exact hqualifier
  | moduleOwner => exact howner
  | moduleQualifier => simp [replacement, hqualifier, hmodule]

/-- Putting in names without at signs brings no at sign into a text. -/
theorem at_not_mem_substituted {p : Prefixes} (h : ∀ name ∈ p.names, '@' ∉ name.toList)
    {cs : List Char} (hcs : '@' ∉ cs) : '@' ∉ p.substituted cs := by
  fun_induction p.substituted cs with
  | case1 => exact List.not_mem_nil
  | case2 c rest t ht ih =>
    have hdrop : '@' ∉ (c :: rest).drop t.spelling.length := fun hmem =>
      hcs ((List.drop_sublist _ _).subset hmem)
    simp [not_mem_replacement (by decide) (by decide) h t, ih hdrop]
  | case3 c rest ht ih =>
    obtain ⟨hc, hrest⟩ := not_or.mp (mt List.mem_cons.mpr hcs)
    simp [hc, ih hrest]

end Prefixes

namespace Token

/-- No character of a token opens a prefix token. -/
theorem ne_brace_of_isWord {c : Char} (h : isWord c = true) : c ≠ '\x7b' := by
  rintro rfl
  exact absurd h (by decide)

/-- No character that may follow a token opens a prefix token. -/
theorem ne_brace_of_isStop {c : Char} (h : isStop c = true) : c ≠ '\x7b' := by
  rintro rfl
  exact absurd h (by decide)

/-- Putting in table prefixes leaves every reference to a parameter in place. -/
theorem Refers.substituted {p : Prefixes} (hp : ∀ name ∈ p.names, '@' ∉ name.toList)
    {cs : List Char} {names : List String} (h : Refers cs names) :
    Refers (p.substituted cs) names := by
  induction h with
  | plain hplain => exact plain (Prefixes.at_not_mem_substituted hp hplain)
  | @token cs word rest names hplain hne hword hstops hrest ih =>
    have hstops' : Stops (p.substituted rest) := by
      cases rest with
      | nil => simpa [Prefixes.substituted] using hstops
      | cons c rest =>
        have hc : isStop c = true := hstops c rfl
        rw [Prefixes.substituted_cons_of_ne p (ne_brace_of_isStop hc)]
        exact hstops
    rw [Prefixes.substituted_append_cons p (by decide),
      Prefixes.substituted_append_of_forall_ne p fun c hc => ne_brace_of_isWord (hword c hc)]
    exact token (Prefixes.at_not_mem_substituted hp hplain) hne hword hstops' ih

end Token

end BoundSql
