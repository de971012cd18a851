import BoundSql.Text.Blank
import Mathlib.Data.List.Basic
import Mathlib.Data.List.Induction

/-!
# Laws of trimming and of words

Trimming works on either end alone: blanks at the front are dropped one by one, and so are blanks at
the back. A text whose first and last characters are not blank stays as it is.

The words of a text are what is left of its pieces between blanks once the empty ones are dropped.
A blank therefore belongs to no word and ends the word in front of it, and words are found apart on
either side of it. What is left of a text without any blanks is found apart everywhere.
-/

namespace BoundSql.Text

/-- A blank at the back is trimmed away. -/
theorem trimEnd_concat_of_isBlank {c : Char} (h : isBlank c = true) (cs : List Char) :
    trimEnd (cs ++ [c]) = trimEnd cs := by
  simp only [trimEnd, List.reverse_append, List.reverse_singleton, List.singleton_append,
    List.dropWhile_cons_of_pos h]

/-- Any other character at the back keeps the whole text in place. -/
theorem trimEnd_concat_of_not_isBlank {c : Char} (h : isBlank c = false) (cs : List Char) :
    trimEnd (cs ++ [c]) = cs ++ [c] := by
  simp [trimEnd, h]

/-- A text that does not begin with a blank has nothing to trim at its front. -/
theorem trimStart_of_head {cs : List Char} (h : ∀ c ∈ cs.head?, isBlank c = false) :
    trimStart cs = cs := by
  cases cs with
  | nil => rfl
  | cons c rest =>
    have hneg : ¬isBlank c = true := by simp [h c rfl]
    exact List.dropWhile_cons_of_neg hneg

/-- A text that does not end with a blank has nothing to trim at its back. -/
theorem trimEnd_of_last {cs : List Char} (h : ∀ c ∈ cs.getLast?, isBlank c = false) :
    trimEnd cs = cs := by
  rcases List.eq_nil_or_concat' cs with rfl | ⟨front, c, rfl⟩
  · rfl
  · exact trimEnd_concat_of_not_isBlank (h c (by simp)) front

/-- A text that neither begins nor ends with a blank has nothing to trim. -/
theorem trimmed_of_ends {cs : List Char} (hhead : ∀ c ∈ cs.head?, isBlank c = false)
    (hlast : ∀ c ∈ cs.getLast?, isBlank c = false) : trimmed cs = cs := by
  rw [trimmed, trimStart_of_head hhead, trimEnd_of_last hlast]

/-- A text without blanks has nothing to trim. -/
theorem trimmed_of_forall {cs : List Char} (h : ∀ c ∈ cs, isBlank c = false) : trimmed cs = cs :=
  trimmed_of_ends (fun c hc => h c (List.mem_of_mem_head? hc))
    fun c hc => h c (List.mem_of_mem_getLast? hc)

/-- Blanks at the front make no difference to what is left when both ends are trimmed. -/
theorem trimmed_append_left {front : List Char} (h : ∀ c ∈ front, isBlank c = true)
    (cs : List Char) : trimmed (front ++ cs) = trimmed cs := by
  rw [trimmed, trimStart, List.dropWhile_append_of_pos h]
  rfl

/-- Blanks at the back make no difference to what is left when both ends are trimmed. -/
theorem trimmed_append_right {back : List Char} (h : ∀ c ∈ back, isBlank c = true)
    (cs : List Char) : trimmed (cs ++ back) = trimmed cs := by
  induction back using List.reverseRecOn with
  | nil => rw [List.append_nil]
  | append_singleton back c ih =>
    have hc : isBlank c = true := h c (by simp)
    have hback : ∀ d ∈ back, isBlank d = true := fun d hd => h d (List.mem_append_left _ hd)
    rw [← ih hback, ← List.append_assoc, trimmed, trimmed, trimStart, List.dropWhile_append]
    split
    · rename_i hempty
      have hnone : trimStart (cs ++ back) = [] := List.isEmpty_iff.mp hempty
      rw [hnone, List.dropWhile_cons_of_pos hc]
      rfl
    · exact trimEnd_concat_of_isBlank hc _

/-- What is left when the blanks at the front are dropped does not begin with one. -/
theorem isBlank_of_mem_head?_trimStart {cs : List Char} :
    ∀ c ∈ (trimStart cs).head?, isBlank c = false := by
  intro c hc
  have hnot := List.head?_dropWhile_not isBlank cs
  rw [trimStart] at hc
  rwa [hc] at hnot

/-- What is left when both ends are trimmed does not begin with a blank. -/
theorem isBlank_of_mem_head?_trimmed {cs : List Char} :
    ∀ c ∈ (trimmed cs).head?, isBlank c = false := by
  intro c hc
  have hkept : trimmed cs <+: trimStart cs := by
    have hend := List.dropWhile_suffix isBlank (l := (trimStart cs).reverse)
    rw [← List.reverse_prefix, List.reverse_reverse] at hend
    exact hend
  obtain ⟨more, hmore⟩ := hkept
  refine @isBlank_of_mem_head?_trimStart cs c ?_
  rw [← hmore, List.head?_append, hc]
  rfl

/-- What is left when both ends are trimmed does not end with a blank. -/
theorem isBlank_of_mem_getLast?_trimmed {cs : List Char} :
    ∀ c ∈ (trimmed cs).getLast?, isBlank c = false := by
  intro c hc
  rw [trimmed, trimEnd, List.getLast?_reverse] at hc
  exact isBlank_of_mem_head?_trimStart c hc

/-- A string that trimming leaves as it is neither begins nor ends with a blank. -/
theorem trim_eq_self_iff (s : String) :
    trim s = s ↔ (∀ c ∈ s.toList.head?, isBlank c = false) ∧
      ∀ c ∈ s.toList.getLast?, isBlank c = false := by
  rw [← String.toList_inj, toList_trim]
  constructor
  · intro h
    rw [← h]
    exact ⟨isBlank_of_mem_head?_trimmed, isBlank_of_mem_getLast?_trimmed⟩
  · exact fun h => trimmed_of_ends h.1 h.2

/-- Once a string is trimmed, there is nothing more to trim. -/
theorem trim_trim (s : String) : trim (trim s) = trim s := by
  rw [trim_eq_self_iff, toList_trim]
  exact ⟨isBlank_of_mem_head?_trimmed, isBlank_of_mem_getLast?_trimmed⟩

/-- Trimming takes blanks away at either end and nothing else. -/
theorem exists_trimmed (cs : List Char) :
    ∃ front back, cs = front ++ trimmed cs ++ back ∧ (∀ c ∈ front, isBlank c = true) ∧
      ∀ c ∈ back, isBlank c = true := by
  have hstart : cs = cs.takeWhile isBlank ++ trimStart cs := List.takeWhile_append_dropWhile.symm
  have hend (ds : List Char) : ds = trimEnd ds ++ (ds.reverse.takeWhile isBlank).reverse := by
    rw [trimEnd, ← List.reverse_append, List.takeWhile_append_dropWhile, List.reverse_reverse]
  refine ⟨cs.takeWhile isBlank, ((trimStart cs).reverse.takeWhile isBlank).reverse, ?_, ?_, ?_⟩
  · rw [List.append_assoc, trimmed, ← hend]
    exact hstart
  · exact List.all_eq_true.mp List.all_takeWhile
  · exact fun c hc => List.all_eq_true.mp List.all_takeWhile c (List.mem_reverse.mp hc)

/-! ## Words -/

/-- What is left of a text once all its blanks are dropped. -/
def solid (cs : List Char) : List Char :=
  cs.filter fun c => !isBlank c

/-- Blanks are dropped apart in texts behind one another. -/
theorem solid_append (cs ds : List Char) : solid (cs ++ ds) = solid cs ++ solid ds := by
  simp only [solid, List.filter_append]

/-- A blank cuts off an empty piece. -/
theorem splitOnP_cons_of_isBlank {c : Char} (h : isBlank c = true) (cs : List Char) :
    (c :: cs).splitOnP isBlank = [] :: cs.splitOnP isBlank := by
  rw [List.splitOnP_cons_eq_if_modifyHead, if_pos h]

/-- Any other character joins the first piece of what follows. -/
theorem exists_splitOnP_cons {c : Char} (h : ¬isBlank c = true) (cs : List Char) :
    ∃ w ws, cs.splitOnP isBlank = w :: ws ∧ (c :: cs).splitOnP isBlank = (c :: w) :: ws := by
  obtain ⟨w, ws, hcs⟩ := List.exists_cons_of_ne_nil (List.splitOnP_ne_nil isBlank cs)
  refine ⟨w, ws, hcs, ?_⟩
  rw [List.splitOnP_cons_eq_if_modifyHead, if_neg h, hcs, List.modifyHead_cons]

/-- The words of a text are its pieces between blanks that are not empty. -/
theorem words_eq_filter_splitOnP (cs : List Char) :
    words cs = (cs.splitOnP isBlank).filter fun w => !w.isEmpty := by
  fun_induction words cs with
  | case1 => simp [List.splitOnP_nil]
  | case2 c rest hc ih =>
    rw [ih, splitOnP_cons_of_isBlank hc]
    rfl
  | case3 c hc => simp [List.splitOnP_cons_eq_if_modifyHead, List.splitOnP_nil, hc]
  | case4 c hc d rest hd ih =>
    obtain ⟨w, ws, hrest, hpieces⟩ := exists_splitOnP_cons hc (d :: rest)
    rw [splitOnP_cons_of_isBlank hd] at hrest
    obtain ⟨rfl, rfl⟩ := List.cons.inj hrest
    rw [ih, hpieces, splitOnP_cons_of_isBlank hd]
    rfl
  | case5 c hc d rest hd hnone ih =>
    -- The word of `d` is found, so there is one to join.
    obtain ⟨w, ws, -, hpieces⟩ := exists_splitOnP_cons hd rest
    rw [hnone, hpieces] at ih
    exact nomatch ih
  | case6 c hc d rest hd v vs hfound ih =>
    obtain ⟨w, ws, hrest, hpieces⟩ := exists_splitOnP_cons hc (d :: rest)
    obtain ⟨w', ws', -, hpieces'⟩ := exists_splitOnP_cons hd rest
    obtain ⟨rfl, rfl⟩ := List.cons.inj (hrest.symm.trans hpieces')
    rw [hfound, hpieces'] at ih
    obtain ⟨rfl, rfl⟩ := List.cons.inj ih
    rw [hfound, hpieces]
    rfl

/-- The empty text has no words. -/
theorem words_nil : words [] = [] :=
  rfl

/-- Words are found apart on either side of a blank. -/
theorem words_append_cons {c : Char} (h : isBlank c = true) (cs ds : List Char) :
    words (cs ++ c :: ds) = words cs ++ words ds := by
  simp only [words_eq_filter_splitOnP, List.splitOnP_append_cons cs ds h, List.filter_append]

end BoundSql.Text
