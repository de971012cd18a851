import BoundSql.Calendar.Layout
import Mathlib.Data.List.Basic

/-!
# Layouts need their marks

Every part of a layout takes characters of its own class from the front of a text and leaves what
stands behind them. A text that a layout fits therefore holds every mark of the layout, and a text
without colons fits no layout of times.
-/

namespace BoundSql.Layout

/-- A text begins with characters of one class, any number of them, and a rest stands behind. -/
def Takes (p : Char → Bool) (cs rest : List Char) : Prop :=
  ∃ front, cs = front ++ rest ∧ ∀ c ∈ front, p c = true

namespace Takes

variable {p q : Char → Bool} {cs ds rest : List Char}

/-- Nothing is taken from a text. -/
theorem refl (p : Char → Bool) (cs : List Char) : Takes p cs cs :=
  ⟨[], rfl, fun _ hc => absurd hc List.not_mem_nil⟩

/-- One character more is taken. -/
theorem cons {c : Char} (hc : p c = true) (h : Takes p cs rest) : Takes p (c :: cs) rest := by
  obtain ⟨front, rfl, hfront⟩ := h
  exact ⟨c :: front, rfl, List.forall_mem_cons.mpr ⟨hc, hfront⟩⟩

/-- What is left goes on being taken. -/
theorem trans (h : Takes p cs ds) (h' : Takes p ds rest) : Takes p cs rest := by
  obtain ⟨front, rfl, hfront⟩ := h
  obtain ⟨front', rfl, hfront'⟩ := h'
  exact ⟨front ++ front', (List.append_assoc _ _ _).symm,
    List.forall_mem_append.mpr ⟨hfront, hfront'⟩⟩

/-- The characters belong to a wider class, too. -/
theorem mono (h : Takes p cs rest) (hpq : ∀ c, p c = true → q c = true) : Takes q cs rest := by
  obtain ⟨front, rfl, hfront⟩ := h
  exact ⟨front, rfl, fun c hc => hpq c (hfront c hc)⟩

/-- What is left stands at the back of the text. -/
theorem suffix (h : Takes p cs rest) : rest <:+ cs := by
  obtain ⟨front, rfl, -⟩ := h
  exact List.suffix_append front rest

/-- All characters of the class at the front are taken. -/
theorem dropWhile (p : Char → Bool) (cs : List Char) : Takes p cs (cs.dropWhile p) :=
  ⟨cs.takeWhile p, List.takeWhile_append_dropWhile.symm, List.all_eq_true.mp List.all_takeWhile⟩

end Takes

/-- Whether a character is the sign of a year or of an offset. -/
def isSign (c : Char) : Bool :=
  c == '+' || c == '-' || c == '\u2212'

/-- Whether a part of a layout takes a character. -/
def Part.takes : Part → Char → Bool
  | year, c => Text.isBlank c || Numeral.isDigit c || isSign c
  | fraction, c => Numeral.isDigit c || c == '.'
  | offset, c => Text.isBlank c || Numeral.isDigit c || isSign c || c == ':'
  | blanks, c => Text.isBlank c
  | mark d, c => c == d
  | month, c | day, c | hour, c | minute, c | second, c => Text.isBlank c || Numeral.isDigit c

/-- Digits are taken by years, fractions and offsets. -/
theorem Part.takes_of_isDigit {part : Part} (hpart : part = year ∨ part = fraction ∨ part = offset)
    {c : Char} (hc : Numeral.isDigit c = true) : part.takes c = true := by
  rcases hpart with rfl | rfl | rfl <;> simp [takes, hc]

/-- Bounded digits take digits. -/
theorem takes_digits? {least most n : Nat} {cs rest : List Char}
    (h : digits? least most cs = some (n, rest)) : Takes Numeral.isDigit cs rest := by
  simp only [digits?] at h
  split at h
  · exact nomatch h
  · simp only [Option.some.injEq, Prod.mk.injEq] at h
    have hrun : (cs.take most).takeWhile Numeral.isDigit <+: cs :=
      (List.takeWhile_prefix _).trans (List.take_prefix _ _)
    exact h.2 ▸ ⟨_, (List.prefix_iff_eq_append.mp hrun).symm,
      List.all_eq_true.mp List.all_takeWhile⟩

/-- A run of digits takes digits, whatever is made of it. -/
theorem takes_spanDigits {α : Type} {cs rest : List Char} {made a : α}
    (h : (if (Numeral.spanDigits cs).1 = [] then none
      else some (made, (Numeral.spanDigits cs).2)) = some (a, rest)) :
    Takes Numeral.isDigit cs rest := by
  split at h
  · exact nomatch h
  · obtain ⟨-, rfl⟩ := Prod.mk.inj (Option.some.inj h)
    exact Takes.dropWhile _ _

/-- Digits of any number take digits. -/
theorem takes_manyDigits? {n : Nat} {cs rest : List Char}
    (h : manyDigits? cs = some (n, rest)) : Takes Numeral.isDigit cs rest :=
  takes_spanDigits h

/-- A year takes signs and digits. -/
theorem takes_year? {n : Int} {cs rest : List Char} (h : year? cs = some (n, rest)) :
    Takes Part.year.takes cs rest := by
  have hdigit (c : Char) (hc : Numeral.isDigit c = true) : Part.year.takes c = true :=
    Part.takes_of_isDigit (Or.inl rfl) hc
  unfold year? at h
  split at h
  · obtain ⟨⟨k, r⟩, hmany, heq⟩ := Option.map_eq_some_iff.mp h
    simp only [Prod.mk.injEq] at heq
    exact heq.2 ▸ ((takes_manyDigits? hmany).mono hdigit).cons rfl
  · obtain ⟨⟨k, r⟩, hmany, heq⟩ := Option.map_eq_some_iff.mp h
    simp only [Prod.mk.injEq] at heq
    exact heq.2 ▸ ((takes_manyDigits? hmany).mono hdigit).cons rfl
  · obtain ⟨⟨k, r⟩, hdigits, heq⟩ := Option.map_eq_some_iff.mp h
    simp only [Prod.mk.injEq] at heq
    exact heq.2 ▸ (takes_digits? hdigits).mono hdigit

/-- Nanoseconds take digits. -/
theorem takes_nanos? {n : Nat} {cs rest : List Char} (h : nanos? cs = some (n, rest)) :
    Takes Numeral.isDigit cs rest :=
  takes_spanDigits h

/-- A fraction takes points and digits. -/
theorem takes_fraction? {n : Nat} {cs rest : List Char} (h : fraction? cs = some (n, rest)) :
    Takes Part.fraction.takes cs rest := by
  unfold fraction? at h
  split at h
  · have hdigit (c : Char) (hc : Numeral.isDigit c = true) : Part.fraction.takes c = true :=
      Part.takes_of_isDigit (Or.inr (Or.inl rfl)) hc
    exact ((takes_nanos? h).mono hdigit).cons rfl
  · simp only [Option.some.injEq, Prod.mk.injEq] at h
    exact h.2 ▸ Takes.refl _ _

/-- A sign is one character. -/
theorem eq_cons_of_sign? {n : Int} {cs rest : List Char} (h : sign? cs = some (n, rest)) :
    ∃ c, isSign c = true ∧ cs = c :: rest := by
  cases cs with
  | nil => simp [sign?] at h
  | cons c tail =>
    refine ⟨c, ?_⟩
    simp only [sign?] at h
    split at h
    · rename_i hplus
      simp only [Option.some.injEq, Prod.mk.injEq] at h
      exact ⟨by simp [isSign, hplus], congrArg _ h.2⟩
    · split at h
      · rename_i hminus
        simp only [Option.some.injEq, Prod.mk.injEq] at h
        exact ⟨by rcases hminus with rfl | rfl <;> rfl, congrArg _ h.2⟩
      · simp at h

/-- The character that is expected stands at the front. -/
theorem eq_cons_of_expect {c : Char} {cs rest : List Char} (h : expect c cs = some rest) :
    cs = c :: rest := by
  cases cs with
  | nil => simp [expect] at h
  | cons d tail =>
    rw [expect] at h
    split at h
    · rename_i heq
      rw [heq, Option.some.inj h]
    · simp at h

/-- Behind its sign an offset has digits, a separator and digits once more. -/
theorem parts_of_offsetWith? {separator : List Char → Option (List Char)} {n : Int}
    {cs rest : List Char} (h : offsetWith? separator cs = some (n, rest)) :
    ∃ c signed timed separated, isSign c = true ∧ cs = c :: signed ∧
      Takes Numeral.isDigit signed timed ∧ separator timed = some separated ∧
      Takes Numeral.isDigit separated rest := by
  simp only [offsetWith?, Option.bind_eq_bind, Option.bind_eq_some_iff] at h
  obtain ⟨⟨sign, signed⟩, hsign, ⟨hours, timed⟩, hhours, separated, hseparator,
    ⟨minutes, tail⟩, hminutes, heq⟩ := h
  obtain ⟨c, hc, rfl⟩ := eq_cons_of_sign? hsign
  have htail : tail = rest := by
    split at heq
    · simp only [Option.pure_def, Option.some.injEq, Prod.mk.injEq] at heq
      exact heq.2
    · exact nomatch heq
  exact ⟨c, signed, timed, separated, hc, rfl, takes_digits? hhours, hseparator,
    htail ▸ takes_digits? hminutes⟩

/-- An offset takes its sign, digits, colons and blanks. -/
theorem takes_offset? {n : Int} {cs rest : List Char}
    (h : offsetWith? looseSeparator cs = some (n, rest)) : Takes Part.offset.takes cs rest := by
  have hdigit (c : Char) (hc : Numeral.isDigit c = true) : Part.offset.takes c = true :=
    Part.takes_of_isDigit (Or.inr (Or.inr rfl)) hc
  obtain ⟨c, signed, timed, separated, hc, rfl, hhours, hseparator, hminutes⟩ :=
    parts_of_offsetWith? h
  have hspare : Takes Part.offset.takes timed separated := by
    rw [← Option.some.inj hseparator]
    refine (Takes.dropWhile _ timed).mono fun d hd => ?_
    rcases Bool.or_eq_true_iff.mp hd with hcolon | hblank
    · simp only [Part.takes, hcolon, Bool.or_true]
    · simp only [Part.takes, hblank, Bool.true_or]
  have hrest := (hhours.mono hdigit).trans (hspare.trans (hminutes.mono hdigit))
  exact hrest.cons (by simp [Part.takes, hc])

/-- A part takes characters of its class. -/
theorem Part.takes_of_read? {part : Part} {got got' : Reading} {cs rest : List Char}
    (h : part.read? got cs = some (got', rest)) : Takes part.takes cs rest := by
  have htrim (hblank : ∀ c, Text.isBlank c = true → part.takes c = true) :
      Takes part.takes cs (Text.trimStart cs) := (Takes.dropWhile _ cs).mono hblank
  have hmap {α : Type} (f : α → Reading) {found : Option (α × List Char)}
      (hfound : ∀ a r, found = some (a, r) → Takes part.takes cs r)
      (heq : (found.map fun p => (f p.1, p.2)) = some (got', rest)) : Takes part.takes cs rest := by
    obtain ⟨⟨a, r⟩, hsome, hpair⟩ := Option.map_eq_some_iff.mp heq
    simp only [Prod.mk.injEq] at hpair
    exact hpair.2 ▸ hfound a r hsome
  have hnumber (hclass : ∀ c, (Text.isBlank c || Numeral.isDigit c) = true → part.takes c = true) :
      ∀ n r, digits? 1 2 (Text.trimStart cs) = some (n, r) → Takes part.takes cs r :=
    fun _ _ hsome => (htrim fun c hc => hclass c (by rw [hc, Bool.true_or])).trans
      ((takes_digits? hsome).mono fun c hc => hclass c (by rw [hc, Bool.or_true]))
  cases part with
  | year =>
    exact hmap (fun n => { got with year := n }) (fun _ _ hsome =>
      (htrim fun c hc => by simp [takes, hc]).trans (takes_year? hsome)) h
  | month => exact hmap (fun n => { got with month := n }) (hnumber fun _ hc => hc) h
  | day => exact hmap (fun n => { got with day := n }) (hnumber fun _ hc => hc) h
  | hour => exact hmap (fun n => { got with hour := n }) (hnumber fun _ hc => hc) h
  | minute => exact hmap (fun n => { got with minute := n }) (hnumber fun _ hc => hc) h
  | second => exact hmap (fun n => { got with second := n }) (hnumber fun _ hc => hc) h
  | fraction =>
    exact hmap (fun n => { got with nanos := n }) (fun _ _ hsome => takes_fraction? hsome) h
  | offset =>
    exact hmap (fun n => { got with offset := n }) (fun _ _ hsome =>
      (htrim fun c hc => by simp [takes, hc]).trans (takes_offset? hsome)) h
  | blanks =>
    simp only [Part.read?, Option.some.injEq, Prod.mk.injEq] at h
    exact h.2 ▸ htrim fun _ hc => hc
  | mark c =>
    obtain ⟨r, hexpect, hpair⟩ := Option.map_eq_some_iff.mp h
    obtain rfl := (Prod.mk.inj hpair).2
    rw [eq_cons_of_expect hexpect]
    exact (Takes.refl _ r).cons (by simp [takes])

/-- A layout is read part by part. -/
theorem read?_cons_eq (part : Part) (parts : List Part) (got : Reading) (cs : List Char) :
    read? (part :: parts) got cs = (part.read? got cs).bind fun p => read? parts p.1 p.2 := by
  cases cs <;> rfl

/-- The back of a layout fits what its front leaves of a text. -/
theorem exists_of_read?_append {before after : List Part} {got result : Reading} {cs : List Char}
    (h : read? (before ++ after) got cs = some result) :
    ∃ got' rest, rest <:+ cs ∧ read? after got' rest = some result := by
  induction before generalizing got cs with
  | nil => exact ⟨got, cs, List.suffix_rfl, h⟩
  | cons part before ih =>
    rw [List.cons_append, read?_cons_eq] at h
    obtain ⟨⟨got', rest⟩, hpart, hrest⟩ := Option.bind_eq_some_iff.mp h
    obtain ⟨got'', back, hsuffix, hback⟩ := ih hrest
    exact ⟨got'', back, hsuffix.trans (Part.takes_of_read? hpart).suffix, hback⟩

/-- A mark that comes next in a layout comes next in the text. -/
theorem eq_cons_of_read?_mark {c : Char} {parts : List Part} {got result : Reading}
    {cs : List Char} (h : read? (.mark c :: parts) got cs = some result) :
    ∃ rest, cs = c :: rest ∧ read? parts got rest = some result := by
  rw [read?_cons_eq] at h
  obtain ⟨_, hpart, hrest⟩ := Option.bind_eq_some_iff.mp h
  obtain ⟨rest, hexpect, rfl⟩ := Option.map_eq_some_iff.mp hpart
  exact ⟨rest, eq_cons_of_expect hexpect, hrest⟩

/-- A text that a layout fits holds every mark of the layout. -/
theorem mem_of_read? {c : Char} {parts : List Part} (hmark : Part.mark c ∈ parts)
    {got result : Reading} {cs : List Char} (h : read? parts got cs = some result) : c ∈ cs := by
  obtain ⟨before, after, rfl⟩ := List.append_of_mem hmark
  obtain ⟨got', rest, hsuffix, hrest⟩ := exists_of_read?_append h
  obtain ⟨back, rfl, -⟩ := eq_cons_of_read?_mark hrest
  exact hsuffix.subset List.mem_cons_self

end BoundSql.Layout
