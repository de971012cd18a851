import BoundSql.Proofs.Calendar.Mark

/-!
# Texts with an offset and texts without

An offset begins with a sign or with the letter Z, and it stands behind the time of day. Layouts
without an offset take none of these characters from the first colon on, for the sign of a year
comes before the time of day. So a text that fits a layout with an offset fits none without one.
-/

namespace BoundSql.Layout

/-- Whether an offset can begin with a character. -/
def isZoneMark (c : Char) : Bool :=
  isSign c || c == 'Z' || c == 'z'

/-- Whether an offset can begin anywhere behind the first colon of a text. -/
def isZoned : List Char → Bool
  | [] => false
  | c :: rest => if c = ':' then rest.any isZoneMark else isZoned rest

/-- Whether a part of a layout can take a character that an offset can begin with. -/
def Part.isSigned : Part → Bool
  | year | offset => true
  | mark c => isZoneMark c
  | month | day | hour | minute | second | fraction | blanks => false

/-- Whether a layout takes no character that an offset can begin with, from the first part on that
can take a colon. -/
def isLocal : List Part → Bool
  | [] => true
  | part :: parts =>
    if part.takes ':' then (part :: parts).all fun p => !p.isSigned else isLocal parts

/-- An offset begins with none of the characters of numbers. -/
theorem not_number_of_isZoneMark {c : Char} (h : isZoneMark c = true) :
    Text.isBlank c = false ∧ Numeral.isDigit c = false ∧ c ≠ '.' := by
  simp only [isZoneMark, isSign, Bool.or_eq_true, beq_iff_eq] at h
  rcases h with (((rfl | rfl) | rfl) | rfl) | rfl <;> decide

/-- A part without signs takes no character that an offset can begin with. -/
theorem Part.isZoneMark_of_takes {part : Part} (hpart : part.isSigned = false) {c : Char}
    (hc : part.takes c = true) : isZoneMark c = false := by
  rw [Bool.eq_false_iff]
  intro hzone
  obtain ⟨hblank, hdigit, hpoint⟩ := not_number_of_isZoneMark hzone
  cases part with
  | year | offset => exact nomatch hpart
  | mark d =>
    rw [takes, beq_iff_eq] at hc
    rw [hc, ← Bool.not_eq_false, ← isSigned] at hzone
    exact hzone hpart
  | fraction => simp [takes, hdigit, hpoint] at hc
  | month | day | hour | minute | second | blanks => simp [takes, hblank, hdigit] at hc

/-- Characters in front of the first colon do not count. -/
theorem isZoned_append {front : List Char} (h : ':' ∉ front) (rest : List Char) :
    isZoned (front ++ rest) = isZoned rest := by
  induction front with
  | nil => rfl
  | cons c front ih =>
    rw [List.mem_cons, not_or] at h
    rw [List.cons_append, isZoned, if_neg (Ne.symm h.1), ih h.2]

/-- Without any character that an offset can begin with there is no offset. -/
theorem isZoned_eq_false_of_forall {cs : List Char} (h : ∀ c ∈ cs, isZoneMark c = false) :
    isZoned cs = false := by
  induction cs with
  | nil => rfl
  | cons c cs ih =>
    obtain ⟨-, hcs⟩ := List.forall_mem_cons.mp h
    rw [isZoned]
    split
    · simpa using hcs
    · exact ih hcs

/-- A character that an offset can begin with counts behind any colon. -/
theorem isZoned_of_suffix {c : Char} (hc : isZoneMark c = true) {back cs : List Char}
    (hmem : c ∈ back) (hsuffix : ':' :: back <:+ cs) : isZoned cs = true := by
  obtain ⟨front, rfl⟩ := hsuffix
  induction front with
  | nil =>
    rw [List.nil_append, isZoned, if_pos rfl]
    exact List.any_eq_true.mpr ⟨c, hmem, hc⟩
  | cons d front ih =>
    rw [List.cons_append, isZoned]
    split
    · have hrest : c ∈ front ++ ':' :: back :=
        List.mem_append_right front (List.mem_cons_of_mem ':' hmem)
      exact List.any_eq_true.mpr ⟨c, hrest, hc⟩
    · exact ih

/-- Parts without signs read a text without them. -/
theorem isZoneMark_of_read? {parts : List Part} (hparts : ∀ part ∈ parts, part.isSigned = false)
    {got result : Reading} {cs : List Char} (h : read? parts got cs = some result) :
    ∀ c ∈ cs, isZoneMark c = false := by
  induction parts generalizing got cs with
  | nil =>
    cases cs with
    | nil => exact fun _ hc => absurd hc List.not_mem_nil
    | cons => exact nomatch h
  | cons part parts ih =>
    obtain ⟨hpart, htail⟩ := List.forall_mem_cons.mp hparts
    rw [read?_cons_eq] at h
    obtain ⟨⟨got', rest⟩, hread, hrest⟩ := Option.bind_eq_some_iff.mp h
    obtain ⟨front, rfl, hfront⟩ := Part.takes_of_read? hread
    exact List.forall_mem_append.mpr
      ⟨fun c hc => Part.isZoneMark_of_takes hpart (hfront c hc), ih htail hrest⟩

/-- A layout without an offset fits only texts without one. -/
theorem isZoned_eq_false_of_isLocal {parts : List Part} (hparts : isLocal parts = true)
    {got result : Reading} {cs : List Char} (h : read? parts got cs = some result) :
    isZoned cs = false := by
  induction parts generalizing got cs with
  | nil =>
    have hnone : ∀ part ∈ ([] : List Part), part.isSigned = false := by simp
    exact isZoned_eq_false_of_forall (isZoneMark_of_read? hnone h)
  | cons part parts ih =>
    rw [isLocal] at hparts
    split at hparts
    · have hsigned : ∀ p ∈ part :: parts, p.isSigned = false := by simpa using hparts
      exact isZoned_eq_false_of_forall (isZoneMark_of_read? hsigned h)
    · rename_i hcolon
      rw [read?_cons_eq] at h
      obtain ⟨⟨got', rest⟩, hread, hrest⟩ := Option.bind_eq_some_iff.mp h
      obtain ⟨front, rfl, hfront⟩ := Part.takes_of_read? hread
      rw [isZoned_append fun hmem => hcolon (hfront _ hmem)]
      exact ih hparts hrest

/-- An offset begins with its sign. -/
theorem isZoneMark_of_offsetWith? {separator : List Char → Option (List Char)} {n : Int}
    {cs rest : List Char} (h : offsetWith? separator cs = some (n, rest)) :
    ∃ c ∈ cs, isZoneMark c = true := by
  obtain ⟨c, signed, _, _, hc, rfl, -⟩ := parts_of_offsetWith? h
  exact ⟨c, List.mem_cons_self, by simp [isZoneMark, hc]⟩

/-- A layout with an offset behind a colon fits only texts with an offset. -/
theorem isZoned_of_offset {before after : List Part} (hoffset : Part.offset ∈ after)
    {got result : Reading} {cs : List Char}
    (h : read? (before ++ .mark ':' :: after) got cs = some result) : isZoned cs = true := by
  obtain ⟨got', timed, htimed, hread⟩ := exists_of_read?_append h
  obtain ⟨back, rfl, hback⟩ := eq_cons_of_read?_mark hread
  obtain ⟨front, behind, rfl⟩ := List.append_of_mem hoffset
  obtain ⟨got'', zoned, hzoned, hrest⟩ := exists_of_read?_append hback
  rw [read?_cons_eq] at hrest
  obtain ⟨_, hpart, -⟩ := Option.bind_eq_some_iff.mp hrest
  obtain ⟨_, hwith, -⟩ := Option.map_eq_some_iff.mp hpart
  obtain ⟨c, hc, hzone⟩ := isZoneMark_of_offsetWith? hwith
  have hmem : c ∈ back := hzoned.subset ((List.dropWhile_suffix _).subset hc)
  exact isZoned_of_suffix hzone hmem htimed

/-- The offset of the internet layout begins with a sign or with the letter Z. -/
theorem isZoneMark_of_internetOffset? {n : Int} {cs rest : List Char}
    (h : internetOffset? cs = some (n, rest)) : ∃ c ∈ cs, isZoneMark c = true := by
  unfold internetOffset? at h
  split at h
  · exact ⟨'Z', List.mem_cons_self, rfl⟩
  · exact ⟨'z', List.mem_cons_self, rfl⟩
  · exact isZoneMark_of_offsetWith? (Option.filter_eq_some_iff.mp h).1

/-- The internet layout fits only texts with an offset. -/
theorem isZoned_of_internet? {cs : List Char} {result : Reading}
    (h : internet? cs = some result) : isZoned cs = true := by
  obtain ⟨⟨year, _⟩, hyear, h⟩ := Option.bind_eq_some_iff.mp h
  obtain ⟨_, hdash, h⟩ := Option.bind_eq_some_iff.mp h
  obtain ⟨⟨month, _⟩, hmonth, h⟩ := Option.bind_eq_some_iff.mp h
  obtain ⟨_, hdash', h⟩ := Option.bind_eq_some_iff.mp h
  obtain ⟨⟨day, timed⟩, hday, h⟩ := Option.bind_eq_some_iff.mp h
  obtain rfl := eq_cons_of_expect hdash
  obtain rfl := eq_cons_of_expect hdash'
  -- whichever letter stands between the date and the time, the rest of the layout is the same
  cases timed with
  | nil => exact nomatch h
  | cons letter timed =>
    dsimp only at h
    split at h
    · obtain ⟨_, hletter, h⟩ := Option.bind_eq_some_iff.mp h
      obtain ⟨⟨hour, _⟩, hhour, h⟩ := Option.bind_eq_some_iff.mp h
      obtain ⟨_, hcolon, h⟩ := Option.bind_eq_some_iff.mp h
      obtain ⟨⟨minute, _⟩, hminute, h⟩ := Option.bind_eq_some_iff.mp h
      obtain ⟨_, hcolon', h⟩ := Option.bind_eq_some_iff.mp h
      obtain ⟨⟨second, _⟩, hsecond, h⟩ := Option.bind_eq_some_iff.mp h
      obtain ⟨⟨nanos, zoned⟩, hnanos, h⟩ := Option.bind_eq_some_iff.mp h
      obtain ⟨⟨offset, _⟩, hoffset, -⟩ := Option.bind_eq_some_iff.mp h
      obtain rfl := Option.some.inj hletter
      obtain rfl := eq_cons_of_expect hcolon
      obtain rfl := eq_cons_of_expect hcolon'
      obtain ⟨c, hc, hzone⟩ := isZoneMark_of_internetOffset? hoffset
      have hdate : letter :: timed <:+ cs :=
        (takes_digits? hday).suffix.trans <| (List.suffix_cons _ _).trans <|
          (takes_digits? hmonth).suffix.trans <| (List.suffix_cons _ _).trans
            (takes_digits? hyear).suffix
      have htime := (takes_digits? hhour).suffix.trans ((List.suffix_cons _ _).trans hdate)
      have hback := (takes_fraction? hnanos).suffix.trans <| (takes_digits? hsecond).suffix.trans <|
        (List.suffix_cons _ _).trans (takes_digits? hminute).suffix
      exact isZoned_of_suffix hzone (hback.subset hc) htime
    · exact nomatch h

end BoundSql.Layout
