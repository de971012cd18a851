import BoundSql.Proofs.Parameter.Map
import Mathlib.Data.List.Forall2

/-!
# Which names are spellings of one parameter

A set of parameters knows a name by its canonical form, which shows an underscore for every
character that a token cannot carry and the letter `p` for nothing at all. Two names are therefore
spellings of one parameter when they agree, behind their markers, up to characters that show as
underscores. Adding a parameter under a name reaches all spellings of that name and no other name;
names that a token can carry as they are have one spelling behind their markers.
-/

namespace BoundSql

namespace Parameter

/-- What is left of a name behind its markers. -/
def bare (name : String) : List Char :=
  name.toList.dropWhile isMarker

/-- A name behind its markers, with the letter that stands for a name without characters. -/
def filled (name : String) : List Char :=
  match bare name with
  | [] => ['p']
  | word => word

/-- Whether a token shows an underscore for a character. -/
def isBlurred (c : Char) : Bool :=
  c == '_' || !Token.isWord c

/-- Two names are spellings of one parameter when they agree behind their markers, place by place,
up to characters that show as underscores. -/
def SpelledAlike (a b : String) : Prop :=
  List.Forall₂ (fun c d => c = d ∨ isBlurred c = true ∧ isBlurred d = true) (filled a) (filled b)

/-- A token shows an underscore exactly for the blurred characters. -/
theorem safe_eq_underscore_iff (c : Char) : safe c = '_' ↔ isBlurred c = true := by
  unfold safe isBlurred
  cases h : Token.isWord c <;> simp

/-- A character that is not blurred shows as itself. -/
theorem safe_of_not_isBlurred {c : Char} (h : isBlurred c = false) : safe c = c := by
  have hword : Token.isWord c = true := by
    simp only [isBlurred, Bool.or_eq_false_iff, Bool.not_eq_false'] at h
    exact h.2
  rw [safe, if_pos hword]

/-- Two characters show alike when they are the same or both show as underscores. -/
theorem safe_eq_safe_iff (c d : Char) :
    safe c = safe d ↔ c = d ∨ isBlurred c = true ∧ isBlurred d = true := by
  constructor
  · intro h
    cases hc : isBlurred c with
    | true =>
      have hd : safe d = '_' := h.symm.trans ((safe_eq_underscore_iff c).mpr hc)
      exact .inr ⟨rfl, (safe_eq_underscore_iff d).mp hd⟩
    | false =>
      cases hd : isBlurred d with
      | true =>
        have hunderscore : safe c = '_' := h.trans ((safe_eq_underscore_iff d).mpr hd)
        rw [safe_eq_underscore_iff, hc] at hunderscore
        exact absurd hunderscore Bool.false_ne_true
      | false =>
        rw [safe_of_not_isBlurred hc, safe_of_not_isBlurred hd] at h
        exact .inl h
  · rintro (rfl | ⟨hc, hd⟩)
    · rfl
    · rw [(safe_eq_underscore_iff c).mpr hc, (safe_eq_underscore_iff d).mpr hd]

/-- The canonical form of a name is what a token shows for it. -/
theorem canonicalWord_eq_map_filled (name : String) :
    canonicalWord name.toList = (filled name).map safe := by
  unfold canonicalWord filled bare
  cases name.toList.dropWhile isMarker with
  | nil => decide
  | cons c rest => rfl

/-- Two names have one canonical form exactly when they are spellings of one parameter. -/
theorem canonical_eq_canonical_iff (a b : String) :
    canonical a = canonical b ↔ SpelledAlike a b := by
  have hword : canonical a = canonical b ↔
      canonicalWord a.toList = canonicalWord b.toList := by
    rw [canonical, canonical, String.ofList_inj, List.cons_inj_right]
  rw [hword, canonicalWord_eq_map_filled, canonicalWord_eq_map_filled, ← List.forall₂_eq_eq_eq,
    List.forall₂_map_left_iff, List.forall₂_map_right_iff]
  simp only [safe_eq_safe_iff]
  rfl

/-- Names that a token can carry as they are have no other such spelling behind their markers. -/
theorem bare_eq_of_spelledAlike {a b : String} (ha : ∀ c ∈ bare a, Token.isWord c = true)
    (hb : ∀ c ∈ bare b, Token.isWord c = true) (hane : bare a ≠ []) (hbne : bare b ≠ [])
    (h : SpelledAlike a b) : bare a = bare b := by
  have hfilled {name : String} (hne : bare name ≠ []) : filled name = bare name := by
    obtain ⟨c, rest, hbare⟩ := List.exists_cons_of_ne_nil hne
    simp only [filled, hbare]
  have hcanonical := (canonical_eq_canonical_iff a b).mpr h
  have hword := (List.cons.inj (String.ofList_injective hcanonical)).2
  rwa [canonicalWord_eq_map_filled, canonicalWord_eq_map_filled, hfilled hane, hfilled hbne,
    map_safe_of_isWord ha, map_safe_of_isWord hb] at hword

end Parameter

namespace ParameterSet

/-- Adding a parameter under a name leaves what every name finds that is not a spelling of the same
parameter, and replaces what every spelling of it finds. In particular, names that a token can carry
as they are do not reach each other once they differ behind their markers. -/
theorem addNamed_spares (s : ParameterSet) (first second : String) (value : Value)
    (direction : Direction) :
    let added := (s.addNamed second value direction).1
    (¬Parameter.SpelledAlike first second → added.get? first = s.get? first) ∧
    (Parameter.SpelledAlike first second →
      added.get? first = some (.given (Parameter.canonical first) value direction)) ∧
    ((∀ c ∈ Parameter.bare first, Token.isWord c = true) →
      (∀ c ∈ Parameter.bare second, Token.isWord c = true) →
      Parameter.bare first ≠ [] → Parameter.bare second ≠ [] →
      Parameter.bare first ≠ Parameter.bare second → added.get? first = s.get? first) := by
  intro added
  have hget : added.get? first = if Parameter.canonical first = Parameter.canonical second then
      some (.given (Parameter.canonical second) value direction) else s.get? first :=
    find?_of_entries_eq_put (p := .given (Parameter.canonical second) value direction) rfl _
  have hspares (h : ¬Parameter.SpelledAlike first second) : added.get? first = s.get? first := by
    rw [hget, if_neg (mt (Parameter.canonical_eq_canonical_iff first second).mp h)]
  refine ⟨hspares, ?_, ?_⟩
  · intro h
    have hcanonical := (Parameter.canonical_eq_canonical_iff first second).mpr h
    rw [hget, if_pos hcanonical, hcanonical]
  · intro hfirst hsecond hfirstne hsecondne hne
    exact hspares fun h =>
      hne (Parameter.bare_eq_of_spelledAlike hfirst hsecond hfirstne hsecondne h)

/-- Names that a token can carry do not reach each other, whatever markers stand in front of them.
-/
theorem addNamed_spares_marked :
    let s := ((empty (Supply.series 0)).addNamed "@order" (.int 1)).1
    (s.addNamed ":orders" (.int 2)).1.get? "order" = s.get? "order" := by
  intro s
  exact (addNamed_spares s "order" ":orders" (.int 2) .input).2.2
    (List.all_eq_true.mp (by decide)) (List.all_eq_true.mp (by decide))
    (by decide) (by decide) (by decide)

/-- A blank and an underscore show alike, so the second of two different names takes the place of
the first. -/
theorem addNamed_reaches_other :
    let s := ((empty (Supply.series 0)).addNamed "order date" (.int 1)).1
    Parameter.bare "order date" ≠ Parameter.bare "order_date" ∧
      (s.get? "order date").map Parameter.value = some (.int 1) ∧
      ((s.addNamed "order_date" (.int 2)).1.get? "order date").map Parameter.value =
        some (.int 2) := by
  decide

end ParameterSet

end BoundSql
