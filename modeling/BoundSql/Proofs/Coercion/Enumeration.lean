import BoundSql.Proofs.Row.Unwrap
import BoundSql.Proofs.Text.Name

/-!
# Members of enumerations are found exactly

A raw value denotes a member of an enumeration when it stands for the member's ordinal or when it is
the member's name in other letters. A name is an identifier, so no text is a name and a numeral at
once, and it does not matter which of the two readings is tried first. The coercion takes every
ordinal, of a member or not; the place then takes the ordinals of members only, and is left as it
was by every raw value that denotes none.
-/

namespace BoundSql

/-- A name begins as identifiers do: with a character that is neither a digit nor a sign. -/
def Name.IsIdentifier (name : String) : Prop :=
  ∃ c rest, name.toList = c :: rest ∧ Numeral.isDigit c = false ∧ c ≠ '+' ∧ c ≠ '-'

/-- The tables that enumerations are declared with. -/
structure Ordinals.Declared (ordinals : Ordinals) : Prop where
  /-- The names are identifiers. -/
  identifiers : ∀ p ∈ ordinals, Name.IsIdentifier p.1
  /-- No two names are the same up to the case of ASCII letters. -/
  names_nodup : (ordinals.map fun p => p.1.toList.map CaseFold.asciiLower).Nodup
  /-- No two members have the same ordinal. -/
  ordinals_nodup : (ordinals.map Prod.snd).Nodup

/-- A raw value is a name when it is a text that agrees with the name, once it is trimmed, up to the
case of ASCII letters. -/
def Value.Names : Value → String → Prop
  | .text s, name => CaseFold.asciiSame name.toList (Text.trimmed s.toList) = true
  | _, _ => False

/-- A raw value denotes a member of an enumeration by its ordinal or by its name. -/
def Value.Denotes (raw : Value) (member : String × Int64) : Prop :=
  raw.RoundsTo member.2.toInt ∨ raw.Names member.1

/-- The ordinal of a member of an enumeration, if a place holds one. -/
def Cell.ordinal? : Cell → Option Int64
  | .enumerator _ ordinal => some ordinal
  | _ => none

namespace Numeral

/-- A numeral begins with a digit or a sign. -/
theorem IsNumeral.exists_eq_cons {cs : List Char} {n : ℤ} (h : IsNumeral cs n) :
    ∃ c rest, cs = c :: rest ∧ (isDigit c = true ∨ c = '+' ∨ c = '-') := by
  cases h with
  | unsigned hne hdigits =>
    obtain ⟨c, rest, rfl⟩ := List.exists_cons_of_ne_nil hne
    exact ⟨c, rest, rfl, .inl (hdigits c List.mem_cons_self)⟩
  | plus => exact ⟨'+', _, rfl, .inr (.inl rfl)⟩
  | minus => exact ⟨'-', _, rfl, .inr (.inr rfl)⟩

end Numeral

/-- An identifier in whatever letters is no numeral. -/
theorem Name.IsIdentifier.not_isNumeral {name : String} (h : IsIdentifier name) {cs : List Char}
    (hsame : CaseFold.asciiSame name.toList cs = true) (n : ℤ) : ¬Numeral.IsNumeral cs n := by
  intro hnumeral
  obtain ⟨c, rest, hname, hdigit, hplus, hminus⟩ := h
  obtain ⟨d, tail, rfl, hd⟩ := hnumeral.exists_eq_cons
  have hfront : d.toNat < 65 := by
    rcases hd with hd | rfl | rfl
    · have hrange := Numeral.toNat_of_isDigit hd
      omega
    · decide
    · decide
  rw [CaseFold.asciiSame_iff, hname, List.map_cons, List.map_cons] at hsame
  have hlower := (List.cons.inj hsame).1
  rw [CaseFold.asciiLower_of_lt hfront] at hlower
  obtain rfl := CaseFold.eq_of_asciiLower_eq hfront hlower
  rcases hd with hd | hd | hd
  · exact absurd (hdigit.symm.trans hd) Bool.false_ne_true
  · exact hplus hd
  · exact hminus hd

namespace Ordinals.Declared

variable {ordinals : Ordinals} (h : ordinals.Declared)
include h

/-- A place takes the ordinals of members and shows the member. -/
theorem enumerator?_eq_some_iff (n : Int64) (cell : Cell) :
    ordinals.enumerator? n = some cell ↔
      ∃ p ∈ ordinals, p.2 = n ∧ cell = .enumerator p.1 p.2 := by
  have hfind (p : String × Int64) :
      (ordinals.find? fun p => p.2 = n) = some p ↔ p ∈ ordinals ∧ p.2 = n :=
    Keyed.find?_eq_some_iff h.ordinals_nodup fun _ => decide_eq_true_iff
  rw [enumerator?, Option.map_eq_some_iff]
  constructor
  · intro ⟨p, hp, heq⟩
    exact ⟨p, ((hfind p).mp hp).1, ((hfind p).mp hp).2, heq.symm⟩
  · intro ⟨p, hp, hordinal, heq⟩
    exact ⟨p, (hfind p).mpr ⟨hp, hordinal⟩, heq.symm⟩

/-- The ordinal of the member that an ordinal belongs to is that ordinal. -/
theorem bind_ordinal?_enumerator? {p : String × Int64} (hp : p ∈ ordinals) :
    (ordinals.enumerator? p.2).bind Cell.ordinal? = some p.2 := by
  rw [(h.enumerator?_eq_some_iff _ _).mpr ⟨p, hp, rfl, rfl⟩]
  rfl

/-- A text in whatever letters is looked up under the name that it is. -/
theorem find?_name_eq_some_iff (cs : List Char) (p : String × Int64) :
    (ordinals.find? fun p => CaseFold.asciiSame p.1.toList cs) = some p ↔
      p ∈ ordinals ∧ CaseFold.asciiSame p.1.toList cs = true := by
  rw [CaseFold.asciiSame_iff]
  exact Keyed.find?_eq_some_iff h.names_nodup fun q => CaseFold.asciiSame_iff q.1.toList cs

/-- The coercion takes the integer that a raw value stands for, and the ordinal of the member that
it names. -/
theorem ordinal?_eq_some_iff (raw : Value) (n : Int64) :
    Convert.ordinal? ordinals raw = some n ↔
      raw.RoundsTo n.toInt ∨ ∃ p ∈ ordinals, p.2 = n ∧ raw.Names p.1 := by
  cases raw with
  | text s =>
    have hword := Convert.word?_eq_some_iff (.text s)
    rw [Convert.word?] at hword
    simp only [Convert.ordinal?, ← hword, Value.Names]
    cases hread : Numeral.readWord? (Text.trimmed s.toList) with
    | some m =>
      constructor
      · exact .inl
      · rintro (heq | ⟨p, hp, -, hname⟩)
        · exact heq
        · have hnumeral := (hword m).mp hread
          exact absurd hnumeral ((h.identifiers p hp).not_isNumeral hname m.toInt)
    | none =>
      simp only [reduceCtorEq, false_or, Option.map_eq_some_iff, h.find?_name_eq_some_iff]
      constructor
      · rintro ⟨p, ⟨hp, hname⟩, hn⟩
        exact ⟨p, hp, hn, hname⟩
      · rintro ⟨p, hp, hn, hname⟩
        exact ⟨p, ⟨hp, hname⟩, hn⟩
  | _ => simp [Convert.ordinal?, Convert.word?_eq_some_iff, Value.Names]

/-- A blank value has no ordinal. -/
theorem ordinal?_of_isBlank {raw : Value} (hblank : Engine.isBlank raw = true) :
    Convert.ordinal? ordinals raw = none := by
  refine Option.eq_none_iff_forall_ne_some.mpr fun n hn => ?_
  rcases (h.ordinal?_eq_some_iff raw n).mp hn with hround | ⟨p, hp, -, hname⟩
  · rw [← Convert.word?_eq_some_iff, Convert.word?_of_isBlank hblank] at hround
    exact nomatch hround
  · rcases (Engine.isBlank_iff raw).mp hblank with rfl | rfl
    · exact hname
    · obtain ⟨c, rest, hcons, -⟩ := h.identifiers p hp
      have hempty := (CaseFold.asciiSame_iff _ _).mp hname
      rw [hcons] at hempty
      exact nomatch hempty

/-- A coercion to an enumeration gives the ordinal of a raw value. -/
theorem coerce_eq (raw : Value) :
    Engine.standard.coerce (.enumeration ordinals) raw =
      (Convert.ordinal? ordinals raw).map .int := by
  unfold Engine.coerce
  split
  · rename_i hblank
    rw [h.ordinal?_of_isBlank hblank]
    rfl
  · split
    · rename_i hkind
      exact absurd hkind (by cases raw <;> exact Kind.noConfusion)
    · rfl

/-- A place of the enumeration takes the member that a raw value denotes. -/
theorem cell?_eq_some_iff (raw : Value) (cell : Cell) :
    Engine.standard.cell? (.enumeration ordinals) raw = some cell ↔
      ∃ p ∈ ordinals, raw.Denotes p ∧ cell = .enumerator p.1 p.2 := by
  have hcell : Engine.standard.cell? (.enumeration ordinals) raw =
      (Convert.ordinal? ordinals raw).bind ordinals.enumerator? := by
    rw [Engine.cell?, Target.kind, h.coerce_eq, Option.bind_map]
    rfl
  rw [hcell, Option.bind_eq_some_iff]
  constructor
  · rintro ⟨n, hordinal, hmember⟩
    obtain ⟨p, hp, rfl, rfl⟩ := (h.enumerator?_eq_some_iff n cell).mp hmember
    refine ⟨p, hp, ?_, rfl⟩
    rcases (h.ordinal?_eq_some_iff raw p.2).mp hordinal with hround | ⟨q, hq, heq, hname⟩
    · exact .inl hround
    · rw [List.inj_on_of_nodup_map h.ordinals_nodup hq hp heq] at hname
      exact .inr hname
  · rintro ⟨p, hp, hdenotes, rfl⟩
    refine ⟨p.2, (h.ordinal?_eq_some_iff raw p.2).mpr ?_,
      (h.enumerator?_eq_some_iff p.2 _).mpr ⟨p, hp, rfl, rfl⟩⟩
    exact hdenotes.imp_right fun hname => ⟨p, hp, rfl, hname⟩

/-- A place of the enumeration takes a member exactly when the raw value denotes it. -/
theorem cell?_eq_enumerator_iff (raw : Value) {p : String × Int64} (hp : p ∈ ordinals) :
    Engine.standard.cell? (.enumeration ordinals) raw = some (.enumerator p.1 p.2) ↔
      raw.Denotes p := by
  rw [h.cell?_eq_some_iff]
  constructor
  · rintro ⟨q, -, hdenotes, heq⟩
    obtain ⟨hname, hordinal⟩ := Cell.enumerator.inj heq
    rwa [Prod.ext hname hordinal]
  · intro hdenotes
    exact ⟨p, hp, hdenotes, rfl⟩

/-- A place of the enumeration takes nothing from a raw value that denotes no member. -/
theorem cell?_eq_none_iff (raw : Value) :
    Engine.standard.cell? (.enumeration ordinals) raw = none ↔
      ∀ p ∈ ordinals, ¬raw.Denotes p := by
  simp only [Option.eq_none_iff_forall_ne_some, ne_eq, h.cell?_eq_some_iff]
  constructor
  · intro hnone p hp hdenotes
    exact hnone _ ⟨p, hp, hdenotes, rfl⟩
  · rintro hnone cell ⟨p, hp, hdenotes, -⟩
    exact hnone p hp hdenotes

end Ordinals.Declared

namespace Engine

/-- A place of an enumeration is given a member exactly by the raw values that denote it: by an
integer, a truth value, a number rounded with halves to even or a numeral that is the member's
ordinal, and by the member's name in other letters. By every other raw value, also one that is an
ordinal of no member, the place is left with what it held. The ordinal of the member that an ordinal
belongs to is that ordinal. -/
theorem enumeration_exact (ordinals : Ordinals) (h : ordinals.Declared) :
    (∀ raw, ∀ p ∈ ordinals, standard.cell? (.enumeration ordinals) raw =
      some (.enumerator p.1 p.2) ↔ raw.Denotes p) ∧
    (∀ raw, standard.cell? (.enumeration ordinals) raw = none ↔
      ∀ p ∈ ordinals, ¬raw.Denotes p) ∧
    (∀ (shape : Shape) (i : Nat) (m : Member) (columns : List String) (values : List Value)
      (raw : Value), shape[i]? = some m → m.target = .enumeration ordinals →
      shape.firstMatch? i columns values = some raw →
        (∀ p ∈ ordinals, raw.Denotes p →
          (shape.fillOne standard columns values)[i]? = some (.enumerator p.1 p.2)) ∧
        ((∀ p ∈ ordinals, ¬raw.Denotes p) →
          (shape.fillOne standard columns values)[i]? = some m.initial)) ∧
    ∀ p ∈ ordinals, ordinals.enumerator? p.2 = some (.enumerator p.1 p.2) ∧
      (ordinals.enumerator? p.2).bind Cell.ordinal? = some p.2 := by
  refine ⟨fun raw p hp => h.cell?_eq_enumerator_iff raw hp, h.cell?_eq_none_iff, ?_, ?_⟩
  · intro shape i m columns values raw hm htarget hfirst
    have hfill := shape.getElem?_fillOne standard hm columns values
    rw [hfirst, htarget, Option.bind_some] at hfill
    constructor
    · intro p hp hdenotes
      rw [hfill, (h.cell?_eq_enumerator_iff raw hp).mpr hdenotes, Option.getD_some]
    · intro hnone
      rw [hfill, (h.cell?_eq_none_iff raw).mpr hnone, Option.getD_none]
  · intro p hp
    exact ⟨(h.enumerator?_eq_some_iff _ _).mpr ⟨p, hp, rfl, rfl⟩,
      h.bind_ordinal?_enumerator? hp⟩

/-- A name in other letters between blanks gives its member, and a name of no member gives none. -/
theorem enumeration_exact_levels :
    let levels : Ordinals := [("Bronze", 1), ("Silver", 2), ("Gold", 3)]
    levels.Declared ∧
      standard.cell? (.enumeration levels) (.text " gOLD ") = some (.enumerator "Gold" 3) ∧
      standard.cell? (.enumeration levels) (.text "platinum") = none := by
  intro levels
  have h : levels.Declared := by
    refine ⟨?_, by decide, by decide⟩
    simp only [levels, List.forall_mem_cons]
    exact ⟨⟨'B', "ronze".toList, by decide⟩, ⟨'S', "ilver".toList, by decide⟩,
      ⟨'G', "old".toList, by decide⟩, fun p hp => absurd hp List.not_mem_nil⟩
  obtain ⟨hgiven, hdeclined, -, -⟩ := enumeration_exact levels h
  have hnumeral : ∀ n : Int64, ¬(Value.text "platinum").RoundsTo n.toInt := by
    intro n hround
    rw [← Convert.word?_eq_some_iff] at hround
    exact absurd hround (by rw [show Convert.word? (.text "platinum") = none by decide]; simp)
  have hgold : (Value.text " gOLD ").Names "Gold" := by
    rw [Value.Names]
    decide
  refine ⟨h, (hgiven (.text " gOLD ") ("Gold", 3) (by decide)).mpr (.inr hgold), ?_⟩
  have hname : ∀ p ∈ levels,
      CaseFold.asciiSame p.1.toList (Text.trimmed "platinum".toList) = false := by
    decide
  refine (hdeclined (.text "platinum")).mpr fun p hp hdenotes => ?_
  rcases hdenotes with hround | hsame
  · exact hnumeral p.2 hround
  · exact absurd ((hname p hp).symm.trans hsame) Bool.false_ne_true

end Engine

end BoundSql
