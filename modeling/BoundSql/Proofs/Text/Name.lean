import BoundSql.Text.Name
import Mathlib.Data.List.Nodup

/-!
# Matching names is an equivalence

Two ASCII names are compared letter by letter and all others by their small-letter forms. Both
comparisons ask the same question: whether the small-letter forms agree. Matching is therefore an
equivalence relation, whichever comparison each pair of names goes through, and a search among names
cannot tell names apart that match.

Where names are the keys of the entries of a list and no two entries have the same one, the first
entry with a key is the only one. Looking a key up then finds it wherever it stands, so the order of
the entries does not matter.
-/

namespace BoundSql

namespace CaseFold

/-- The small-letter form of an ASCII character is one character. -/
theorem lower_of_isAscii {c : Char} (h : c.toNat < 128) : lower c = [asciiLower c] := by
  simp only [lower, if_pos h]

/-- The small-letter form of an ASCII text is found letter by letter. -/
theorem fold_of_isAscii {cs : List Char} (h : isAscii cs = true) : fold cs = cs.map asciiLower := by
  induction cs with
  | nil => rfl
  | cons c rest ih =>
    simp only [isAscii, List.all_cons, Bool.and_eq_true, decide_eq_true_eq] at h
    have hrest : fold rest = rest.map asciiLower := ih h.2
    simp only [fold, List.flatMap_cons, lower_of_isAscii h.1] at hrest ⊢
    rw [hrest]
    rfl

/-- Two texts agree when their small letters do. -/
theorem asciiSame_iff (a b : List Char) :
    asciiSame a b = true ↔ a.map asciiLower = b.map asciiLower :=
  beq_iff_eq

/-- A character in front of the capital letters stands for itself. -/
theorem asciiLower_of_lt {c : Char} (h : c.toNat < 65) : asciiLower c = c :=
  if_neg fun hcapital => absurd hcapital.1 (Nat.not_le_of_lt h)

/-- A character in front of the capital letters is the small letter of no other character. -/
theorem eq_of_asciiLower_eq {c d : Char} (hd : d.toNat < 65) (h : asciiLower c = d) : c = d := by
  unfold asciiLower at h
  split at h
  · rename_i hcapital
    have hge : 65 ≤ c.toNat := hcapital.1
    have hle : c.toNat ≤ 90 := hcapital.2
    have hsmall : (Char.ofNat (c.toNat + 32)).toNat = c.toNat + 32 := by
      rw [Char.ofNat, dif_pos (.inl (by omega))]
      rfl
    rw [← h, hsmall] at hd
    omega
  · exact h

end CaseFold

namespace Name

/-- Two names match exactly when their small-letter forms agree. -/
theorem same_iff_fold_eq (a b : String) :
    same a b = true ↔ CaseFold.fold a.toList = CaseFold.fold b.toList := by
  unfold same
  split
  · rename_i h
    obtain ⟨ha, hb⟩ := Bool.and_eq_true_iff.mp h
    rw [CaseFold.fold_of_isAscii ha, CaseFold.fold_of_isAscii hb]
    exact beq_iff_eq
  · exact beq_iff_eq

/-- A name matches itself. -/
theorem same_refl (a : String) : same a a = true :=
  (same_iff_fold_eq a a).mpr rfl

/-- Matching does not depend on which name comes first. -/
theorem same_comm (a b : String) : same a b = same b a := by
  rw [Bool.eq_iff_iff, same_iff_fold_eq, same_iff_fold_eq]
  exact eq_comm

/-- Names that match the same name match each other. -/
theorem same_trans {a b c : String} (hab : same a b = true) (hbc : same b c = true) :
    same a c = true := by
  rw [same_iff_fold_eq] at hab hbc ⊢
  exact hab.trans hbc

/-- Names that match each other match the same names. -/
theorem same_congr_right {a b : String} (h : same a b = true) (c : String) :
    same c a = same c b := by
  rw [Bool.eq_iff_iff]
  exact ⟨fun ha => same_trans ha h, fun hb => same_trans hb ((same_comm b a).trans h)⟩

/-- Names that match each other are found at the same place. -/
theorem position?_congr (names : List String) {a b : String} (h : same a b = true) :
    position? names a = position? names b := by
  have hpoint : (same · a) = (same · b) := funext (same_congr_right h)
  rw [position?, position?, hpoint]

/-- Two names match exactly when their small-letter forms, character by character, are the same, and
two ASCII names are compared letter by letter with the same outcome. Matching is an equivalence, and
names that match are found at the same place in every list of names. -/
theorem matching_equivalence :
    (∀ a b : String, same a b = true ↔
      a.toList.flatMap CaseFold.lower = b.toList.flatMap CaseFold.lower) ∧
    (∀ a b : String, CaseFold.isAscii a.toList = true → CaseFold.isAscii b.toList = true →
      (CaseFold.asciiSame a.toList b.toList = true ↔
        a.toList.flatMap CaseFold.lower = b.toList.flatMap CaseFold.lower)) ∧
    Equivalence (fun a b : String => same a b = true) ∧
    ∀ (names : List String) (a b : String), same a b = true →
      position? names a = position? names b := by
  refine ⟨same_iff_fold_eq, fun a b ha hb => ?_, ⟨same_refl, fun {a b} h => ?_, same_trans⟩,
    fun names a b h => position?_congr names h⟩
  · have hfast : same a b = CaseFold.asciiSame a.toList b.toList := by
      simp only [same, ha, hb, Bool.and_self, if_true]
    rw [← hfast]
    exact same_iff_fold_eq a b
  · rwa [same_comm b a]

/-- The Kelvin sign has the small letter of the ASCII capital, so the two match, and the ASCII small
letter matches the Kelvin sign by way of the capital. A name with the one finds a column with the
other. -/
theorem matching_equivalence_kelvin :
    CaseFold.isAscii "k".toList = true ∧ CaseFold.isAscii "K".toList = true ∧
      same "k" "\u212A" = true ∧ position? ["Unit", "\u212A"] "k" = some 1 := by
  obtain ⟨hgeneral, hascii, hequivalence, hfound⟩ := matching_equivalence
  have hcapital : same "K" "\u212A" = true := (hgeneral "K" "\u212A").mpr (by decide)
  have hshortcut := (hascii "k" "K" (by decide) (by decide)).mp (by decide)
  have hsmall : same "k" "\u212A" = true :=
    hequivalence.trans ((hgeneral "k" "K").mpr hshortcut) hcapital
  exact ⟨by decide, by decide, hsmall, (hfound _ "k" "\u212A" hsmall).trans (by decide)⟩

end Name

/-! ## Lists with different keys -/

namespace Keyed

variable {α κ : Type} {key : α → κ} {k : κ} {p : α → Bool}

/-- Among different keys a look-up finds exactly the entry with the key. -/
theorem find?_eq_some_iff {xs : List α} (hnodup : (xs.map key).Nodup)
    (hp : ∀ x, p x = true ↔ key x = k) {x : α} : xs.find? p = some x ↔ x ∈ xs ∧ key x = k := by
  have hfound {y : α} (hy : xs.find? p = some y) : y ∈ xs ∧ key y = k :=
    ⟨List.mem_of_find?_eq_some hy, (hp y).mp (List.find?_some hy)⟩
  constructor
  · exact hfound
  · intro ⟨hx, hkey⟩
    have hsome : (xs.find? p).isSome = true := List.find?_isSome.mpr ⟨x, hx, (hp x).mpr hkey⟩
    obtain ⟨y, hy⟩ := Option.isSome_iff_exists.mp hsome
    obtain ⟨hmem, hsame⟩ := hfound hy
    rw [hy, List.inj_on_of_nodup_map hnodup hmem hx (hsame.trans hkey.symm)]

end Keyed

end BoundSql
