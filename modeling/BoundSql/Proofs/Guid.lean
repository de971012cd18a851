import BoundSql.Guid
import BoundSql.Proofs.Text.Hex

/-!
# Identifiers are read back

Groups of digits are joined to the digits that were put in groups, and the text of an identifier is
the one form of thirty-six characters.
-/

namespace BoundSql.Guid

/-- Groups of digits are joined to the digits. -/
theorem joinGroups?_hyphenate {groups : List Nat} (hne : groups ≠ []) {cs : List Char}
    (hlength : cs.length = groups.sum) : joinGroups? groups (hyphenate groups cs) = some cs := by
  induction groups generalizing cs with
  | nil => exact absurd rfl hne
  | cons n rest ih =>
    rw [List.sum_cons] at hlength
    cases rest with
    | nil => exact if_pos hlength
    | cons m rest =>
      have htake : (cs.take n).length = n := List.length_take_of_le (by omega)
      have hrest : (cs.drop n).length = (m :: rest).sum := by
        rw [List.length_drop]
        omega
      have hjoined := ih (List.cons_ne_nil m rest) hrest
      simp only [hyphenate, joinGroups?, List.drop_left' htake, List.take_left' htake, hjoined,
        Option.map_some, List.take_append_drop]

/-- Every group but the first adds a hyphen. -/
theorem length_hyphenate {groups : List Nat} {cs : List Char} (hlength : cs.length = groups.sum) :
    (hyphenate groups cs).length = cs.length + (groups.length - 1) := by
  induction groups generalizing cs with
  | nil => simp [hyphenate]
  | cons n rest ih =>
    rw [List.sum_cons] at hlength
    cases rest with
    | nil => simp [hyphenate]
    | cons m rest =>
      have hrest : (cs.drop n).length = (m :: rest).sum := by
        rw [List.length_drop]
        omega
      simp only [hyphenate, List.length_append, List.length_take, List.length_cons, ih hrest,
        List.length_drop]
      omega

/-- Groups of digits hold digits and hyphens. -/
theorem mem_of_mem_hyphenate {groups : List Nat} {cs : List Char} {c : Char}
    (h : c ∈ hyphenate groups cs) : c ∈ cs ∨ c = '-' := by
  induction groups generalizing cs with
  | nil => exact Or.inl h
  | cons n rest ih =>
    cases rest with
    | nil => exact Or.inl h
    | cons m rest =>
      rw [hyphenate, List.mem_append, List.mem_cons] at h
      · rcases h with h | h | h
        · exact Or.inl (List.mem_of_mem_take h)
        · exact Or.inr h
        · exact (ih h).imp_left List.mem_of_mem_drop
      · exact fun hnil => nomatch hnil

/-- The text of an identifier has thirty-two digits. -/
theorem length_lower_bytes (g : Guid) : (Hex.lower g.bytes).length = groups.sum := by
  rw [Hex.lower, Hex.length_flatMap_pair, g.length_eq]
  rfl

/-- The text of an identifier has nothing to trim. -/
theorem trimmed_text (g : Guid) : Text.trimmed g.text = g.text := by
  refine Text.trimmed_of_forall fun c hc => ?_
  rcases mem_of_mem_hyphenate hc with hc | rfl
  · exact Hex.isBlank_of_mem_flatMap_pair (by decide) hc
  · decide

/-- An identifier is read back. -/
theorem read?_text (g : Guid) : read? g.text = some g := by
  have hlength : g.text.length = 36 := by
    rw [text, length_hyphenate g.length_lower_bytes, g.length_lower_bytes]
    rfl
  have hjoined : joinGroups? groups g.text = some (Hex.lower g.bytes) :=
    joinGroups?_hyphenate (by decide) g.length_lower_bytes
  have hbytes : ofBytes? g.bytes = some g := dif_pos g.length_eq
  rw [read?, if_neg (by omega), if_pos hlength, readGroups?, hjoined, Option.bind_some, readDigits?,
    Hex.lower, Hex.bytes?_flatMap_pair (by decide), Option.bind_some, hbytes]

end BoundSql.Guid
