import BoundSql.Row.ShapeCache
import Mathlib.Data.List.Nodup

/-!
# Callers of a cache of shapes

A caller has described at most one type whose shape it has not kept so far, and it has found that
type to have no shape. What holds of a cache and of the only caller that may hold its exclusive lock
holds after a step of that caller, which leaves every kept shape as it is and brings the caller
closer to its end.
-/

namespace BoundSql.ShapeCache

/-- The types that have a shape, in the order in which their shapes were kept. -/
def types (c : ShapeCache) : List String :=
  c.shapes.map Prod.fst

/-- A type has no shape when it is not among the types that have one. -/
theorem find?_eq_none_iff {c : ShapeCache} {type : String} :
    c.find? type = none ↔ type ∉ c.types := by
  simp only [find?, List.lookup_eq_none_iff, types, List.mem_map, not_exists, not_and, bne_iff_ne]
  exact ⟨fun h entry hentry heq => h entry hentry heq.symm, fun h entry hentry heq =>
    h entry hentry heq.symm⟩

/-- The shape of a type that has none is kept behind the others. -/
theorem shapes_keep {c : ShapeCache} {type : String} (h : type ∉ c.types) (shape : Shape) :
    (c.keep type shape).shapes = c.shapes ++ [(type, shape)] := by
  have hall : c.shapes.filter (·.1 != type) = c.shapes :=
    List.filter_eq_self.mpr fun entry hentry =>
      bne_iff_ne.mpr fun heq => h (List.mem_map.mpr ⟨entry, hentry, heq⟩)
  rw [keep, hall]

namespace Caller

/-- The type that a caller asks for. -/
def type : Caller → String
  | looking type | waiting type | locked type | describing type => type
  | described type _ | counted type _ | returned type _ => type

/-- The type that a caller describes in its next step. -/
def describes? : Caller → Option String
  | describing type => some type
  | _ => none

/-- The type that a caller has described without having kept its shape so far. -/
def pending? : Caller → Option String
  | described type _ | counted type _ => some type
  | _ => none

/-- The type that a caller has found to have no shape, under the exclusive lock. -/
def missing? : Caller → Option String
  | describing type | described type _ | counted type _ => some type
  | _ => none

/-- Whether a caller has counted a description without having kept the shape so far. -/
def isAhead : Caller → Bool
  | counted _ _ => true
  | _ => false

/-- How many steps a caller has in front of it at most, until it is gone. -/
def remaining : Caller → Nat
  | looking _ => 6
  | waiting _ => 5
  | locked _ => 4
  | describing _ => 3
  | described _ _ => 2
  | counted _ _ => 1
  | returned _ _ => 0

/-- A step brings a caller that is not gone closer to its end. -/
theorem remaining_step (describe : String → Shape) (c : ShapeCache) {caller : Caller}
    (h : caller.remaining ≠ 0) : (caller.step describe c).2.remaining < caller.remaining := by
  cases caller with
  | looking type | locked type =>
    simp only [step]
    split <;> simp [remaining]
  | waiting type | describing type | described type shape | counted type shape =>
    exact Nat.lt_succ_self _
  | returned type shape => exact absurd rfl h

/-- A caller without steps in front of it is gone. -/
theorem eq_returned {caller : Caller} (h : caller.remaining = 0) :
    ∃ shape, caller = .returned caller.type shape := by
  cases caller with
  | returned type shape => exact ⟨shape, rfl⟩
  | looking type | waiting type | locked type | describing type | described type shape
  | counted type shape => simp [remaining] at h

/-- A caller that holds the exclusive lock is not gone. -/
theorem remaining_ne_zero_of_isLocked {caller : Caller} (h : caller.isLocked = true) :
    caller.remaining ≠ 0 := by
  intro hgone
  obtain ⟨shape, heq⟩ := eq_returned hgone
  have hfree : (returned caller.type shape).isLocked = false := rfl
  rw [heq, hfree] at h
  exact Bool.noConfusion h

/-- A caller that has described nothing that is yet to be kept, nor is about to describe anything.
-/
structure Idle (caller : Caller) : Prop where
  /-- It has described nothing that is yet to be kept. -/
  pending_eq : caller.pending? = none
  /-- It has found no type to have no shape. -/
  missing_eq : caller.missing? = none
  /-- It has counted no description ahead. -/
  ahead_eq : caller.isAhead = false

/-- A caller without the exclusive lock is idle. -/
theorem idle_of_not_isLocked {caller : Caller} (h : caller.isLocked = false) : caller.Idle := by
  cases caller with
  | looking type | waiting type | returned type shape => exact ⟨rfl, rfl, rfl⟩
  | locked type | describing type | described type shape | counted type shape =>
    simp [isLocked] at h

/-- A caller keeps asking for the same type. -/
theorem type_step (describe : String → Shape) (c : ShapeCache) (caller : Caller) :
    (caller.step describe c).2.type = caller.type := by
  cases caller with
  | looking type | locked type =>
    simp only [step]
    split <;> rfl
  | waiting type | describing type | described type shape | counted type shape
  | returned type shape => rfl

/-- A step leaves every shape that was kept as it is, if a type that was found to have no shape has
none. -/
theorem find?_step (describe : String → Shape) {c : ShapeCache} {caller : Caller}
    (hmissing : ∀ type ∈ caller.missing?, type ∉ c.types) {type : String} {shape : Shape}
    (h : c.find? type = some shape) : (caller.step describe c).1.find? type = some shape := by
  cases caller with
  | looking other | locked other =>
    simp only [step]
    split <;> exact h
  | waiting other | describing other | described other _ | returned other _ => exact h
  | counted other found =>
    have hshapes := shapes_keep (hmissing other rfl) found
    simp only [find?] at h ⊢
    rw [step, hshapes, List.lookup_append, h, Option.some_or]

/-- What holds of a cache and the only caller that may hold its exclusive lock, when some types have
been described. -/
structure Sound (c : ShapeCache) (log : List String) (caller : Caller) : Prop where
  /-- The types described are those with a shape and the one whose shape is yet to be kept. -/
  log_eq : log = c.types ++ caller.pending?.toList
  /-- No type was described twice. -/
  nodup : log.Nodup
  /-- The descriptions counted are the shapes kept and the one that is yet to be kept. -/
  discoveries_eq : c.discoveries = c.size + caller.isAhead.toNat
  /-- A type that was found to have no shape has none. -/
  missing : ∀ type ∈ caller.missing?, type ∉ c.types
  /-- A caller that is gone was given the shape that is kept. -/
  kept : ∀ type shape, caller = .returned type shape → c.find? type = some shape

/-- For an idle caller the types described are those with a shape, and as many are counted. -/
theorem Idle.sound_iff {c : ShapeCache} {log : List String} {caller : Caller} (h : caller.Idle) :
    caller.Sound c log ↔ (log = c.types ∧ log.Nodup ∧ c.discoveries = c.size) ∧
      ∀ type shape, caller = .returned type shape → c.find? type = some shape := by
  constructor
  · intro hsound
    have hlog := hsound.log_eq
    have hcount := hsound.discoveries_eq
    rw [h.pending_eq, Option.toList_none, List.append_nil] at hlog
    rw [h.ahead_eq, Bool.toNat_false, Nat.add_zero] at hcount
    exact ⟨⟨hlog, hsound.nodup, hcount⟩, hsound.kept⟩
  · rintro ⟨⟨hlog, hnodup, hcount⟩, hreturned⟩
    refine ⟨?_, hnodup, ?_, ?_, hreturned⟩
    · rw [h.pending_eq, Option.toList_none, List.append_nil, hlog]
    · rw [h.ahead_eq, Bool.toNat_false, Nat.add_zero, hcount]
    · intro type htype
      rw [h.missing_eq] at htype
      exact nomatch htype

/-- What holds of the caller that moves holds after its step, the type that it describes added. -/
theorem Sound.step {c : ShapeCache} {log : List String} {caller : Caller}
    (h : caller.Sound c log) (describe : String → Shape) :
    (caller.step describe c).2.Sound (caller.step describe c).1
      (log ++ caller.describes?.toList) := by
  have hfound {type : String} {shape : Shape} (hkept : c.find? type = some shape) :
      ∀ other found, Caller.returned type shape = .returned other found →
        c.find? other = some found := by
    rintro other found ⟨⟩
    exact hkept
  cases caller with
  | looking type =>
    have hidle : (looking type).Idle := ⟨rfl, rfl, rfl⟩
    have hclear := (hidle.sound_iff.mp h).1
    simp only [describes?, Option.toList_none, List.append_nil, Caller.step]
    split
    · rename_i shape hkept
      have hgone : (returned type shape).Idle := ⟨rfl, rfl, rfl⟩
      exact hgone.sound_iff.mpr ⟨hclear, hfound hkept⟩
    · have hwaiting : (waiting type).Idle := ⟨rfl, rfl, rfl⟩
      exact hwaiting.sound_iff.mpr ⟨hclear, fun _ _ heq => nomatch heq⟩
  | waiting type =>
    have hidle : (waiting type).Idle := ⟨rfl, rfl, rfl⟩
    have hlocked : (locked type).Idle := ⟨rfl, rfl, rfl⟩
    simp only [describes?, Option.toList_none, List.append_nil]
    exact hlocked.sound_iff.mpr ⟨(hidle.sound_iff.mp h).1, fun _ _ heq => nomatch heq⟩
  | locked type =>
    have hidle : (locked type).Idle := ⟨rfl, rfl, rfl⟩
    have hclear := (hidle.sound_iff.mp h).1
    simp only [describes?, Option.toList_none, List.append_nil, Caller.step]
    split
    · rename_i shape hkept
      have hgone : (returned type shape).Idle := ⟨rfl, rfl, rfl⟩
      exact hgone.sound_iff.mpr ⟨hclear, hfound hkept⟩
    · rename_i hnone
      refine ⟨h.log_eq, h.nodup, h.discoveries_eq, ?_, fun _ _ heq => nomatch heq⟩
      intro other hother
      rw [← Option.some.inj hother]
      exact find?_eq_none_iff.mp hnone
  | describing type =>
    -- Nothing is pending, so the types described are those with a shape, and this one is not there.
    have hlog : log = c.types := h.log_eq.trans (List.append_nil _)
    have hnew : type ∉ log := by
      rw [hlog]
      exact h.missing type rfl
    refine ⟨?_, ?_, h.discoveries_eq, h.missing, fun _ _ heq => nomatch heq⟩
    · rw [hlog]
      rfl
    · rw [describes?, Option.toList_some, ← List.concat_eq_append, List.nodup_concat]
      exact ⟨hnew, h.nodup⟩
  | described type shape =>
    have hcount : c.discoveries = c.size := h.discoveries_eq
    have hahead : c.discoveries + 1 = c.size + 1 := by omega
    simp only [describes?, Option.toList_none, List.append_nil]
    exact ⟨h.log_eq, h.nodup, hahead, h.missing, fun _ _ heq => nomatch heq⟩
  | counted type shape =>
    have hnew : type ∉ c.types := h.missing type rfl
    have hshapes : (c.keep type shape).shapes = c.shapes ++ [(type, shape)] :=
      shapes_keep hnew shape
    have hgone : (returned type shape).Idle := ⟨rfl, rfl, rfl⟩
    simp only [describes?, Option.toList_none, List.append_nil]
    refine hgone.sound_iff.mpr ⟨⟨?_, h.nodup, ?_⟩, ?_⟩
    · rw [h.log_eq, Caller.step, types, types, hshapes, List.map_append]
      rfl
    · have hcount : c.discoveries = c.size + 1 := h.discoveries_eq
      rw [Caller.step, size, hshapes, List.length_append, List.length_singleton]
      exact hcount
    · rintro other found ⟨⟩
      have hnone : c.find? type = none := find?_eq_none_iff.mpr hnew
      rw [find?] at hnone
      rw [Caller.step, find?, hshapes, List.lookup_append, hnone]
      simp
  | returned type shape =>
    simp only [describes?, Option.toList_none, List.append_nil]
    exact h

end Caller

end BoundSql.ShapeCache
