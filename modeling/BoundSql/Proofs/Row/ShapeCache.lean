import BoundSql.Proofs.Row.Caller
import BoundSql.Proofs.Session.CancelToken
import Mathlib.Data.List.Dedup

/-!
# Shapes are described once

Any number of callers may miss a type under the shared lock before the first of them keeps its
shape. A caller that moves finds nobody else holding the exclusive lock, so what holds of the crowd
can be seen from that caller alone: the types described so far are those that have a shape and the
one that the caller has just described. Every type is therefore described at most once, its shape
stays as it is, and all callers that ask for the type are given that one shape, even if each
description of a type comes out differently. Since one caller at most holds the exclusive lock,
there is always one that can go on, and all of them come to their ends.
-/

namespace BoundSql.ShapeCache

namespace Crowd

/-- Callers about to look up their types in a cache without types. -/
def start (types : List String) : Crowd :=
  ⟨empty, types.map .looking⟩

/-- The type that is described when the caller at a place takes a step. -/
def describes? (s : Crowd) (i : Nat) : Option String :=
  if s.lockedByOther i then none else s.callers[i]?.bind Caller.describes?

/-- The types described in the course of some steps, one entry for each description. -/
def described (describe : Nat → String → Shape) (s : Crowd) : List Nat → List String
  | [] => []
  | i :: rest =>
    (s.describes? i).toList ++ described describe ((s.step describe i).getD s) rest

variable {describe : Nat → String → Shape}

/-- A step is a step of one caller, and none of the others holds the exclusive lock. -/
theorem step_cases {s t : Crowd} {i : Nat} (h : s.step describe i = some t) :
    ∃ before caller after, s.callers = before ++ caller :: after ∧
      (∀ other ∈ before ++ after, other.isLocked = false) ∧
      s.describes? i = caller.describes? ∧
      t = ⟨(caller.step (describe i) s.cache).1,
        before ++ (caller.step (describe i) s.cache).2 :: after⟩ := by
  unfold step at h
  split at h
  · exact nomatch h
  · rename_i caller hcaller
    split at h
    · exact nomatch h
    · rename_i hothers
      obtain ⟨hi, hget⟩ := List.getElem?_eq_some_iff.mp hcaller
      have hcallers : s.callers = s.callers.take i ++ caller :: s.callers.drop (i + 1) := by
        rw [← hget, List.getElem_cons_drop, List.take_append_drop]
      refine ⟨s.callers.take i, caller, s.callers.drop (i + 1), hcallers, ?_, ?_, ?_⟩
      · intro other hother
        have hnone : (s.callers.eraseIdx i).any Caller.isLocked = false := by
          simpa [lockedByOther] using hothers
        rw [List.eraseIdx_eq_take_drop_succ] at hnone
        exact Bool.eq_false_iff.mpr (List.any_eq_false.mp hnone other hother)
      · rw [describes?, if_neg hothers, hcaller]
        rfl
      · have hafter : ⟨(caller.step (describe i) s.cache).1,
            s.callers.set i (caller.step (describe i) s.cache).2⟩ = t := Option.some.inj h
        rw [← hafter, List.set_eq_take_append_cons_drop, if_pos hi]

/-- A caller can take a step while none of the others holds the exclusive lock. -/
theorem step_append_cons (c : ShapeCache) {before after : List Caller} (caller : Caller)
    (h : ∀ other ∈ before ++ after, other.isLocked = false) :
    Crowd.step describe ⟨c, before ++ caller :: after⟩ before.length =
      some ⟨(caller.step (describe before.length) c).1,
        before ++ (caller.step (describe before.length) c).2 :: after⟩ := by
  have herase : (before ++ caller :: after).eraseIdx before.length = before ++ after := by
    simp [List.eraseIdx_append_of_length_le]
  have hothers : lockedByOther ⟨c, before ++ caller :: after⟩ before.length = false := by
    simp only [lockedByOther, herase, List.any_eq_false]
    exact fun other hother => Bool.eq_false_iff.mp (h other hother)
  simp [Crowd.step, hothers]

/-- A step that cannot be taken describes nothing. -/
theorem describes?_of_step_eq_none {s : Crowd} {i : Nat} (h : s.step describe i = none) :
    s.describes? i = none := by
  unfold step at h
  unfold describes?
  split at h
  · rename_i hcaller
    simp [hcaller]
  · split at h
    · rename_i hothers
      rw [if_pos hothers]
    · exact nomatch h

/-- What holds of a cache and all callers at work on it, when some types have been described. -/
structure Sound (s : Crowd) (log : List String) : Prop where
  /-- The types described are those with a shape and those whose shapes are yet to be kept. -/
  log_eq : log = s.cache.types ++ s.callers.filterMap Caller.pending?
  /-- No type was described twice. -/
  nodup : log.Nodup
  /-- The descriptions counted are the shapes kept and those that are yet to be kept. -/
  discoveries_eq : s.cache.discoveries = s.cache.size + s.callers.countP Caller.isAhead
  /-- A type that was found to have no shape has none. -/
  missing : ∀ caller ∈ s.callers, ∀ type ∈ caller.missing?, type ∉ s.cache.types
  /-- A caller that is gone was given the shape that is kept. -/
  kept : ∀ type shape, .returned type shape ∈ s.callers → s.cache.find? type = some shape

/-- Nothing was described before the first step. -/
theorem sound_start (types : List String) : (start types).Sound [] where
  log_eq := by simp [start, empty, ShapeCache.types, Caller.pending?]
  nodup := List.nodup_nil
  discoveries_eq := by simp [start, empty, size, Caller.isAhead, Function.comp_def]
  missing := by simp [start, Caller.missing?]
  kept := by simp [start]

/-- When nothing else in a list passes a test, the test tells how many entries pass it. -/
theorem countP_append_cons {test : Caller → Bool} {before after : List Caller} {caller : Caller}
    (h : ∀ other ∈ before ++ after, test other = false) :
    (before ++ caller :: after).countP test = (test caller).toNat := by
  have hbefore : before.countP test = 0 := List.countP_eq_zero.mpr fun other hother =>
    Bool.eq_false_iff.mp (h other (List.mem_append_left _ hother))
  have hafter : after.countP test = 0 := List.countP_eq_zero.mpr fun other hother =>
    Bool.eq_false_iff.mp (h other (List.mem_append_right _ hother))
  rw [List.countP_append, hbefore, List.countP_cons, hafter]
  cases test caller <;> rfl

/-- While no other caller holds the exclusive lock, a crowd is sound when it is for one caller and
the others that are gone were given the shapes that are kept. -/
theorem sound_iff_of_others {c : ShapeCache} {log : List String} {before after : List Caller}
    {caller : Caller} (h : ∀ other ∈ before ++ after, other.isLocked = false) :
    Sound ⟨c, before ++ caller :: after⟩ log ↔
      caller.Sound c log ∧ ∀ type shape, .returned type shape ∈ before ++ after →
        c.find? type = some shape := by
  have hidle (other : Caller) (hother : other ∈ before ++ after) :=
    Caller.idle_of_not_isLocked (h other hother)
  have hpending : (before ++ caller :: after).filterMap Caller.pending? =
      caller.pending?.toList := by
    have hbefore : before.filterMap Caller.pending? = [] :=
      List.filterMap_eq_nil_iff.mpr fun other hother =>
        (hidle other (List.mem_append_left _ hother)).pending_eq
    have hafter : after.filterMap Caller.pending? = [] :=
      List.filterMap_eq_nil_iff.mpr fun other hother =>
        (hidle other (List.mem_append_right _ hother)).pending_eq
    rw [List.filterMap_append, hbefore, List.filterMap_cons, hafter]
    cases caller.pending? <;> rfl
  have hahead : (before ++ caller :: after).countP Caller.isAhead = caller.isAhead.toNat :=
    countP_append_cons fun other hother => (hidle other hother).ahead_eq
  have hmem (other : Caller) :
      other ∈ before ++ caller :: after ↔ other = caller ∨ other ∈ before ++ after := by
    simp only [List.mem_append, List.mem_cons]
    tauto
  constructor
  · rintro ⟨hlog, hnodup, hcount, hmissing, hreturned⟩
    refine ⟨⟨hpending ▸ hlog, hnodup, hahead ▸ hcount, ?_, ?_⟩, ?_⟩
    · exact hmissing caller ((hmem caller).mpr (Or.inl rfl))
    · intro type shape heq
      exact hreturned type shape ((hmem _).mpr (Or.inl heq.symm))
    · intro type shape hgone
      exact hreturned type shape ((hmem _).mpr (Or.inr hgone))
  · rintro ⟨⟨hlog, hnodup, hcount, hmissing, hreturned⟩, hothers⟩
    refine ⟨hpending.symm ▸ hlog, hnodup, hahead.symm ▸ hcount, ?_, ?_⟩
    · intro other hother type htype
      rcases (hmem other).mp hother with rfl | hother
      · exact hmissing type htype
      · rw [(hidle other hother).missing_eq] at htype
        exact absurd htype (Option.not_mem_none type)
    · intro type shape hgone
      rcases (hmem _).mp hgone with heq | hgone
      · exact hreturned type shape heq.symm
      · exact hothers type shape hgone

/-- A step keeps a crowd sound, the type that it describes added. -/
theorem Sound.step {s t : Crowd} {log : List String} {i : Nat} (h : s.Sound log)
    (hstep : s.step describe i = some t) : t.Sound (log ++ (s.describes? i).toList) := by
  obtain ⟨before, caller, after, hcallers, hothers, hdescribes, rfl⟩ := step_cases hstep
  obtain ⟨cache, callers⟩ := s
  obtain rfl : callers = before ++ caller :: after := hcallers
  obtain ⟨hcaller, hgone⟩ := (sound_iff_of_others hothers).mp h
  rw [hdescribes]
  refine (sound_iff_of_others hothers).mpr ⟨hcaller.step (describe i), ?_⟩
  intro type shape hmem
  exact Caller.find?_step (describe i) hcaller.missing (hgone type shape hmem)

/-- Any number of steps keep a crowd sound, the types that they describe added. -/
theorem Sound.run {s : Crowd} {log : List String} (h : s.Sound log) (order : List Nat) :
    (Crowd.run describe s order).Sound (log ++ described describe s order) := by
  induction order generalizing s log with
  | nil => simpa [Crowd.run, described] using h
  | cons i rest ih =>
    rw [described, ← List.append_assoc, Crowd.run, List.foldl_cons]
    cases hstep : s.step describe i with
    | none =>
      have hnothing := describes?_of_step_eq_none hstep
      rw [hnothing, Option.toList_none, List.append_nil]
      exact ih h
    | some t => exact ih (h.step hstep)

/-- Any number of steps of a sound crowd leave every shape that was kept as it is. -/
theorem Sound.find?_run {s : Crowd} {log : List String} (h : s.Sound log) (order : List Nat)
    {type : String} {shape : Shape} (hfound : s.cache.find? type = some shape) :
    (Crowd.run describe s order).cache.find? type = some shape := by
  -- the crowd stays sound, though the types described by then are not the same
  have hkept : ∀ {s t : Crowd} {i : Nat},
      (∃ log, s.Sound log) ∧ s.cache.find? type = some shape → s.step describe i = some t →
        (∃ log, t.Sound log) ∧ t.cache.find? type = some shape := by
    rintro s t i ⟨⟨log, hsound⟩, hfound⟩ hstep
    refine ⟨⟨_, hsound.step hstep⟩, ?_⟩
    obtain ⟨before, caller, after, hcallers, -, -, rfl⟩ := step_cases hstep
    have hcaller : caller ∈ s.callers := by simp [hcallers]
    exact Caller.find?_step (describe i) (hsound.missing caller hcaller) hfound
  exact (Turn.run_keeps hkept ⟨⟨log, h⟩, hfound⟩ order).2

/-- A step leaves every caller with the type that it asks for. -/
theorem types_step {s t : Crowd} {i : Nat} (h : s.step describe i = some t) :
    t.callers.map Caller.type = s.callers.map Caller.type := by
  obtain ⟨before, caller, after, hcallers, -, -, rfl⟩ := step_cases h
  simp only [hcallers, List.map_append, List.map_cons, Caller.type_step]

/-- The types that callers ask for at first. -/
theorem types_start (types : List String) : (start types).callers.map Caller.type = types := by
  simp [start, Caller.type, Function.comp_def]

/-- Any number of steps leave every caller with the type that it asks for. -/
theorem types_run (s : Crowd) (order : List Nat) :
    (run describe s order).callers.map Caller.type = s.callers.map Caller.type :=
  Turn.run_keeps (P := fun t => t.callers.map Caller.type = s.callers.map Caller.type)
    (fun hs hstep => (types_step hstep).trans hs) rfl order

/-- Steps in a row are steps one order after the other. -/
theorem run_append (s : Crowd) (order later : List Nat) :
    run describe s (order ++ later) = run describe (run describe s order) later :=
  List.foldl_append

/-- How many callers hold the exclusive lock. -/
def holders (s : Crowd) : Nat :=
  s.callers.countP Caller.isLocked

/-- No caller holds the exclusive lock before the first step. -/
theorem holders_start (types : List String) : (start types).holders = 0 := by
  refine List.countP_eq_zero.mpr fun caller hcaller => ?_
  obtain ⟨type, -, rfl⟩ := List.mem_map.mp hcaller
  exact Bool.false_ne_true

/-- After a step no other caller than the one that took it holds the exclusive lock. -/
theorem holders_step {s t : Crowd} {i : Nat} (h : s.step describe i = some t) :
    t.holders ≤ 1 := by
  obtain ⟨before, caller, after, -, hothers, -, rfl⟩ := step_cases h
  rw [holders, countP_append_cons hothers]
  exact Bool.toNat_le _

/-- Any number of steps leave the exclusive lock with one caller at most. -/
theorem holders_run {s : Crowd} (h : s.holders ≤ 1) (order : List Nat) :
    (run describe s order).holders ≤ 1 :=
  Turn.run_keeps (P := fun t => t.holders ≤ 1) (fun _ hstep => holders_step hstep) h order

/-- While one caller at most holds the exclusive lock and some caller is not gone, there is one that
is not gone and finds no other one with the lock. -/
theorem exists_mover {s : Crowd} (h : s.holders ≤ 1)
    (hbusy : ∃ caller ∈ s.callers, caller.remaining ≠ 0) :
    ∃ before caller after, s.callers = before ++ caller :: after ∧
      (∀ other ∈ before ++ after, other.isLocked = false) ∧ caller.remaining ≠ 0 := by
  by_cases hlocked : ∃ caller ∈ s.callers, caller.isLocked = true
  · obtain ⟨caller, hcaller, hlock⟩ := hlocked
    obtain ⟨before, after, hcallers⟩ := List.append_of_mem hcaller
    rw [holders, hcallers, List.countP_append, List.countP_cons, if_pos hlock] at h
    have hnone : (before ++ after).countP Caller.isLocked = 0 := by
      rw [List.countP_append]
      omega
    exact ⟨before, caller, after, hcallers,
      fun other hother => Bool.eq_false_iff.mpr (List.countP_eq_zero.mp hnone other hother),
      Caller.remaining_ne_zero_of_isLocked hlock⟩
  · obtain ⟨caller, hcaller, hbusy⟩ := hbusy
    obtain ⟨before, after, hcallers⟩ := List.append_of_mem hcaller
    refine ⟨before, caller, after, hcallers, ?_, hbusy⟩
    intro other hother
    have hmem : other ∈ s.callers := by
      rw [hcallers]
      simp only [List.mem_append, List.mem_cons] at hother ⊢
      tauto
    exact Bool.eq_false_iff.mpr fun hlock => hlocked ⟨other, hmem, hlock⟩

/-- All callers can go on to their ends. -/
theorem can_finish {s : Crowd} (h : s.holders ≤ 1) :
    ∃ later, ∀ caller ∈ (run describe s later).callers, caller.remaining = 0 := by
  -- Each step lowers the number of steps that all callers have in front of them.
  induction hsum : (s.callers.map Caller.remaining).sum using Nat.strongRecOn generalizing s with
  | ind n ih =>
    by_cases hbusy : ∃ caller ∈ s.callers, caller.remaining ≠ 0
    · obtain ⟨before, caller, after, hcallers, hothers, hremaining⟩ := exists_mover h hbusy
      obtain ⟨cache, callers⟩ := s
      obtain rfl : callers = before ++ caller :: after := hcallers
      have hstep : Crowd.step describe ⟨cache, before ++ caller :: after⟩ before.length = some _ :=
        step_append_cons cache caller hothers
      have hless := caller.remaining_step (describe before.length) cache hremaining
      obtain ⟨later, hlater⟩ := ih _ (by simp at hsum ⊢; omega) (holders_step hstep) rfl
      refine ⟨before.length :: later, ?_⟩
      rw [run, List.foldl_cons, hstep, Option.getD_some]
      exact hlater
    · refine ⟨[], fun caller hcaller => ?_⟩
      by_contra hremaining
      exact hbusy ⟨caller, hcaller, hremaining⟩

/-- While no caller holds the exclusive lock, nothing is pending: the types described are those with
a shape, and as many descriptions are counted. -/
theorem Sound.of_forall_not_isLocked {s : Crowd} {log : List String} (h : s.Sound log)
    (hfree : ∀ caller ∈ s.callers, caller.isLocked = false) :
    s.cache.discoveries = s.cache.size ∧ log = s.cache.types := by
  have hidle (caller : Caller) (hcaller : caller ∈ s.callers) : caller.Idle :=
    Caller.idle_of_not_isLocked (hfree caller hcaller)
  have hpending : s.callers.filterMap Caller.pending? = [] :=
    List.filterMap_eq_nil_iff.mpr fun caller hcaller => (hidle caller hcaller).pending_eq
  have hahead : s.callers.countP Caller.isAhead = 0 :=
    List.countP_eq_zero.mpr fun caller hcaller =>
      Bool.eq_false_iff.mp (hidle caller hcaller).ahead_eq
  constructor
  · rw [h.discoveries_eq, hahead, Nat.add_zero]
  · rw [h.log_eq, hpending, List.append_nil]

/-- When all callers of a sound crowd are gone, each was given the shape of its type. -/
theorem Sound.callers_eq {s : Crowd} {log : List String} (h : s.Sound log)
    (hgone : ∀ caller ∈ s.callers, caller.remaining = 0) :
    s.callers = (s.callers.map Caller.type).map fun type =>
      .returned type ((s.cache.find? type).getD []) := by
  have hcaller : ∀ caller ∈ s.callers,
      Caller.returned caller.type ((s.cache.find? caller.type).getD []) = caller := by
    intro caller hmem
    obtain ⟨shape, heq⟩ := Caller.eq_returned (hgone caller hmem)
    have hkept := h.kept caller.type shape (by rw [← heq]; exact hmem)
    rw [hkept, Option.getD_some]
    exact heq.symm
  rw [List.map_map]
  conv_lhs => rw [← List.map_id s.callers]
  exact List.map_congr_left fun caller hmem => (hcaller caller hmem).symm

/-- However far the callers of one cache have come, all of them can return, and those that ask for
one type with one shape. -/
theorem can_return (types : List String) (order : List Nat) :
    ∃ (later : List Nat) (shape : String → Shape),
      (run describe (start types) (order ++ later)).callers =
        types.map fun type => .returned type (shape type) := by
  have hstart : (start types).holders ≤ 1 := by
    rw [holders_start]
    exact Nat.zero_le 1
  obtain ⟨later, hgone⟩ : ∃ later, ∀ caller ∈
      (run describe (run describe (start types) order) later).callers, caller.remaining = 0 :=
    can_finish (holders_run hstart order)
  rw [← run_append] at hgone
  have hlater : (run describe (start types) (order ++ later)).Sound _ :=
    (sound_start types).run (order ++ later)
  have hcallers := hlater.callers_eq hgone
  rw [types_run, types_start] at hcallers
  exact ⟨later, _, hcallers⟩

/-- A caller that is gone asked for the type whose shape it was given. -/
theorem type_of_returned {types : List String} {order : List Nat} {i : Nat} {type : String}
    {shape : Shape}
    (h : (run describe (start types) order).callers[i]? = some (.returned type shape)) :
    types[i]? = some type := by
  have htypes : (run describe (start types) order).callers.map Caller.type = types :=
    (types_run (start types) order).trans (types_start types)
  have hcaller : ((run describe (start types) order).callers.map Caller.type)[i]? = some type := by
    rw [List.getElem?_map, h]
    rfl
  rwa [htypes] at hcaller

end Crowd

/-- However the steps of callers of one cache fall together, whatever they describe: no type is
described twice. A caller that is gone asked for the type whose shape it was given, that shape is
kept from then on, and every caller that asks for the type, sooner or later, is given the same one.
While no caller holds the exclusive lock, as many descriptions are counted as shapes are kept, and
as many as there are types that were described. All callers can go on until they are gone. -/
theorem described_once (describe : Nat → String → Shape) (types : List String) (order : List Nat) :
    let crowd := Crowd.run describe (.start types) order
    let log := Crowd.described describe (.start types) order
    log.Nodup ∧
      (∀ (i : Nat) (type : String) (shape : Shape),
        crowd.callers[i]? = some (.returned type shape) →
          types[i]? = some type ∧
            ∀ later : List Nat, let crowd := Crowd.run describe (.start types) (order ++ later)
              crowd.cache.find? type = some shape ∧
                ∀ (j : Nat) (other : Shape),
                  crowd.callers[j]? = some (.returned type other) → other = shape) ∧
      ((∀ caller ∈ crowd.callers, caller.isLocked = false) →
        crowd.cache.discoveries = crowd.cache.size ∧ crowd.cache.size = log.dedup.length) ∧
      ∃ (later : List Nat) (shape : String → Shape),
        (Crowd.run describe (.start types) (order ++ later)).callers =
          types.map fun type => .returned type (shape type) := by
  intro crowd log
  have hsound : crowd.Sound log := (Crowd.sound_start types).run order
  refine ⟨hsound.nodup, ?_, ?_, ?_⟩
  · intro i type shape hgone
    have hkept := hsound.kept type shape (List.mem_of_getElem? hgone)
    refine ⟨Crowd.type_of_returned hgone, ?_⟩
    intro later
    have hlater : (Crowd.run describe (.start types) (order ++ later)).Sound _ :=
      (Crowd.sound_start types).run (order ++ later)
    have hfound : (Crowd.run describe (.start types) (order ++ later)).cache.find? type =
        some shape := by
      rw [Crowd.run_append]
      exact hsound.find?_run later hkept
    refine ⟨hfound, ?_⟩
    intro j other hother
    have hsame := hlater.kept type other (List.mem_of_getElem? hother)
    rw [hfound] at hsame
    exact (Option.some.inj hsame).symm
  · intro hfree
    obtain ⟨hcount, hlog⟩ := hsound.of_forall_not_isLocked hfree
    refine ⟨hcount, ?_⟩
    rw [hsound.nodup.dedup, hlog, ShapeCache.types, List.length_map]
    rfl
  · exact Crowd.can_return types order

/-- Descriptions that tell the place of the caller by the number of members. -/
def Crowd.placed (place : Nat) (type : String) : Shape :=
  List.replicate place (Member.ofTarget type .bool)

/-- Two callers both miss a type before the second of them describes it. The first one is given the
description of the second one, which is kept and counted once. -/
theorem described_once_twoCallers :
    let order := [0, 1, 1, 0, 1, 1, 1, 1, 0, 0]
    let crowd := Crowd.run Crowd.placed (.start ["Gauge", "Gauge"]) order
    let log := Crowd.described Crowd.placed (.start ["Gauge", "Gauge"]) order
    crowd.callers = List.replicate 2 (.returned "Gauge" (Crowd.placed 1 "Gauge")) ∧
      log.Nodup ∧ crowd.cache.discoveries = crowd.cache.size ∧
      crowd.cache.size = log.dedup.length ∧
      ∀ later, (Crowd.run Crowd.placed (.start ["Gauge", "Gauge"]) (order ++ later)).cache.find?
        "Gauge" = some (Crowd.placed 1 "Gauge") := by
  intro order crowd log
  have hcallers : crowd.callers =
      List.replicate 2 (.returned "Gauge" (Crowd.placed 1 "Gauge")) := by decide
  have hfree : ∀ caller ∈ crowd.callers, caller.isLocked = false := by
    rw [hcallers]
    decide
  have hgone : crowd.callers[0]? = some (.returned "Gauge" (Crowd.placed 1 "Gauge")) := by
    rw [hcallers]
    rfl
  obtain ⟨hnodup, hshape, hcount, -⟩ := described_once Crowd.placed ["Gauge", "Gauge"] order
  obtain ⟨hdiscoveries, hsize⟩ := hcount hfree
  refine ⟨hcallers, hnodup, hdiscoveries, hsize, ?_⟩
  intro later
  exact ((hshape 0 "Gauge" _ hgone).2 later).1

end BoundSql.ShapeCache
