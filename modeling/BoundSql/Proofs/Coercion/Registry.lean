import BoundSql.Proofs.Coercion.Fit

/-!
# What a registered coercer reaches

A coercion looks up no coercer but the one under the name of the kind, and takes it only where the
raw value is there, is not the empty text and is not of the kind already; truth values, identifiers
and enumerations do without. A coercer that is registered under a name is therefore taken in these
cases and in no other. Registrations under different names can change places, and of those under
one name the last counts, whatever is registered in between.
-/

namespace BoundSql

/-- No value has a custom kind of its own. -/
theorem Value.kind_ne_custom (v : Value) (name : String) : v.kind ≠ .custom name := by
  cases v <;> exact Kind.noConfusion

namespace Engine

/-- The coercions that take the coercer registered under the name of the kind, if there is one. -/
structure Consults (kind : Kind) (raw : Value) : Prop where
  /-- Truth values have their own reading. -/
  ne_bool : kind ≠ .bool
  /-- Identifiers have their own reading. -/
  ne_guid : kind ≠ .guid
  /-- Enumerations have their own reading. -/
  ne_enumeration : ∀ ordinals, kind ≠ .enumeration ordinals
  /-- The missing value is unset. -/
  ne_null : raw ≠ .null
  /-- The empty text is unset. -/
  ne_empty : raw ≠ .text ""
  /-- A value of the kind is taken as it is. -/
  kind_ne : raw.kind ≠ kind

variable {e e' : Engine} {kind : Kind} {raw : Value} {c : Coercer}

/-- A custom kind takes its coercer for every value for which another kind takes one. -/
theorem Consults.custom (h : Consults kind raw) (name : String) : Consults (.custom name) raw where
  ne_bool := Kind.noConfusion
  ne_guid := Kind.noConfusion
  ne_enumeration _ := Kind.noConfusion
  ne_null := h.ne_null
  ne_empty := h.ne_empty
  kind_ne := raw.kind_ne_custom name

/-- The coercer under the name of the kind is taken. -/
theorem Consults.coerce_eq (h : Consults kind raw) (hc : e.coercer? kind.name = some c) :
    e.coerce kind raw = c raw := by
  have hblank : ¬isBlank raw = true := by
    rw [isBlank_iff, not_or]
    exact ⟨h.ne_null, h.ne_empty⟩
  rw [coerce, if_neg hblank, if_neg h.kind_ne]
  cases kind with
  | bool => exact absurd rfl h.ne_bool
  | guid => exact absurd rfl h.ne_guid
  | enumeration ordinals => exact absurd rfl (h.ne_enumeration ordinals)
  | custom name =>
    rw [Kind.name] at hc
    rw [convert, hc]
  | _ => simp only [convert, hc]

/-- No coercer but the one under the name of the kind matters. -/
theorem coerce_congr (h : e.coercer? kind.name = e'.coercer? kind.name) :
    e.coerce kind raw = e'.coerce kind raw := by
  have hconvert : e.convert kind raw = e'.convert kind raw := by
    cases kind with
    | bool | guid | enumeration => rfl
    | custom name =>
      rw [Kind.name] at h
      rw [convert, convert, h]
    | _ => simp only [convert, h]
  rw [coerce, coerce, hconvert]

/-- No coercer matters where none is taken. -/
theorem coerce_eq_of_not_consults (h : ¬Consults kind raw) :
    e.coerce kind raw = e'.coerce kind raw := by
  unfold coerce
  split
  · rfl
  · rename_i hblank
    obtain ⟨hnull, hempty⟩ := not_or.mp (mt (isBlank_iff raw).mpr hblank)
    split
    · rfl
    · rename_i hkind
      -- With such a value it is the kind that takes no coercer.
      have hown : kind = .bool ∨ kind = .guid ∨ ∃ ordinals, kind = .enumeration ordinals := by
        by_contra hother
        obtain ⟨hbool, hguid, hordinals⟩ := by simpa only [not_or, not_exists] using hother
        exact h ⟨hbool, hguid, hordinals, hnull, hempty, hkind⟩
      obtain rfl | rfl | ⟨ordinals, rfl⟩ := hown <;> rfl

section Registration

variable (e) (c) (name : String)

/-- The coercer that is registered under a name is found there. -/
@[simp]
theorem coercer?_register_self : (e.register name c).coercer? name = some c :=
  if_pos rfl

/-- The coercers under other names stay. -/
theorem coercer?_register_of_ne {other : String} (h : other ≠ name) :
    (e.register name c).coercer? other = e.coercer? other :=
  if_neg h

/-- Registrations under different names can change places. -/
theorem register_comm {other : String} (h : other ≠ name) (d : Coercer) :
    (e.register name c).register other d = (e.register other d).register name c := by
  refine congrArg Engine.mk (funext fun n => ?_)
  by_cases hname : n = name
  · simp [register, hname, h.symm]
  · simp [register, hname]

/-- A second registration under a name takes the place of the first. -/
theorem register_register (d : Coercer) :
    (e.register name c).register name d = e.register name d := by
  refine congrArg Engine.mk (funext fun n => ?_)
  by_cases hname : n = name <;> simp [register, hname]

/-- Registers coercers one after the other. -/
def registerAll (e : Engine) (registrations : List (String × Coercer)) : Engine :=
  registrations.foldl (fun e registration => e.register registration.1 registration.2) e

/-- The first of the registrations is made first. -/
theorem registerAll_cons (first : String × Coercer) (rest : List (String × Coercer)) :
    e.registerAll (first :: rest) = (e.register first.1 first.2).registerAll rest :=
  rfl

variable (registrations : List (String × Coercer))

/-- A registration can be made before or after any number of registrations under other names. -/
theorem register_registerAll (h : ∀ d, (name, d) ∉ registrations) :
    (e.register name c).registerAll registrations =
      (e.registerAll registrations).register name c := by
  induction registrations generalizing e with
  | nil => rfl
  | cons first rest ih =>
    have hfirst : first.1 ≠ name := fun hname => h first.2 (by simp [← hname])
    have hrest : ∀ d, (name, d) ∉ rest := fun d hd => h d (List.mem_cons_of_mem _ hd)
    rw [registerAll_cons, register_comm e c name hfirst, ih _ hrest, registerAll_cons]

/-- A registration is lost once its name is registered again, whatever is registered in between. -/
theorem register_registerAll_register (d : Coercer) :
    ((e.register name c).registerAll registrations).register name d =
      (e.registerAll registrations).register name d := by
  induction registrations generalizing e with
  | nil => exact register_register e c name d
  | cons first rest ih =>
    by_cases hfirst : first.1 = name
    · rw [registerAll_cons, registerAll_cons, hfirst, register_register]
    · rw [registerAll_cons, registerAll_cons, register_comm e c name hfirst, ih]

/-- A coercer that is registered under a name is taken by the coercions to kinds of that name,
other than truth values, identifiers and enumerations, of values that are there, are not the empty
text and are not of the kind, and no other coercion changes. So it does not matter whether it is
registered before or after coercers with other names; it is lost once another one is registered
under its name; and a custom kind and a kind of its name take the same coercer. -/
theorem register_local :
    (∀ kind raw, kind.name = name → Consults kind raw →
      (e.register name c).coerce kind raw = c raw) ∧
    (∀ kind raw, ¬(kind.name = name ∧ Consults kind raw) →
      (e.register name c).coerce kind raw = e.coerce kind raw) ∧
    (∀ registrations, (∀ d, (name, d) ∉ registrations) →
      (e.register name c).registerAll registrations =
        (e.registerAll registrations).register name c) ∧
    (∀ registrations d, ((e.register name c).registerAll registrations).register name d =
      (e.registerAll registrations).register name d) ∧
    ∀ kind raw, e.isRegistered kind.name = true → Consults kind raw →
      e.coerce kind raw = e.coerce (.custom kind.name) raw := by
  refine ⟨?_, ?_, register_registerAll e c name, register_registerAll_register e c name, ?_⟩
  · rintro kind raw rfl hconsults
    exact hconsults.coerce_eq (coercer?_register_self e c kind.name)
  · intro kind raw hother
    by_cases hname : kind.name = name
    · exact coerce_eq_of_not_consults fun hconsults => hother ⟨hname, hconsults⟩
    · exact coerce_congr (coercer?_register_of_ne e c name hname)
  · intro kind raw hregistered hconsults
    obtain ⟨d, hd⟩ := Option.isSome_iff_exists.mp hregistered
    rw [hconsults.coerce_eq hd, (hconsults.custom kind.name).coerce_eq hd]

end Registration

/-- The coercer under the name of an integer kind takes a text for that kind and for the custom kind
of the name, and one under the name of the identifiers changes nothing for them. -/
theorem register_local_int32 :
    let c : Coercer := fun _ => some (.int 99)
    let e := standard.register "Int32" c
    Consults (.integer .int32) (.text "5") ∧
      e.coerce (.integer .int32) (.text "5") = some (.int 99) ∧
      e.coerce (.integer .int32) (.text "5") = e.coerce (.custom "Int32") (.text "5") ∧
      (e.register "Guid" c).coerce .guid (.text "5") = e.coerce .guid (.text "5") := by
  intro c e
  have hconsults : Consults (.integer .int32) (.text "5") :=
    ⟨nofun, nofun, nofun, nofun, by simp, by decide⟩
  obtain ⟨htaken, -⟩ := register_local standard c "Int32"
  obtain ⟨-, hother, -, -, hshared⟩ := register_local e c "Guid"
  exact ⟨hconsults, htaken _ _ rfl hconsults, hshared _ _ rfl hconsults,
    hother _ _ fun h => h.2.ne_guid rfl⟩

end Engine

end BoundSql
