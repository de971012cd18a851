import BoundSql.Coercion.Convert

/-!
# Coercion to declared kinds

An engine turns raw values into values of a declared kind. The missing value and the empty text
turn into nothing, and a value that is of the kind already is taken as it is. Coercers can be
registered under the names of kinds; truth values, identifiers and enumerations never consult them.
-/

namespace BoundSql

/-- A conversion that a caller supplies. -/
abbrev Coercer := Value → Option Value

/-- The coercers registered under each name. -/
structure Engine where
  /-- The coercer under a name, if one is registered. -/
  coercer? : String → Option Coercer

namespace Engine

/-- The engine without coercers. -/
def standard : Engine := ⟨fun _ => none⟩

/-- Registers a coercer under a name, in place of an earlier one. -/
def register (e : Engine) (name : String) (c : Coercer) : Engine :=
  ⟨fun n => if n = name then some c else e.coercer? n⟩

/-- Whether a coercer is registered under a name. -/
def isRegistered (e : Engine) (name : String) : Bool :=
  (e.coercer? name).isSome

/-- Whether a raw value leaves every place unset: the missing value and the empty text do. -/
def isBlank : Value → Bool
  | .null => true
  | .text s => s.isEmpty
  | _ => false

/-- A raw value of another kind, turned into a value of a kind. -/
def convert (e : Engine) (kind : Kind) (raw : Value) : Option Value :=
  match kind with
  | .bool => some (.bool (Convert.truthy raw))
  | .guid => (Convert.guid? raw).map .guid
  | .enumeration ordinals => (Convert.ordinal? ordinals raw).map .int
  | .custom name =>
    match e.coercer? name with
    | some c => c raw
    | none => some raw
  | kind =>
    match e.coercer? kind.name with
    | some c => c raw
    | none => Convert.value? kind raw

/-- A raw value turned into a value of a kind. -/
def coerce (e : Engine) (kind : Kind) (raw : Value) : Option Value :=
  if isBlank raw then none
  else if raw.kind = kind then some raw
  else e.convert kind raw

end Engine

end BoundSql
