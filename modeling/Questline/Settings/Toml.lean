import Questline.Settings
import Questline.Toml.Document

/-! # Settings in TOML

Settings are entries of the root table under the names they have in JSON; what is left out is
standard, other entries and tables are skipped.

* `Settings.ofToml?`: the settings of a text. -/

namespace Questline

namespace Toml

/-- The value of a key, read, or a default when the key is absent. -/
def Table.withDefault {α : Type} (t : Table) (key : String) (default : α)
    (read : Value → Option α) : Option α :=
  match t.get? key with
  | some v => read v
  | none => some default

/-- The text of a string. -/
def Value.string? : Value → Option String
  | .str s => some s
  | _ => none

/-- The texts of an array of strings. -/
def Value.strings? : Value → Option (List String)
  | .arr items => items.mapM string?
  | _ => none

/-- The number of an integer without a negative sign. -/
def Value.nat? : Value → Option Nat
  | .int i => if 0 ≤ i.toInt then some i.toInt.toNat else none
  | _ => none

end Toml

namespace Settings

/-- **The settings of a text.** -/
def ofToml? (text : String) : Option Settings := do
  let t ← Toml.document? text
  return {
    maxStuckTurns := ← t.withDefault "max_stuck_turns" standard.maxStuckTurns fun v =>
      v.nat?.map UInt64.ofNat
    maxRetries := ← t.withDefault "max_retries" standard.maxRetries fun v =>
      v.nat?.bind fun n => if n < 0x100000000 then some (UInt32.ofNat n) else none
    criticalResources := ← t.withDefault "critical_resources" standard.criticalResources
      Toml.Value.strings?
    completedStatus := ← t.withDefault "completed_status" standard.completedStatus
      Toml.Value.string? }

end Settings

end Questline
