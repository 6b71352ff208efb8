import DiagramReadability.Config.Preset
import DiagramReadability.Number.Literal

/-!
# Configuration from the environment

Every field has a variable of its own, and one more variable names the preset to start from.
-/

namespace DiagramReadability

/-- The variables of an environment with their values; of two entries for one variable the first
counts. -/
abbrev Environment := List (String × String)

namespace Environment

def get? (env : Environment) (key : String) : Option String :=
  env.lookup key

def setDefault (env : Environment) (key value : String) : Environment :=
  if (env.get? key).isSome then env else env ++ [(key, value)]

end Environment

def standardKeyStart : String := "MERMAID_READABILITY_"

def Field.key (keyStart : String) (field : Field) : String :=
  keyStart ++ Text.upperText field.name

namespace Config

/-- The value that a text gives to a field.  A whole number may be written as a real one. -/
def readValue (field : Field) (key raw : String) : Except ConfigError field.kind.Value :=
  match Number.readReal? raw with
  | none => .error (.notANumber key raw)
  | some x =>
      match field.kind with
      | .real => .ok x
      | .whole =>
          match Number.toWhole? x with
          | some n => .ok n
          | none => .error (.notWhole key raw)

def overrideFrom (env : Environment) (keyStart : String) (c : Config) (field : Field) :
    Except ConfigError Config :=
  let key := field.key keyStart
  match env.get? key with
  | none => .ok c
  | some raw => (readValue field key raw).map fun value => c.override ⟨field, field.given value⟩

/-- The name of the preset to start from: the one asked for, unless it is empty, or the one that the
environment names, or the base. -/
def presetNameIn (env : Environment) (keyStart base : String) (preset : Option String) : String :=
  ((preset.filter fun name => !name.isEmpty).or (env.get? (keyStart ++ "PRESET"))).getD base

def ofEnvironment (env : Environment) (keyStart base : String) (preset : Option String) :
    Except ConfigError Config := do
  let start ← ofPreset (presetNameIn env keyStart base preset)
  Field.all.foldlM (overrideFrom env keyStart) start

end Config

end DiagramReadability
