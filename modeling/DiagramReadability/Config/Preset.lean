import DiagramReadability.Config.Basic
import DiagramReadability.Text.Quoted

/-!
# Presets

Configurations for common viewports.  All but the standard one give only the greatest size and let
the steps below it follow from that.
-/

namespace DiagramReadability

inductive ConfigError where
  | unknownPreset (name : String)
  | notANumber (key raw : String)
  | notWhole (key raw : String)
deriving Repr, DecidableEq

inductive Preset where
  | standard
  | docs
  | mobile
  | wide
deriving Repr, DecidableEq

namespace Preset

def name : Preset → String
  | standard => "default"
  | docs => "docs"
  | mobile => "mobile"
  | wide => "wide"

def all : List Preset :=
  [standard, docs, mobile, wide]

def ofName? (name : String) : Option Preset :=
  all.find? (·.name = name)

def config : Preset → Config
  | standard => {}
  | docs => ofSize 1200 1600 docs.name
  | mobile => ofSize 400 1000 mobile.name
  | wide => ofSize 3200 2400 wide.name
where
  ofSize (width height : Int) (name : String) : Config :=
    { maxWidth := some width, maxHeight := some height, widthInfo := 0, widthWarning := 0,
      heightInfo := 0, heightWarning := 0, presetName := name }

def quotedNames : String :=
  ", ".intercalate (all.map fun p => Text.quoted p.name)

end Preset

def ConfigError.message : ConfigError → String
  | unknownPreset name => "Unknown preset '" ++ name ++ "'. Valid: [" ++ Preset.quotedNames ++ "]"
  | notANumber key raw => key ++ " must be a number, got " ++ Text.quoted raw
  | notWhole key raw => key ++ " must be a whole number, got " ++ Text.quoted raw

/-- The configuration of the preset that a name in letters of any case stands for. -/
def Config.ofPreset (name : String) : Except ConfigError Config :=
  let name := Text.lowerText name
  match Preset.ofName? name with
  | some preset => .ok preset.config
  | none => .error (.unknownPreset name)

end DiagramReadability
