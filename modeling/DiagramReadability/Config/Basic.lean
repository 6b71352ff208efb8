import DiagramReadability.Estimate
import DiagramReadability.Pattern

/-!
# Configuration

Every value that the analysis can be tuned by.  A setting names a field and gives it a value of the
field's kind; putting a setting on top of a configuration that changes a greatest size also takes
away the fixed steps below that size.  Sizes and limits can also be set to be absent.
-/

namespace DiagramReadability

/-- The fields of a configuration, in the order in which an environment is read. -/
inductive Field where
  | maxWidth
  | maxHeight
  | widthInfo
  | widthWarning
  | heightInfo
  | heightWarning
  | charWidth
  | nodeSpacing
  | nodeHeight
  | verticalSpacing
  | chainLimitHorizontal
  | chainLimitVertical
  | layoutMinConfidence
  | componentThreshold
  | sequentialRatio
  | hierarchicalAverage
  | hierarchicalDepth
  | wideChildren
  | reconvergenceRatio
deriving Repr, DecidableEq

namespace Field

def all : List Field := [
  maxWidth, maxHeight, widthInfo, widthWarning, heightInfo, heightWarning, charWidth, nodeSpacing,
  nodeHeight, verticalSpacing, chainLimitHorizontal, chainLimitVertical, layoutMinConfidence,
  componentThreshold, sequentialRatio, hierarchicalAverage, hierarchicalDepth, wideChildren,
  reconvergenceRatio]

def name : Field → String
  | maxWidth => "max_width"
  | maxHeight => "max_height"
  | widthInfo => "width_info"
  | widthWarning => "width_warning"
  | heightInfo => "height_info"
  | heightWarning => "height_warning"
  | charWidth => "char_width"
  | nodeSpacing => "node_spacing"
  | nodeHeight => "node_height"
  | verticalSpacing => "vertical_spacing"
  | chainLimitHorizontal => "chain_limit_horizontal"
  | chainLimitVertical => "chain_limit_vertical"
  | layoutMinConfidence => "layout_min_confidence"
  | componentThreshold => "component_threshold"
  | sequentialRatio => "sequential_ratio"
  | hierarchicalAverage => "hierarchical_avg_children"
  | hierarchicalDepth => "hierarchical_min_depth"
  | wideChildren => "wide_branching_children"
  | reconvergenceRatio => "reconvergence_ratio"

def ofName? (name : String) : Option Field :=
  all.find? (·.name = name)

@[reducible] def kind : Field → NumberKind
  | charWidth | nodeSpacing | nodeHeight | verticalSpacing | layoutMinConfidence
  | sequentialRatio | hierarchicalAverage | reconvergenceRatio => .real
  | maxWidth | maxHeight | widthInfo | widthWarning | heightInfo | heightWarning
  | chainLimitHorizontal | chainLimitVertical | componentThreshold | hierarchicalDepth
  | wideChildren => .whole

@[reducible] def Value : Field → Type
  | maxWidth | maxHeight | chainLimitHorizontal | chainLimitVertical => Option Int
  | charWidth | nodeSpacing | nodeHeight | verticalSpacing => Option Float
  | widthInfo | widthWarning | heightInfo | heightWarning | componentThreshold | hierarchicalDepth
  | wideChildren => Int
  | layoutMinConfidence | sequentialRatio | hierarchicalAverage | reconvergenceRatio => Float

def given : (field : Field) → field.kind.Value → field.Value
  | maxWidth, n | maxHeight, n | chainLimitHorizontal, n | chainLimitVertical, n => some n
  | charWidth, x | nodeSpacing, x | nodeHeight, x | verticalSpacing, x => some x
  | widthInfo, n | widthWarning, n | heightInfo, n | heightWarning, n | componentThreshold, n
  | hierarchicalDepth, n | wideChildren, n => n
  | layoutMinConfidence, x | sequentialRatio, x | hierarchicalAverage, x
  | reconvergenceRatio, x => x

def number? : (field : Field) → field.Value → Option field.kind.Value
  | maxWidth, v | maxHeight, v | chainLimitHorizontal, v | chainLimitVertical, v => v
  | charWidth, v | nodeSpacing, v | nodeHeight, v | verticalSpacing, v => v
  | widthInfo, n | widthWarning, n | heightInfo, n | heightWarning, n | componentThreshold, n
  | hierarchicalDepth, n | wideChildren, n => some n
  | layoutMinConfidence, x | sequentialRatio, x | hierarchicalAverage, x
  | reconvergenceRatio, x => some x

def absent? : (field : Field) → Option field.Value
  | maxWidth | maxHeight | chainLimitHorizontal | chainLimitVertical => some none
  | charWidth | nodeSpacing | nodeHeight | verticalSpacing => some none
  | widthInfo | widthWarning | heightInfo | heightWarning | componentThreshold | hierarchicalDepth
  | wideChildren | layoutMinConfidence | sequentialRatio | hierarchicalAverage
  | reconvergenceRatio => none

end Field

structure Setting where
  field : Field
  value : field.Value

/-- The limits and constants of an analysis.  A step of zero follows from the greatest size. -/
structure Config where
  maxWidth : Option Int := some 2500
  maxHeight : Option Int := some 2000
  widthInfo : Int := 1500
  widthWarning : Int := 2000
  heightInfo : Int := 800
  heightWarning : Int := 1200
  charWidth : Option Float := some 8.0
  nodeSpacing : Option Float := some 50.0
  nodeHeight : Option Float := some 40.0
  verticalSpacing : Option Float := some 50.0
  chainLimitHorizontal : Option Int := some 8
  chainLimitVertical : Option Int := some 12
  layoutMinConfidence : Float := 0.6
  componentThreshold : Int := 2
  sequentialRatio : Float := 0.6
  hierarchicalAverage : Float := 0.8
  hierarchicalDepth : Int := 2
  wideChildren : Int := 5
  reconvergenceRatio : Float := 0.2
  presetName : String := "default"

namespace Config

def get (c : Config) : (field : Field) → field.Value
  | .maxWidth => c.maxWidth
  | .maxHeight => c.maxHeight
  | .widthInfo => c.widthInfo
  | .widthWarning => c.widthWarning
  | .heightInfo => c.heightInfo
  | .heightWarning => c.heightWarning
  | .charWidth => c.charWidth
  | .nodeSpacing => c.nodeSpacing
  | .nodeHeight => c.nodeHeight
  | .verticalSpacing => c.verticalSpacing
  | .chainLimitHorizontal => c.chainLimitHorizontal
  | .chainLimitVertical => c.chainLimitVertical
  | .layoutMinConfidence => c.layoutMinConfidence
  | .componentThreshold => c.componentThreshold
  | .sequentialRatio => c.sequentialRatio
  | .hierarchicalAverage => c.hierarchicalAverage
  | .hierarchicalDepth => c.hierarchicalDepth
  | .wideChildren => c.wideChildren
  | .reconvergenceRatio => c.reconvergenceRatio

def set (c : Config) : (field : Field) → field.Value → Config
  | .maxWidth, v => { c with maxWidth := v }
  | .maxHeight, v => { c with maxHeight := v }
  | .widthInfo, v => { c with widthInfo := v }
  | .widthWarning, v => { c with widthWarning := v }
  | .heightInfo, v => { c with heightInfo := v }
  | .heightWarning, v => { c with heightWarning := v }
  | .charWidth, v => { c with charWidth := v }
  | .nodeSpacing, v => { c with nodeSpacing := v }
  | .nodeHeight, v => { c with nodeHeight := v }
  | .verticalSpacing, v => { c with verticalSpacing := v }
  | .chainLimitHorizontal, v => { c with chainLimitHorizontal := v }
  | .chainLimitVertical, v => { c with chainLimitVertical := v }
  | .layoutMinConfidence, v => { c with layoutMinConfidence := v }
  | .componentThreshold, v => { c with componentThreshold := v }
  | .sequentialRatio, v => { c with sequentialRatio := v }
  | .hierarchicalAverage, v => { c with hierarchicalAverage := v }
  | .hierarchicalDepth, v => { c with hierarchicalDepth := v }
  | .wideChildren, v => { c with wideChildren := v }
  | .reconvergenceRatio, v => { c with reconvergenceRatio := v }

theorem get_set_self (c : Config) (field : Field) (v : field.Value) :
    (c.set field v).get field = v := by
  cases field <;> rfl

theorem get_set_of_ne (c : Config) {field other : Field} (v : field.Value)
    (h : other ≠ field) : (c.set field v).get other = c.get other := by
  cases field <;> cases other <;> first | rfl | exact absurd rfl h

/-- Takes away the fixed steps below a greatest size. -/
def dropSteps (c : Config) : Field → Config
  | .maxWidth => { c with widthInfo := 0, widthWarning := 0 }
  | .maxHeight => { c with heightInfo := 0, heightWarning := 0 }
  | _ => c

def override (c : Config) (s : Setting) : Config :=
  { (c.set s.field s.value).dropSteps s.field with presetName := "custom" }

def dimensions (c : Config) : DimensionConfig where
  charWidth := .ofReal? c.charWidth
  nodeSpacing := .ofReal? c.nodeSpacing
  nodeHeight := .ofReal? c.nodeHeight
  verticalSpacing := .ofReal? c.verticalSpacing

def patternThresholds (c : Config) : PatternThresholds where
  sequentialRatio := c.sequentialRatio
  hierarchicalAverage := c.hierarchicalAverage
  hierarchicalDepth := c.hierarchicalDepth
  wideChildren := c.wideChildren
  reconvergenceRatio := c.reconvergenceRatio

end Config

end DiagramReadability
