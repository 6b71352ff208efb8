import DiagramReadability.Graph.MainPath
import DiagramReadability.Label
import DiagramReadability.Pixels
import DiagramReadability.Text.LetterCase

/-!
# Estimated size

The size at which a diagram will be drawn, from the mean length of its labels and the shape of its
graph.  From left to right the longest path makes the width and the widest branch the height; from
top to bottom the widest branch makes the width and the depth the height.
-/

namespace DiagramReadability

structure DimensionConfig where
  charWidth : Pixels := .whole 8
  nodeSpacing : Pixels := .whole 50
  nodeHeight : Pixels := .whole 40
  verticalSpacing : Pixels := .whole 50

inductive WidthSource where
  | sequentialChain
  | branching
deriving Repr, DecidableEq

def WidthSource.name : WidthSource → String
  | .sequentialChain => "sequential-chain"
  | .branching => "branching"

structure Estimate where
  width : Pixels
  height : Pixels
  source : WidthSource
  layout : String
  path : List String
  branchWidth : Nat
  depth : Nat
  labels : LabelStats

namespace Estimate

/-- The layout to estimate for: a missing or empty one is top-down, and letters count as capital. -/
def layoutName (layout : Option String) : String :=
  Text.upperText
    (match layout with
     | some name => if name.isEmpty then Direction.topDown.name else name
     | none => Direction.topDown.name)

/-- The width of `count` nodes side by side, with labels of the mean length and the spacing. -/
def widthOf (config : DimensionConfig) (count : Nat) (mean : Int) : Except Fault Pixels := do
  let texts ← config.charWidth.times (count * mean)
  let gaps ← config.nodeSpacing.times count
  texts.add gaps

def heightOf (config : DimensionConfig) (count : Nat) : Except Fault Pixels := do
  let layer ← config.nodeHeight.add config.verticalSpacing
  layer.times count

def ofGraph (g : Graph) (labels : LabelStats) (layout : Option String) (config : DimensionConfig)
    (longest : List String) : Except Fault Estimate := do
  let layout := layoutName layout
  let horizontal := Direction.isHorizontalName layout
  let branchWidth := g.widestBranch.1
  let depth := g.maxDepth
  let height ← heightOf config (if horizontal then branchWidth else depth)
  let width ← widthOf config (if horizontal then longest.length else branchWidth) labels.meanLength
  return {
    width := width
    height := height
    source := if horizontal then .sequentialChain else .branching
    layout := layout
    path := longest
    branchWidth := branchWidth
    depth := depth
    labels := labels }

/-- The estimate for a text, in the layout that is asked for or else in the declared one; `none`
when no node has a label. -/
def ofText (content : String) (layout : Option String) (config : DimensionConfig) :
    Except Fault (Option Estimate) :=
  match labelStats? content with
  | some labels => do
      let g := Graph.ofText content
      let declared := (Direction.declared? content).map Direction.name
      let layout := (layout.filter fun name => !name.isEmpty).or declared
      let estimate ← ofGraph g labels layout config g.longestPath.path
      return some estimate
  | none => return none

end Estimate

end DiagramReadability
