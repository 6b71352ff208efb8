import DiagramReadability.Graph.Partition
import DiagramReadability.Layout
import DiagramReadability.Severity
import DiagramReadability.Source.Diagram

/-!
# Reports

What an analysis finds out about one diagram: its structure, its estimated size, and the issues that
the rules raise.
-/

namespace DiagramReadability

inductive Rule where
  | width
  | height
  | chainLength
  | layoutHint
  | components
deriving Repr, DecidableEq

def Rule.name : Rule → String
  | .width => "horizontal-width-readability"
  | .height => "vertical-height-readability"
  | .chainLength => "horizontal-chain-too-long"
  | .layoutHint => "layout-hint"
  | .components => "disconnected-components"

structure Issue where
  rule : Rule
  severity : Severity
  message : String
  filePath : String
  line : Int
  suggestion : String := ""
deriving Repr, DecidableEq

structure Findings where
  filePath : String
  line : Int
  layout : Option Direction
  nodes : Nat
  edges : Nat
  components : Nat
  cyclomaticComplexity : Int
  isAcyclic : Bool
  maxDepth : Nat
  maxBranchWidth : Nat
  spine : MainPath
  chain : StraightPath
  longestPath : StraightPath
  patterns : List Pattern
  advice : LayoutAdvice
  estimate : Option Estimate

structure Report extends Findings where
  issues : List Issue := []

def Severity.worst? (severities : List Severity) : Option Severity :=
  worstFirst.find? severities.contains

def Report.worstSeverity? (r : Report) : Option Severity :=
  Severity.worst? (r.issues.map Issue.severity)

namespace Findings

def ofDiagram (d : Diagram) (config : Config) : Except Fault Findings := do
  let g := Graph.ofText d.content
  let layout := d.direction?
  let layoutName := layout.map Direction.name
  let patterns := g.patterns config.patternThresholds
  let longest := g.longestPath
  let estimate ←
    match labelStats? d.content with
    | some labels =>
        (Estimate.ofGraph g labels layoutName config.dimensions longest.path).map some
    | none => pure none
  return {
    filePath := d.filePath
    line := d.line
    layout := layout
    nodes := g.nodes.length
    edges := g.edges.length
    components := g.components.length
    cyclomaticComplexity := g.cyclomaticComplexity
    isAcyclic := g.isAcyclic
    maxDepth := g.maxDepth
    maxBranchWidth := g.widestBranch.1
    spine := g.spine
    chain := g.linearChain
    longestPath := longest
    patterns := patterns
    advice := LayoutAdvice.ofPatterns patterns layoutName
    estimate := estimate }

end Findings

end DiagramReadability
