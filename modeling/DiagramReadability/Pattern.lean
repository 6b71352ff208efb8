import DiagramReadability.Graph.MainPath

/-!
# Structural patterns

Four shapes that a graph may have, each looked for on its own.  A pattern that is found carries the
evidence for it and a confidence of at most one; several may hold at once.
-/

namespace DiagramReadability

inductive PatternKind where
  | sequential
  | hierarchical
  | wideBranching
  | reconvergence
  | other (name : String)
deriving Repr, DecidableEq

namespace PatternKind

def name : PatternKind → String
  | sequential => "sequential"
  | hierarchical => "hierarchical"
  | wideBranching => "wide-branching"
  | reconvergence => "reconvergence"
  | other name => name

def ofName (name : String) : PatternKind :=
  ([sequential, hierarchical, wideBranching, reconvergence].find? (·.name = name)).getD (other name)

end PatternKind

structure Pattern where
  kind : PatternKind
  confidence : Float
  evidence : List String := []
  recommendation : String := ""
  «example» : Option String := none

structure PatternThresholds where
  sequentialRatio : Float := 0.6
  hierarchicalAverage : Float := 0.8
  hierarchicalDepth : Int := 2
  wideChildren : Int := 5
  reconvergenceRatio : Float := 0.2

def capConfidence (x : Float) : Float :=
  if 1.0 < x then 1.0 else x

def pathPreview (path : List String) : String :=
  " → ".intercalate (path.take 5) ++ (if 5 < path.length then "..." else "")

namespace Graph

open DiagramReadability.Number (fixed percent)

/-- A long spine with little branching. -/
def sequential? (g : Graph) (t : PatternThresholds) : Option Pattern :=
  let spine := g.spine
  if g.isEmpty || spine.ratio ≤ t.sequentialRatio then none
  else some {
    kind := .sequential
    confidence := capConfidence spine.ratio
    evidence := [
      s!"Spine length: {spine.length}/{g.nodes.length} nodes ({percent spine.ratio})",
      "Low branching factor along main path",
      "Path: " ++ pathPreview spine.path]
    recommendation := "Use LR (left-right) layout for this sequential flow"
    «example» := some "graph LR\n  Start --> Build --> Test --> Deploy --> End" }

/-- A tree below a single root. -/
def hierarchical? (g : Graph) (t : PatternThresholds) : Option Pattern :=
  match g.roots with
  | [root] =>
      let depth := g.depthFrom root
      let average := g.averageChildren
      if average ≤ t.hierarchicalAverage || (depth : Int) ≤ t.hierarchicalDepth then none
      else some {
        kind := .hierarchical
        confidence := capConfidence (average / 3.0)
        evidence := [
          "Single root node: " ++ root,
          s!"Max depth: {depth} levels",
          s!"Average {fixed 1 average} children per node"]
        recommendation := "Use TD (top-down) layout for this hierarchy"
        «example» :=
          some "graph TD\n  Root --> Child1\n  Root --> Child2\n  Child1 --> GrandChild1" }
  | _ => none

/-- A single node with many children. -/
def wideBranching? (g : Graph) (t : PatternThresholds) : Option Pattern :=
  match g.widestBranch with
  | (width, some node) =>
      if (width : Int) ≤ t.wideChildren then none
      else some {
        kind := .wideBranching
        confidence := capConfidence (Number.share width 10)
        evidence := [
          s!"Node {node} has {width} children",
          "Consider grouping related branches"]
        recommendation := "Group related branches into subgraphs for better organization"
        «example» :=
          some s!"subgraph Group1\n  {node} --> Branch1\n  {node} --> Branch2\nend" }
  | (_, none) => none

/-- Many nodes at which paths come together again. -/
def reconvergence? (g : Graph) (t : PatternThresholds) : Option Pattern :=
  let merges := g.mergePoints
  let ratio := g.nodeShare merges.length
  if g.isEmpty || ratio ≤ t.reconvergenceRatio then none
  else some {
    kind := .reconvergence
    confidence := capConfidence (ratio * 2.0)
    evidence := [
      s!"{merges.length} nodes with multiple incoming paths",
      s!"{percent ratio} of nodes are merge points",
      "Examples: " ++ ", ".intercalate (merges.take 3)]
    recommendation := "Parallel paths detected - ensure layout shows reconvergence clearly" }

def patterns (g : Graph) (t : PatternThresholds) : List Pattern :=
  let found := [g.sequential? t, g.hierarchical? t, g.wideBranching? t, g.reconvergence? t]
  (found.filterMap id).mergeSort fun a b => b.confidence ≤ a.confidence

end Graph

end DiagramReadability
