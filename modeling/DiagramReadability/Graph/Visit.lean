import DiagramReadability.Graph.Basic

/-!
# Depth by recursive visits

A depth-first walk told recursively: a visit marks its node, notes its depth and then visits those
children, in their order, that have no mark when their turn comes.  All visits of a walk share the
marks, so a node is visited once.
-/

namespace DiagramReadability.Graph

/-- The depths noted by a visit of `node`, which has no mark yet, and the marks after it.  The fuel
bounds how deep visits nest. -/
def visit (next : String → List String) :
    (fuel : Nat) → (node : String) → (depth : Nat) → (marked : List String) →
      List Nat × List String
  | 0, _, _, marked => ([], marked)
  | fuel + 1, node, depth, marked =>
      (next node).foldl (fun (depths, marked) child =>
        if marked.contains child then (depths, marked)
        else
          let (inner, marked) := visit next fuel child (depth + 1) marked
          (depths ++ inner, marked)) ([depth], node :: marked)

/-- The greatest depth of a visit when the walk begins at `start`.  Nested visits are at different
nodes, all but the first of them nodes of the graph. -/
def deepestVisit (g : Graph) (start : String) : Nat :=
  (visit g.children (g.nodes.length + 1) start 0 []).1.foldl max 0

end DiagramReadability.Graph
