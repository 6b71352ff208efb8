import DiagramReadability.Graph.Basic

/-!
# All simple paths

The plain way to a longest path: enumerate every simple path from every start, depth first and in
the order of the children, and keep the first one of the greatest length.  It takes exponential
time and says what the faster searches have to return.
-/

namespace DiagramReadability.Graph

/-- The longer of two paths; the first one stays when they are equally long. -/
def longer (best path : List String) : List String :=
  if best.length < path.length then path else best

def firstLongest (paths : List (List String)) : List String :=
  paths.foldl longer []

/-- The simple paths from `node` that avoid the nodes in `used`, in depth-first order; `extra` is
the greatest number of steps in one. -/
def simplePaths (next : String → List String) :
    (extra : Nat) → (used : List String) → (node : String) → List (List String)
  | 0, _, node => [[node]]
  | extra + 1, used, node =>
      [node] ::
        ((next node).filter fun child => child ≠ node && !used.contains child).flatMap fun child =>
          (simplePaths next extra (node :: used) child).map (node :: ·)

/-- The children from which a walk may go on: none beyond a node that does not extend it. -/
def extension (g : Graph) (passes : String → Bool) (node : String) : List String :=
  if passes node then g.children node else []

def longestByEnumeration (g : Graph) (next : String → List String) (starts : List String) :
    List String :=
  firstLongest (starts.flatMap (simplePaths next g.nodes.length []))

end DiagramReadability.Graph
