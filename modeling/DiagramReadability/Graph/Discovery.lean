import DiagramReadability.Graph.Degree
import Std.Data.HashSet

/-!
# Depth-first discovery

A walk over the nodes that can be reached, with a stack of the nodes still to be entered.  A node
is entered once, at the depth at which it is first taken from the stack, and the neighbours of a
node are entered in their order.
-/

namespace DiagramReadability.Graph

/-- The nodes found from the entries of a stack, each with its depth, in the order of discovery,
and the set of all nodes seen.  Every entry taken costs one unit of fuel. -/
def discoverFrom (next : String → List String) :
    Nat → List (String × Nat) → Std.HashSet String → List (String × Nat) × Std.HashSet String
  | 0, _, seen => ([], seen)
  | _ + 1, [], seen => ([], seen)
  | fuel + 1, (node, depth) :: stack, seen =>
      if seen.contains node then discoverFrom next fuel stack seen
      else
        let seen := seen.insert node
        -- a neighbour may wait on the stack more than once and is entered from the top one
        let fresh := (next node).filter fun n => !seen.contains n
        let (found, seen) := discoverFrom next fuel (fresh.map (·, depth + 1) ++ stack) seen
        ((node, depth) :: found, seen)

/-- The nodes that can be reached from `start`, itself included.  A walk that enters each node once
takes at most one stack entry for every step out of a node, and `start`. -/
def reach (next : String → List String) (steps : Nat) (start : String) : Std.HashSet String :=
  (discoverFrom next (steps + 1) [(start, 0)] ∅).2

/-- The largest depth at which a walk from `start` enters a node.  A node is never entered again, so
behind a merge point the depth depends on the order of the children. -/
def depthFrom (g : Graph) (start : String) : Nat :=
  let (found, _) := discoverFrom g.children (g.edges.length + 1) [(start, 0)] ∅
  (found.map Prod.snd).foldl max 0

/-- The depth of the graph below its roots, or below any node when it has no root. -/
def maxDepth (g : Graph) : Nat :=
  let starts := if g.roots.isEmpty then g.nodes else g.roots
  (starts.map g.depthFrom).foldl max 0

def neighbours (g : Graph) (node : String) : List String :=
  g.children node ++ g.parents node

def componentsFrom (g : Graph) (seen : Std.HashSet String) : List String → List (List String)
  | [] => []
  | root :: rest =>
      if seen.contains root then componentsFrom g seen rest
      else
        let (found, seen) := discoverFrom g.neighbours (2 * g.edges.length + 1) [(root, 0)] seen
        found.map Prod.fst :: componentsFrom g seen rest

def components (g : Graph) : List (List String) :=
  componentsFrom g ∅ g.nodes

end DiagramReadability.Graph
