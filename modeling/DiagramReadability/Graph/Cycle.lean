import DiagramReadability.Graph.Degree

/-!
# Cycles

A directed cycle, which may be a single loop, is looked for by a depth-first walk that marks the
nodes on its way.  Independently, a graph is acyclic when its nodes have a topological order.
-/

namespace DiagramReadability.Graph

inductive Mark where
  /-- The node is on the way from the root of the walk. -/
  | active
  /-- Everything behind the node has been walked. -/
  | finished
deriving Repr, DecidableEq

abbrev Marks := Std.HashMap String Mark

/-- Walks on from a way, which lists its nodes from the last to the first, each with the children
still to be tried.  `none` says that a child was on the way, which closes a cycle.  Every child
tried and every node left costs one unit of fuel. -/
def walk? (g : Graph) : Nat → List (String × List String) → Marks → Option Marks
  | 0, _, marks => some marks
  | _ + 1, [], marks => some marks
  | fuel + 1, (node, []) :: way, marks => walk? g fuel way (marks.insert node .finished)
  | fuel + 1, (node, child :: rest) :: way, marks =>
      match marks[child]? with
      -- the way from the child to the node and the edge back make up the cycle
      | some .active => none
      | some .finished => walk? g fuel ((node, rest) :: way) marks
      | none =>
          walk? g fuel ((child, g.children child) :: (node, rest) :: way)
            (marks.insert child .active)

def closesCycle (g : Graph) (marks : Marks) : List String → Bool
  | [] => false
  | root :: rest =>
      if marks.contains root then closesCycle g marks rest
      else
        match walk? g (g.nodes.length + g.edges.length + 1) [(root, g.children root)]
            (marks.insert root .active) with
        | none => true
        | some marks => closesCycle g marks rest

def hasCycle (g : Graph) : Bool :=
  closesCycle g ∅ g.nodes

/-! ## Topological order -/

/-- Takes one incoming edge off a node, which is ready when it was the last one. -/
def release (state : List String × Std.HashMap String Nat) (node : String) :
    List String × Std.HashMap String Nat :=
  let left := state.2.getD node 0 - 1
  (if left = 0 then state.1 ++ [node] else state.1, state.2.insert node left)

/-- The nodes that can be put in order from a queue of ready ones; `waiting` counts the incoming
edges of the others that come from nodes not yet in order. -/
def orderFrom (g : Graph) : Nat → List String → Std.HashMap String Nat → List String
  | 0, _, _ => []
  | _ + 1, [], _ => []
  | fuel + 1, node :: ready, waiting =>
      let (released, waiting) := (g.children node).foldl release ([], waiting)
      node :: orderFrom g fuel (ready ++ released) waiting

/-- The nodes before which all their parents can be put, in such an order. -/
def topologicalOrder (g : Graph) : List String :=
  orderFrom g g.nodes.length g.roots (Std.HashMap.ofList (g.nodes.map fun n => (n, g.inDegree n)))

def isAcyclic (g : Graph) : Bool :=
  g.topologicalOrder.length = g.nodes.length

end DiagramReadability.Graph
