import DiagramReadability.Graph.Walk.Enumeration

/-!
# Longest paths without cycles

On an acyclic graph the longest path from a node is the node before the longest path from one of
its children.  The nodes are settled children first, each once, with a stack of tasks.
-/

namespace DiagramReadability.Graph

inductive Task where
  /-- Settle the children, then the node. -/
  | enter (node : String)
  /-- The children are settled; choose the best of them. -/
  | settle (node : String)
deriving Repr, DecidableEq

abbrev Settled := Std.HashMap String (List String)

/-- The first longest of the paths from `nodes`, unless one of them is not settled. -/
def bestSettled? (settled : Settled) (nodes : List String) : Option (List String) :=
  nodes.foldlM (fun best node => (settled[node]?).map (longer best)) []

def unsettled (next : String → List String) (settled : Settled) (node : String) : List String :=
  (next node).filter fun child => !settled.contains child

/-- Works off a stack of tasks, one unit of fuel each.  `none` says that a path was asked for before
it was known, or that the fuel ran out. -/
def settleAll? (next : String → List String) : Nat → List Task → Settled → Option Settled
  | _, [], settled => some settled
  | 0, _ :: _, _ => none
  | fuel + 1, .enter node :: tasks, settled =>
      if settled.contains node then settleAll? next fuel tasks settled
      else
        -- the children come on top of the node, the last one first
        let children := (unsettled next settled node).reverse
        settleAll? next fuel (children.map .enter ++ .settle node :: tasks) settled
  | fuel + 1, .settle node :: tasks, settled =>
      if settled.contains node then settleAll? next fuel tasks settled
      else
        match bestSettled? settled (next node) with
        | some tail => settleAll? next fuel tasks (settled.insert node (node :: tail))
        | none => none

/-- The first longest path from any of the starts in an acyclic graph.  Each node is entered once
for itself and once for each edge, and settled once. -/
def acyclicLongest? (g : Graph) (next : String → List String) (starts : List String) :
    Option (List String) :=
  (settleAll? next (2 * g.nodes.length + g.edges.length) (g.nodes.map .enter) ∅).bind
    (bestSettled? · starts)

end DiagramReadability.Graph
