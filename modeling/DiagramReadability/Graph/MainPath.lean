import DiagramReadability.Graph.Cycle
import DiagramReadability.Graph.Walk.Acyclic
import DiagramReadability.Graph.Walk.Memoised

/-!
# Main paths

Three notions of a graph's main path, which differ.  The spine goes on only through nodes with at
most two children, the linear chain only along single links between linear nodes, and the longest
path along any edge.
-/

namespace DiagramReadability

structure MainPath where
  path : List String := []
  ratio : Float := 0.0

def MainPath.length (p : MainPath) : Nat :=
  p.path.length

structure StraightPath extends MainPath where
  isLinear : Bool := false

namespace Graph

/-- A linear path covers more than this share of the nodes. -/
def linearShare : Float := 0.6

/-- A node on the spine has at most this many children, unless it is the last. -/
def spineChildren : Nat := 2

def longestWalk (g : Graph) (next : String → List String) (starts : List String) : List String :=
  if starts.isEmpty then []
  else if g.hasCycle then g.memoisedLongest next starts
  else (g.acyclicLongest? next starts).getD []

def mainPath (g : Graph) (path : List String) : MainPath :=
  ⟨path, g.nodeShare path.length⟩

/-- The nodes at which a spine may start: the roots, or the first node of all. -/
def spineStarts (g : Graph) : List String :=
  if g.roots.isEmpty then g.nodes.take 1 else g.roots

def spineSteps (g : Graph) : String → List String :=
  g.extension fun n => g.outDegree n ≤ spineChildren

def spine (g : Graph) : MainPath :=
  g.mainPath (g.longestWalk g.spineSteps g.spineStarts)

/-- The child to which a single link leads: the only child, with no other parent. -/
def linkedChild? (g : Graph) (node : String) : Option String :=
  match g.children node with
  | [child] => if g.inDegree child = 1 then some child else none
  | _ => none

/-- The run of linear nodes from `node` on along single links; `seen` holds the nodes of the run so
far, which end it when they come again. -/
def runFrom (g : Graph) :
    (fuel : Nat) → (seen : Std.HashSet String) → (node : String) → List String
  | 0, _, _ => []
  | fuel + 1, seen, node =>
      if seen.contains node || !g.isLinear node then []
      else
        node ::
          match g.linkedChild? node with
          | some child => runFrom g fuel (seen.insert node) child
          | none => []

def linearRun (g : Graph) (node : String) : List String :=
  g.runFrom (g.nodes.length + 1) ∅ node

def linearChain (g : Graph) : StraightPath :=
  let chain := firstLongest (g.nodes.map g.linearRun)
  let share := g.nodeShare chain.length
  ⟨⟨chain, share⟩, linearShare < share⟩

/-- The nodes in the order in which longest paths are started: roots first. -/
def pathStarts (g : Graph) : List String :=
  g.roots ++ g.nodes.filter fun n => !(g.parents n).isEmpty

/-- The longest simple path.  It is linear only if all its nodes are. -/
def longestPath (g : Graph) : StraightPath :=
  let path := g.longestWalk g.children g.pathStarts
  let share := g.nodeShare path.length
  ⟨⟨path, share⟩, linearShare < share && path.all g.isLinear⟩

end Graph

end DiagramReadability
