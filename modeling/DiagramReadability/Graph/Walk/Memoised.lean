import DiagramReadability.Graph.Discovery
import DiagramReadability.Graph.Walk.Enumeration

/-!
# Longest paths with cycles

A simple path that leaves a strong component never comes back to it, so of the nodes already used
only those inside the current component restrict how it goes on.  Among these, all that counts is
which component nodes can still be reached; the best continuation from a node is remembered under
that set.  The search is exhaustive inside a component and linear across components.
-/

namespace DiagramReadability.Graph

/-- The first of `nodes` that `node` reaches and that reaches it: one name for all nodes of its
strong component. -/
def homeOf (reached : Std.HashMap String (Std.HashSet String)) (nodes : List String)
    (node : String) : String :=
  let onward := reached.getD node ∅
  (nodes.find? fun other =>
    onward.contains other && (reached.getD other ∅).contains node).getD node

def strongHomes (g : Graph) (next : String → List String) : Std.HashMap String String :=
  let reached := Std.HashMap.ofList (g.nodes.map fun n => (n, reach next g.edges.length n))
  Std.HashMap.ofList (g.nodes.map fun n => (n, homeOf reached g.nodes n))

/-- What a search needs to know of the graph: the steps that can be taken, the component of each
node, and the members of each component in a fixed order. -/
structure Terrain where
  next : String → List String
  home : String → String
  members : String → List String
  steps : Nat
  size : Nat

def terrainBy (g : Graph) (next : String → List String) (home : String → String) : Terrain :=
  let members : Adjacency := Adjacency.ofPairs (g.nodes.map fun n => (home n, n))
  { next := next
    home := home
    members := fun h => members.getD h []
    steps := g.edges.length
    size := g.nodes.length }

def terrain (g : Graph) (next : String → List String) : Terrain :=
  let homes := strongHomes g next
  g.terrainBy next fun n => homes.getD n n

def Terrain.freeSteps (t : Terrain) (home : String) (used : List String) (node : String) :
    List String :=
  (t.next node).filter fun child => t.home child = home && !used.contains child

/-- The unused nodes of its component that `node` still reaches through unused ones, in the order of
the members. -/
def Terrain.stillOpen (t : Terrain) (node : String) (used : List String) : List String :=
  let home := t.home node
  let reached := reach (t.freeSteps home used) t.steps node
  (t.members home).filter fun n => n ≠ node && reached.contains n

/-- The continuations found so far, by node and by the component nodes still open to it. -/
abbrev Memo := Std.HashMap (String × List String) (List String)

/-- The first longest simple path from `node` that avoids the nodes of its component in `used`,
which hold `node` itself.  The fuel bounds the number of nodes on the path. -/
def Terrain.search (t : Terrain) :
    (fuel : Nat) → (node : String) → (used : List String) → Memo → List String × Memo
  | 0, node, _, memo => ([node], memo)
  | fuel + 1, node, used, memo =>
      let key := (node, t.stillOpen node used)
      match memo[key]? with
      | some path => (path, memo)
      | none =>
          let (tail, memo) := (t.next node).foldl (fun (best, memo) child =>
            let inside := t.home child = t.home node
            if inside && used.contains child then (best, memo)
            else
              -- no way leads back out of another component, so what was used here is forgotten
              let onward := if inside then child :: used else [child]
              let (path, memo) := search t fuel child onward memo
              (longer best path, memo)) ([], memo)
          (node :: tail, memo.insert key (node :: tail))

/-- The first longest path from any of the starts, better than `best`.  Nothing beats a path through
all nodes, so the search ends there. -/
def Terrain.searchFrom (t : Terrain) (best : List String) (memo : Memo) :
    List String → List String
  | [] => best
  | start :: rest =>
      let (path, memo) := t.search t.size start [start] memo
      let best := longer best path
      if best.length = t.size then best else t.searchFrom best memo rest

def memoisedLongest (g : Graph) (next : String → List String) (starts : List String) :
    List String :=
  (g.terrain next).searchFrom [] ∅ starts

end DiagramReadability.Graph
