import DiagramReadability.Statement.Edges
import DiagramReadability.Number.Places
import Std.Data.HashMap

/-!
# Graphs

A directed multigraph made of an edge list.  The nodes are the endpoints of the edges, in the order
in which they are first seen, and the neighbours of a node keep the order and the multiplicity of
the edges.
-/

namespace DiagramReadability

/-- Neighbours by node; a node without neighbours has no entry. -/
abbrev Adjacency := Std.HashMap String (List String)

def Adjacency.ofPairs (pairs : List (String × String)) : Adjacency :=
  pairs.foldr (fun (node, neighbour) table =>
    table.insert node (neighbour :: table.getD node [])) ∅

/-- A directed multigraph with both views of its edges. -/
structure Graph where
  nodes : List String
  edges : List Edge
  forward : Adjacency
  reverse : Adjacency

namespace Graph

def ofEdges (edges : List Edge) : Graph where
  nodes := (edges.flatMap fun e => [e.source, e.target]).eraseDups
  edges := edges
  forward := Adjacency.ofPairs (edges.map fun e => (e.source, e.target))
  reverse := Adjacency.ofPairs (edges.map fun e => (e.target, e.source))

def ofText (content : String) : Graph :=
  ofEdges (extractEdges content)

def isEmpty (g : Graph) : Bool :=
  g.nodes.isEmpty

def children (g : Graph) (node : String) : List String :=
  g.forward.getD node []

def parents (g : Graph) (node : String) : List String :=
  g.reverse.getD node []

def outDegree (g : Graph) (node : String) : Nat :=
  (g.children node).length

def inDegree (g : Graph) (node : String) : Nat :=
  (g.parents node).length

def nodeShare (g : Graph) (count : Nat) : Float :=
  Number.share count g.nodes.length

end Graph

theorem Adjacency.getD_ofPairs (pairs : List (String × String)) (node : String) :
    (Adjacency.ofPairs pairs).getD node [] =
      (pairs.filter fun p => p.1 = node).map Prod.snd := by
  induction pairs with
  | nil => simp [Adjacency.ofPairs]
  | cons p rest ih =>
      obtain ⟨a, b⟩ := p
      have hstep : Adjacency.ofPairs ((a, b) :: rest) =
          (Adjacency.ofPairs rest).insert a (b :: (Adjacency.ofPairs rest).getD a []) := rfl
      rw [hstep, Std.HashMap.getD_insert]
      by_cases h : a = node
      · subst h
        simp [ih]
      · simp [h, ih]

theorem Adjacency.mem_ofPairs {pairs : List (String × String)} {node : String} :
    node ∈ Adjacency.ofPairs pairs ↔ node ∈ pairs.map Prod.fst := by
  induction pairs with
  | nil => simp [Adjacency.ofPairs]
  | cons p rest ih =>
      have hstep : Adjacency.ofPairs (p :: rest) = (Adjacency.ofPairs rest).insert p.1
          (p.2 :: (Adjacency.ofPairs rest).getD p.1 []) := rfl
      rw [hstep, Std.HashMap.mem_insert, ih, List.map_cons, List.mem_cons, beq_iff_eq,
        eq_comm (a := p.1)]

namespace Graph

theorem mem_forward_ofEdges {edges : List Edge} {node : String} :
    node ∈ (ofEdges edges).forward ↔ ∃ e ∈ edges, e.source = node := by
  show node ∈ Adjacency.ofPairs (edges.map fun e => (e.source, e.target)) ↔ _
  rw [Adjacency.mem_ofPairs, List.map_map, List.mem_map]
  rfl

theorem mem_reverse_ofEdges {edges : List Edge} {node : String} :
    node ∈ (ofEdges edges).reverse ↔ ∃ e ∈ edges, e.target = node := by
  show node ∈ Adjacency.ofPairs (edges.map fun e => (e.target, e.source)) ↔ _
  rw [Adjacency.mem_ofPairs, List.map_map, List.mem_map]
  rfl

theorem children_ofEdges (edges : List Edge) (node : String) :
    (ofEdges edges).children node =
      (edges.filter fun e => e.source = node).map Edge.target := by
  simp [children, ofEdges, Adjacency.getD_ofPairs, List.filter_map, Function.comp_def]

theorem parents_ofEdges (edges : List Edge) (node : String) :
    (ofEdges edges).parents node =
      (edges.filter fun e => e.target = node).map Edge.source := by
  simp [parents, ofEdges, Adjacency.getD_ofPairs, List.filter_map, Function.comp_def]

end Graph

end DiagramReadability
