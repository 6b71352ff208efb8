import DiagramReadability.Graph.Basic

/-!
# Keyed edges

A multigraph may be written as a set of edges if each one has a key that tells it from the parallel
ones.  The keys of the edges from one node to another count up from zero in edge order.  A graph is
exported to a library of such multigraphs node by node and then edge by edge.
-/

namespace DiagramReadability

/-- An edge with its number among the edges that have the same source and target. -/
structure KeyedEdge extends Edge where
  key : Nat
deriving Repr, DecidableEq

namespace Graph

def parallel (a b : Edge) : Bool :=
  a.source = b.source && a.target = b.target

def keyedEdges (g : Graph) : List KeyedEdge :=
  g.edges.mapIdx fun i e => { e with key := (g.edges.take i).countP (parallel e) }

theorem map_toEdge_keyedEdges (g : Graph) : g.keyedEdges.map KeyedEdge.toEdge = g.edges := by
  apply List.ext_getElem
  · simp [keyedEdges]
  · simp [keyedEdges]

def keyedLe (a b : KeyedEdge) : Bool :=
  if a.source ≠ b.source then a.source < b.source
  else if a.target ≠ b.target then a.target < b.target
  else a.key ≤ b.key

def listedEdges (g : Graph) : List KeyedEdge :=
  g.keyedEdges.mergeSort keyedLe

end Graph

/-! ## Libraries of multigraphs -/

structure ParallelEdge where
  key : Nat
  label : Option String
  arrow : Arrow
deriving Repr, DecidableEq

def KeyedEdge.toParallel (e : KeyedEdge) : ParallelEdge :=
  ⟨e.key, e.label, e.arrow⟩

/-- A library of multigraphs: how one grows, how it is read, and what is known of both. -/
structure MultigraphLibrary (M : Type) where
  empty : M
  addNode : M → String → M
  addEdge : M → Edge → M
  nodes : M → List String
  parallels : M → String → String → List ParallelEdge
  nodes_empty : nodes empty = []
  parallels_empty : ∀ u v, parallels empty u v = []
  /-- A new node comes last, and one that is there stays in its place. -/
  nodes_addNode : ∀ m n, nodes (addNode m n) = if n ∈ nodes m then nodes m else nodes m ++ [n]
  parallels_addNode : ∀ m n u v, parallels (addNode m n) u v = parallels m u v
  /-- An edge brings its ends along. -/
  nodes_addEdge : ∀ m e, nodes (addEdge m e) = nodes (addNode (addNode m e.source) e.target)
  /-- The key of a new edge is the number of those that it is parallel to, if that is free. -/
  parallels_addEdge : ∀ m e,
    (∀ p ∈ parallels m e.source e.target, p.key ≠ (parallels m e.source e.target).length) →
    parallels (addEdge m e) e.source e.target = parallels m e.source e.target ++
      [⟨(parallels m e.source e.target).length, e.label, e.arrow⟩]
  parallels_addEdge_of_ne : ∀ m e u v, (u, v) ≠ (e.source, e.target) →
    parallels (addEdge m e) u v = parallels m u v

namespace MultigraphLibrary

def withNode (nodes : List String) (n : String) : List String :=
  if n ∈ nodes then nodes else nodes ++ [n]

def listedBetween (edges : List KeyedEdge) (u v : String) : List ParallelEdge :=
  (edges.filter fun e => e.source = u ∧ e.target = v).map KeyedEdge.toParallel

def lists : MultigraphLibrary (List String × List KeyedEdge) where
  empty := ([], [])
  addNode m n := (withNode m.1 n, m.2)
  addEdge m e := (withNode (withNode m.1 e.source) e.target,
    m.2 ++ [{ e with key := m.2.countP fun k => Graph.parallel e k.toEdge }])
  nodes m := m.1
  parallels m u v := listedBetween m.2 u v
  nodes_empty := rfl
  parallels_empty _ _ := rfl
  nodes_addNode _ _ := rfl
  parallels_addNode _ _ _ _ := rfl
  nodes_addEdge _ _ := rfl
  parallels_addEdge m e _ := by
    simp [listedBetween, KeyedEdge.toParallel, Graph.parallel, List.countP_eq_length_filter,
      eq_comm]
  parallels_addEdge_of_ne m e u v h := by
    have hother : ¬ (e.source = u ∧ e.target = v) := by
      rintro ⟨rfl, rfl⟩
      exact h rfl
    simp [listedBetween, hother]

end MultigraphLibrary

def Graph.exportTo {M : Type} (library : MultigraphLibrary M) (g : Graph) : M :=
  g.edges.foldl library.addEdge (g.nodes.foldl library.addNode library.empty)

end DiagramReadability
