import DiagramReadability.Graph.Basic

/-!
# Nodes by their degrees
-/

namespace DiagramReadability.Graph

def roots (g : Graph) : List String :=
  g.nodes.filter fun n => (g.parents n).isEmpty

theorem isEmpty_parents_ofEdges (edges : List Edge) (n : String) :
    ((ofEdges edges).parents n).isEmpty = decide (∀ e ∈ edges, e.target ≠ n) := by
  rw [Bool.eq_iff_iff, parents_ofEdges, List.isEmpty_iff, List.map_eq_nil_iff,
    List.filter_eq_nil_iff, decide_eq_true_eq]
  simp only [decide_eq_true_eq]

theorem roots_ofEdges (edges : List Edge) :
    (ofEdges edges).roots = (ofEdges edges).nodes.filter fun n => ∀ e ∈ edges, e.target ≠ n := by
  simp only [roots, isEmpty_parents_ofEdges]

def leaves (g : Graph) : List String :=
  g.nodes.filter fun n => (g.children n).isEmpty

def isLinear (g : Graph) (node : String) : Bool :=
  g.inDegree node ≤ 1 && g.outDegree node ≤ 1

def linearNodes (g : Graph) : List String :=
  g.nodes.filter g.isLinear

def mergePoints (g : Graph) : List String :=
  g.nodes.filter fun n => 1 < g.inDegree n

/-- The mean number of children, zero for the empty graph. -/
def averageChildren (g : Graph) : Float :=
  g.nodeShare g.edges.length

/-- The larger of two degrees with their nodes; the first one stays when they are equal. -/
def wider (g : Graph) (best : Nat × Option String) (node : String) : Nat × Option String :=
  if best.1 < g.outDegree node then (g.outDegree node, some node) else best

/-- The largest number of children and the first node that has it. -/
def widestBranch (g : Graph) : Nat × Option String :=
  g.nodes.foldl g.wider (0, none)

theorem foldl_wider_fst (g : Graph) (nodes : List String) (best : Nat × Option String) :
    (nodes.foldl g.wider best).1 = (nodes.map g.outDegree).foldl max best.1 := by
  induction nodes generalizing best with
  | nil => rfl
  | cons n nodes ih =>
    rw [List.foldl_cons, ih, List.map_cons, List.foldl_cons]
    congr 1
    unfold wider
    split
    · exact (Nat.max_eq_right (by omega)).symm
    · exact (Nat.max_eq_left (by omega)).symm

end DiagramReadability.Graph
