import DiagramReadability.Proofs.Graph.LongestPath

/-!
# Appended edges

Edges that are written below the others only add to a graph: its nodes and their neighbours stay in
their places, and no measure of its size goes down.
-/

namespace DiagramReadability.Graph

variable (es es2 : List Edge)

/-! ## Nodes and their neighbours -/

theorem nodes_append : (ofEdges es).nodes <+: (ofEdges (es ++ es2)).nodes := by
  show (es.flatMap fun e => [e.source, e.target]).eraseDups <+:
    ((es ++ es2).flatMap fun e => [e.source, e.target]).eraseDups
  rw [List.flatMap_append, List.eraseDups_append]
  exact List.prefix_append _ _

theorem children_append (n : String) :
    (ofEdges es).children n <+: (ofEdges (es ++ es2)).children n := by
  rw [children_ofEdges, children_ofEdges, List.filter_append, List.map_append]
  exact List.prefix_append _ _

theorem parents_append (n : String) :
    (ofEdges es).parents n <+: (ofEdges (es ++ es2)).parents n := by
  rw [parents_ofEdges, parents_ofEdges, List.filter_append, List.map_append]
  exact List.prefix_append _ _

/-! ## Measures -/

theorem foldl_max_le_iff {degrees : List Nat} {least bound : Nat} :
    degrees.foldl max least ≤ bound ↔ least ≤ bound ∧ ∀ d ∈ degrees, d ≤ bound := by
  induction degrees generalizing least with
  | nil => simp
  | cons d degrees ih =>
    rw [List.foldl_cons, ih, List.forall_mem_cons, Nat.max_le, and_assoc]

/-- The widest branch is the least bound on the number of children. -/
theorem widestBranch_le_iff {g : Graph} {bound : Nat} :
    g.widestBranch.1 ≤ bound ↔ ∀ n ∈ g.nodes, g.outDegree n ≤ bound := by
  unfold widestBranch
  rw [foldl_wider_fst, foldl_max_le_iff, List.forall_mem_map]
  simp

theorem widestBranch_append :
    (ofEdges es).widestBranch.1 ≤ (ofEdges (es ++ es2)).widestBranch.1 := by
  rw [widestBranch_le_iff]
  intro n hn
  have hwidest := widestBranch_le_iff.mp (Nat.le_refl (ofEdges (es ++ es2)).widestBranch.1)
  calc (ofEdges es).outDegree n
      ≤ (ofEdges (es ++ es2)).outDegree n := (children_append es es2 n).length_le
    _ ≤ (ofEdges (es ++ es2)).widestBranch.1 := hwidest n ((nodes_append es es2).subset hn)

theorem hasCycle_append (h : (ofEdges es).hasCycle = true) :
    (ofEdges (es ++ es2)).hasCycle = true := by
  rw [hasCycle_iff] at h ⊢
  obtain ⟨n, hn⟩ := h
  refine ⟨n, Relation.TransGen.mono ?_ _ _ hn⟩
  exact fun u _ hstep => (children_append es es2 u).subset hstep

/-- A merge point stays one, and the merge points keep their order. -/
theorem mergePoints_append :
    (ofEdges es).mergePoints.Sublist (ofEdges (es ++ es2)).mergePoints := by
  have hmore : ∀ n, decide (1 < (ofEdges es).inDegree n) = true →
      decide (1 < (ofEdges (es ++ es2)).inDegree n) = true := by
    intro n hn
    have hle : (ofEdges es).inDegree n ≤ (ofEdges (es ++ es2)).inDegree n :=
      (parents_append es es2 n).length_le
    rw [decide_eq_true_eq] at hn ⊢
    omega
  exact (List.monotone_filter_right _ hmore).trans ((nodes_append es es2).filter _).sublist

/-! ## The whole graph -/

/-- The second graph has the nodes and neighbours of the first one, in the same order and with
others behind them, and is not smaller by any measure. -/
structure GrowsTo (g h : Graph) : Prop where
  nodes : g.nodes <+: h.nodes
  children : ∀ n, g.children n <+: h.children n
  parents : ∀ n, g.parents n <+: h.parents n
  hasCycle : g.hasCycle = true → h.hasCycle = true
  widestBranch : g.widestBranch.1 ≤ h.widestBranch.1
  longestPath : g.longestPath.length ≤ h.longestPath.length
  mergePoints : g.mergePoints.length ≤ h.mergePoints.length

/-- A graph only grows when edges are appended.  Its longest path may have been found by the search
for acyclic graphs and that of the larger graph by the other one, from other starts; what both have
in common is that no simple path is longer. -/
theorem ofEdges_growsTo_append : (ofEdges es).GrowsTo (ofEdges (es ++ es2)) where
  nodes := nodes_append es es2
  children := children_append es es2
  parents := parents_append es es2
  hasCycle := hasCycle_append es es2
  widestBranch := widestBranch_append es es2
  longestPath := by
    apply length_longestPath_mono (nodes_append es es2).subset
    exact fun u => (children_append es es2 u).subset
  mergePoints := (mergePoints_append es es2).length_le

end DiagramReadability.Graph
