import DiagramReadability.Proofs.Graph.Depth

/-!
# Spines of acyclic graphs

Where no node has more than two children, a spine may take every edge, and all that sets it apart
from the longest path is where it may start.  Without cycles a longest path starts at a root, since
whatever leads to its first node would make it longer.  The enumeration of the longest path begins
with the roots, so both keep the same path, and not only one of the same length.
-/

namespace DiagramReadability.Graph

variable {edges : List Edge}

/-- Where no node has more children than a spine admits, the spine takes every step. -/
theorem spineSteps_eq_children
    (hnarrow : ∀ n ∈ (ofEdges edges).nodes, (ofEdges edges).outDegree n ≤ spineChildren) :
    (ofEdges edges).spineSteps = (ofEdges edges).children := by
  funext n
  rw [spineSteps, extension]
  by_cases hn : n ∈ (ofEdges edges).nodes
  · exact if_pos (decide_eq_true (hnarrow n hn))
  · rw [(confined_children edges).next_eq_nil hn]
    exact ite_self []

/-- Without cycles every graph that has a node has a root. -/
theorem roots_ne_nil (hacyclic : ∀ n, ¬(ofEdges edges).OnCycle n) (hedges : edges ≠ []) :
    (ofEdges edges).roots ≠ [] := by
  rcases List.exists_cons_of_ne_nil (longestPath_ne_nil hedges) with ⟨first, rest, hpath⟩
  exact List.ne_nil_of_mem (mem_roots_of_longest hacyclic hpath)

theorem spineStarts_eq_roots (hacyclic : ∀ n, ¬(ofEdges edges).OnCycle n) :
    (ofEdges edges).spineStarts = (ofEdges edges).roots := by
  by_cases hedges : edges = []
  · rw [hedges]
    rfl
  · exact spineStarts_of_roots (roots_ne_nil hacyclic hedges)

/-- No path from a node with parents is longer than those from the roots, so the search for the
longest path does not need it. -/
theorem longestPath_eq_firstLongest_roots (hacyclic : ∀ n, ¬(ofEdges edges).OnCycle n) :
    (ofEdges edges).longestPath.path =
      firstLongest (allPaths (ofEdges edges).children (ofEdges edges).nodes.length
        (ofEdges edges).roots) := by
  have hc := confined_children edges
  have hroots : (ofEdges edges).roots ⊆ (ofEdges edges).nodes := List.filter_subset_self _
  have hothers : (ofEdges edges).nodes.filter (fun n => !((ofEdges edges).parents n).isEmpty) ⊆
      (ofEdges edges).nodes := List.filter_subset_self _
  rcases isSimple_firstLongest hc hothers with ⟨hsimple, hsub⟩
  have hlonger := length_le_longestPath hsimple hsub
  -- the longest path is itself among those from the roots
  have hlongest : (ofEdges edges).longestPath.path.length ≤ (firstLongest (allPaths
      (ofEdges edges).children (ofEdges edges).nodes.length (ofEdges edges).roots)).length := by
    cases hpath : (ofEdges edges).longestPath.path with
    | nil => exact Nat.zero_le _
    | cons first rest =>
        rw [← hpath]
        apply length_le_firstLongest
        apply (mem_allPaths_iff hc hroots (Nat.le_refl _)).mpr
        refine ⟨(isSimple_longestPath edges).1, first, mem_roots_of_longest hacyclic hpath, ?_⟩
        rw [hpath, List.head?_cons]
  have hpath := longestPath_path edges
  rw [longestByEnumeration_eq, pathStarts, allPaths, List.flatMap_append, firstLongest_append,
    ← allPaths, ← allPaths] at hpath
  rw [hpath]
  exact longer_eq_left_of_le (hlonger.trans hlongest)

/-- In an acyclic graph whose nodes have two children at most the spine and the longest path are one
and the same. -/
theorem spine_eq_longestPath (edges : List Edge) (hacyclic : ∀ n, ¬(ofEdges edges).OnCycle n)
    (hnarrow : ∀ n ∈ (ofEdges edges).nodes, (ofEdges edges).outDegree n ≤ 2) :
    (ofEdges edges).spine = (ofEdges edges).longestPath.toMainPath := by
  have hpath : (ofEdges edges).spine.path = (ofEdges edges).longestPath.path := by
    rw [spine_path, longestByEnumeration_eq, spineSteps_eq_children hnarrow,
      spineStarts_eq_roots hacyclic, longestPath_eq_firstLongest_roots hacyclic]
  show (ofEdges edges).mainPath (ofEdges edges).spine.path =
    (ofEdges edges).mainPath (ofEdges edges).longestPath.path
  rw [hpath]

/-- Where all edges lead upwards in the order of the nodes no node is on a cycle. -/
theorem not_onCycle_of_lt (hless : ∀ e ∈ edges, e.source < e.target) (n : String) :
    ¬(ofEdges edges).OnCycle n := by
  have hstep : ∀ u v, v ∈ (ofEdges edges).children u → u < v := by
    intro u v hv
    rcases mem_children_ofEdges.mp hv with ⟨e, he, rfl, rfl⟩
    exact hless e he
  intro hn
  have hself := Relation.TransGen.mono hstep _ _ (onCycle_iff.mp hn)
  rw [Relation.transGen_eq_self] at hself
  exact lt_irrefl n hself

/-- Two roots above a diamond, with four longest paths. -/
def twoRoots : List Edge :=
  [⟨"A", "C", none, .solid⟩, ⟨"B", "C", none, .solid⟩, ⟨"C", "D", none, .solid⟩,
    ⟨"C", "E", none, .solid⟩, ⟨"D", "F", none, .solid⟩, ⟨"E", "F", none, .solid⟩]

theorem spine_eq_longestPath_twoRoots :
    (∀ n, ¬(ofEdges twoRoots).OnCycle n) ∧
      (∀ n ∈ (ofEdges twoRoots).nodes, (ofEdges twoRoots).outDegree n ≤ 2) ∧
      (ofEdges twoRoots).spine = (ofEdges twoRoots).longestPath.toMainPath := by
  have hacyclic : ∀ n, ¬(ofEdges twoRoots).OnCycle n := not_onCycle_of_lt (by decide)
  have hnarrow : ∀ n ∈ (ofEdges twoRoots).nodes, (ofEdges twoRoots).outDegree n ≤ 2 := by
    simp only [outDegree, length_children_ofEdges]
    decide
  exact ⟨hacyclic, hnarrow, spine_eq_longestPath twoRoots hacyclic hnarrow⟩

end DiagramReadability.Graph
