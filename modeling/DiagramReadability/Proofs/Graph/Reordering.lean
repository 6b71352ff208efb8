import DiagramReadability.Proofs.Graph.MainPath
import DiagramReadability.Proofs.Graph.Partition

/-!
# Reordered edges

The walks through a graph follow the order in which its edges were written, and so do their first
choices among equals.  What they measure can be said without that order: neighbours up to their
order, connectedness, and the greatest length of the paths of each kind.
-/

namespace DiagramReadability.Graph

variable {es es' : List Edge}

/-! ## Nodes and their neighbours -/

theorem nodes_perm (h : es.Perm es') : (ofEdges es).nodes.Perm (ofEdges es').nodes := by
  rw [List.perm_ext_iff_of_nodup (nodup_nodes es) (nodup_nodes es')]
  intro n
  rw [mem_nodes, mem_nodes]
  simp only [h.mem_iff]

theorem children_perm (h : es.Perm es') (n : String) :
    ((ofEdges es).children n).Perm ((ofEdges es').children n) := by
  rw [children_ofEdges, children_ofEdges]
  exact (h.filter _).map _

theorem parents_perm (h : es.Perm es') (n : String) :
    ((ofEdges es).parents n).Perm ((ofEdges es').parents n) := by
  rw [parents_ofEdges, parents_ofEdges]
  exact (h.filter _).map _

theorem outDegree_perm (h : es.Perm es') (n : String) :
    (ofEdges es).outDegree n = (ofEdges es').outDegree n :=
  (children_perm h n).length_eq

theorem inDegree_perm (h : es.Perm es') (n : String) :
    (ofEdges es).inDegree n = (ofEdges es').inDegree n :=
  (parents_perm h n).length_eq

theorem isLinear_perm (h : es.Perm es') (n : String) :
    (ofEdges es).isLinear n = (ofEdges es').isLinear n := by
  rw [isLinear, isLinear, inDegree_perm h, outDegree_perm h]

/-- Nodes chosen by a condition that does not depend on the order. -/
theorem filter_nodes_perm (h : es.Perm es') {p p' : String → Bool} (hsame : ∀ n, p n = p' n) :
    ((ofEdges es).nodes.filter p).Perm ((ofEdges es').nodes.filter p') := by
  rw [funext hsame]
  exact (nodes_perm h).filter p'

theorem roots_perm (h : es.Perm es') : (ofEdges es).roots.Perm (ofEdges es').roots :=
  filter_nodes_perm h fun n => (parents_perm h n).isEmpty_eq

theorem roots_ne_nil_of_perm (h : es.Perm es') (hroots : (ofEdges es).roots ≠ []) :
    (ofEdges es').roots ≠ [] := fun hnil =>
  hroots (List.perm_nil.mp (hnil ▸ roots_perm h))

theorem leaves_perm (h : es.Perm es') : (ofEdges es).leaves.Perm (ofEdges es').leaves :=
  filter_nodes_perm h fun n => (children_perm h n).isEmpty_eq

theorem linearNodes_perm (h : es.Perm es') :
    (ofEdges es).linearNodes.Perm (ofEdges es').linearNodes :=
  filter_nodes_perm h (isLinear_perm h)

theorem mergePoints_perm (h : es.Perm es') :
    (ofEdges es).mergePoints.Perm (ofEdges es').mergePoints :=
  filter_nodes_perm h fun n => by rw [inDegree_perm h]

theorem widestBranch_perm (h : es.Perm es') :
    (ofEdges es).widestBranch.1 = (ofEdges es').widestBranch.1 := by
  unfold widestBranch
  rw [foldl_wider_fst, foldl_wider_fst, funext (outDegree_perm h)]
  exact ((nodes_perm h).map _).foldl_eq 0

/-! ## Cycles and components -/

theorem hasCycle_perm (h : es.Perm es') : (ofEdges es).hasCycle = (ofEdges es').hasCycle := by
  rw [Bool.eq_iff_iff, hasCycle_iff, hasCycle_iff]
  simp only [Follows, (children_perm h _).mem_iff]

theorem reachable_neighbours_perm (h : es.Perm es') (u v : String) :
    Reachable (ofEdges es).neighbours u v ↔ Reachable (ofEdges es').neighbours u v := by
  simp only [Reachable, neighbours, List.mem_append, (children_perm h _).mem_iff,
    (parents_perm h _).mem_iff]

theorem components_perm (h : es.Perm es') :
    ((ofEdges es).components.map List.toFinset).Perm
      ((ofEdges es').components.map List.toFinset) :=
  (isPartition_components es).perm_toFinset (isPartition_components es') (nodup_nodes es)
    (nodes_perm h) (reachable_neighbours_perm h)

theorem cyclomaticComplexity_perm (h : es.Perm es') :
    (ofEdges es).cyclomaticComplexity = (ofEdges es').cyclomaticComplexity := by
  have hcomponents := (components_perm h).length_eq
  rw [List.length_map, List.length_map] at hcomponents
  rw [cyclomaticComplexity_eq, cyclomaticComplexity_eq, h.length_eq, (nodes_perm h).length_eq,
    hcomponents]

/-! ## Paths -/

theorem length_longestPath_le (h : es.Perm es') :
    (ofEdges es).longestPath.length ≤ (ofEdges es').longestPath.length :=
  length_longestPath_mono (nodes_perm h).subset fun u => (children_perm h u).subset

theorem linkedChild?_perm (h : es.Perm es') (n : String) :
    (ofEdges es).linkedChild? n = (ofEdges es').linkedChild? n := by
  ext child
  rw [linkedChild?_eq_some_iff, linkedChild?_eq_some_iff, inDegree_perm h, ← List.perm_singleton,
    ← List.perm_singleton, (children_perm h n).congr_left]

theorem length_linearChain_le (h : es.Perm es') :
    (ofEdges es).linearChain.length ≤ (ofEdges es').linearChain.length := by
  obtain ⟨hrun, hsub⟩ := @isRun_linearChain es
  have hrun' : (ofEdges es').IsRun (ofEdges es).linearChain.path := by
    refine ⟨hrun.nodup, fun n hn => ?_, hrun.linked.imp fun u v hlink => ?_⟩
    · rw [← isLinear_perm h]
      exact hrun.linear n hn
    · rwa [← linkedChild?_perm h]
  exact length_le_linearChain hrun' (List.Subset.trans hsub (nodes_perm h).subset)

theorem spineSteps_subset (h : es.Perm es') (u : String) :
    (ofEdges es).spineSteps u ⊆ (ofEdges es').spineSteps u := by
  unfold spineSteps extension
  simp only [outDegree_perm h]
  split
  · exact (children_perm h u).subset
  · exact List.Subset.refl _

theorem mem_spinePaths_iff {path : List String} :
    path ∈ allPaths (ofEdges es).spineSteps (ofEdges es).nodes.length (ofEdges es).spineStarts ↔
      IsSimple (ofEdges es).spineSteps path ∧
        ∃ start ∈ (ofEdges es).spineStarts, path.head? = some start :=
  mem_allPaths_iff (confined_extension es _)
    (spineStarts_subset _) (Nat.le_refl _)

theorem length_spine_le (h : es.Perm es') (hroots : (ofEdges es).roots ≠ []) :
    (ofEdges es).spine.length ≤ (ofEdges es').spine.length := by
  have hroots' := roots_ne_nil_of_perm h hroots
  have hstarts : (ofEdges es).spineStarts ≠ [] := by rwa [spineStarts_of_roots hroots]
  unfold MainPath.length
  rw [spine_path, spine_path, longestByEnumeration_eq, longestByEnumeration_eq]
  -- the spine of the one graph is among the paths of the other
  obtain ⟨hsimple, start, hstart, hhead⟩ :=
    mem_spinePaths_iff.mp (firstLongest_mem (allPaths_ne_nil hstarts))
  refine length_le_firstLongest (mem_spinePaths_iff.mpr ⟨?_, start, ?_, hhead⟩)
  · exact hsimple.mono (spineSteps_subset h)
  · rw [spineStarts_of_roots hroots] at hstart
    rw [spineStarts_of_roots hroots']
    exact (roots_perm h).mem_iff.mp hstart

/-! ## The whole graph -/

/-- Two graphs on the same nodes that cannot be told apart by any measure that leaves the order of
nodes and edges aside. -/
structure Alike (g g' : Graph) : Prop where
  nodes : g.nodes.Perm g'.nodes
  roots : g.roots.Perm g'.roots
  leaves : g.leaves.Perm g'.leaves
  linearNodes : g.linearNodes.Perm g'.linearNodes
  mergePoints : g.mergePoints.Perm g'.mergePoints
  widestBranch : g.widestBranch.1 = g'.widestBranch.1
  hasCycle : g.hasCycle = g'.hasCycle
  components : (g.components.map List.toFinset).Perm (g'.components.map List.toFinset)
  cyclomaticComplexity : g.cyclomaticComplexity = g'.cyclomaticComplexity
  longestPath : g.longestPath.length = g'.longestPath.length
  linearChain : g.linearChain.length = g'.linearChain.length
  spine : g.roots ≠ [] → g.spine.length = g'.spine.length

/-- The order in which the edges of a graph are written leaves all its measures as they are. -/
theorem alike_of_perm (es es' : List Edge) (h : es.Perm es') :
    (ofEdges es).Alike (ofEdges es') where
  nodes := nodes_perm h
  roots := roots_perm h
  leaves := leaves_perm h
  linearNodes := linearNodes_perm h
  mergePoints := mergePoints_perm h
  widestBranch := widestBranch_perm h
  hasCycle := hasCycle_perm h
  components := components_perm h
  cyclomaticComplexity := cyclomaticComplexity_perm h
  longestPath := (length_longestPath_le h).antisymm (length_longestPath_le h.symm)
  linearChain := (length_linearChain_le h).antisymm (length_linearChain_le h.symm)
  spine hroots := by
    have hroots' := roots_ne_nil_of_perm h hroots
    exact (length_spine_le h hroots).antisymm (length_spine_le h.symm hroots')

/-- Two branches that meet, and the same edges from the last to the first. -/
theorem alike_reversed :
    let es : List Edge := [⟨"A", "B", none, .solid⟩, ⟨"A", "C", none, .solid⟩,
      ⟨"B", "D", none, .solid⟩, ⟨"C", "D", none, .solid⟩]
    es.Perm es.reverse ∧ (ofEdges es).nodes ≠ (ofEdges es.reverse).nodes ∧
      (ofEdges es).Alike (ofEdges es.reverse) := by
  intro es
  have hperm : es.Perm es.reverse := (List.reverse_perm es).symm
  exact ⟨hperm, by decide, alike_of_perm es es.reverse hperm⟩

end DiagramReadability.Graph
