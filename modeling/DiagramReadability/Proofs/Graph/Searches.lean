import DiagramReadability.Proofs.Graph.AcyclicSpine

/-!
# The two searches side by side

Where a graph has no cycles both searches apply: the one that settles children first, and the one
that remembers continuations and may end early.  Each finds the path that the plain enumeration
keeps, so they agree node for node, ties included.
-/

namespace DiagramReadability.Graph

variable {edges : List Edge}

/-- A graph without cycles has none under a rule on which nodes extend a path. -/
theorem not_follows_extension (hacyclic : ∀ n, ¬(ofEdges edges).OnCycle n)
    (passes : String → Bool) (n : String) : ¬Follows ((ofEdges edges).extension passes) n n := by
  intro hn
  exact hacyclic n (onCycle_iff.mpr (hn.mono fun u => (extension_sublist _ _ u).subset))

/-- In an acyclic graph, for every rule on which nodes extend a path and all starts, however often
they are repeated, the two searches return the same path.  The one that settles children first gets
through, and so has looked up no child and no start before it was settled. -/
theorem searches_agree (edges : List Edge) (passes : String → Bool) {starts : List String}
    (hacyclic : ∀ n, ¬(ofEdges edges).OnCycle n) (hne : starts ≠ [])
    (hstarts : starts ⊆ (ofEdges edges).nodes) :
    let g := ofEdges edges
    let next := g.extension passes
    (∃ settled, (∀ fuel, 2 * g.nodes.length + g.edges.length ≤ fuel →
        settleAll? next fuel (g.nodes.map .enter) ∅ = some settled) ∧
      ∀ n ∈ g.nodes, settled[n]? = some (longestFrom next g.nodes.length [] n)) ∧
      ∃ path, path ≠ [] ∧ g.acyclicLongest? next starts = some path ∧
        g.memoisedLongest next starts = path ∧
        (∀ home, g.NamesComponents next home →
          (g.terrainBy next home).searchFrom [] ∅ starts = path) ∧
        path = firstLongest (allPaths next g.nodes.length starts) := by
  intro g next
  have hc : Confined g.nodes g.edges.length next := confined_extension edges passes
  have hsteps : ∀ n, ¬Follows next n n := not_follows_extension hacyclic passes
  refine ⟨?_, g.longestByEnumeration next starts, ?_, acyclicLongest?_eq hc hsteps hstarts,
    searchFrom_eq_longestByEnumeration hc (namesComponents_strongHomes hc) hstarts,
    fun home hnames => searchFrom_eq_longestByEnumeration hc hnames hstarts,
    longestByEnumeration_eq g next starts⟩
  · obtain ⟨settled, hsound, hall, hrun⟩ := exists_settleAll?_eq hc hsteps
    refine ⟨settled, hrun, fun n hn => ?_⟩
    have hn := hall n hn
    rw [Std.HashMap.contains_eq_isSome_getElem?, Option.isSome_iff_exists] at hn
    obtain ⟨path, hpath⟩ := hn
    rw [hpath, hsound n path hpath]
  · -- every start is a path
    intro hnil
    have hmem : firstLongest (allPaths next g.nodes.length starts) ∈
        allPaths next g.nodes.length starts := firstLongest_mem (allPaths_ne_nil hne)
    rw [← longestByEnumeration_eq, hnil, mem_allPaths_iff hc hstarts (Nat.le_refl _)] at hmem
    obtain ⟨-, start, -, hhead⟩ := hmem
    simp at hhead

/-- Two diamonds on top of each other, with a short cut at the side. -/
def twoDiamonds : List Edge :=
  [⟨"A", "C", none, .solid⟩, ⟨"A", "B", none, .solid⟩, ⟨"B", "D", none, .solid⟩,
    ⟨"C", "D", none, .solid⟩, ⟨"A", "D", none, .solid⟩, ⟨"D", "E", none, .solid⟩,
    ⟨"D", "F", none, .solid⟩, ⟨"E", "G", none, .solid⟩, ⟨"F", "G", none, .solid⟩]

/-- Among paths of one length the child drawn first is kept; where `E` extends no path it is the
second one. -/
theorem searches_agree_twoDiamonds :
    (∀ n, ¬(ofEdges twoDiamonds).OnCycle n) ∧
      ["B", "A", "A"] ≠ [] ∧ ["B", "A", "A"] ⊆ (ofEdges twoDiamonds).nodes ∧
      (ofEdges twoDiamonds).acyclicLongest?
          ((ofEdges twoDiamonds).extension fun n => n ≠ "E") ["B", "A", "A"] =
        some ["A", "C", "D", "F", "G"] ∧
      (ofEdges twoDiamonds).memoisedLongest
          ((ofEdges twoDiamonds).extension fun n => n ≠ "E") ["B", "A", "A"] =
        ["A", "C", "D", "F", "G"] := by
  have hacyclic : ∀ n, ¬(ofEdges twoDiamonds).OnCycle n := not_onCycle_of_lt (by decide)
  have hne : ["B", "A", "A"] ≠ [] := by decide
  have hstarts : ["B", "A", "A"] ⊆ (ofEdges twoDiamonds).nodes := by decide
  obtain ⟨-, path, -, hsettling, hmemoised, -, hpath⟩ :=
    searches_agree twoDiamonds (fun n => n ≠ "E") hacyclic hne hstarts
  have hfirst : path = ["A", "C", "D", "F", "G"] := by
    have hsize : (ofEdges twoDiamonds).nodes.length = 7 := by decide
    rw [hpath, hsize]
    simp [allPaths, simplePaths, extension, children_ofEdges, twoDiamonds, firstLongest, longer]
  rw [← hfirst]
  exact ⟨hacyclic, hne, hstarts, hsettling, hmemoised⟩

end DiagramReadability.Graph
