import DiagramReadability.Graph.MainPath
import DiagramReadability.Proofs.Graph.Acyclic
import DiagramReadability.Proofs.Graph.Memoised

/-!
# Longest paths and spines

Both searches return what the plain enumeration keeps, so a longest path and a spine can be read off
the enumeration.  The enumeration lists exactly the simple paths from the starts, and that of the
spine lists those whose nodes, the last one apart, have few children.
-/

namespace DiagramReadability.Graph

variable {next : String → List String} {nodes : List String} {steps : Nat}

/-! ## The enumeration over all starts -/

/-- The simple paths from the starts, in the order in which they are entered; `extra` is the
greatest number of steps in one. -/
def allPaths (next : String → List String) (extra : Nat) (starts : List String) :
    List (List String) :=
  starts.flatMap (simplePaths next extra [])

theorem longestByEnumeration_eq (g : Graph) (next : String → List String) (starts : List String) :
    g.longestByEnumeration next starts = firstLongest (allPaths next g.nodes.length starts) :=
  rfl

/-- Every bound that is not below the number of nodes gives the same enumeration. -/
theorem allPaths_fuel (hc : Confined nodes steps next) {starts : List String}
    (hstarts : starts ⊆ nodes) {extra : Nat} (hextra : nodes.length ≤ extra) :
    allPaths next extra starts = allPaths next nodes.length starts := by
  apply List.flatMap_congr
  intro start hstart
  apply simplePaths_fuel hc
  · exact List.nodup_singleton start
  · simpa using hstarts hstart
  · rw [List.length_singleton]; omega
  · rw [List.length_singleton]; omega

theorem mem_allPaths_iff (hc : Confined nodes steps next) {starts : List String}
    (hstarts : starts ⊆ nodes) {extra : Nat} (hextra : nodes.length ≤ extra) {path : List String} :
    path ∈ allPaths next extra starts ↔
      IsSimple next path ∧ ∃ start ∈ starts, path.head? = some start := by
  rw [allPaths, List.mem_flatMap]
  constructor
  · rintro ⟨start, hstart, hpath⟩
    rcases mem_simplePaths_iff.mp hpath with ⟨tail, rfl, hsimple, -⟩
    exact ⟨hsimple, start, hstart, List.head?_cons⟩
  · rintro ⟨hsimple, start, hstart, hhead⟩
    rcases List.head?_eq_some_iff.mp hhead with ⟨tail, rfl⟩
    have hlen := hsimple.length_le (hsimple.subset_nodes hc (hstarts hstart))
    rw [List.length_cons] at hlen
    exact ⟨start, hstart, mem_simplePaths_iff.mpr ⟨tail, rfl, hsimple, by simp, by omega⟩⟩

theorem allPaths_ne_nil {extra : Nat} {starts : List String} (h : starts ≠ []) :
    allPaths next extra starts ≠ [] := by
  rcases List.exists_mem_of_ne_nil starts h with ⟨start, hstart⟩
  rcases List.exists_mem_of_ne_nil _ (simplePaths_ne_nil next extra [] start) with ⟨path, hpath⟩
  exact List.ne_nil_of_mem (List.mem_flatMap.mpr ⟨start, hstart, hpath⟩)

theorem isSimple_firstLongest (hc : Confined nodes steps next) {starts : List String}
    (hstarts : starts ⊆ nodes) :
    IsSimple next (firstLongest (allPaths next nodes.length starts)) ∧
      firstLongest (allPaths next nodes.length starts) ⊆ nodes := by
  by_cases hnil : allPaths next nodes.length starts = []
  · rw [hnil]
    exact ⟨⟨List.nodup_nil, List.isChain_nil⟩, List.nil_subset _⟩
  · rcases (mem_allPaths_iff hc hstarts (Nat.le_refl _)).mp (firstLongest_mem hnil)
      with ⟨hsimple, start, hstart, hhead⟩
    rcases List.head?_eq_some_iff.mp hhead with ⟨tail, heq⟩
    rw [heq] at hsimple ⊢
    exact ⟨hsimple, hsimple.subset_nodes hc (hstarts hstart)⟩

/-! ## The search in use -/

/-- Whichever search is chosen, it returns what the plain enumeration keeps. -/
theorem longestWalk_eq {edges : List Edge}
    (hsub : ∀ u, (next u).Sublist ((ofEdges edges).children u)) {starts : List String}
    (hstarts : starts ⊆ (ofEdges edges).nodes) :
    (ofEdges edges).longestWalk next starts =
      (ofEdges edges).longestByEnumeration next starts := by
  have hc : Confined (ofEdges edges).nodes (ofEdges edges).edges.length next :=
    (confined_children edges).of_sublist hsub
  rw [longestWalk]
  split
  · rename_i hnone
    rw [List.isEmpty_iff.mp hnone]
    rfl
  · split
    · exact searchFrom_eq_longestByEnumeration hc (namesComponents_strongHomes hc) hstarts
    · rename_i hcycle
      -- fewer steps make no cycle where there was none
      have hacyclic : ∀ n, ¬Follows next n n := by
        intro n hn
        apply hcycle
        exact (hasCycle_iff edges).mpr ⟨n, hn.mono fun u => (hsub u).subset⟩
      rw [acyclicLongest?_eq hc hacyclic hstarts, Option.getD_some]

theorem mem_pathStarts {g : Graph} {n : String} : n ∈ g.pathStarts ↔ n ∈ g.nodes := by
  rw [pathStarts, List.mem_append, roots, List.mem_filter, List.mem_filter]
  cases (g.parents n).isEmpty <;> simp

theorem pathStarts_ofEdges (edges : List Edge) :
    (ofEdges edges).pathStarts =
      ((ofEdges edges).nodes.filter fun n => ∀ e ∈ edges, e.target ≠ n) ++
        (ofEdges edges).nodes.filter fun n => ∃ e ∈ edges, e.target = n := by
  rw [pathStarts, roots_ofEdges]
  congr 1
  apply List.filter_congr
  intro n _
  rw [isEmpty_parents_ofEdges, ← decide_not]
  simp only [not_forall, not_not, exists_prop]

theorem longestPath_path (edges : List Edge) :
    (ofEdges edges).longestPath.path =
      (ofEdges edges).longestByEnumeration (ofEdges edges).children (ofEdges edges).pathStarts :=
  longestWalk_eq (fun _ => List.Sublist.refl _) fun _ hn => mem_pathStarts.mp hn

theorem spineStarts_subset (g : Graph) : g.spineStarts ⊆ g.nodes := by
  rw [spineStarts]
  split
  · exact List.take_subset 1 g.nodes
  · exact List.filter_subset_self _

theorem spineStarts_ne_nil {g : Graph} (h : g.nodes ≠ []) : g.spineStarts ≠ [] := by
  rw [spineStarts]
  split
  · rwa [Ne, List.take_eq_nil_iff, or_iff_right Nat.one_ne_zero]
  · rename_i hroots
    rwa [List.isEmpty_iff] at hroots

theorem spineStarts_of_roots {g : Graph} (hroots : g.roots ≠ []) : g.spineStarts = g.roots := by
  rw [spineStarts, if_neg (by rwa [List.isEmpty_iff])]

theorem spineStarts_ofEdges (edges : List Edge) :
    let roots := (ofEdges edges).nodes.filter fun n => ∀ e ∈ edges, e.target ≠ n
    (ofEdges edges).spineStarts = if roots = [] then (ofEdges edges).nodes.take 1 else roots := by
  simp only [spineStarts, roots_ofEdges, List.isEmpty_iff]

theorem spine_path (edges : List Edge) :
    (ofEdges edges).spine.path =
      (ofEdges edges).longestByEnumeration (ofEdges edges).spineSteps
        (ofEdges edges).spineStarts :=
  longestWalk_eq (extension_sublist _ _) (spineStarts_subset _)

/-! ## Longest paths -/

theorem mem_allPaths_children {edges : List Edge} {extra : Nat}
    (hextra : (ofEdges edges).nodes.length ≤ extra) {path : List String} :
    path ∈ allPaths (ofEdges edges).children extra (ofEdges edges).pathStarts ↔
      IsSimple (ofEdges edges).children path ∧ path ≠ [] ∧ path ⊆ (ofEdges edges).nodes := by
  have hc := confined_children edges
  rw [mem_allPaths_iff hc (fun _ hn => mem_pathStarts.mp hn) hextra]
  apply and_congr_right
  intro hsimple
  cases path with
  | nil => simp
  | cons start tail =>
      constructor
      · rintro ⟨n, hn, hhead⟩
        rw [List.head?_cons, Option.some.injEq] at hhead
        subst hhead
        exact ⟨List.cons_ne_nil _ _, hsimple.subset_nodes hc (mem_pathStarts.mp hn)⟩
      · rintro ⟨-, hsub⟩
        exact ⟨start, mem_pathStarts.mpr (hsub List.mem_cons_self), List.head?_cons⟩

/-- No simple path of a graph is longer than its longest path. -/
theorem length_le_longestPath {edges : List Edge} {path : List String}
    (h : IsSimple (ofEdges edges).children path) (hsub : path ⊆ (ofEdges edges).nodes) :
    path.length ≤ (ofEdges edges).longestPath.path.length := by
  rw [longestPath_path, longestByEnumeration_eq]
  by_cases hnil : path = []
  · rw [hnil]
    exact Nat.zero_le _
  · exact length_le_firstLongest ((mem_allPaths_children (Nat.le_refl _)).mpr ⟨h, hnil, hsub⟩)

theorem isSimple_longestPath (edges : List Edge) :
    IsSimple (ofEdges edges).children (ofEdges edges).longestPath.path ∧
      (ofEdges edges).longestPath.path ⊆ (ofEdges edges).nodes := by
  rw [longestPath_path, longestByEnumeration_eq]
  exact isSimple_firstLongest (confined_children edges) fun _ hn => mem_pathStarts.mp hn

theorem isSimple_spine (edges : List Edge) :
    IsSimple (ofEdges edges).children (ofEdges edges).spine.path ∧
      (ofEdges edges).spine.path ⊆ (ofEdges edges).nodes := by
  have hc : Confined (ofEdges edges).nodes edges.length (ofEdges edges).spineSteps :=
    confined_extension edges _
  rw [spine_path, longestByEnumeration_eq]
  rcases isSimple_firstLongest hc (spineStarts_subset _) with ⟨hsimple, hsub⟩
  exact ⟨hsimple.mono fun u => (extension_sublist _ _ u).subset, hsub⟩

/-- A graph with more nodes and more steps between them has no shorter longest path: the longest
path of the smaller graph is still there. -/
theorem length_longestPath_mono {es es' : List Edge}
    (hnodes : (ofEdges es).nodes ⊆ (ofEdges es').nodes)
    (hchildren : ∀ u, (ofEdges es).children u ⊆ (ofEdges es').children u) :
    (ofEdges es).longestPath.length ≤ (ofEdges es').longestPath.length := by
  obtain ⟨hsimple, hsub⟩ := isSimple_longestPath es
  exact length_le_longestPath (hsimple.mono hchildren) (List.Subset.trans hsub hnodes)

/-- The longest path of a graph is the one that the plain exhaustive search keeps, whatever bound on
the number of steps that search has and whatever names the strong components have.  Both start at
the nodes that no edge enters and then at the others.  It is a simple path along edges, and none is
longer. -/
theorem longestPath_eq_exhaustive (edges : List Edge) :
    let g := ofEdges edges
    let path := g.longestPath.path
    let starts := (g.nodes.filter fun n => ∀ e ∈ edges, e.target ≠ n) ++
      g.nodes.filter fun n => ∃ e ∈ edges, e.target = n
    (∀ extra, g.nodes.length ≤ extra →
      path = firstLongest (allPaths g.children extra starts) ∧
        ∀ p, p ∈ allPaths g.children extra starts ↔
          g.IsSimplePath p ∧ p ≠ [] ∧ p ⊆ g.nodes) ∧
      (∀ home, g.NamesComponents g.children home →
        (g.terrainBy g.children home).searchFrom [] ∅ starts = path) ∧
      path.Nodup ∧
      (∀ p ∈ path.zip path.tail, ∃ e ∈ edges, e.source = p.1 ∧ e.target = p.2) ∧
      g.longestPath.length = path.length ∧
      ∀ p, g.IsSimplePath p → p ⊆ g.nodes → p.length ≤ g.longestPath.length := by
  intro g path starts
  rw [show starts = g.pathStarts from (pathStarts_ofEdges edges).symm]
  have hc : Confined g.nodes edges.length g.children := confined_children edges
  have hstarts : g.pathStarts ⊆ g.nodes := fun _ hn => mem_pathStarts.mp hn
  have hpath : path = g.longestByEnumeration g.children g.pathStarts := longestPath_path edges
  have hsimple := isSimplePath_iff.mpr (isSimple_longestPath edges).1
  refine ⟨fun extra hextra => ⟨?_, fun p => ?_⟩, fun home hnames => ?_, hsimple.1, ?_, rfl, ?_⟩
  · rw [hpath, longestByEnumeration_eq, allPaths_fuel hc hstarts hextra]
  · rw [mem_allPaths_children hextra, isSimplePath_iff]
  · rw [searchFrom_eq_longestByEnumeration hc hnames hstarts, hpath]
  · intro p hp
    exact mem_children_ofEdges.mp (hsimple.2 p hp)
  · intro p hp hsub
    exact length_le_longestPath (isSimplePath_iff.mp hp) hsub

/-! ## Spines -/

/-- The paths of a walk that only some nodes extend are the simple paths whose nodes, the last one
apart, extend it. -/
theorem simplePaths_extension (g : Graph) (passes : String → Bool) (extra : Nat)
    (used : List String) (node : String) :
    simplePaths (g.extension passes) extra used node =
      (simplePaths g.children extra used node).filter fun p => p.dropLast.all passes := by
  induction extra generalizing used node with
  | zero => rfl
  | succ extra ih =>
      rw [simplePaths_succ, simplePaths_succ, List.filter_cons_of_pos rfl, List.filter_flatMap]
      congr 1
      -- a node that does not extend ends its paths here, and the filter drops all longer ones
      by_cases hpass : passes node = true
      · have hsteps : unusedSteps (g.extension passes) (node :: used) node =
            unusedSteps g.children (node :: used) node := by
          rw [unusedSteps, unusedSteps, extension, if_pos hpass]
        rw [hsteps]
        apply List.flatMap_congr
        intro child _
        rw [ih, List.filter_map]
        congr 1
        apply List.filter_congr
        intro p hp
        rcases mem_simplePaths_iff.mp hp with ⟨tail, rfl, -⟩
        rw [Function.comp_apply, List.dropLast_cons_of_ne_nil (List.cons_ne_nil _ _), List.all_cons,
          hpass, Bool.true_and]
      · have hsteps : unusedSteps (g.extension passes) (node :: used) node = [] := by
          rw [unusedSteps, extension, if_neg hpass, List.filter_nil]
        rw [hsteps, List.flatMap_nil, eq_comm, List.flatMap_eq_nil_iff]
        intro child _
        apply List.filter_eq_nil_iff.mpr
        intro p hp
        rcases List.mem_map.mp hp with ⟨q, hq, rfl⟩
        rcases mem_simplePaths_iff.mp hq with ⟨tail, rfl, -⟩
        rw [List.dropLast_cons_of_ne_nil (List.cons_ne_nil _ _), List.all_cons]
        simp [hpass]

theorem allPaths_extension (g : Graph) (passes : String → Bool) (extra : Nat)
    (starts : List String) :
    allPaths (g.extension passes) extra starts =
      (allPaths g.children extra starts).filter fun p => p.dropLast.all passes := by
  rw [allPaths, allPaths, List.filter_flatMap]
  apply List.flatMap_congr
  intro start _
  exact simplePaths_extension g passes extra [] start

/-- The spine is the first of greatest length, in the order of a depth-first enumeration, among the
simple paths from a start whose nodes, the last one apart, have at most two children.  It starts at
a node that no edge enters or, if there is none, at the first node. -/
theorem spine_first_longest (edges : List Edge) (hedges : edges ≠ []) :
    let g := ofEdges edges
    let roots := g.nodes.filter fun n => ∀ e ∈ edges, e.target ≠ n
    let starts := if roots = [] then g.nodes.take 1 else roots
    (∀ extra, g.nodes.length ≤ extra →
      let candidates := (allPaths g.children extra starts).filter fun p =>
        p.dropLast.all fun n => g.outDegree n ≤ 2
      (∃ before after, candidates = before ++ g.spine.path :: after ∧
        (∀ p ∈ before, p.length < g.spine.length) ∧ ∀ p ∈ after, p.length ≤ g.spine.length) ∧
        ∀ p, p ∈ candidates ↔ g.IsSimplePath p ∧ (∃ start ∈ starts, p.head? = some start) ∧
          ∀ n ∈ p.dropLast, g.outDegree n ≤ 2) ∧
      ∀ home, g.NamesComponents g.spineSteps home →
        (g.terrainBy g.spineSteps home).searchFrom [] ∅ starts = g.spine.path := by
  intro g roots starts
  rw [show starts = g.spineStarts from (spineStarts_ofEdges edges).symm]
  have hc : Confined g.nodes edges.length g.children := confined_children edges
  have hcs : Confined g.nodes edges.length g.spineSteps := hc.of_sublist (extension_sublist g _)
  have hstarts : g.spineStarts ⊆ g.nodes := spineStarts_subset g
  have hpath : g.spine.path = g.longestByEnumeration g.spineSteps g.spineStarts := spine_path edges
  refine ⟨fun extra hextra => ?_, fun home hnames => ?_⟩
  · intro candidates
    have hcandidates : allPaths g.spineSteps extra g.spineStarts = candidates :=
      allPaths_extension g _ extra g.spineStarts
    have hspine : g.spine.path = firstLongest candidates := by
      rw [hpath, longestByEnumeration_eq, ← hcandidates, allPaths_fuel hcs hstarts hextra]
    refine ⟨?_, fun p => ?_⟩
    · have hne : candidates ≠ [] := by
        rw [← hcandidates]
        exact allPaths_ne_nil (spineStarts_ne_nil (nodes_ne_nil hedges))
      have hfirst := exists_eq_append_firstLongest hne
      rw [← hspine] at hfirst
      exact hfirst
    · rw [List.mem_filter, mem_allPaths_iff hc hstarts hextra, isSimplePath_iff, List.all_eq_true]
      simp only [decide_eq_true_eq, and_assoc]
  · rw [searchFrom_eq_longestByEnumeration hcs hnames hstarts, hpath]

/-- A ring whose second node has two more children, so that a spine does not close it. -/
def frayedRing : List Edge :=
  [⟨"A", "B", none, .solid⟩, ⟨"B", "A", none, .solid⟩, ⟨"B", "C", none, .solid⟩,
    ⟨"B", "D", none, .solid⟩]

theorem spine_first_longest_frayedRing :
    frayedRing ≠ [] ∧ (ofEdges frayedRing).spine.path = ["A", "B"] := by
  have hedges : frayedRing ≠ [] := by decide
  have hcandidates : (allPaths (ofEdges frayedRing).children 4 ["A"]).filter (fun p =>
      p.dropLast.all fun n => (ofEdges frayedRing).outDegree n ≤ 2) = [["A"], ["A", "B"]] := by
    simp [allPaths, simplePaths, outDegree, children_ofEdges, frayedRing]
  have hfirst := ((spine_first_longest frayedRing hedges).1 4 (by decide)).1
  have hnodes : (ofEdges frayedRing).nodes = ["A", "B", "C", "D"] := by decide
  have hroots : (["A", "B", "C", "D"].filter fun n => ∀ e ∈ frayedRing, e.target ≠ n) = [] := by
    decide
  -- the ring has no node to start from but its first
  rw [hnodes, hroots, if_pos rfl, List.take_one, List.head?_cons, Option.toList_some,
    hcandidates] at hfirst
  rcases hfirst with ⟨before, after, heq, hbefore, hafter⟩
  have hpath : (ofEdges frayedRing).spine.path ∈ [["A"], ["A", "B"]] := by
    rw [heq]
    simp
  have hlong : 2 ≤ (ofEdges frayedRing).spine.length := by
    have hmem : ["A", "B"] ∈ before ++ (ofEdges frayedRing).spine.path :: after := by
      rw [← heq]
      simp
    rcases List.mem_append.mp hmem with hmem | hmem
    · exact Nat.le_of_lt (hbefore _ hmem)
    · rcases List.mem_cons.mp hmem with hmem | hmem
      · rw [MainPath.length, ← hmem]
        decide
      · exact hafter _ hmem
  refine ⟨hedges, ?_⟩
  rcases List.mem_cons.mp hpath with hshort | hpath
  · rw [MainPath.length, hshort] at hlong
    exact absurd hlong (by decide)
  · exact List.mem_singleton.mp hpath

end DiagramReadability.Graph
