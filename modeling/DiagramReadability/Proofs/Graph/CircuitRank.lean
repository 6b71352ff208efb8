import DiagramReadability.Proofs.Graph.ComponentOrder
import DiagramReadability.Proofs.Graph.Growth

/-!
# Circuits

Edges less nodes plus components: how many edges more a graph has than its components need to hang
together.  An edge written below the others adds one to this rank just when its ends were connected
before, so the rank counts the edges that close a circuit, and it is zero for forests alone.
-/

namespace DiagramReadability.Graph

variable {a b : String} {classes others : List (List String)}

/-! ## The number of merged classes -/

theorem length_filter_contains (hnodup : classes.flatten.Nodup) (hne : ∀ c ∈ classes, c ≠ [])
    (ha : a ∈ classes.flatten) (hb : b ∈ classes.flatten) :
    (classes.filter fun c => c.contains a || c.contains b).length =
      if ∃ c ∈ classes, a ∈ c ∧ b ∈ c then 1 else 2 := by
  -- with no class empty, classes without common nodes are different lists
  have hclasses : classes.Nodup := (nodup_map_toFinset hnodup hne).of_map List.toFinset
  have hfilter := hclasses.filter fun c => c.contains a || c.contains b
  rcases List.mem_flatten.mp ha with ⟨ca, hca, haca⟩
  rcases List.mem_flatten.mp hb with ⟨cb, hcb, hbcb⟩
  -- the class of a node is the only one that holds it
  have hclass : ∀ c, c ∈ classes.filter (fun c => c.contains a || c.contains b) ↔
      c = ca ∨ c = cb := by
    intro c
    rw [List.mem_filter, Bool.or_eq_true, List.contains_iff_mem, List.contains_iff_mem]
    constructor
    · rintro ⟨hc, h | h⟩
      · exact .inl (eq_of_mem_of_mem hnodup hc hca h haca)
      · exact .inr (eq_of_mem_of_mem hnodup hc hcb h hbcb)
    · rintro (rfl | rfl)
      · exact ⟨hca, .inl haca⟩
      · exact ⟨hcb, .inr hbcb⟩
  by_cases hsame : ∃ c ∈ classes, a ∈ c ∧ b ∈ c
  · rcases hsame with ⟨c, hc, hac, hbc⟩
    have heq : ca = cb := by
      rw [eq_of_mem_of_mem hnodup hca hc haca hac, eq_of_mem_of_mem hnodup hcb hc hbcb hbc]
    have hperm : (classes.filter fun c => c.contains a || c.contains b).Perm [ca] := by
      apply (List.perm_ext_iff_of_nodup hfilter (List.nodup_singleton ca)).mpr
      intro c
      rw [hclass, ← heq, or_self, List.mem_singleton]
    rw [hperm.length_eq, if_pos ⟨c, hc, hac, hbc⟩]
    rfl
  · have hdiff : ca ≠ cb := fun heq => hsame ⟨ca, hca, haca, heq ▸ hbcb⟩
    have hperm : (classes.filter fun c => c.contains a || c.contains b).Perm [ca, cb] := by
      apply (List.perm_ext_iff_of_nodup hfilter (by simpa using hdiff)).mpr
      intro c
      rw [hclass, List.mem_cons, List.mem_singleton]
    rw [hperm.length_eq, if_neg hsame]
    rfl

/-- Merging makes one class of two, unless both nodes are in one class already. -/
theorem length_merge (hnodup : classes.flatten.Nodup) (hne : ∀ c ∈ classes, c ≠ [])
    (ha : a ∈ classes.flatten) (hb : b ∈ classes.flatten) :
    (merge a b classes).length + (if ∃ c ∈ classes, a ∈ c ∧ b ∈ c then 0 else 1) =
      classes.length := by
  have hmerged := length_filter_contains hnodup hne ha hb
  have htotal := classes.length_eq_length_filter_add fun c => c.contains a || c.contains b
  rw [merge_eq, List.length_cons]
  split_ifs at hmerged ⊢ <;> omega

/-! ## One more edge -/

theorem merge_append (h : ∀ c ∈ others, a ∉ c ∧ b ∉ c) :
    merge a b (classes ++ others) = merge a b classes ++ others := by
  have hnone : (others.filter fun c => c.contains a || c.contains b) = [] := by
    apply List.filter_eq_nil_iff.mpr
    intro c hc
    simpa using h c hc
  have hall : (others.filter fun c => !(c.contains a || c.contains b)) = others := by
    apply List.filter_eq_self.mpr
    intro c hc
    simpa using h c hc
  rw [merge_eq, merge_eq, joinedClass, joinedClass, List.filter_append, List.filter_append, hnone,
    hall, List.append_nil, List.cons_append]

theorem foldl_merge_append {edges : List Edge}
    (h : ∀ e ∈ edges, ∀ c ∈ others, e.source ∉ c ∧ e.target ∉ c) :
    edges.foldl (fun classes e => merge e.source e.target classes) (classes ++ others) =
      edges.foldl (fun classes e => merge e.source e.target classes) classes ++ others := by
  induction edges generalizing classes with
  | nil => rfl
  | cons e rest ih =>
      rw [List.forall_mem_cons] at h
      rw [List.foldl_cons, List.foldl_cons, merge_append h.1]
      exact ih h.2

variable {es : List Edge} {e : Edge} {fresh : List String}

theorem not_mem_nodes_of_fresh
    (hnodes : (ofEdges es).nodes ++ fresh = (ofEdges (es ++ [e])).nodes) {n : String}
    (hn : n ∈ fresh) : n ∉ (ofEdges es).nodes := by
  have hnodup := hnodes ▸ nodup_nodes (es ++ [e])
  exact fun hold => (List.nodup_append.mp hnodup).2.2 n hold n hn rfl

/-- The classes of a graph with one more edge: those of the graph before it and one for each new
node, with those of the two ends merged. -/
theorem connectedClasses_snoc
    (hnodes : (ofEdges es).nodes ++ fresh = (ofEdges (es ++ [e])).nodes) :
    (ofEdges (es ++ [e])).connectedClasses =
      merge e.source e.target ((ofEdges es).connectedClasses ++ fresh.map ([·])) := by
  show (es ++ [e]).foldl (fun classes e => merge e.source e.target classes)
      ((ofEdges (es ++ [e])).nodes.map ([·])) =
    merge e.source e.target
      (es.foldl (fun classes e => merge e.source e.target classes)
        ((ofEdges es).nodes.map ([·])) ++ fresh.map ([·]))
  rw [← hnodes, List.map_append, List.foldl_append, foldl_merge_append]
  · rfl
  · -- the edges before lead between nodes that are not new
    intro f hf c hc
    rcases List.mem_map.mp hc with ⟨n, hn, rfl⟩
    have hold := not_mem_nodes_of_fresh hnodes hn
    rw [List.mem_singleton, List.mem_singleton]
    exact ⟨fun h => hold (mem_nodes.mpr ⟨f, hf, .inl h.symm⟩),
      fun h => hold (mem_nodes.mpr ⟨f, hf, .inr h.symm⟩)⟩

theorem exists_class_snoc_iff
    (hnodes : (ofEdges es).nodes ++ fresh = (ofEdges (es ++ [e])).nodes) {u v : String}
    (hu : u ∈ (ofEdges (es ++ [e])).nodes) :
    (∃ c ∈ (ofEdges es).connectedClasses ++ fresh.map ([·]), u ∈ c ∧ v ∈ c) ↔
      u = v ∨ (ofEdges es).SameComponent u v := by
  have hpartition := isPartition_connectedClasses es
  have hold : (∃ c ∈ (ofEdges es).connectedClasses, u ∈ c ∧ v ∈ c) ↔
      (ofEdges es).SameComponent u v := by
    rw [hpartition.exists_common_iff, sameComponent_iff, ← connected_iff_joined,
      connected_iff]
  rw [← hold]
  constructor
  · rintro ⟨c, hc, huc, hvc⟩
    rcases List.mem_append.mp hc with hc | hc
    · exact .inr ⟨c, hc, huc, hvc⟩
    · -- a new node shares its class with itself alone
      rcases List.mem_map.mp hc with ⟨n, -, rfl⟩
      exact .inl ((List.mem_singleton.mp huc).trans (List.mem_singleton.mp hvc).symm)
  · rintro (rfl | ⟨c, hc, huc, hvc⟩)
    · rw [← hnodes, List.mem_append] at hu
      rcases hu with hu | hu
      · rcases hpartition.exists_class hu with ⟨c, hc, huc⟩
        exact ⟨c, List.mem_append_left _ hc, huc, huc⟩
      · refine ⟨[u], List.mem_append_right _ (List.mem_map_of_mem hu), ?_, ?_⟩
        · exact List.mem_singleton_self u
        · exact List.mem_singleton_self u
    · exact ⟨c, List.mem_append_left _ hc, huc, hvc⟩

/-! ## The rank -/

/-- The number of edges less nodes plus components. -/
def circuitRank (g : Graph) : Int :=
  g.edges.length - g.nodes.length + g.components.length

theorem circuitRank_snoc (es : List Edge) (e : Edge) :
    (ofEdges (es ++ [e])).circuitRank = (ofEdges es).circuitRank +
      if e.source = e.target ∨ (ofEdges es).SameComponent e.source e.target then 1 else 0 := by
  rcases nodes_append es [e] with ⟨fresh, hnodes⟩
  have hsource : e.source ∈ (ofEdges (es ++ [e])).nodes := mem_nodes.mpr ⟨e, by simp, .inl rfl⟩
  have htarget : e.target ∈ (ofEdges (es ++ [e])).nodes := mem_nodes.mpr ⟨e, by simp, .inr rfl⟩
  have hpartition := isPartition_connectedClasses es
  -- before the merge the classes hold the nodes of the larger graph, each once
  have hperm : ((ofEdges es).connectedClasses ++ fresh.map ([·])).flatten.Perm
      (ofEdges (es ++ [e])).nodes := by
    rw [← hnodes, List.flatten_append, ← List.flatMap_def, List.flatMap_singleton']
    exact hpartition.perm.append_right fresh
  have hne : ∀ c ∈ (ofEdges es).connectedClasses ++ fresh.map ([·]), c ≠ [] := by
    intro c hc
    rcases List.mem_append.mp hc with hc | hc
    · exact hpartition.nonempty c hc
    · rcases List.mem_map.mp hc with ⟨n, -, rfl⟩
      exact List.cons_ne_nil n []
  -- and the merge takes one class away unless it finds both ends in the same one
  have hmerge := length_merge (hperm.nodup_iff.mpr (nodup_nodes _)) hne
    (hperm.mem_iff.mpr hsource) (hperm.mem_iff.mpr htarget)
  have hlength := congrArg List.length hnodes
  have hedges : (ofEdges (es ++ [e])).edges.length = (ofEdges es).edges.length + 1 :=
    List.length_append
  rw [← connectedClasses_snoc hnodes, length_connectedClasses, List.length_append, List.length_map,
    length_connectedClasses] at hmerge
  simp only [exists_class_snoc_iff hnodes hsource] at hmerge
  rw [List.length_append] at hlength
  unfold circuitRank
  split_ifs at hmerge ⊢ <;> omega

theorem circuitRank_nonneg (es : List Edge) : 0 ≤ (ofEdges es).circuitRank := by
  induction es using List.reverseRecOn with
  | nil => decide
  | append_singleton es e ih =>
      rw [circuitRank_snoc]
      split_ifs <;> omega

/-! ## Forests -/

/-- The two edges join the same nodes, in the same direction or against each other. -/
def Parallel (e f : Edge) : Prop :=
  e.source = f.source ∧ e.target = f.target ∨ e.source = f.target ∧ e.target = f.source

/-- The undirected graph in which different nodes are adjacent when an edge joins them. -/
def undirected (edges : List Edge) : SimpleGraph String :=
  SimpleGraph.fromRel (Joined edges)

/-- As an undirected multigraph the edges have no loop, no two of them join the same nodes, and no
cycle leads through three or more nodes. -/
structure IsForest (edges : List Edge) : Prop where
  loopless : ∀ e ∈ edges, e.source ≠ e.target
  single : edges.Pairwise fun e f => ¬ Parallel e f
  acyclic : (undirected edges).IsAcyclic

theorem undirected_adj {u v : String} : (undirected es).Adj u v ↔ u ≠ v ∧ Joined es u v := by
  have hsymm : Joined es v u → Joined es u v := by
    rintro ⟨e, he, h⟩
    exact ⟨e, he, h.symm⟩
  rw [undirected, SimpleGraph.fromRel_adj]
  exact and_congr_right fun _ => ⟨fun h => h.elim id hsymm, .inl⟩

theorem undirected_snoc :
    undirected (es ++ [e]) = undirected es ⊔ SimpleGraph.edge e.source e.target := by
  ext u v
  rw [SimpleGraph.sup_adj, undirected_adj, undirected_adj, SimpleGraph.edge_adj]
  simp only [Joined, List.mem_append, List.mem_singleton]
  constructor
  · rintro ⟨hne, f, hf | rfl, hends⟩
    · exact .inl ⟨hne, f, hf, hends⟩
    · exact .inr ⟨by tauto, hne⟩
  · rintro (⟨hne, f, hf, hends⟩ | ⟨hends, hne⟩)
    · exact ⟨hne, f, .inl hf, hends⟩
    · exact ⟨hne, e, .inr rfl, by tauto⟩

theorem undirected_reachable {u v : String} :
    (undirected es).Reachable u v ↔ Relation.ReflTransGen (Joined es) u v := by
  rw [SimpleGraph.reachable_iff_reflTransGen]
  constructor
  · exact fun h => Relation.ReflTransGen.mono (fun _ _ hstep => (undirected_adj.mp hstep).2) _ _ h
  · intro h
    induction h with
    | refl => exact .refl
    | @tail v w _ hstep ih =>
        by_cases heq : v = w
        · exact heq ▸ ih
        · exact ih.tail (undirected_adj.mpr ⟨heq, hstep⟩)

theorem pairwise_not_parallel_snoc :
    (es ++ [e]).Pairwise (fun e f => ¬ Parallel e f) ↔
      es.Pairwise (fun e f => ¬ Parallel e f) ∧ ¬ Joined es e.source e.target := by
  rw [List.pairwise_append]
  simp only [List.pairwise_singleton, true_and, List.mem_singleton, forall_eq, Parallel, Joined,
    not_exists, not_and]

/-- A forest stays one when the new edge joins nodes that were not connected. -/
theorem isForest_snoc :
    IsForest (es ++ [e]) ↔
      IsForest es ∧ ¬ Relation.ReflTransGen (Joined es) e.source e.target := by
  rw [← undirected_reachable]
  constructor
  · rintro ⟨hloopless, hsingle, hacyclic⟩
    rw [undirected_snoc, SimpleGraph.isAcyclic_sup_fromEdgeSet_iff] at hacyclic
    rcases pairwise_not_parallel_snoc.mp hsingle with ⟨hsingle, hnew⟩
    refine ⟨⟨fun f hf => hloopless f (List.mem_append_left _ hf), hsingle, hacyclic.1⟩, ?_⟩
    -- ends that were connected before close a loop, a pair of parallel edges or a longer cycle
    intro hreach
    rcases hacyclic.2 hreach with heq | hadj
    · exact hloopless e (List.mem_append_right _ (List.mem_singleton_self e)) heq
    · exact hnew (undirected_adj.mp hadj).2
  · rintro ⟨⟨hloopless, hsingle, hacyclic⟩, hreach⟩
    refine ⟨?_, pairwise_not_parallel_snoc.mpr ⟨hsingle, ?_⟩, ?_⟩
    · intro f hf
      rcases List.mem_append.mp hf with hf | hf
      · exact hloopless f hf
      · rw [List.mem_singleton.mp hf]
        exact fun heq => hreach (heq ▸ SimpleGraph.Reachable.refl _)
    · exact fun hjoined => hreach (undirected_reachable.mpr (.single hjoined))
    · rw [undirected_snoc]
      exact hacyclic.sup_edge_of_not_reachable hreach

theorem isForest_nil : IsForest [] where
  loopless := by simp
  single := List.Pairwise.nil
  acyclic := by
    have hempty : undirected [] = ⊥ := by
      ext u v
      simp [undirected_adj, Joined]
    rw [hempty]
    exact SimpleGraph.isAcyclic_bot

theorem circuitRank_eq_zero_iff (es : List Edge) :
    (ofEdges es).circuitRank = 0 ↔ IsForest es := by
  induction es using List.reverseRecOn with
  | nil => exact iff_of_true (by decide) isForest_nil
  | append_singleton es e ih =>
      have hnonneg := circuitRank_nonneg es
      rw [isForest_snoc, ← ih, reflTransGen_joined_iff, circuitRank_snoc]
      split_ifs with hconnected
      · exact iff_of_false (by omega) (fun h => h.2 hconnected)
      · exact ⟨fun h => ⟨by omega, hconnected⟩, fun h => by omega⟩

/-- The rank grows by one with every edge whose ends are connected already and with no other.  So it
is never negative, it is zero for forests alone, and the cyclomatic complexity is the rank and once
more the number of components, however the connected classes are computed. -/
theorem circuitRank_laws :
    (∀ (es : List Edge) (e : Edge),
      (ofEdges (es ++ [e])).circuitRank = (ofEdges es).circuitRank +
        if e.source = e.target ∨ (ofEdges es).SameComponent e.source e.target then 1 else 0) ∧
      ∀ es : List Edge,
        let g := ofEdges es
        0 ≤ g.circuitRank ∧ (g.circuitRank = 0 ↔ IsForest es) ∧
          g.cyclomaticComplexity = g.circuitRank + g.components.length ∧
          g.components.length ≤ g.cyclomaticComplexity ∧
          ∀ classes, g.IsPartition classes → classes.length = g.components.length := by
  refine ⟨circuitRank_snoc, ?_⟩
  intro es g
  have hnonneg : 0 ≤ g.circuitRank := circuitRank_nonneg es
  have hcomplexity : g.cyclomaticComplexity = g.circuitRank + g.components.length := by
    have hformula : g.cyclomaticComplexity =
        g.edges.length - g.nodes.length + 2 * g.components.length := cyclomaticComplexity_eq es
    unfold circuitRank
    omega
  refine ⟨hnonneg, circuitRank_eq_zero_iff es, hcomplexity, by omega, ?_⟩
  intro classes hclasses
  exact hclasses.length_eq (isPartition_components es) (nodup_nodes es)

end DiagramReadability.Graph
