import DiagramReadability.Proofs.Graph.Partition

/-!
# The list of components

A component is opened at the first node that no earlier discovery has found, so it begins with its
earliest node and the components follow each other in the order of these nodes.  Together with the
partition this fixes the list of components up to the order inside each of them.
-/

namespace DiagramReadability.Graph

variable {edges : List Edge}

/-! ## Connected by edges -/

/-- Some edge leads from one of the nodes to the other, in either direction. -/
def Joined (edges : List Edge) (u v : String) : Prop :=
  ∃ e ∈ edges, e.source = u ∧ e.target = v ∨ e.source = v ∧ e.target = u

theorem mem_neighbours_iff {u v : String} :
    v ∈ (ofEdges edges).neighbours u ↔ Joined edges u v := by
  rw [neighbours, List.mem_append, mem_children_ofEdges, mem_parents_ofEdges, Joined]
  constructor
  · rintro (⟨e, he, hs, ht⟩ | ⟨e, he, ht, hs⟩)
    · exact ⟨e, he, .inl ⟨hs, ht⟩⟩
    · exact ⟨e, he, .inr ⟨hs, ht⟩⟩
  · rintro ⟨e, he, ⟨hs, ht⟩ | ⟨hs, ht⟩⟩
    · exact .inl ⟨e, he, hs, ht⟩
    · exact .inr ⟨e, he, ht, hs⟩

theorem connected_iff_joined {u v : String} :
    (ofEdges edges).Connected u v ↔ Relation.ReflTransGen (Joined edges) u v := by
  rw [connected_iff]
  show Relation.ReflTransGen (fun u v => v ∈ (ofEdges edges).neighbours u) u v ↔ _
  simp only [mem_neighbours_iff]

/-! ## One component -/

/-- Some component holds both nodes. -/
def SameComponent (g : Graph) (u v : String) : Prop :=
  ∃ c ∈ g.components, u ∈ c ∧ v ∈ c

instance (g : Graph) (u v : String) : Decidable (g.SameComponent u v) :=
  inferInstanceAs (Decidable (∃ c ∈ g.components, u ∈ c ∧ v ∈ c))

theorem IsPartition.exists_common_iff {g : Graph} {classes : List (List String)}
    (h : g.IsPartition classes) {u v : String} :
    (∃ c ∈ classes, u ∈ c ∧ v ∈ c) ↔ u ∈ g.nodes ∧ Reachable g.neighbours u v := by
  constructor
  · rintro ⟨c, hc, hu, hv⟩
    exact ⟨h.mem_nodes hc hu, (h.mem_iff c hc u hu v).mp hv⟩
  · rintro ⟨hu, hreach⟩
    rcases h.exists_class hu with ⟨c, hc, huc⟩
    exact ⟨c, hc, huc, (h.mem_iff c hc u huc v).mpr hreach⟩

theorem sameComponent_iff {u v : String} :
    (ofEdges edges).SameComponent u v ↔
      u ∈ (ofEdges edges).nodes ∧ Relation.ReflTransGen (Joined edges) u v := by
  rw [← connected_iff_joined, connected_iff]
  exact (isPartition_components edges).exists_common_iff

/-- Two nodes are connected when they are the same node or lie in one component. -/
theorem reflTransGen_joined_iff {u v : String} :
    Relation.ReflTransGen (Joined edges) u v ↔ u = v ∨ (ofEdges edges).SameComponent u v := by
  rw [sameComponent_iff]
  constructor
  · intro h
    rcases Relation.ReflTransGen.cases_head h with heq | ⟨w, hstep, -⟩
    · exact .inl heq
    · exact .inr ⟨(confined_neighbours edges).source_mem (mem_neighbours_iff.mpr hstep), h⟩
  · rintro (rfl | ⟨-, h⟩)
    · exact .refl
    · exact h

/-! ## The order of the components -/

/-- A discovery finds first the node it begins with. -/
theorem head?_openComponent (g : Graph) {seen : Std.HashSet String} {root : String}
    (hroot : ¬ seen.contains root = true) :
    ((g.openComponent seen root).1.map Prod.fst).head? = some root := by
  show ((discoverFrom g.neighbours (2 * g.edges.length + 1) [(root, 0)] seen).1.map
    Prod.fst).head? = some root
  rw [discoverFrom, if_neg hroot]
  rfl

theorem head?_componentsFrom_sublist (g : Graph) (roots : List String)
    (seen : Std.HashSet String) :
    ((g.componentsFrom seen roots).map List.head?).Sublist (roots.map some) := by
  induction roots generalizing seen with
  | nil => exact List.Sublist.refl _
  | cons root rest ih =>
      by_cases hroot : seen.contains root = true
      · rw [componentsFrom_of_seen hroot]
        exact (ih seen).cons _
      · rw [componentsFrom_of_new hroot, List.map_cons, head?_openComponent g hroot]
        exact (ih _).cons_cons _

-- The roots are gone through in order, and what a component finds was not seen before: none of the
-- roots that come before its own can be in it.
theorem head?_eq_find?_of_mem_componentsFrom (roots : List String) (seen : Std.HashSet String)
    {c : List String} (hc : c ∈ (ofEdges edges).componentsFrom seen roots) :
    c.head? = roots.find? fun n => c.contains n := by
  induction roots generalizing seen with
  | nil => simp [componentsFrom] at hc
  | cons root rest ih =>
      have hnew : ∀ n ∈ c, n ∉ seen := by
        intro n hn
        apply (componentsFrom_flatten (root :: rest) seen).2
        exact List.mem_flatten.mpr ⟨c, hc, hn⟩
      by_cases hroot : seen.contains root = true
      · have hout : ¬ c.contains root = true := by
          rw [List.contains_iff_mem]
          exact fun h => hnew root h hroot
        rw [componentsFrom_of_seen hroot] at hc
        rw [List.find?_cons_of_neg hout]
        exact ih seen hc
      · rw [componentsFrom_of_new hroot] at hc
        rcases List.mem_cons.mp hc with rfl | hlater
        · have hhead := head?_openComponent (ofEdges edges) hroot
          have hin := List.contains_iff_mem.mpr (List.mem_of_mem_head? hhead)
          rw [hhead, List.find?_cons_of_pos hin]
        · -- the first component has made this root a seen one
          have hout : ¬ c.contains root = true := by
            rw [List.contains_iff_mem]
            intro h
            refine (componentsFrom_flatten rest _).2 root (List.mem_flatten.mpr ⟨c, hlater, h⟩) ?_
            exact (openComponent_closed seen root).1
          rw [List.find?_cons_of_neg hout]
          exact ih _ hlater

/-- The components of a graph list its nodes, each once.  Two nodes are in one component just when
edges connect them, directions aside.  Every component begins with the earliest of its nodes, and
the components come in the order of these first nodes. -/
theorem components_partition (edges : List Edge) :
    let g := ofEdges edges
    g.components.flatten.Nodup ∧ g.components.flatten.Perm g.nodes ∧
      (∀ c ∈ g.components, c ≠ []) ∧
      (∀ u v, g.SameComponent u v ↔ u ∈ g.nodes ∧ Relation.ReflTransGen (Joined edges) u v) ∧
      (∀ c ∈ g.components, c.head? = g.nodes.find? fun n => c.contains n) ∧
      (g.components.map List.head?).Sublist (g.nodes.map some) := by
  intro g
  have hpartition := isPartition_components edges
  have hnodup : g.components.flatten.Nodup := hpartition.perm.nodup_iff.mpr (nodup_nodes edges)
  refine ⟨hnodup, hpartition.perm, hpartition.nonempty, fun u v => sameComponent_iff, ?_, ?_⟩
  · intro c hc
    exact head?_eq_find?_of_mem_componentsFrom g.nodes ∅ hc
  · exact head?_componentsFrom_sublist g g.nodes ∅

end DiagramReadability.Graph
