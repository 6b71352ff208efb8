import DiagramReadability.Graph.Partition
import DiagramReadability.Proofs.Graph.Connected

/-!
# Partitions into connected classes

The components that a discovery opens and the classes that merging along the edges leaves are both
the classes of the nodes under being connected, and a graph has only one such partition.
-/

namespace DiagramReadability.Graph

variable {g : Graph} {edges : List Edge} {classes : List (List String)}

/-- The nodes, each in one class, together with just the nodes that are connected with it. -/
structure IsPartition (g : Graph) (classes : List (List String)) : Prop where
  perm : classes.flatten.Perm g.nodes
  nonempty : ∀ c ∈ classes, c ≠ []
  mem_iff : ∀ c ∈ classes, ∀ u ∈ c, ∀ v, v ∈ c ↔ Reachable g.neighbours u v

theorem IsPartition.exists_class (h : g.IsPartition classes) {n : String} (hn : n ∈ g.nodes) :
    ∃ c ∈ classes, n ∈ c :=
  List.mem_flatten.mp (h.perm.mem_iff.mpr hn)

theorem IsPartition.mem_nodes (h : g.IsPartition classes) {c : List String} (hc : c ∈ classes)
    {n : String} (hn : n ∈ c) : n ∈ g.nodes :=
  h.perm.mem_iff.mp (List.mem_flatten.mpr ⟨c, hc, hn⟩)

/-- Lists without common elements, none of them empty, differ as sets. -/
theorem nodup_map_toFinset (hnodup : classes.flatten.Nodup) (hne : ∀ c ∈ classes, c ≠ []) :
    (classes.map List.toFinset).Nodup := by
  have hdisjoint := (List.nodup_flatten.mp hnodup).2
  rw [List.Nodup, List.pairwise_map]
  refine hdisjoint.imp_of_mem fun hc _ h heq => ?_
  obtain ⟨n, hn⟩ := List.exists_mem_of_ne_nil _ (hne _ hc)
  refine h hn ?_
  rw [← List.mem_toFinset, ← heq, List.mem_toFinset]
  exact hn

section Unique

variable {g' : Graph} {classes' : List (List String)}

theorem IsPartition.subset_toFinset (h : g.IsPartition classes) (h' : g'.IsPartition classes')
    (hnodes : g.nodes ⊆ g'.nodes)
    (hconnected : ∀ u v, Reachable g.neighbours u v ↔ Reachable g'.neighbours u v) :
    classes.map List.toFinset ⊆ classes'.map List.toFinset := by
  intro s hs
  obtain ⟨c, hc, rfl⟩ := List.mem_map.mp hs
  obtain ⟨n, hn⟩ := List.exists_mem_of_ne_nil c (h.nonempty c hc)
  obtain ⟨c', hc', hn'⟩ := h'.exists_class (hnodes (h.mem_nodes hc hn))
  refine List.mem_map.mpr ⟨c', hc', ?_⟩
  ext m
  rw [List.mem_toFinset, List.mem_toFinset, h'.mem_iff c' hc' n hn', h.mem_iff c hc n hn,
    hconnected]

/-- As sets, the classes of two graphs that connect the same nodes are the same. -/
theorem IsPartition.perm_toFinset (h : g.IsPartition classes) (h' : g'.IsPartition classes')
    (hnodup : g.nodes.Nodup) (hnodes : g.nodes.Perm g'.nodes)
    (hconnected : ∀ u v, Reachable g.neighbours u v ↔ Reachable g'.neighbours u v) :
    (classes.map List.toFinset).Perm (classes'.map List.toFinset) := by
  have hfirst := nodup_map_toFinset (h.perm.nodup_iff.mpr hnodup) h.nonempty
  have hsecond := nodup_map_toFinset (h'.perm.nodup_iff.mpr (hnodes.nodup hnodup)) h'.nonempty
  rw [List.perm_ext_iff_of_nodup hfirst hsecond]
  intro s
  constructor
  · exact fun hs => h.subset_toFinset h' hnodes.subset hconnected hs
  · exact fun hs => h'.subset_toFinset h hnodes.symm.subset (fun u v => (hconnected u v).symm) hs

/-- All partitions of a graph have the same number of classes. -/
theorem IsPartition.length_eq (h : g.IsPartition classes) (h' : g.IsPartition classes')
    (hnodup : g.nodes.Nodup) : classes.length = classes'.length := by
  have hperm := h.perm_toFinset h' hnodup (List.Perm.refl _) fun _ _ => Iff.rfl
  simpa only [List.length_map] using hperm.length_eq

end Unique

/-! ## The components -/

theorem componentsFrom_flatten (roots : List String) (seen : Std.HashSet String) :
    ((ofEdges edges).componentsFrom seen roots).flatten.Nodup ∧
      ∀ n ∈ ((ofEdges edges).componentsFrom seen roots).flatten, n ∉ seen := by
  induction roots generalizing seen with
  | nil => exact ⟨List.nodup_nil, by simp [componentsFrom]⟩
  | cons root rest ih =>
    by_cases hroot : seen.contains root = true
    · rw [componentsFrom_of_seen hroot]
      exact ih seen
    · obtain ⟨hnodup, hnew⟩ := @nodup_discoverFrom (ofEdges edges).neighbours
        (2 * edges.length + 1) [(root, 0)] seen
      obtain ⟨hrest, hunseen⟩ := ih ((ofEdges edges).openComponent seen root).2
      have hseen := mem_discoverFrom_seen (ofEdges edges).neighbours (2 * edges.length + 1)
        [(root, 0)] seen
      rw [componentsFrom_of_new hroot, List.flatten_cons]
      constructor
      · -- what this discovery found is seen when the later ones begin
        refine List.nodup_append.mpr ⟨hnodup, hrest, fun n hn m hm hnm => ?_⟩
        exact hunseen m hm ((hseen m).mpr (.inr (hnm ▸ hn)))
      · intro n hn
        rcases List.mem_append.mp hn with hn | hn
        · exact hnew n hn
        · exact fun hmem => hunseen n hn ((hseen n).mpr (.inl hmem))

theorem Reachable.mem_nodes {u v : String} (h : Reachable (ofEdges edges).neighbours u v)
    (hu : u ∈ (ofEdges edges).nodes) : v ∈ (ofEdges edges).nodes := by
  rcases Relation.ReflTransGen.cases_tail h with rfl | ⟨w, -, hstep⟩
  · exact hu
  · exact (confined_neighbours edges).target_mem hstep

theorem isPartition_components (edges : List Edge) :
    (ofEdges edges).IsPartition (ofEdges edges).components := by
  obtain ⟨hclasses, hcover⟩ := componentsFrom_spec (ofEdges edges).nodes ∅ (closedSeen_empty _)
  have hnodup := (@componentsFrom_flatten edges (ofEdges edges).nodes ∅).1
  constructor
  case perm =>
    refine (List.perm_ext_iff_of_nodup hnodup (nodup_nodes edges)).mpr fun n => ?_
    rw [List.mem_flatten]
    constructor
    · rintro ⟨c, hc, hn⟩
      obtain ⟨-, root, hroot, hiff⟩ := hclasses c hc
      exact ((hiff n).mp hn).mem_nodes hroot
    · intro hn
      exact (hcover n hn).resolve_left (by simp)
  case nonempty =>
    intro c hc
    obtain ⟨-, root, -, hiff⟩ := hclasses c hc
    exact List.ne_nil_of_mem ((hiff root).mpr .refl)
  case mem_iff =>
    intro c hc u hu v
    obtain ⟨-, root, -, hiff⟩ := hclasses c hc
    have hroot := (hiff u).mp hu
    rw [hiff v]
    exact ⟨fun hv => hroot.neighbours_symm.trans hv, fun hv => hroot.trans hv⟩

/-! ## Merging along the edges -/

/-- The class that takes the place of the classes of `a` and `b`. -/
def joinedClass (a b : String) (classes : List (List String)) : List String :=
  (classes.filter fun c => c.contains a || c.contains b).flatten

section Merge

variable {a b n : String} {c : List String}

theorem merge_eq (a b : String) (classes : List (List String)) :
    merge a b classes =
      joinedClass a b classes :: classes.filter fun c => !(c.contains a || c.contains b) := by
  unfold merge joinedClass
  rw [List.partition_eq_filter_filter]
  rfl

theorem mem_joinedClass :
    n ∈ joinedClass a b classes ↔ ∃ c ∈ classes, n ∈ c ∧ (a ∈ c ∨ b ∈ c) := by
  unfold joinedClass
  simp only [List.mem_flatten, List.mem_filter, Bool.or_eq_true, List.contains_iff_mem]
  constructor
  · rintro ⟨c, ⟨hc, hends⟩, hn⟩
    exact ⟨c, hc, hn, hends⟩
  · rintro ⟨c, hc, hn, hends⟩
    exact ⟨c, ⟨hc, hends⟩, hn⟩

theorem mem_merge :
    c ∈ merge a b classes ↔ c = joinedClass a b classes ∨ c ∈ classes ∧ a ∉ c ∧ b ∉ c := by
  rw [merge_eq, List.mem_cons, List.mem_filter]
  simp

theorem flatten_merge_perm (a b : String) (classes : List (List String)) :
    (merge a b classes).flatten.Perm classes.flatten := by
  rw [merge_eq, List.flatten_cons, joinedClass, ← List.flatten_append]
  exact (List.filter_append_perm _ classes).flatten

/-- Merging keeps together what is in one class. -/
theorem exists_superset_of_mem (a b : String) (hc : c ∈ classes) :
    ∃ c' ∈ merge a b classes, c ⊆ c' := by
  by_cases hends : a ∈ c ∨ b ∈ c
  · exact ⟨_, mem_merge.mpr (.inl rfl), fun n hn => mem_joinedClass.mpr ⟨c, hc, hn, hends⟩⟩
  · rw [not_or] at hends
    exact ⟨c, mem_merge.mpr (.inr ⟨hc, hends⟩), List.Subset.refl c⟩

end Merge

/-- How merging stands after some of the edges: the classes hold the nodes, what is in one class is
connected, and the ends of each of those edges are in one class. -/
structure MergeInv (g : Graph) (done : List Edge) (classes : List (List String)) : Prop where
  perm : classes.flatten.Perm g.nodes
  nonempty : ∀ c ∈ classes, c ≠ []
  connected : ∀ c ∈ classes, ∀ u ∈ c, ∀ v ∈ c, Reachable g.neighbours u v
  joined : ∀ e ∈ done, ∃ c ∈ classes, e.source ∈ c ∧ e.target ∈ c

theorem MergeInv.exists_class {done : List Edge} (hinv : g.MergeInv done classes) {n : String}
    (hn : n ∈ g.nodes) : ∃ c ∈ classes, n ∈ c :=
  List.mem_flatten.mp (hinv.perm.mem_iff.mpr hn)

theorem target_mem_neighbours {e : Edge} (he : e ∈ edges) :
    e.target ∈ (ofEdges edges).neighbours e.source :=
  List.mem_append_left _ (mem_children_ofEdges.mpr ⟨e, he, rfl, rfl⟩)

/-- The joined classes hang together by the source of the edge. -/
theorem MergeInv.reachable_source {done : List Edge} {e : Edge}
    (hinv : (ofEdges edges).MergeInv done classes) (he : e ∈ edges) {u : String}
    (hu : u ∈ joinedClass e.source e.target classes) :
    Reachable (ofEdges edges).neighbours u e.source := by
  obtain ⟨c, hc, huc, hs | ht⟩ := mem_joinedClass.mp hu
  · exact hinv.connected c hc u huc _ hs
  · exact (hinv.connected c hc u huc _ ht).tail (mem_neighbours_comm (target_mem_neighbours he))

theorem MergeInv.step {done : List Edge} {e : Edge}
    (hinv : (ofEdges edges).MergeInv done classes) (he : e ∈ edges) :
    (ofEdges edges).MergeInv (done ++ [e]) (merge e.source e.target classes) := by
  obtain ⟨cs, hcs, hs⟩ := hinv.exists_class (mem_nodes.mpr ⟨e, he, .inl rfl⟩)
  obtain ⟨ct, hct, ht⟩ := hinv.exists_class (mem_nodes.mpr ⟨e, he, .inr rfl⟩)
  have hsource : e.source ∈ joinedClass e.source e.target classes :=
    mem_joinedClass.mpr ⟨cs, hcs, hs, .inl hs⟩
  have htarget : e.target ∈ joinedClass e.source e.target classes :=
    mem_joinedClass.mpr ⟨ct, hct, ht, .inr ht⟩
  constructor
  case perm => exact (flatten_merge_perm _ _ classes).trans hinv.perm
  case nonempty =>
    intro c hc
    rcases mem_merge.mp hc with rfl | ⟨hc, -⟩
    · exact List.ne_nil_of_mem hsource
    · exact hinv.nonempty c hc
  case connected =>
    intro c hc u hu v hv
    rcases mem_merge.mp hc with rfl | ⟨hc, -⟩
    · -- every node of the joined class is connected to the source of the edge
      exact (hinv.reachable_source he hu).trans (hinv.reachable_source he hv).neighbours_symm
    · exact hinv.connected c hc u hu v hv
  case joined =>
    intro e' he'
    rcases List.mem_append.mp he' with hdone | hnew
    · obtain ⟨c, hc, hs', ht'⟩ := hinv.joined e' hdone
      obtain ⟨c', hc', hsub⟩ := exists_superset_of_mem e.source e.target hc
      exact ⟨c', hc', hsub hs', hsub ht'⟩
    · rw [List.mem_singleton.mp hnew]
      exact ⟨_, mem_merge.mpr (.inl rfl), hsource, htarget⟩

theorem MergeInv.foldl {done todo : List Edge} (hinv : (ofEdges edges).MergeInv done classes)
    (htodo : todo ⊆ edges) :
    (ofEdges edges).MergeInv (done ++ todo)
      (todo.foldl (fun classes e => merge e.source e.target classes) classes) := by
  induction todo generalizing done classes with
  | nil => rwa [List.append_nil]
  | cons e todo ih =>
    obtain ⟨he, hrest⟩ := List.cons_subset.mp htodo
    rw [List.append_cons]
    exact ih (hinv.step he) hrest

theorem mergeInv_singletons (g : Graph) : g.MergeInv [] (g.nodes.map ([·])) where
  perm := by rw [← List.flatMap_def, List.flatMap_singleton']
  nonempty c hc := by
    obtain ⟨n, -, rfl⟩ := List.mem_map.mp hc
    exact List.cons_ne_nil n []
  connected c hc u hu v hv := by
    obtain ⟨n, -, rfl⟩ := List.mem_map.mp hc
    rw [List.mem_singleton.mp hu, List.mem_singleton.mp hv]
  joined e he := absurd he List.not_mem_nil

theorem eq_of_mem_of_mem (hnodup : classes.flatten.Nodup) {c c' : List String} (hc : c ∈ classes)
    (hc' : c' ∈ classes) {n : String} (hn : n ∈ c) (hn' : n ∈ c') : c = c' := by
  by_contra hne
  have : Std.Symm (List.Disjoint (α := String)) := ⟨fun _ _ h => h.symm⟩
  exact (List.nodup_flatten.mp hnodup).2.forall hc hc' hne hn hn'

theorem isPartition_connectedClasses (edges : List Edge) :
    (ofEdges edges).IsPartition (ofEdges edges).connectedClasses := by
  have hinv := (mergeInv_singletons (ofEdges edges)).foldl (List.Subset.refl edges)
  rw [List.nil_append] at hinv
  refine ⟨hinv.perm, hinv.nonempty, fun c hc u hu v => ⟨hinv.connected c hc u hu v, fun h => ?_⟩⟩
  have hnodup := hinv.perm.nodup_iff.mpr (nodup_nodes edges)
  induction h with
  | refl => exact hu
  | @tail v w _ hstep ih =>
    -- the step is along an edge, whose ends are in one class, and that is the class of `v`
    have hends : ∃ c' ∈ (ofEdges edges).connectedClasses, v ∈ c' ∧ w ∈ c' := by
      rcases List.mem_append.mp hstep with hstep | hstep
      · obtain ⟨e, he, rfl, rfl⟩ := mem_children_ofEdges.mp hstep
        exact hinv.joined e he
      · obtain ⟨e, he, rfl, rfl⟩ := mem_parents_ofEdges.mp hstep
        obtain ⟨c', hc', hs, ht⟩ := hinv.joined e he
        exact ⟨c', hc', ht, hs⟩
    obtain ⟨c', hc', hv, hw⟩ := hends
    rwa [eq_of_mem_of_mem hnodup hc hc' ih hv]

theorem length_connectedClasses (edges : List Edge) :
    (ofEdges edges).connectedClasses.length = (ofEdges edges).components.length :=
  (isPartition_connectedClasses edges).length_eq (isPartition_components edges) (nodup_nodes edges)

/-- The cyclomatic complexity counts the components. -/
theorem cyclomaticComplexity_eq (edges : List Edge) :
    (ofEdges edges).cyclomaticComplexity =
      edges.length - (ofEdges edges).nodes.length + 2 * (ofEdges edges).components.length := by
  unfold cyclomaticComplexity
  split
  · rename_i hempty
    have hnil : edges = [] := by
      by_contra hne
      exact nodes_ne_nil hne (List.isEmpty_iff.mp hempty)
    rw [hnil]
    rfl
  · rw [length_connectedClasses]
    rfl

end DiagramReadability.Graph
