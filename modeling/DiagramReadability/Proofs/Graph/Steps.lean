import DiagramReadability.Graph.Reachability
import DiagramReadability.Graph.Walk.Enumeration
import Mathlib

/-!
# Steps inside a graph

A search runs along steps that `next` gives.  They are confined to a graph when both their ends are
nodes of it and their number is bounded, which is what the fuel of every search is measured by.
-/

namespace DiagramReadability.Graph

/-- Some way along `next`, which may be empty, leads from one node to the other. -/
abbrev Reachable (next : String → List String) : String → String → Prop :=
  Relation.ReflTransGen fun u v => v ∈ next u

theorem Leads.reachable {next : String → List String} {u v : String} {n : Nat}
    (way : Leads next u n v) : Reachable next u v := by
  induction way with
  | here => exact .refl
  | step _ h ih => exact ih.tail h

theorem exists_leads_iff {next : String → List String} {u v : String} :
    (∃ n, Leads next u n v) ↔ Reachable next u v := by
  constructor
  · rintro ⟨n, way⟩
    exact way.reachable
  · intro h
    induction h with
    | refl => exact ⟨0, .here⟩
    | tail _ hstep ih =>
        obtain ⟨n, way⟩ := ih
        exact ⟨n + 1, way.step hstep⟩

theorem connected_iff {g : Graph} {u v : String} :
    g.Connected u v ↔ Reachable g.neighbours u v :=
  exists_leads_iff

theorem Reachable.mono {next more : String → List String} {u v : String}
    (hsub : ∀ w, next w ⊆ more w) (h : Reachable next u v) : Reachable more u v :=
  Relation.ReflTransGen.mono (fun w _ hstep => hsub w hstep) _ _ h

/-- The steps run between nodes of the list, which holds none twice, and are so many at most. -/
structure Confined (nodes : List String) (steps : Nat) (next : String → List String) : Prop where
  nodup : nodes.Nodup
  source_mem : ∀ {u v}, v ∈ next u → u ∈ nodes
  target_mem : ∀ {u v}, v ∈ next u → v ∈ nodes
  length_le : (nodes.map fun n => (next n).length).sum ≤ steps

namespace Confined

variable {nodes : List String} {steps : Nat} {next : String → List String}

theorem of_sublist (h : Confined nodes steps next) {fewer : String → List String}
    (hsub : ∀ u, (fewer u).Sublist (next u)) : Confined nodes steps fewer where
  nodup := h.nodup
  source_mem hv := h.source_mem ((hsub _).subset hv)
  target_mem hv := h.target_mem ((hsub _).subset hv)
  length_le := (List.sum_le_sum fun n _ => (hsub n).length_le).trans h.length_le

theorem next_eq_nil (h : Confined nodes steps next) {u : String} (hu : u ∉ nodes) :
    next u = [] := by
  rw [List.eq_nil_iff_forall_not_mem]
  intro v hv
  exact hu (h.source_mem hv)

end Confined

/-! ## Work that is left -/

/-- The weight of those nodes for which a search still has work to do. -/
def workLeft (nodes : List String) (weight : String → Nat) (todo : String → Bool) : Nat :=
  ((nodes.filter todo).map weight).sum

theorem workLeft_congr {nodes : List String} {weight : String → Nat} {todo later : String → Bool}
    (hsame : ∀ n ∈ nodes, later n = todo n) :
    workLeft nodes weight later = workLeft nodes weight todo := by
  rw [workLeft, workLeft, List.filter_congr hsame]

theorem workLeft_le (nodes : List String) (weight : String → Nat) (todo : String → Bool) :
    workLeft nodes weight todo ≤ (nodes.map weight).sum :=
  (List.filter_sublist.map weight).sum_le_sum fun _ _ => Nat.zero_le _

/-- A node that is done takes its weight off the work that is left. -/
theorem workLeft_done {nodes : List String} (hn : nodes.Nodup) {weight : String → Nat}
    {todo later : String → Bool} {node : String} (hmem : node ∈ nodes) (htodo : todo node = true)
    (hdone : later node = false) (hsame : ∀ n, n ≠ node → later n = todo n) :
    workLeft nodes weight later + weight node = workLeft nodes weight todo := by
  induction nodes with
  | nil => simp at hmem
  | cons a rest ih =>
      rw [List.nodup_cons] at hn
      by_cases ha : a = node
      · subst ha
        have hrest : workLeft rest weight later = workLeft rest weight todo :=
          workLeft_congr fun n hmem => hsame n fun h => hn.1 (h ▸ hmem)
        simp only [workLeft, List.filter_cons, htodo, hdone, if_true, List.map_cons,
          List.sum_cons, Bool.false_eq_true, if_false] at hrest ⊢
        omega
      · have hrest := ih hn.2 ((List.mem_cons.mp hmem).resolve_left fun h => ha h.symm)
        by_cases ht : todo a = true
        · simp only [workLeft, List.filter_cons, hsame a ha, ht, if_true, List.map_cons,
            List.sum_cons] at hrest ⊢
          omega
        · simp only [workLeft, List.filter_cons, hsame a ha, ht] at hrest ⊢
          exact hrest

/-! ## The graph of an edge list -/

theorem nodup_eraseDups (l : List String) : l.eraseDups.Nodup := by
  induction h : l.length using Nat.strongRecOn generalizing l with
  | _ n ih =>
    cases l with
    | nil => rw [List.eraseDups_nil]; exact List.nodup_nil
    | cons a rest =>
        rw [List.eraseDups_cons, List.nodup_cons, List.mem_eraseDups]
        constructor
        · simp
        · apply ih _ _ _ rfl
          have := List.length_filter_le (fun b => !b == a) rest
          rw [List.length_cons] at h
          omega

theorem nodup_nodes (edges : List Edge) : (ofEdges edges).nodes.Nodup :=
  nodup_eraseDups _

theorem mem_nodes {edges : List Edge} {n : String} :
    n ∈ (ofEdges edges).nodes ↔ ∃ e ∈ edges, n = e.source ∨ n = e.target := by
  simp [ofEdges]

theorem nodes_ne_nil {edges : List Edge} (h : edges ≠ []) :
    (ofEdges edges).nodes ≠ [] := by
  obtain ⟨e, he⟩ := List.exists_mem_of_ne_nil edges h
  have hmem : e.source ∈ (ofEdges edges).nodes := mem_nodes.mpr ⟨e, he, .inl rfl⟩
  exact List.ne_nil_of_mem hmem

theorem sum_ite_eq_count (nodes : List String) (a : String) :
    (nodes.map fun n => if a == n then 1 else 0).sum = nodes.count a := by
  induction nodes with
  | nil => rfl
  | cons b rest ih =>
      rw [List.map_cons, List.sum_cons, ih, List.count_cons, Nat.add_comm, BEq.comm]

/-- Distinct values occur in a list as often together as it has places, or less. -/
theorem sum_count_le_length {nodes : List String} (hn : nodes.Nodup) (l : List String) :
    (nodes.map fun n => l.count n).sum ≤ l.length := by
  induction l with
  | nil => simp
  | cons a rest ih =>
      have hone : (nodes.map fun n => if a == n then 1 else 0).sum ≤ 1 := by
        rw [sum_ite_eq_count]
        exact List.nodup_iff_count_le_one.mp hn a
      simp only [List.count_cons, List.sum_map_add, List.length_cons]
      omega

/-- A table made of all nodes holds the value of each. -/
theorem getD_ofList_map {β : Type} {nodes : List String} (hnodup : nodes.Nodup) (f : String → β)
    {n : String} (hn : n ∈ nodes) (fallback : β) :
    (Std.HashMap.ofList (nodes.map fun m => (m, f m))).getD n fallback = f n := by
  apply Std.HashMap.getD_ofList_of_mem (beq_self_eq_true n)
  · rw [List.pairwise_map]
    exact hnodup.imp fun h => by simpa using h
  · exact List.mem_map.mpr ⟨n, hn, rfl⟩

theorem length_children_ofEdges (edges : List Edge) (node : String) :
    ((ofEdges edges).children node).length = (edges.map Edge.source).count node := by
  rw [children_ofEdges, List.length_map, List.count, List.countP_map, List.countP_eq_length_filter]
  rfl

theorem length_parents_ofEdges (edges : List Edge) (node : String) :
    ((ofEdges edges).parents node).length = (edges.map Edge.target).count node := by
  rw [parents_ofEdges, List.length_map, List.count, List.countP_map, List.countP_eq_length_filter]
  rfl

/-- A node is as often a child of another as that one is its parent. -/
theorem count_children_eq (edges : List Edge) (u v : String) :
    ((ofEdges edges).children u).count v = ((ofEdges edges).parents v).count u := by
  rw [children_ofEdges, parents_ofEdges, List.count, List.count, List.countP_map, List.countP_map,
    List.countP_filter, List.countP_filter]
  apply List.countP_congr
  intro e _
  simp only [Function.comp_apply, Bool.and_eq_true, beq_iff_eq, decide_eq_true_eq]
  exact and_comm

theorem mem_parents_iff {edges : List Edge} {u v : String} :
    u ∈ (ofEdges edges).parents v ↔ v ∈ (ofEdges edges).children u := by
  rw [mem_parents_ofEdges, mem_children_ofEdges]
  constructor
  · rintro ⟨e, he, ht, hs⟩
    exact ⟨e, he, hs, ht⟩
  · rintro ⟨e, he, hs, ht⟩
    exact ⟨e, he, ht, hs⟩

theorem confined_children (edges : List Edge) :
    Confined (ofEdges edges).nodes edges.length (ofEdges edges).children where
  nodup := nodup_nodes edges
  source_mem hv := by
    obtain ⟨e, he, hs, -⟩ := mem_children_ofEdges.mp hv
    exact mem_nodes.mpr ⟨e, he, .inl hs.symm⟩
  target_mem hv := by
    obtain ⟨e, he, -, ht⟩ := mem_children_ofEdges.mp hv
    exact mem_nodes.mpr ⟨e, he, .inr ht.symm⟩
  length_le := by
    have h := sum_count_le_length (nodup_nodes edges) (edges.map Edge.source)
    simpa only [length_children_ofEdges, List.length_map] using h

theorem confined_neighbours (edges : List Edge) :
    Confined (ofEdges edges).nodes (2 * edges.length) (ofEdges edges).neighbours where
  nodup := nodup_nodes edges
  source_mem hv := by
    rcases List.mem_append.mp hv with hv | hv
    · exact (confined_children edges).source_mem hv
    · exact (confined_children edges).target_mem (mem_parents_iff.mp hv)
  target_mem hv := by
    rcases List.mem_append.mp hv with hv | hv
    · exact (confined_children edges).target_mem hv
    · exact (confined_children edges).source_mem (mem_parents_iff.mp hv)
  length_le := by
    have hc := sum_count_le_length (nodup_nodes edges) (edges.map Edge.source)
    have hp := sum_count_le_length (nodup_nodes edges) (edges.map Edge.target)
    simp only [neighbours, List.length_append, length_children_ofEdges, length_parents_ofEdges,
      List.sum_map_add]
    rw [List.length_map] at hc hp
    omega

theorem extension_sublist (g : Graph) (passes : String → Bool) (u : String) :
    (g.extension passes u).Sublist (g.children u) := by
  unfold extension
  split
  · exact List.Sublist.refl _
  · exact List.nil_sublist _

/-- The steps of a walk that only some nodes extend. -/
theorem confined_extension (edges : List Edge) (passes : String → Bool) :
    Confined (ofEdges edges).nodes edges.length ((ofEdges edges).extension passes) :=
  (confined_children edges).of_sublist (extension_sublist _ _)

end DiagramReadability.Graph
