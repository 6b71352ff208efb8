import DiagramReadability.Graph.Export
import DiagramReadability.Proofs.Graph.Steps

/-!
# What a graph holds

The nodes of a graph are the ends of its edges in the order in which they are first seen, and both
tables of neighbours list the edges once more.  An export has the same nodes in the same order and
numbers the edges between the same two nodes.  Main statement: nothing is lost and nothing is added
(`ofEdges_represents`).
-/

namespace DiagramReadability.Graph

variable {edges : List Edge} {u v : String}

/-! ## Nodes -/

/-- The ends of all edges as they come, the source of an edge before its target. -/
def ends (edges : List Edge) : List String :=
  edges.flatMap fun e => [e.source, e.target]

theorem mem_nodes_iff_mem_ends {n : String} : n ∈ (ofEdges edges).nodes ↔ n ∈ ends edges :=
  List.mem_eraseDups

/-- Duplicates are taken out behind the first occurrence. -/
theorem pairwise_idxOf_eraseDups (l : List String) :
    l.eraseDups.Pairwise fun u v => l.idxOf u < l.idxOf v := by
  -- From the end: a first occurrence stays where it is when the list grows behind it.
  induction l using List.reverseRecOn with
  | nil => exact List.Pairwise.nil
  | append_singleton l a ih =>
    have hold : l.eraseDups.Pairwise fun u v => (l ++ [a]).idxOf u < (l ++ [a]).idxOf v := by
      refine ih.imp_of_mem fun {u v} hu hv hlt => ?_
      rw [List.idxOf_append_of_mem (List.mem_eraseDups.mp hu),
        List.idxOf_append_of_mem (List.mem_eraseDups.mp hv)]
      exact hlt
    rw [List.eraseDups_append]
    by_cases ha : a ∈ l
    · have hnone : [a].removeAll l = [] := by simp [List.removeAll, ha]
      rw [hnone, List.eraseDups_nil, List.append_nil]
      exact hold
    · have hnew : ([a].removeAll l).eraseDups = [a] := by
        simp [List.removeAll, ha, List.eraseDups_cons]
      rw [hnew, List.pairwise_append]
      refine ⟨hold, List.pairwise_singleton _ _, fun u hu b hb => ?_⟩
      obtain rfl := List.mem_singleton.mp hb
      rw [List.idxOf_append_of_mem (List.mem_eraseDups.mp hu), List.idxOf_append_of_notMem ha]
      have hlt := List.idxOf_lt_length_of_mem (List.mem_eraseDups.mp hu)
      omega

/-! ## Degrees -/

/-- Values without repetition that are all there are of a list occur in it as often together as it
has places. -/
theorem sum_count_eq_length {nodes l : List String} (hn : nodes.Nodup) (hsub : l ⊆ nodes) :
    (nodes.map fun n => l.count n).sum = l.length := by
  induction l with
  | nil => simp
  | cons a rest ih =>
    have hone : (nodes.map fun n => if a == n then 1 else 0).sum = 1 := by
      rw [sum_ite_eq_count]
      exact List.count_eq_one_of_mem hn (hsub List.mem_cons_self)
    have hrest := ih (List.subset_of_cons_subset hsub)
    simp only [List.count_cons, List.sum_map_add, List.length_cons]
    omega

/-- Every edge counts once for the node at one of its sides. -/
theorem sum_count_side (edges : List Edge) {side : Edge → String}
    (hside : ∀ e, side e = e.source ∨ side e = e.target) :
    ((ofEdges edges).nodes.map fun n => (edges.map side).count n).sum = edges.length := by
  have hsub : edges.map side ⊆ (ofEdges edges).nodes := by
    intro n hn
    obtain ⟨e, he, rfl⟩ := List.mem_map.mp hn
    exact mem_nodes.mpr ⟨e, he, hside e⟩
  rw [sum_count_eq_length (nodup_nodes edges) hsub, List.length_map]

theorem sum_outDegree (edges : List Edge) :
    ((ofEdges edges).nodes.map (ofEdges edges).outDegree).sum = edges.length := by
  have hdegree : (ofEdges edges).outDegree = fun n => (edges.map Edge.source).count n :=
    funext (length_children_ofEdges edges)
  rw [hdegree, sum_count_side edges fun _ => .inl rfl]

theorem sum_inDegree (edges : List Edge) :
    ((ofEdges edges).nodes.map (ofEdges edges).inDegree).sum = edges.length := by
  have hdegree : (ofEdges edges).inDegree = fun n => (edges.map Edge.target).count n :=
    funext (length_parents_ofEdges edges)
  rw [hdegree, sum_count_side edges fun _ => .inr rfl]

/-! ## The export -/

/-- The edges from one node to another, in order. -/
def edgesBetween (edges : List Edge) (u v : String) : List Edge :=
  edges.filter fun e => e.source = u ∧ e.target = v

/-- Edges between the same two nodes, numbered from zero. -/
def numbered (edges : List Edge) : List ParallelEdge :=
  edges.mapIdx fun key e => ⟨key, e.label, e.arrow⟩

theorem length_numbered (edges : List Edge) : (numbered edges).length = edges.length :=
  List.length_mapIdx

theorem numbered_snoc (edges : List Edge) (e : Edge) :
    numbered (edges ++ [e]) = numbered edges ++ [⟨edges.length, e.label, e.arrow⟩] :=
  List.mapIdx_concat

theorem key_lt_of_mem_numbered {p : ParallelEdge} (h : p ∈ numbered edges) :
    p.key < edges.length := by
  obtain ⟨key, hkey, rfl⟩ := List.mem_mapIdx.mp h
  exact hkey

theorem edgesBetween_snoc_self (edges : List Edge) (e : Edge) :
    edgesBetween (edges ++ [e]) e.source e.target =
      edgesBetween edges e.source e.target ++ [e] := by
  simp [edgesBetween]

theorem edgesBetween_snoc_of_ne {e : Edge} (h : (u, v) ≠ (e.source, e.target)) :
    edgesBetween (edges ++ [e]) u v = edgesBetween edges u v := by
  have hother : ¬ (e.source = u ∧ e.target = v) := by
    rintro ⟨rfl, rfl⟩
    exact h rfl
  simp [edgesBetween, hother]

end Graph

namespace MultigraphLibrary

open DiagramReadability.Graph (edgesBetween numbered)

variable {M : Type} (library : MultigraphLibrary M)

/-- A multigraph has these nodes, in this order, and these edges, with parallel ones numbered. -/
structure Holds (m : M) (nodes : List String) (edges : List Edge) : Prop where
  nodes_eq : library.nodes m = nodes
  parallels_eq : ∀ u v, library.parallels m u v = numbered (edgesBetween edges u v)

theorem holds_empty : library.Holds library.empty [] [] where
  nodes_eq := library.nodes_empty
  parallels_eq := library.parallels_empty

variable {library} {m : M} {nodes : List String} {edges : List Edge}

theorem Holds.addNode (h : library.Holds m nodes edges) {n : String} (hnew : n ∉ nodes) :
    library.Holds (library.addNode m n) (nodes ++ [n]) edges where
  nodes_eq := by rw [library.nodes_addNode, h.nodes_eq, if_neg hnew]
  parallels_eq u v := by rw [library.parallels_addNode, h.parallels_eq]

theorem Holds.foldl_addNode (h : library.Holds m nodes edges) {more : List String}
    (hn : (nodes ++ more).Nodup) :
    library.Holds (more.foldl library.addNode m) (nodes ++ more) edges := by
  induction more generalizing m nodes with
  | nil => simpa using h
  | cons n more ih =>
    have hnew : n ∉ nodes := fun hmem => (List.disjoint_of_nodup_append hn) hmem List.mem_cons_self
    rw [List.append_cons] at hn ⊢
    exact ih (h.addNode hnew) hn

/-- One more edge between nodes that are there gets the next number among those parallel to it. -/
theorem Holds.addEdge (h : library.Holds m nodes edges) {e : Edge} (hs : e.source ∈ nodes)
    (ht : e.target ∈ nodes) : library.Holds (library.addEdge m e) nodes (edges ++ [e]) where
  nodes_eq := by
    rw [library.nodes_addEdge, library.nodes_addNode, library.nodes_addNode, h.nodes_eq,
      if_pos hs, if_pos ht]
  parallels_eq u v := by
    by_cases huv : (u, v) = (e.source, e.target)
    · obtain ⟨rfl, rfl⟩ := Prod.mk.inj huv
      have hlength : (library.parallels m e.source e.target).length =
          (edgesBetween edges e.source e.target).length := by
        rw [h.parallels_eq, Graph.length_numbered]
      -- The keys in use are below their number, so the library need not look for another one.
      have hfree : ∀ p ∈ library.parallels m e.source e.target,
          p.key ≠ (library.parallels m e.source e.target).length := by
        intro p hp
        rw [hlength]
        rw [h.parallels_eq] at hp
        exact (Graph.key_lt_of_mem_numbered hp).ne
      rw [library.parallels_addEdge m e hfree, hlength, h.parallels_eq,
        Graph.edgesBetween_snoc_self, Graph.numbered_snoc]
    · rw [library.parallels_addEdge_of_ne m e u v huv, h.parallels_eq,
        Graph.edgesBetween_snoc_of_ne huv]

theorem Holds.foldl_addEdge (h : library.Holds m nodes edges) {more : List Edge}
    (hends : ∀ e ∈ more, e.source ∈ nodes ∧ e.target ∈ nodes) :
    library.Holds (more.foldl library.addEdge m) nodes (edges ++ more) := by
  induction more generalizing m edges with
  | nil => simpa using h
  | cons e more ih =>
    rw [List.forall_mem_cons] at hends
    rw [List.append_cons]
    exact ih (h.addEdge hends.1.1 hends.1.2) hends.2

variable (library) in
theorem holds_exportTo (edges : List Edge) :
    library.Holds ((Graph.ofEdges edges).exportTo library) (Graph.ofEdges edges).nodes edges := by
  have hnodes : library.Holds ((Graph.ofEdges edges).nodes.foldl library.addNode library.empty)
      (Graph.ofEdges edges).nodes [] :=
    library.holds_empty.foldl_addNode (Graph.nodup_nodes edges)
  apply hnodes.foldl_addEdge
  intro e he
  exact ⟨Graph.mem_nodes.mpr ⟨e, he, .inl rfl⟩, Graph.mem_nodes.mpr ⟨e, he, .inr rfl⟩⟩

end MultigraphLibrary

namespace Graph

theorem keyedEdges_snoc (edges : List Edge) (e : Edge) :
    (ofEdges (edges ++ [e])).keyedEdges =
      (ofEdges edges).keyedEdges ++ [{ e with key := edges.countP (parallel e) }] := by
  show (edges ++ [e]).mapIdx
    (fun i a => KeyedEdge.mk a (((edges ++ [e]).take i).countP (parallel a))) = _
  rw [List.mapIdx_concat, List.take_left]
  congr 1
  apply List.ext_getElem
  · simp [keyedEdges, ofEdges]
  · intro i hi _
    have hle : i ≤ edges.length := by
      rw [List.length_mapIdx] at hi
      omega
    simp [keyedEdges, ofEdges, List.take_append_of_le_length hle]

/-- Written as lists, an export is the nodes and the edges with their keys. -/
theorem exportTo_lists (edges : List Edge) :
    (ofEdges edges).exportTo .lists = ((ofEdges edges).nodes, (ofEdges edges).keyedEdges) := by
  have hedges : ∀ start : List String × List KeyedEdge, start.2 = [] →
      (edges.foldl MultigraphLibrary.lists.addEdge start).2 = (ofEdges edges).keyedEdges := by
    intro start hstart
    -- The key of an edge counts the edges before it, so the induction takes the last edge off.
    induction edges using List.reverseRecOn with
    | nil => exact hstart
    | append_singleton edges e ih =>
      have hkey : (ofEdges edges).keyedEdges.countP (parallel e ∘ KeyedEdge.toEdge) =
          edges.countP (parallel e) := by
        rw [← List.countP_map, map_toEdge_keyedEdges]
        rfl
      rw [List.foldl_append, List.foldl_cons, List.foldl_nil, keyedEdges_snoc, ← hkey, ← ih]
      rfl
  have hstart : ((ofEdges edges).nodes.foldl MultigraphLibrary.lists.addNode ([], [])).2 = [] := by
    induction (ofEdges edges).nodes using List.reverseRecOn with
    | nil => rfl
    | append_singleton nodes n ih =>
      rw [List.foldl_append]
      exact ih
  exact Prod.ext (MultigraphLibrary.lists.holds_exportTo edges).nodes_eq (hedges _ hstart)

example : (ofEdges [⟨"C", "A", none, .solid⟩, ⟨"A", "B", "no", .dotted⟩,
      ⟨"C", "A", "yes", .thick⟩]).exportTo .lists =
    (["C", "A", "B"],
      [⟨⟨"C", "A", none, .solid⟩, 0⟩, ⟨⟨"A", "B", "no", .dotted⟩, 0⟩,
        ⟨⟨"C", "A", "yes", .thick⟩, 1⟩]) := by
  decide

/-- A graph shows its nodes in the order in which the edges bring them and every edge at both of its
ends. -/
structure Represents (g : Graph) (edges : List Edge) : Prop where
  nodup : g.nodes.Nodup
  mem_nodes : ∀ n, n ∈ g.nodes ↔ n ∈ ends edges
  firstSeen : g.nodes.Pairwise fun u v => (ends edges).idxOf u < (ends edges).idxOf v
  children : ∀ n, g.children n = (edges.filter fun e => e.source = n).map Edge.target
  parents : ∀ n, g.parents n = (edges.filter fun e => e.target = n).map Edge.source
  mem_forward : ∀ n, n ∈ g.forward ↔ ∃ e ∈ edges, e.source = n
  mem_reverse : ∀ n, n ∈ g.reverse ↔ ∃ e ∈ edges, e.target = n
  count_children : ∀ u v, (g.children u).count v = (g.parents v).count u
  sum_outDegree : (g.nodes.map g.outDegree).sum = edges.length
  sum_inDegree : (g.nodes.map g.inDegree).sum = edges.length

/-- The graph of an edge list holds these edges and nothing else, and so does its export to any
library: it has the nodes in the same order, and the edges from one node to another are numbered
from zero in edge order.  Written as lists, the export is that of `keyedEdges`. -/
theorem ofEdges_represents (edges : List Edge) :
    (ofEdges edges).Represents edges ∧
      (∀ (M : Type) (library : MultigraphLibrary M),
        library.Holds ((ofEdges edges).exportTo library) (ofEdges edges).nodes edges) ∧
      (ofEdges edges).exportTo .lists = ((ofEdges edges).nodes, (ofEdges edges).keyedEdges) := by
  refine ⟨?_, fun M library => library.holds_exportTo edges, exportTo_lists edges⟩
  exact {
    nodup := nodup_nodes edges
    mem_nodes := fun _ => mem_nodes_iff_mem_ends
    firstSeen := pairwise_idxOf_eraseDups (ends edges)
    children := children_ofEdges edges
    parents := parents_ofEdges edges
    mem_forward := fun _ => mem_forward_ofEdges
    mem_reverse := fun _ => mem_reverse_ofEdges
    count_children := count_children_eq edges
    sum_outDegree := sum_outDegree edges
    sum_inDegree := sum_inDegree edges }

end Graph

end DiagramReadability
