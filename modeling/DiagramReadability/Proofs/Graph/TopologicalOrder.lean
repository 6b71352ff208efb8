import DiagramReadability.Graph.Export
import DiagramReadability.Proofs.Graph.Acyclic

/-!
# Topological order

A node is put in order once all its parents are, and the counts of a walk say how many edges into a
node still come from nodes out of order.  When nothing is ready any more, a node out of order has a
parent out of order, so on an acyclic graph no node is left.  Main statements: the test for
acyclicity succeeds exactly if the exported edges have a topological order
(`isAcyclic_iff_exists_order`), and exactly if the search for a cycle fails
(`hasCycle_eq_not_isAcyclic`).
-/

namespace DiagramReadability.Graph

/-- All nodes, each once, with the source of every exported edge before its target. -/
structure IsTopologicalOrder (g : Graph) (order : List String) : Prop where
  perm : order.Perm g.nodes
  forward : ∀ e ∈ g.keyedEdges, order.idxOf e.source < order.idxOf e.target

variable {edges : List Edge}

/-! ## Edges and their ends -/

/-- Keys apart, the exported edges are the steps from a node to its children. -/
theorem exists_keyedEdge_iff {u v : String} :
    (∃ e ∈ (ofEdges edges).keyedEdges, e.source = u ∧ e.target = v) ↔
      v ∈ (ofEdges edges).children u := by
  have hmap : (ofEdges edges).keyedEdges.map KeyedEdge.toEdge = edges :=
    map_toEdge_keyedEdges (ofEdges edges)
  rw [mem_children_ofEdges]
  constructor
  · rintro ⟨e, he, hends⟩
    exact ⟨e.toEdge, hmap ▸ List.mem_map_of_mem he, hends⟩
  · rintro ⟨e, he, hends⟩
    rw [← hmap] at he
    obtain ⟨k, hk, rfl⟩ := List.mem_map.mp he
    exact ⟨k, hk, hends⟩

/-! ## Counts of open edges -/

/-- The number of edges into a node that come from nodes not in `done`. -/
def openInDegree (g : Graph) (done : List String) (n : String) : Nat :=
  (g.parents n).countP fun p => !done.contains p

theorem openInDegree_eq_zero_iff {g : Graph} {done : List String} {n : String} :
    g.openInDegree done n = 0 ↔ ∀ p ∈ g.parents n, p ∈ done := by
  rw [openInDegree, List.countP_eq_zero]
  simp

/-- One more node in order closes its edges. -/
theorem openInDegree_snoc {done : List String} {node : String} (hnew : node ∉ done) (n : String) :
    (ofEdges edges).openInDegree (done ++ [node]) n + ((ofEdges edges).children node).count n =
      (ofEdges edges).openInDegree done n := by
  rw [count_children_eq, openInDegree, openInDegree]
  induction (ofEdges edges).parents n with
  | nil => rfl
  | cons p rest ih =>
      rw [List.countP_cons, List.countP_cons, List.count_cons]
      by_cases hp : p = node
      · subst hp
        simp [hnew] at ih ⊢
        omega
      · simp [hp] at ih ⊢
        omega

theorem getD_release (state : List String × Std.HashMap String Nat) (c n : String) :
    (release state c).2.getD n 0 =
      if c = n then state.2.getD n 0 - 1 else state.2.getD n 0 := by
  show (state.2.insert c (state.2.getD c 0 - 1)).getD n 0 = _
  rw [Std.HashMap.getD_insert]
  by_cases hn : c = n
  · simp [hn]
  · simp [hn]

/-- Every listed node loses one open edge for each time that it is listed. -/
theorem getD_foldl_release (targets : List String) (state : List String × Std.HashMap String Nat)
    (n : String) :
    (targets.foldl release state).2.getD n 0 = state.2.getD n 0 - targets.count n := by
  induction targets generalizing state with
  | nil => simp
  | cons c rest ih =>
      rw [List.foldl_cons, ih, getD_release]
      by_cases hn : c = n
      · subst hn
        rw [if_pos rfl, List.count_cons_self]
        omega
      · rw [if_neg hn, List.count_cons_of_ne hn]

theorem count_le_release {c : String} {rest released : List String}
    {waiting : Std.HashMap String Nat}
    (hcount : ∀ n, (c :: rest).count n ≤ waiting.getD n 0) (n : String) :
    rest.count n ≤ (release (released, waiting) c).2.getD n 0 := by
  have hle := hcount n
  rw [getD_release]
  by_cases hn : c = n
  · subst hn
    rw [List.count_cons_self] at hle
    rw [if_pos rfl]
    exact Nat.le_sub_one_of_lt hle
  · rw [List.count_cons_of_ne hn] at hle
    rwa [if_neg hn]

/-- A listed node is released, once, if the listing takes off the last of its open edges. -/
theorem foldl_release (targets released : List String) (waiting : Std.HashMap String Nat)
    (hcount : ∀ n, targets.count n ≤ waiting.getD n 0) :
    ∃ fresh, (targets.foldl release (released, waiting)).1 = released ++ fresh ∧ fresh.Nodup ∧
      ∀ n, n ∈ fresh ↔ n ∈ targets ∧ waiting.getD n 0 = targets.count n := by
  induction targets generalizing released waiting with
  | nil => exact ⟨[], by simp, List.nodup_nil, by simp⟩
  | cons c rest ih =>
      have hc := hcount c
      rw [List.count_cons_self] at hc
      have hget : ∀ n, (release (released, waiting) c).2.getD n 0 =
          if c = n then waiting.getD n 0 - 1 else waiting.getD n 0 :=
        getD_release (released, waiting) c
      obtain ⟨fresh, heq, hnodup, hfresh⟩ := ih (release (released, waiting) c).1 _
        (count_le_release hcount)
      rw [List.foldl_cons, heq]
      by_cases hleft : waiting.getD c 0 - 1 = 0
      · have hfirst : (release (released, waiting) c).1 = released ++ [c] := if_pos hleft
        refine ⟨c :: fresh, by rw [hfirst, List.append_assoc]; rfl, ?_, ?_⟩
        · -- the edge was the last one, so the node is not listed again
          refine List.nodup_cons.mpr ⟨fun hmem => ?_, hnodup⟩
          have hmore := List.count_pos_iff.mpr ((hfresh c).mp hmem).1
          omega
        · intro n
          rw [List.mem_cons, List.mem_cons, hfresh, hget]
          by_cases hn : c = n
          · subst hn
            rw [List.count_cons_self]
            simp
            omega
          · rw [if_neg hn, List.count_cons_of_ne hn]
            simp [Ne.symm hn]
      · -- open edges are left, so the node is listed again or is not released
        have hfirst : (release (released, waiting) c).1 = released := if_neg hleft
        refine ⟨fresh, by rw [hfirst], hnodup, ?_⟩
        intro n
        rw [hfresh, hget, List.mem_cons]
        by_cases hn : c = n
        · subst hn
          rw [if_pos rfl, List.count_cons_self]
          constructor
          · rintro ⟨_, h⟩
            exact ⟨.inl rfl, by omega⟩
          · rintro ⟨_, h⟩
            exact ⟨List.count_pos_iff.mp (by omega), by omega⟩
        · rw [if_neg hn, List.count_cons_of_ne hn]
          simp [Ne.symm hn]

/-! ## Nodes in order -/

/-- The state of a walk between two steps: `done` lists the nodes in order, `ready` those that come
next. -/
structure OrderInv (g : Graph) (done ready : List String) (waiting : Std.HashMap String Nat) :
    Prop where
  nodup : (done ++ ready).Nodup
  counts : ∀ n, waiting.getD n 0 = g.openInDegree done n
  mem_iff : ∀ n, n ∈ done ++ ready ↔ n ∈ g.nodes ∧ g.openInDegree done n = 0
  ordered : ∀ n ∈ done, ∀ p ∈ g.parents n, done.idxOf p < done.idxOf n

variable {done ready : List String} {waiting : Std.HashMap String Nat}

theorem OrderInv.length_le {g : Graph} (hinv : g.OrderInv done ready waiting) :
    done.length + ready.length ≤ g.nodes.length := by
  have hsub : done ++ ready ⊆ g.nodes := fun n hn => ((hinv.mem_iff n).mp hn).1
  have hlen := (hinv.nodup.subperm hsub).length_le
  rwa [List.length_append] at hlen

/-- A node may be put at the end of an order that holds all its parents. -/
theorem idxOf_lt_snoc {g : Graph} {node : String}
    (hordered : ∀ n ∈ done, ∀ p ∈ g.parents n, done.idxOf p < done.idxOf n) (hnew : node ∉ done)
    (hparents : ∀ p ∈ g.parents node, p ∈ done) :
    ∀ n ∈ done ++ [node], ∀ p ∈ g.parents n,
      (done ++ [node]).idxOf p < (done ++ [node]).idxOf n := by
  intro n hn p hp
  rcases List.mem_append.mp hn with hn | hn
  · have hlt := hordered n hn p hp
    have hpdone : p ∈ done :=
      List.idxOf_lt_length_iff.mp (hlt.trans (List.idxOf_lt_length_iff.mpr hn))
    rwa [List.idxOf_append_of_mem hpdone, List.idxOf_append_of_mem hn]
  · rw [List.mem_singleton] at hn
    subst hn
    have hpdone := hparents p hp
    rw [List.idxOf_append_of_mem hpdone, List.idxOf_append_of_notMem hnew]
    exact Nat.lt_add_right _ (List.idxOf_lt_length_iff.mpr hpdone)

/-- A ready node is put in order and releases those children that waited for it alone. -/
theorem OrderInv.step {node : String}
    (hinv : (ofEdges edges).OrderInv done (node :: ready) waiting) :
    ∃ fresh, (((ofEdges edges).children node).foldl release ([], waiting)).1 = fresh ∧
      (ofEdges edges).OrderInv (done ++ [node]) (ready ++ fresh)
        (((ofEdges edges).children node).foldl release ([], waiting)).2 := by
  have hsplit : done ++ node :: ready = done ++ [node] ++ ready := List.append_cons _ _ _
  have hnew : node ∉ done := by
    have hdisjoint := (List.nodup_append.mp hinv.nodup).2.2
    exact fun hmem => hdisjoint node hmem node List.mem_cons_self rfl
  have hopen := @openInDegree_snoc edges done node hnew
  have hcount : ∀ n, ((ofEdges edges).children node).count n ≤ waiting.getD n 0 := by
    intro n
    have := hopen n
    rw [hinv.counts]
    omega
  obtain ⟨fresh, heq, hnodup, hfresh⟩ := foldl_release _ [] waiting hcount
  have hmem : ∀ n, n ∈ done ++ [node] ++ (ready ++ fresh) ↔
      n ∈ done ++ node :: ready ∨ n ∈ fresh := by
    intro n
    rw [← List.append_assoc, ← hsplit, List.mem_append]
  have hparents := openInDegree_eq_zero_iff.mp
    ((hinv.mem_iff node).mp (List.mem_append_right _ List.mem_cons_self)).2
  refine ⟨fresh, by rw [heq, List.nil_append], ?_, ?_, ?_, ?_⟩
  · rw [← List.append_assoc, ← hsplit]
    refine List.nodup_append.mpr ⟨hinv.nodup, hnodup, ?_⟩
    rintro n hn m hm rfl
    -- a node that was ready before has no open edge to lose
    obtain ⟨hchild, hlast⟩ := (hfresh n).mp hm
    rw [hinv.counts, ((hinv.mem_iff n).mp hn).2] at hlast
    have := List.count_pos_iff.mpr hchild
    omega
  · intro n
    rw [getD_foldl_release, hinv.counts]
    have := hopen n
    omega
  · intro n
    rw [hmem, hinv.mem_iff, hfresh, hinv.counts]
    have hn := hopen n
    constructor
    · rintro (⟨hnode, hzero⟩ | ⟨hchild, hlast⟩)
      · exact ⟨hnode, by omega⟩
      · exact ⟨(confined_children edges).target_mem hchild, by omega⟩
    · rintro ⟨hnode, hzero⟩
      by_cases hchild : n ∈ (ofEdges edges).children node
      · exact .inr ⟨hchild, by omega⟩
      · rw [List.count_eq_zero.mpr hchild] at hn
        exact .inl ⟨hnode, by omega⟩
  · exact idxOf_lt_snoc hinv.ordered hnew hparents

/-- With enough fuel a walk ends when nothing is ready any more. -/
theorem orderFrom_spec (fuel : Nat) (hinv : (ofEdges edges).OrderInv done ready waiting)
    (hfuel : (ofEdges edges).nodes.length ≤ fuel + done.length) :
    ∃ later, (ofEdges edges).OrderInv (done ++ (ofEdges edges).orderFrom fuel ready waiting) []
      later := by
  induction fuel generalizing done ready waiting with
  | zero =>
      have hlen := hinv.length_le
      have hready : ready = [] := List.eq_nil_of_length_eq_zero (by omega)
      subst hready
      exact ⟨waiting, by rwa [orderFrom, List.append_nil]⟩
  | succ fuel ih =>
      cases ready with
      | nil => exact ⟨waiting, by rwa [orderFrom, List.append_nil]⟩
      | cons node ready =>
          obtain ⟨fresh, rfl, hnext⟩ := hinv.step
          rw [orderFrom, List.append_cons]
          apply ih hnext
          rw [List.length_append, List.length_singleton]
          omega

theorem orderInv_roots (edges : List Edge) :
    (ofEdges edges).OrderInv [] (ofEdges edges).roots
      (Std.HashMap.ofList
        ((ofEdges edges).nodes.map fun n => (n, (ofEdges edges).inDegree n))) where
  nodup := (nodup_nodes edges).filter _
  counts n := by
    have hopen : (ofEdges edges).openInDegree [] n = (ofEdges edges).inDegree n := by
      simp [openInDegree, inDegree]
    rw [hopen]
    by_cases hn : n ∈ (ofEdges edges).nodes
    · exact getD_ofList_map (nodup_nodes edges) _ hn 0
    · have hnone : (ofEdges edges).parents n = [] := by
        rw [List.eq_nil_iff_forall_not_mem]
        exact fun p hp => hn ((confined_children edges).target_mem (mem_parents_iff.mp hp))
      rw [inDegree, hnone, List.length_nil]
      apply Std.HashMap.getD_ofList_of_contains_eq_false
      simpa [List.map_map, Function.comp_def] using hn
  mem_iff n := by
    rw [List.nil_append, roots, List.mem_filter, openInDegree_eq_zero_iff, List.isEmpty_iff,
      List.eq_nil_iff_forall_not_mem]
    simp
  ordered n hn := by simp at hn

/-! ## Acyclic graphs -/

theorem IsTopologicalOrder.idxOf_lt {order : List String}
    (horder : (ofEdges edges).IsTopologicalOrder order) {u v : String}
    (h : Follows (ofEdges edges).children u v) : order.idxOf u < order.idxOf v := by
  have hstep : ∀ {u v : String}, v ∈ (ofEdges edges).children u →
      order.idxOf u < order.idxOf v := by
    intro u v hv
    obtain ⟨e, he, rfl, rfl⟩ := exists_keyedEdge_iff.mpr hv
    exact horder.forward e he
  induction h with
  | single hv => exact hstep hv
  | tail _ hv ih => exact ih.trans (hstep hv)

/-- On an acyclic graph what passes from all parents to a node holds of every node. -/
theorem parents_induction (hacyclic : ∀ n, ¬Follows (ofEdges edges).children n n)
    {P : String → Prop}
    (hstep : ∀ n ∈ (ofEdges edges).nodes, (∀ p ∈ (ofEdges edges).parents n, P p) → P n)
    {n : String} (hn : n ∈ (ofEdges edges).nodes) : P n := by
  have hc := confined_children edges
  -- the paths from the parents are longer, and none is longer than there are nodes
  induction hleft : (ofEdges edges).nodes.length -
      (longestFrom (ofEdges edges).children (ofEdges edges).nodes.length [] n).length
    using Nat.strongRecOn generalizing n with
  | _ left ih =>
    apply hstep n hn
    intro p hp
    have hchild := mem_parents_iff.mp hp
    have hpn := hc.source_mem hchild
    have hlonger := length_child_lt hc hacyclic hpn hchild
    have hbound := @length_longestFrom_le _ _ _ hc (ofEdges edges).nodes.length [] p hpn
    exact ih _ (by omega) hpn rfl

theorem orderInv_topologicalOrder (edges : List Edge) :
    ∃ later, (ofEdges edges).OrderInv (ofEdges edges).topologicalOrder [] later :=
  orderFrom_spec _ (orderInv_roots edges) (Nat.le_add_right _ _)

/-- On an acyclic graph every node gets its place. -/
theorem perm_topologicalOrder (hacyclic : ∀ n, ¬Follows (ofEdges edges).children n n) :
    (ofEdges edges).topologicalOrder.Perm (ofEdges edges).nodes := by
  obtain ⟨later, hinv⟩ := orderInv_topologicalOrder edges
  have hmem := hinv.mem_iff
  have hnodup := hinv.nodup
  rw [List.append_nil] at hmem hnodup
  refine (List.perm_ext_iff_of_nodup hnodup (nodup_nodes edges)).mpr fun n => ?_
  refine ⟨fun hn => ((hmem n).mp hn).1, parents_induction hacyclic ?_⟩
  intro m hm hparents
  exact (hmem m).mpr ⟨hm, openInDegree_eq_zero_iff.mpr hparents⟩

theorem isAcyclic_iff (edges : List Edge) :
    (ofEdges edges).isAcyclic = true ↔
      (ofEdges edges).topologicalOrder.Perm (ofEdges edges).nodes := by
  obtain ⟨later, hinv⟩ := orderInv_topologicalOrder edges
  have hmem := hinv.mem_iff
  have hnodup := hinv.nodup
  rw [List.append_nil] at hmem hnodup
  rw [isAcyclic, decide_eq_true_iff]
  refine ⟨fun hlen => ?_, List.Perm.length_eq⟩
  have hsub : (ofEdges edges).topologicalOrder ⊆ (ofEdges edges).nodes := fun n hn =>
    ((hmem n).mp hn).1
  exact (hnodup.subperm hsub).perm_of_length_le (Nat.le_of_eq hlen.symm)

/-- The test for acyclicity succeeds exactly if the exported edges have a topological order. -/
theorem isAcyclic_iff_exists_order (edges : List Edge) :
    (ofEdges edges).isAcyclic = true ↔ ∃ order, (ofEdges edges).IsTopologicalOrder order := by
  rw [isAcyclic_iff]
  constructor
  · intro hperm
    refine ⟨_, hperm, fun e he => ?_⟩
    obtain ⟨later, hinv⟩ := orderInv_topologicalOrder edges
    have hchild := exists_keyedEdge_iff.mp ⟨e, he, rfl, rfl⟩
    have htarget := (confined_children edges).target_mem hchild
    exact hinv.ordered _ (hperm.mem_iff.mpr htarget) _ (mem_parents_iff.mpr hchild)
  · rintro ⟨order, horder⟩
    exact perm_topologicalOrder fun n hn => Nat.lt_irrefl _ (horder.idxOf_lt hn)

/-- The search for a cycle and the test for acyclicity never give the same answer. -/
theorem hasCycle_eq_not_isAcyclic (edges : List Edge) :
    (ofEdges edges).hasCycle = !(ofEdges edges).isAcyclic := by
  rw [Bool.eq_iff_iff, hasCycle_iff, Bool.not_eq_true', ← Bool.not_eq_true,
    isAcyclic_iff_exists_order]
  constructor
  · rintro ⟨n, hn⟩ ⟨order, horder⟩
    exact Nat.lt_irrefl _ (horder.idxOf_lt hn)
  · intro hnone
    by_contra hacyclic
    rw [not_exists] at hacyclic
    exact hnone ((isAcyclic_iff_exists_order edges).mp
      ((isAcyclic_iff edges).mpr (perm_topologicalOrder hacyclic)))

end DiagramReadability.Graph
