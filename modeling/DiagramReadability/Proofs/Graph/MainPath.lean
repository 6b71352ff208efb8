import DiagramReadability.Proofs.Graph.Connected
import DiagramReadability.Proofs.Graph.LinearRun

/-!
# Agreement of the main paths

A longest path whose nodes are all linear cannot be left: a child of its last node or a parent of
its first one would make it longer, unless the two are joined to a ring.  So it is a whole
component, and the chain of the graph, which is never longer than a longest path, is as long.
-/

namespace DiagramReadability.Graph

/-! ## Paths that stand alone -/

/-- The nodes of the path have no other neighbours than the path gives them: one follows the other
by a single link, and nothing comes before the first or after the last, unless the last leads back
to the first. -/
structure IsBare (g : Graph) (path : List String) : Prop where
  linked : path.IsChain fun u v => g.children u = [v] ∧ g.parents v = [u]
  ends : ∃ first last, path.head? = some first ∧ path.getLast? = some last ∧
    (g.children last = [] ∧ g.parents first = [] ∨
      g.children last = [first] ∧ g.parents first = [last])

/-- In a chain every element but the last is followed by one, which is not the first. -/
theorem exists_follower {R : String → String → Prop} {path : List String} (h : path.IsChain R)
    {u : String} (hu : u ∈ path) : path.getLast? = some u ∨ ∃ v ∈ path.tail, R u v := by
  induction path with
  | nil => simp at hu
  | cons a rest ih =>
      cases rest with
      | nil => exact .inl (by rw [List.mem_singleton.mp hu]; rfl)
      | cons b rest =>
          rw [List.isChain_cons_cons] at h
          rcases List.mem_cons.mp hu with rfl | hu
          · exact .inr ⟨b, by simp, h.1⟩
          · rcases ih h.2 hu with hlast | ⟨v, hv, huv⟩
            · exact .inl (by rw [List.getLast?_cons_cons, hlast])
            · exact .inr ⟨v, List.mem_cons_of_mem b hv, huv⟩

/-- In a chain every element but the first follows one, which is not the last. -/
theorem exists_predecessor {R : String → String → Prop} {a : String} {rest : List String}
    (h : (a :: rest).IsChain R) {v : String} (hv : v ∈ rest) :
    ∃ u ∈ (a :: rest).dropLast, R u v := by
  induction rest generalizing a with
  | nil => simp at hv
  | cons b rest ih =>
      rw [List.isChain_cons_cons] at h
      rw [List.dropLast_cons_of_ne_nil (List.cons_ne_nil b rest)]
      rcases List.mem_cons.mp hv with rfl | hv
      · exact ⟨a, List.mem_cons_self, h.1⟩
      · rcases ih h.2 hv with ⟨u, hu, huv⟩
        exact ⟨u, List.mem_cons_of_mem a hu, huv⟩

/-- A value listed at most once over is the only one. -/
theorem eq_singleton_of_mem {l : List String} {a : String} (hlen : l.length ≤ 1) (ha : a ∈ l) :
    l = [a] := by
  cases l with
  | nil => simp at ha
  | cons b rest =>
      rw [List.length_cons] at hlen
      have hrest : rest = [] := List.eq_nil_of_length_eq_zero (by omega)
      rw [hrest, List.mem_singleton] at ha
      rw [hrest, ha]

theorem isLinear_iff {g : Graph} {n : String} :
    g.isLinear n = true ↔ (g.parents n).length ≤ 1 ∧ (g.children n).length ≤ 1 := by
  rw [isLinear, Bool.and_eq_true, decide_eq_true_iff, decide_eq_true_iff]
  rfl

variable {edges : List Edge} {path : List String}

theorem IsBare.neighbours_mem (h : (ofEdges edges).IsBare path) {u v : String} (hu : u ∈ path)
    (hv : v ∈ (ofEdges edges).neighbours u) : v ∈ path := by
  rcases h.ends with ⟨first, last, hfirst, hlast, hends⟩
  have hfirst_mem : first ∈ path := List.mem_of_mem_head? hfirst
  have hlast_mem : last ∈ path := List.mem_of_getLast? hlast
  rcases List.mem_append.mp hv with hv | hv
  · rcases exists_follower h.linked hu with hu | ⟨w, hw, hchildren, -⟩
    · rw [hlast, Option.some.injEq] at hu
      rw [← hu] at hv
      rcases hends with ⟨hnone, -⟩ | ⟨hback, -⟩
      · rw [hnone] at hv
        simp at hv
      · rw [hback, List.mem_singleton] at hv
        rwa [hv]
    · rw [hchildren, List.mem_singleton] at hv
      rw [hv]
      exact List.mem_of_mem_tail hw
  · rcases List.head?_eq_some_iff.mp hfirst with ⟨rest, rfl⟩
    rcases List.mem_cons.mp hu with rfl | hu
    · rcases hends with ⟨-, hnone⟩ | ⟨-, hback⟩
      · rw [hnone] at hv
        simp at hv
      · rw [hback, List.mem_singleton] at hv
        rwa [hv]
    · rcases exists_predecessor h.linked hu with ⟨w, hw, -, hparents⟩
      rw [hparents, List.mem_singleton] at hv
      rw [hv]
      exact List.dropLast_subset _ hw

theorem reachable_of_isChain {next : String → List String} {a : String} {rest : List String}
    (h : (a :: rest).IsChain fun u v => v ∈ next u) {n : String} (hn : n ∈ a :: rest) :
    Reachable next a n := by
  induction rest generalizing a with
  | nil => rw [List.mem_singleton.mp hn]
  | cons b rest ih =>
      rw [List.isChain_cons_cons] at h
      rcases List.mem_cons.mp hn with rfl | hn
      · exact .refl
      · exact .head h.1 (ih h.2 hn)

/-- A bare path is a component of its graph. -/
theorem IsBare.exists_component (h : (ofEdges edges).IsBare path) (hnodup : path.Nodup)
    (hsub : path ⊆ (ofEdges edges).nodes) : ∃ c ∈ (ofEdges edges).components, c.Perm path := by
  rcases h.ends with ⟨first, last, hfirst, -, -⟩
  rcases List.head?_eq_some_iff.mp hfirst with ⟨rest, rfl⟩
  rcases Graph.exists_component (hsub List.mem_cons_self) with ⟨c, hc, hcnodup, hmem⟩
  refine ⟨c, hc, (List.perm_ext_iff_of_nodup hcnodup hnodup).mpr fun n => ?_⟩
  rw [hmem n]
  constructor
  · intro hreach
    induction hreach with
    | refl => exact List.mem_cons_self
    | tail _ hstep ih => exact h.neighbours_mem ih hstep
  · intro hn
    have hsteps : (first :: rest).IsChain fun u v => v ∈ (ofEdges edges).neighbours u := by
      refine h.linked.imp ?_
      intro u v hlink
      rw [neighbours, hlink.1]
      exact List.mem_cons_self
    exact reachable_of_isChain hsteps hn

/-- A bare path of linear nodes is a linear run. -/
theorem IsBare.isRun {g : Graph} (h : g.IsBare path) (hnodup : path.Nodup)
    (hlinear : ∀ n ∈ path, g.isLinear n = true) : g.IsRun path where
  nodup := hnodup
  linear := hlinear
  linked := h.linked.imp fun u v hlink =>
    linkedChild?_eq_some_iff.mpr ⟨hlink.1, by rw [inDegree, hlink.2]; rfl⟩

/-! ## Longest paths of linear nodes -/

/-- Nothing comes after the last node of a longest path that is not on the path. -/
theorem children_getLast_mem (hsimple : IsSimple (ofEdges edges).children path)
    (hsub : path ⊆ (ofEdges edges).nodes)
    (hlongest : ∀ p, IsSimple (ofEdges edges).children p → p ⊆ (ofEdges edges).nodes →
      p.length ≤ path.length) {last : String} (hlast : path.getLast? = some last) {c : String}
    (hc : c ∈ (ofEdges edges).children last) : c ∈ path := by
  by_contra hout
  have hmore : IsSimple (ofEdges edges).children (path ++ [c]) := by
    apply hsimple.concat hout
    intro n hn
    rw [hlast, Option.mem_some_iff] at hn
    exact hn ▸ hc
  have hmem : c ∈ (ofEdges edges).nodes := (confined_children edges).target_mem hc
  have hlen := hlongest _ hmore (List.append_subset.mpr ⟨hsub, by simpa using hmem⟩)
  rw [List.length_append, List.length_singleton] at hlen
  omega

/-- Nothing comes before the first node of a longest path that is not on the path. -/
theorem parents_head_mem {first : String} {rest : List String}
    (hsimple : IsSimple (ofEdges edges).children (first :: rest))
    (hsub : first :: rest ⊆ (ofEdges edges).nodes)
    (hlongest : ∀ p, IsSimple (ofEdges edges).children p → p ⊆ (ofEdges edges).nodes →
      p.length ≤ (first :: rest).length) {p : String} (hp : p ∈ (ofEdges edges).parents first) :
    p ∈ first :: rest := by
  by_contra hout
  have hstep := mem_parents_iff.mp hp
  have hmore : IsSimple (ofEdges edges).children (p :: first :: rest) :=
    isSimple_cons_cons.mpr ⟨hstep, hout, hsimple⟩
  have hmem : p ∈ (ofEdges edges).nodes := (confined_children edges).source_mem hstep
  have hlen := hlongest _ hmore (List.cons_subset.mpr ⟨hmem, hsub⟩)
  rw [List.length_cons] at hlen
  omega

/-- A longest path that passes linear nodes only is bare. -/
theorem isBare_of_longest (hne : path ≠ []) (hsimple : IsSimple (ofEdges edges).children path)
    (hsub : path ⊆ (ofEdges edges).nodes)
    (hlongest : ∀ p, IsSimple (ofEdges edges).children p → p ⊆ (ofEdges edges).nodes →
      p.length ≤ path.length)
    (hlinear : ∀ n ∈ path, (ofEdges edges).isLinear n = true) : (ofEdges edges).IsBare path := by
  -- between two linear nodes an edge is the only one out of the first and into the second
  have honly : ∀ u ∈ path, ∀ v ∈ path, v ∈ (ofEdges edges).children u →
      (ofEdges edges).children u = [v] ∧ (ofEdges edges).parents v = [u] := by
    intro u hu v hv hstep
    have hout := (isLinear_iff.mp (hlinear u hu)).2
    have hin := (isLinear_iff.mp (hlinear v hv)).1
    exact ⟨eq_singleton_of_mem hout hstep, eq_singleton_of_mem hin (mem_parents_iff.mpr hstep)⟩
  have hlinked : path.IsChain fun u v =>
      (ofEdges edges).children u = [v] ∧ (ofEdges edges).parents v = [u] := by
    refine (List.IsChain.iff_mem.mp hsimple.2).imp ?_
    rintro u v ⟨hu, hv, hstep⟩
    exact honly u hu v hv hstep
  cases path with
  | nil => exact absurd rfl hne
  | cons first rest =>
      have hfirst : first ∈ first :: rest := List.mem_cons_self
      have hlast := List.getLast?_eq_some_getLast hne
      have hlastmem := List.getLast_mem hne
      generalize (first :: rest).getLast hne = last at hlast hlastmem
      -- a step back from the last node can only reach the first: all others have their parent
      have hback : ∀ c ∈ (ofEdges edges).children last, c = first := by
        intro c hc
        have hmem := children_getLast_mem hsimple hsub hlongest hlast hc
        rcases List.mem_cons.mp hmem with heq | hrest
        · exact heq
        · rcases exists_predecessor hlinked hrest with ⟨u, hu, -, hparents⟩
          rw [(honly last hlastmem c hmem hc).2, List.singleton_inj] at hparents
          have hnodup := List.dropLast_append_getLast? last hlast ▸ hsimple.1
          have hdisjoint := (List.nodup_append.mp hnodup).2.2
          exact absurd hparents.symm (hdisjoint u hu last (List.mem_singleton_self last))
      refine ⟨hlinked, first, last, List.head?_cons, hlast, ?_⟩
      cases hchildren : (ofEdges edges).children last with
      | cons c more =>
          have hc : c ∈ (ofEdges edges).children last := by
            rw [hchildren]
            exact List.mem_cons_self
          rw [hback c hc] at hc
          right
          rw [← hchildren]
          exact honly last hlastmem first hfirst hc
      | nil =>
          left
          refine ⟨rfl, List.eq_nil_iff_forall_not_mem.mpr fun p hp => ?_⟩
          have hmem := parents_head_mem hsimple hsub hlongest hp
          have hstep := mem_parents_iff.mp hp
          rcases exists_follower hlinked hmem with hend | ⟨v, hv, hnext, -⟩
          · rw [hlast, Option.some.injEq] at hend
            rw [← hend, hchildren] at hstep
            simp at hstep
          · -- the follower of this parent would be the first node again
            rw [hnext, List.mem_singleton] at hstep
            exact absurd (hstep ▸ hv) (List.nodup_cons.mp hsimple.1).1

theorem longestPath_ne_nil (hedges : edges ≠ []) : (ofEdges edges).longestPath.path ≠ [] := by
  rcases List.exists_mem_of_ne_nil _ (nodes_ne_nil hedges) with ⟨n, hn⟩
  have hlen := length_le_longestPath (isSimple_singleton _ n)
    (List.cons_subset.mpr ⟨hn, List.nil_subset _⟩)
  exact List.ne_nil_of_length_pos hlen

theorem length_linearChain_le_longestPath (edges : List Edge) :
    (ofEdges edges).linearChain.length ≤ (ofEdges edges).longestPath.length := by
  rcases @isRun_linearChain edges with ⟨hrun, hsub⟩
  exact length_le_longestPath hrun.isSimple hsub

theorem length_spine_le_longestPath (edges : List Edge) :
    (ofEdges edges).spine.length ≤ (ofEdges edges).longestPath.length := by
  rcases isSimple_spine edges with ⟨hsimple, hsub⟩
  exact length_le_longestPath hsimple hsub

/-- A longest path of linear nodes is a component of its own, and the chain of the graph is as
long. -/
theorem linear_longestPath (hedges : edges ≠ [])
    (hlinear : ∀ n ∈ (ofEdges edges).longestPath.path, (ofEdges edges).isLinear n = true) :
    (∃ c ∈ (ofEdges edges).components, c.Perm (ofEdges edges).longestPath.path) ∧
      (ofEdges edges).IsBare (ofEdges edges).longestPath.path ∧
      (ofEdges edges).linearChain.path.length = (ofEdges edges).longestPath.path.length := by
  rcases isSimple_longestPath edges with ⟨hsimple, hsub⟩
  have hbare := isBare_of_longest (longestPath_ne_nil hedges) hsimple hsub
    (fun p => length_le_longestPath) hlinear
  refine ⟨hbare.exists_component hsimple.1 hsub, hbare, Nat.le_antisymm ?_ ?_⟩
  · exact length_linearChain_le_longestPath edges
  · exact length_le_linearChain (hbare.isRun hsimple.1 hlinear) hsub

/-- The main paths of a graph agree: neither the chain nor the spine is longer than a longest path,
and a longest path that is linear is a component, a bare path or a bare ring, as long as the chain,
which is linear then too.  Only the linearity of the nodes counts for the first part of that. -/
theorem mainPaths_agree (edges : List Edge) (hedges : edges ≠ []) :
    let g := ofEdges edges
    g.linearChain.length ≤ g.longestPath.length ∧
      g.spine.length ≤ g.longestPath.length ∧
      g.longestPath.length ≤ g.nodes.length ∧
      (g.longestPath.path.all g.isLinear = true →
        (∃ c ∈ g.components, c.Perm g.longestPath.path) ∧ g.IsBare g.longestPath.path ∧
          g.linearChain.length = g.longestPath.length) ∧
      (g.longestPath.isLinear = true →
        (∃ c ∈ g.components, c.Perm g.longestPath.path) ∧ g.IsBare g.longestPath.path ∧
          g.linearChain.length = g.longestPath.length ∧ g.linearChain.isLinear = true) := by
  intro g
  have hlongest := isSimple_longestPath edges
  refine ⟨length_linearChain_le_longestPath edges, length_spine_le_longestPath edges,
    hlongest.1.length_le hlongest.2, fun hall => ?_, fun hlinear => ?_⟩
  · exact linear_longestPath hedges (List.all_eq_true.mp hall)
  · rcases Bool.and_eq_true_iff.mp hlinear with ⟨hshare, hall⟩
    rcases linear_longestPath hedges (List.all_eq_true.mp hall) with ⟨hcomponent, hbare, hlen⟩
    refine ⟨hcomponent, hbare, hlen, ?_⟩
    -- the share depends on the length alone
    show decide (linearShare < g.nodeShare g.linearChain.path.length) = true
    rw [hlen]
    exact hshare

/-- Three nodes in a ring. -/
def threeRing : List Edge :=
  [⟨"A", "B", none, .solid⟩, ⟨"B", "C", none, .solid⟩, ⟨"C", "A", none, .solid⟩]

theorem mainPaths_agree_threeRing :
    let g := ofEdges threeRing
    threeRing ≠ [] ∧ g.longestPath.path.all g.isLinear = true ∧ g.longestPath.isLinear = true ∧
      (∃ c ∈ g.components, c.Perm g.longestPath.path) ∧ g.IsBare g.longestPath.path ∧
      g.linearChain.length = g.longestPath.length ∧ g.linearChain.isLinear = true := by
  intro g
  have hedges : threeRing ≠ [] := by decide
  have hnodes : (ofEdges threeRing).nodes = ["A", "B", "C"] := by decide
  have hall : g.longestPath.path.all g.isLinear = true := by
    apply List.all_eq_true.mpr
    intro n hn
    have hmem := (isSimple_longestPath threeRing).2 hn
    rw [isLinear_iff, parents_ofEdges, children_ofEdges]
    rw [hnodes] at hmem
    simp at hmem
    rcases hmem with rfl | rfl | rfl <;> simp [threeRing]
  -- no path is longer than the way around the ring, which is simple
  have haround : IsSimple g.children ["A", "B", "C"] := by
    refine ⟨by decide, .cons_cons ?_ (.cons_cons ?_ (.singleton _))⟩ <;>
      · rw [children_ofEdges]
        decide
  have hlen : g.longestPath.path.length = 3 := by
    have hle := (mainPaths_agree threeRing hedges).2.2.1
    have hge := length_le_longestPath haround (hnodes ▸ List.Subset.refl _)
    rw [hnodes] at hle
    exact Nat.le_antisymm hle hge
  have hshare : linearShare < (ofEdges threeRing).nodeShare 3 := by
    rw [nodeShare, hnodes]
    decide +kernel
  have hlinear : g.longestPath.isLinear = true := by
    show (decide (linearShare < g.nodeShare g.longestPath.path.length) && _) = true
    rw [hlen, decide_eq_true hshare]
    exact hall
  exact ⟨hedges, hall, hlinear, (mainPaths_agree threeRing hedges).2.2.2.2 hlinear⟩

end DiagramReadability.Graph
