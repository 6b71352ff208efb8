import DiagramReadability.Proofs.Graph.MainPath

/-!
# The chain among the linear runs

The walk is taken from every node and a run is kept only when it is longer than all before it.  Runs
that begin at the same node go the same way, so the chain is the longest run whose first node comes
first.  On a ring every node begins a run through all nodes, and the chain is the one from the first
node.
-/

namespace DiagramReadability.Graph

variable {g : Graph} {edges : List Edge} {path run : List String}

/-! ## Runs by their degrees -/

/-- Distinct nodes with at most one edge in and at most one edge out, each followed by its only
child, into which no other edge leads. -/
structure IsLinearRun (g : Graph) (path : List String) : Prop where
  nodup : path.Nodup
  subset : path ⊆ g.nodes
  degrees : ∀ n ∈ path, g.inDegree n ≤ 1 ∧ g.outDegree n ≤ 1
  linked : path.IsChain fun u v => g.children u = [v] ∧ g.inDegree v = 1

theorem isLinearRun_iff : g.IsLinearRun path ↔ g.IsRun path ∧ path ⊆ g.nodes := by
  constructor
  · intro h
    refine ⟨⟨h.nodup, fun n hn => isLinear_iff.mpr (h.degrees n hn), ?_⟩, h.subset⟩
    exact h.linked.imp fun u v hlink => linkedChild?_eq_some_iff.mpr hlink
  · intro h
    refine ⟨h.1.nodup, h.2, fun n hn => isLinear_iff.mp (h.1.linear n hn), ?_⟩
    exact h.1.linked.imp fun u v hlink => linkedChild?_eq_some_iff.mp hlink

-- Each node of a run says which one follows, so the first node and the length fix the run.
theorem IsRun.eq_of_head?_eq (h : g.IsRun path) (h' : g.IsRun run) (hhead : path.head? = run.head?)
    (hlen : path.length = run.length) : path = run := by
  induction path generalizing run with
  | nil => exact (List.eq_nil_of_length_eq_zero hlen.symm).symm
  | cons n rest ih =>
      cases run with
      | nil => simp at hlen
      | cons m more =>
          rw [List.head?_cons, List.head?_cons, Option.some.injEq] at hhead
          subst hhead
          have hnext : rest.head? = more.head? := by
            cases rest with
            | nil => simp [List.eq_nil_of_length_eq_zero (Nat.succ.inj hlen).symm]
            | cons v rest =>
                cases more with
                | nil => simp at hlen
                | cons w more =>
                    have hlink := (List.isChain_cons_cons.mp h.linked).1
                    exact hlink.symm.trans (List.isChain_cons_cons.mp h'.linked).1
          rw [ih h.tail h'.tail hnext (Nat.succ.inj hlen)]

/-! ## The first of the longest -/

theorem head?_linearRun {start : String} (hne : g.linearRun start ≠ []) :
    (g.linearRun start).head? = some start := by
  have hstart : ∀ n, (g.linearRun start).head? = some n → n = start :=
    (runFrom_spec (g.nodes.length + 1) ∅ start).2.2
  have hhead := List.head?_eq_some_head hne
  rwa [hstart _ hhead] at hhead

/-- The chain is the run from some node, and the runs from all nodes before it are shorter. -/
theorem exists_linearChain_start (hnodes : (ofEdges edges).nodes ≠ []) :
    ∃ before first after, (ofEdges edges).nodes = before ++ first :: after ∧
      (ofEdges edges).linearRun first = (ofEdges edges).linearChain.path ∧
      ∀ n ∈ before, ((ofEdges edges).linearRun n).length <
        (ofEdges edges).linearChain.path.length := by
  -- the chain is picked among the runs of all nodes, in the order of the nodes
  have hne : (ofEdges edges).nodes.map (ofEdges edges).linearRun ≠ [] := by simpa using hnodes
  have hfirst := exists_eq_append_firstLongest hne
  change ∃ before after, (ofEdges edges).nodes.map (ofEdges edges).linearRun =
    before ++ (ofEdges edges).linearChain.path :: after ∧
      (∀ p ∈ before, p.length < (ofEdges edges).linearChain.path.length) ∧ _ at hfirst
  rcases hfirst with ⟨runs, later, heq, hshorter, -⟩
  rcases List.map_eq_append_iff.mp heq with ⟨before, kept, hsplit, hruns, hlater⟩
  rcases List.map_eq_cons_iff.mp hlater with ⟨first, after, rfl, hchain, -⟩
  refine ⟨before, first, after, hsplit, hchain, ?_⟩
  intro n hn
  exact hshorter _ (hruns ▸ List.mem_map_of_mem hn)

/-- A run that is as long as the chain and not the chain begins at a later node. -/
theorem idxOf_head_linearChain_lt (hrun : (ofEdges edges).IsLinearRun run)
    (hlen : run.length = (ofEdges edges).linearChain.path.length)
    (hne : run ≠ (ofEdges edges).linearChain.path) :
    ∃ first other, (ofEdges edges).linearChain.path.head? = some first ∧
      run.head? = some other ∧
      (ofEdges edges).nodes.idxOf first < (ofEdges edges).nodes.idxOf other := by
  rcases isLinearRun_iff.mp hrun with ⟨hisrun, hsub⟩
  cases run with
  | nil => exact absurd (List.eq_nil_of_length_eq_zero hlen.symm).symm hne
  | cons other more =>
      have hother : other ∈ (ofEdges edges).nodes := hsub List.mem_cons_self
      rcases exists_linearChain_start (List.ne_nil_of_mem hother)
        with ⟨before, first, after, hsplit, hchain, hshorter⟩
      have hsome : (ofEdges edges).linearRun first ≠ [] := by
        intro hnil
        simp [← hchain, hnil] at hlen
      have hhead : (ofEdges edges).linearChain.path.head? = some first :=
        hchain ▸ head?_linearRun hsome
      -- the walk from a node before the first would have found a shorter run than this one
      have hlater : other ∉ before := by
        intro hin
        have hwalk := length_le_linearRun hisrun hsub
        have hless := hshorter other hin
        omega
      -- and the chain is the only run of its length from its own first node
      have hdiff : first ≠ other := by
        intro heq
        apply hne
        apply hisrun.eq_of_head?_eq isRun_linearChain.1 _ hlen
        rw [hhead, heq, List.head?_cons]
      refine ⟨first, other, hhead, List.head?_cons, ?_⟩
      have hnodup := hsplit ▸ nodup_nodes edges
      have hfirst : first ∉ before := fun hin =>
        (List.nodup_append.mp hnodup).2.2 first hin first List.mem_cons_self rfl
      rw [hsplit, List.idxOf_append_of_notMem hfirst, List.idxOf_append_of_notMem hlater,
        List.idxOf_cons_self, List.idxOf_cons_ne _ hdiff]
      omega

/-! ## Rings -/

theorem mem_zip_append {l m more : List String} {p : String × String} (hp : p ∈ l.zip m) :
    p ∈ l.zip (m ++ more) := by
  induction l generalizing m with
  | nil => simp at hp
  | cons a l ih =>
      cases m with
      | nil => simp at hp
      | cons b m =>
          rw [List.zip_cons_cons, List.mem_cons] at hp
          rw [List.cons_append, List.zip_cons_cons, List.mem_cons]
          exact hp.imp_right ih

theorem mem_zip_rotate {ring : List String} {p : String × String}
    (hp : p ∈ ring.zip ring.tail) : p ∈ ring.zip (ring.rotate 1) := by
  cases ring with
  | nil => simp at hp
  | cons a rest =>
      rw [List.rotate_cons_succ, List.rotate_zero]
      exact mem_zip_append hp

/-- The edges are one closed ring: in some order they lead from each node to the next, and from the
last node to the first. -/
structure IsRing (edges : List Edge) (ring : List String) : Prop where
  nodup : ring.Nodup
  edges_perm : (edges.map fun e => (e.source, e.target)).Perm (ring.zip (ring.rotate 1))

namespace IsRing

variable {ring : List String}

/-- A ring may be listed from any of its nodes on. -/
theorem rotate (h : IsRing edges ring) (i : Nat) : IsRing edges (ring.rotate i) where
  nodup := List.nodup_rotate.mpr h.nodup
  edges_perm := by
    have hzip := List.zipWith_rotate_distrib Prod.mk ring (ring.rotate 1) i
      (ring.length_rotate 1).symm
    change (ring.zip (ring.rotate 1)).rotate i = (ring.rotate i).zip ((ring.rotate 1).rotate i)
      at hzip
    rw [List.rotate_rotate, Nat.add_comm, ← List.rotate_rotate] at hzip
    rw [← hzip]
    exact h.edges_perm.trans (List.rotate_perm _ i).symm

theorem sources_perm (h : IsRing edges ring) : (edges.map Edge.source).Perm ring := by
  have hfst := h.edges_perm.map Prod.fst
  rw [List.map_fst_zip (by rw [List.length_rotate]), List.map_map] at hfst
  exact hfst

theorem targets_perm (h : IsRing edges ring) : (edges.map Edge.target).Perm ring := by
  have hsnd := h.edges_perm.map Prod.snd
  rw [List.map_snd_zip (by rw [List.length_rotate]), List.map_map] at hsnd
  exact hsnd.trans (List.rotate_perm ring 1)

theorem mem_nodes_iff (h : IsRing edges ring) {n : String} :
    n ∈ (ofEdges edges).nodes ↔ n ∈ ring := by
  rw [mem_nodes]
  constructor
  · rintro ⟨e, he, rfl | rfl⟩
    · exact h.sources_perm.mem_iff.mp (List.mem_map_of_mem he)
    · exact h.targets_perm.mem_iff.mp (List.mem_map_of_mem he)
  · intro hn
    rcases List.mem_map.mp (h.sources_perm.mem_iff.mpr hn) with ⟨e, he, rfl⟩
    exact ⟨e, he, .inl rfl⟩

theorem outDegree_le (h : IsRing edges ring) (n : String) : (ofEdges edges).outDegree n ≤ 1 := by
  rw [outDegree, length_children_ofEdges, h.sources_perm.count_eq]
  exact List.nodup_iff_count_le_one.mp h.nodup n

theorem inDegree_le (h : IsRing edges ring) (n : String) : (ofEdges edges).inDegree n ≤ 1 := by
  rw [inDegree, length_parents_ofEdges, h.targets_perm.count_eq]
  exact List.nodup_iff_count_le_one.mp h.nodup n

theorem isLinearRun (h : IsRing edges ring) : (ofEdges edges).IsLinearRun ring where
  nodup := h.nodup
  subset n hn := h.mem_nodes_iff.mpr hn
  degrees n _ := ⟨h.inDegree_le n, h.outDegree_le n⟩
  linked := by
    apply forall_zip_tail_iff.mp
    intro p hp
    -- neighbours in the list are the ends of some edge, and no other edge starts or ends there
    rcases List.mem_map.mp (h.edges_perm.mem_iff.mpr (mem_zip_rotate hp)) with ⟨e, he, rfl⟩
    have hchild : e.target ∈ (ofEdges edges).children e.source :=
      mem_children_ofEdges.mpr ⟨e, he, rfl, rfl⟩
    have hparent := mem_parents_iff.mpr hchild
    refine ⟨eq_singleton_of_mem (h.outDegree_le e.source) hchild, ?_⟩
    rw [inDegree, eq_singleton_of_mem (h.inDegree_le e.target) hparent]
    rfl

theorem length_linearChain (h : IsRing edges ring) :
    (ofEdges edges).linearChain.path.length = ring.length := by
  rcases @isRun_linearChain edges with ⟨hrun, hsub⟩
  have hring : (ofEdges edges).linearChain.path ⊆ ring := fun n hn => h.mem_nodes_iff.mp (hsub hn)
  rcases isLinearRun_iff.mp h.isLinearRun with ⟨hringrun, hringsub⟩
  -- there are no more nodes than the ring has, and the ring is itself a run
  exact (hrun.isSimple.length_le hring).antisymm (length_le_linearChain hringrun hringsub)

theorem head?_linearChain (h : IsRing edges ring) :
    (ofEdges edges).linearChain.path.head? = (ofEdges edges).nodes.head? := by
  cases hnodes : (ofEdges edges).nodes with
  | nil =>
      have hsub := (@isRun_linearChain edges).2
      rw [hnodes] at hsub
      rw [List.subset_nil.mp hsub]
  | cons n rest =>
      have hn : n ∈ ring := h.mem_nodes_iff.mp (hnodes ▸ List.mem_cons_self)
      rcases List.mem_iff_getElem.mp hn with ⟨i, hi, hget⟩
      -- the ring from the first node on is one of the longest runs, and no node comes earlier
      have hhead : (ring.rotate i).head? = some n := by
        rw [List.head?_rotate hi, List.getElem?_eq_getElem hi, hget]
      have hlen : (ring.rotate i).length = (ofEdges edges).linearChain.path.length := by
        rw [List.length_rotate, h.length_linearChain]
      by_cases heq : ring.rotate i = (ofEdges edges).linearChain.path
      · rw [← heq, hhead, List.head?_cons]
      · rcases idxOf_head_linearChain_lt (h.rotate i).isLinearRun hlen heq
          with ⟨first, other, -, hother, hlt⟩
        rw [hhead, Option.some.injEq] at hother
        rw [← hother, hnodes, List.idxOf_cons_self] at hlt
        omega

end IsRing

/-! ## The chain -/

theorem linearChain_eq_nil_iff :
    (ofEdges edges).linearChain.path = [] ↔ ∀ n ∈ (ofEdges edges).nodes,
      ¬ ((ofEdges edges).inDegree n ≤ 1 ∧ (ofEdges edges).outDegree n ≤ 1) := by
  constructor
  · intro hnil n hn hdegrees
    -- a linear node alone is a run
    have hrun : (ofEdges edges).IsRun [n] := by
      refine ⟨List.nodup_singleton n, ?_, List.isChain_singleton n⟩
      intro m hm
      rw [List.mem_singleton.mp hm]
      exact isLinear_iff.mpr hdegrees
    have hlen := length_le_linearChain hrun (by simpa using hn)
    rw [hnil] at hlen
    simp at hlen
  · intro hnone
    rcases @isRun_linearChain edges with ⟨hrun, hsub⟩
    apply List.eq_nil_iff_forall_not_mem.mpr
    intro n hn
    exact hnone n (hsub hn) (isLinear_iff.mp (hrun.linear n hn))

/-- The chain of a graph is a linear run, and no run is longer.  It is empty just when no node is
linear, and of all longest runs it is the one whose first node comes first.  On a ring it passes all
nodes, from the first one on. -/
theorem linearChain_first_longest (edges : List Edge) :
    let g := ofEdges edges
    let chain := g.linearChain.path
    g.IsLinearRun chain ∧ (∀ run, g.IsLinearRun run → run.length ≤ chain.length) ∧
      (chain = [] ↔ ∀ n ∈ g.nodes, ¬ (g.inDegree n ≤ 1 ∧ g.outDegree n ≤ 1)) ∧
      (∀ run, g.IsLinearRun run → run.length = chain.length → run ≠ chain →
        ∃ first other, chain.head? = some first ∧ run.head? = some other ∧
          g.nodes.idxOf first < g.nodes.idxOf other) ∧
      ∀ ring, IsRing edges ring →
        chain.length = ring.length ∧ chain.head? = g.nodes.head? := by
  intro g chain
  refine ⟨isLinearRun_iff.mpr isRun_linearChain, ?_, linearChain_eq_nil_iff, ?_, ?_⟩
  · intro run hrun
    rcases isLinearRun_iff.mp hrun with ⟨hisrun, hsub⟩
    exact length_le_linearChain hisrun hsub
  · intro run hrun hlen hne
    exact idxOf_head_linearChain_lt hrun hlen hne
  · intro ring hring
    exact ⟨hring.length_linearChain, hring.head?_linearChain⟩

/-- Listed from its second node on, three nodes in a ring. -/
theorem linearChain_first_longest_threeRing :
    IsRing threeRing ["B", "C", "A"] ∧ (ofEdges threeRing).linearChain.path.length = 3 ∧
      (ofEdges threeRing).linearChain.path.head? = some "A" := by
  have hring : IsRing threeRing ["B", "C", "A"] := ⟨by decide, by decide⟩
  have hchain := (linearChain_first_longest threeRing).2.2.2.2 ["B", "C", "A"] hring
  have hnodes : (ofEdges threeRing).nodes = ["A", "B", "C"] := by decide
  rw [hnodes] at hchain
  exact ⟨hring, hchain⟩

end DiagramReadability.Graph
