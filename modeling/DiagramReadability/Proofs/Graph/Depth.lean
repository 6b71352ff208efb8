import DiagramReadability.Proofs.Graph.Growth
import DiagramReadability.Proofs.Graph.MainPath

/-!
# Depth between distance and longest path

The depth at which a discovery enters a node depends on the order of the children.  It is the number
of steps of a simple path in any case, for every entry of the stack was put there behind nodes that
were entered one after the other.  So the depth of a graph is no less than the distances from its
starts and less than the length of its longest path, and where no two edges lead into one node and
nothing is on a cycle it is just one less.
-/

namespace DiagramReadability.Graph

variable {next : String → List String} {nodes : List String} {steps : Nat} {edges : List Edge}

/-! ## Trodden paths -/

/-- The node of a stack entry is one step behind a simple path through as many nodes, all of them
seen, as the entry's depth says. -/
structure TroddenBy (next : String → List String) (nodes : List String)
    (seen : Std.HashSet String) (entry : String × Nat) (path : List String) : Prop where
  simple : IsSimple next path
  subset : path ⊆ nodes
  length_eq : path.length = entry.2
  seen : ∀ n ∈ path, n ∈ seen
  step : ∀ last ∈ path.getLast?, entry.1 ∈ next last
  mem : entry.1 ∈ nodes

/-- Some path leads to the stack entry. -/
def Trodden (next : String → List String) (nodes : List String) (seen : Std.HashSet String)
    (entry : String × Nat) : Prop :=
  ∃ path, TroddenBy next nodes seen entry path

theorem Trodden.mono {seen more : Std.HashSet String} {entry : String × Nat}
    (h : Trodden next nodes seen entry) (hmore : ∀ n ∈ seen, n ∈ more) :
    Trodden next nodes more entry := by
  rcases h with ⟨path, hpath⟩
  exact ⟨path, { hpath with seen := fun n hn => hmore n (hpath.seen n hn) }⟩

theorem trodden_start {start : String} (hstart : start ∈ nodes) (seen : Std.HashSet String) :
    Trodden next nodes seen (start, 0) := by
  refine ⟨[], ⟨List.nodup_nil, List.isChain_nil⟩, List.nil_subset _, rfl, by simp, ?_, hstart⟩
  intro last hlast
  simp at hlast

section Enter

variable {seen : Std.HashSet String} {node : String} {depth : Nat} {path : List String}

theorem TroddenBy.isSimple (h : TroddenBy next nodes seen (node, depth) path)
    (hnew : node ∉ seen) : IsSimple next (path ++ [node]) :=
  h.simple.concat (fun hn => hnew (h.seen node hn)) h.step

theorem TroddenBy.enter_subset (h : TroddenBy next nodes seen (node, depth) path) :
    path ++ [node] ⊆ nodes := by
  apply List.append_subset.mpr
  exact ⟨h.subset, by simpa using h.mem⟩

theorem TroddenBy.enter_length (h : TroddenBy next nodes seen (node, depth) path) :
    (path ++ [node]).length = depth + 1 := by
  rw [List.length_append, List.length_singleton, h.length_eq]

theorem TroddenBy.child (hc : Confined nodes steps next) {child : String}
    (h : TroddenBy next nodes seen (node, depth) path) (hnew : node ∉ seen)
    (hchild : child ∈ next node) :
    TroddenBy next nodes (seen.insert node) (child, depth + 1) (path ++ [node]) where
  simple := h.isSimple hnew
  subset := h.enter_subset
  length_eq := h.enter_length
  seen n hn := by
    rcases List.mem_append.mp hn with hn | hn
    · exact Std.HashSet.mem_insert.mpr (.inr (h.seen n hn))
    · rw [List.mem_singleton.mp hn]
      exact Std.HashSet.mem_insert_self
  step last hlast := by
    rw [List.getLast?_concat, Option.mem_some_iff] at hlast
    exact hlast ▸ hchild
  mem := hc.target_mem hchild

end Enter

-- Every step of the search keeps all stack entries trodden: what was seen stays seen, and the
-- entries put on the stack are children of the node just entered.
theorem exists_isSimple_of_mem_discoverFrom (hc : Confined nodes steps next) (fuel : Nat)
    (stack : List (String × Nat)) (seen : Std.HashSet String)
    (hstack : ∀ entry ∈ stack, Trodden next nodes seen entry) {n : String} {d : Nat}
    (h : (n, d) ∈ (discoverFrom next fuel stack seen).1) :
    ∃ path, IsSimple next path ∧ path ⊆ nodes ∧ path.length = d + 1 := by
  fun_induction discoverFrom next fuel stack seen with
  | case1 => simp at h
  | case2 => simp at h
  | case3 fuel node depth stack seen hseen ih =>
      exact ih (fun entry hentry => hstack entry (List.mem_cons_of_mem _ hentry)) h
  | case4 fuel node depth stack seen hseen inserted fresh found final hrec ih =>
      rw [hrec] at ih
      have hnew : node ∉ seen := hseen
      -- the node is not on the path to it, whose nodes have all been seen
      rcases hstack (node, depth) List.mem_cons_self with ⟨path, hpath⟩
      rcases List.mem_cons.mp h with heq | hlater
      · rw [Prod.mk.injEq] at heq
        rw [heq.2]
        exact ⟨path ++ [node], hpath.isSimple hnew, hpath.enter_subset, hpath.enter_length⟩
      · apply ih _ hlater
        intro entry hentry
        rcases List.mem_append.mp hentry with hfresh | hbelow
        · rcases List.mem_map.mp hfresh with ⟨child, hchild, rfl⟩
          exact ⟨path ++ [node], hpath.child hc hnew (List.mem_filter.mp hchild).1⟩
        · apply (hstack entry (List.mem_cons_of_mem _ hbelow)).mono
          exact fun m hm => Std.HashSet.mem_insert.mpr (.inr hm)

/-! ## Depth from one node -/

/-- The nodes that a discovery from `start` enters, with their depths. -/
abbrev discovered (g : Graph) (start : String) : List (String × Nat) :=
  (discoverFrom g.children (g.edges.length + 1) [(start, 0)] ∅).1

theorem depthFrom_le_iff {g : Graph} {start : String} {bound : Nat} :
    g.depthFrom start ≤ bound ↔ ∀ found ∈ g.discovered start, found.2 ≤ bound := by
  show ((g.discovered start).map Prod.snd).foldl max 0 ≤ bound ↔ _
  rw [foldl_max_le_iff, List.forall_mem_map]
  exact and_iff_right (Nat.zero_le bound)

-- The depth of a node is the length of some way to it, so it cannot be below the distance.
theorem exists_mem_discovered {start n : String}
    (h : Reachable (ofEdges edges).children start n) :
    ∃ d, (n, d) ∈ (ofEdges edges).discovered start ∧ Leads (ofEdges edges).children start d n := by
  have hseen := (mem_reach_iff (confined_children edges)).mpr h
  change n ∈ (discoverFrom (ofEdges edges).children (edges.length + 1) [(start, 0)] ∅).2 at hseen
  rw [mem_discoverFrom_seen] at hseen
  rcases List.mem_map.mp (hseen.resolve_left (by simp)) with ⟨⟨m, d⟩, hmem, rfl⟩
  rcases leads_of_mem_discoverFrom _ _ _ hmem with ⟨entry, hentry, k, way, hd⟩
  rw [List.mem_singleton.mp hentry] at way hd
  refine ⟨d, hmem, ?_⟩
  rw [hd, Nat.zero_add]
  exact way

theorem depthFrom_lt_longestPath {start : String} (hstart : start ∈ (ofEdges edges).nodes) :
    (ofEdges edges).depthFrom start < (ofEdges edges).longestPath.length := by
  have hbound : ∀ found ∈ (ofEdges edges).discovered start,
      found.2 + 1 ≤ (ofEdges edges).longestPath.length := by
    rintro ⟨n, d⟩ hfound
    have hstack : ∀ entry ∈ [(start, 0)],
        Trodden (ofEdges edges).children (ofEdges edges).nodes ∅ entry := by
      intro entry hentry
      rw [List.mem_singleton.mp hentry]
      exact trodden_start hstart ∅
    rcases exists_isSimple_of_mem_discoverFrom (confined_children edges) _ _ _ hstack hfound
      with ⟨path, hsimple, hsub, hlen⟩
    rw [← hlen]
    exact length_le_longestPath hsimple hsub
  have hpos : 1 ≤ (ofEdges edges).longestPath.length :=
    length_le_longestPath (isSimple_singleton _ start) (by simpa using hstart)
  have hle : (ofEdges edges).depthFrom start ≤ (ofEdges edges).longestPath.length - 1 := by
    apply depthFrom_le_iff.mpr
    intro found hfound
    have hone := hbound found hfound
    omega
  omega

/-! ## Depth of the graph -/

/-- The nodes from which the depth of a graph is measured. -/
def depthStarts (g : Graph) : List String :=
  if g.roots.isEmpty then g.nodes else g.roots

theorem maxDepth_le_iff {g : Graph} {bound : Nat} :
    g.maxDepth ≤ bound ↔ ∀ start ∈ g.depthStarts, g.depthFrom start ≤ bound := by
  show (g.depthStarts.map g.depthFrom).foldl max 0 ≤ bound ↔ _
  rw [foldl_max_le_iff, List.forall_mem_map]
  exact and_iff_right (Nat.zero_le bound)

theorem depthStarts_subset (g : Graph) : g.depthStarts ⊆ g.nodes := by
  unfold depthStarts
  split
  · exact List.Subset.refl _
  · exact List.filter_subset_self _

/-- The least number of steps of a way from one node to the other. -/
def IsDistance (g : Graph) (start last : String) (d : Nat) : Prop :=
  Leads g.children start d last ∧ ∀ k, Leads g.children start k last → d ≤ k

theorem exists_isDistance {g : Graph} {start last : String} (h : g.Reaches start last) :
    ∃ d, g.IsDistance start last d := by
  classical
  exact ⟨Nat.find h, Nat.find_spec h, fun k way => Nat.find_min' h way⟩

/-- No node within reach of a start is further away than the graph is deep. -/
theorem IsDistance.le_maxDepth {start last : String} {d : Nat}
    (h : (ofEdges edges).IsDistance start last d) (hstart : start ∈ (ofEdges edges).depthStarts) :
    d ≤ (ofEdges edges).maxDepth := by
  rcases exists_mem_discovered h.1.reachable with ⟨depth, hfound, way⟩
  calc d ≤ depth := h.2 depth way
    _ ≤ (ofEdges edges).depthFrom start := depthFrom_le_iff.mp (Nat.le_refl _) _ hfound
    _ ≤ (ofEdges edges).maxDepth := maxDepth_le_iff.mp (Nat.le_refl _) start hstart

theorem maxDepth_lt_longestPath (hedges : edges ≠ []) :
    (ofEdges edges).maxDepth < (ofEdges edges).longestPath.length := by
  have hpos : 0 < (ofEdges edges).longestPath.length :=
    List.length_pos_iff.mpr (longestPath_ne_nil hedges)
  have hle : (ofEdges edges).maxDepth ≤ (ofEdges edges).longestPath.length - 1 := by
    apply maxDepth_le_iff.mpr
    intro start hstart
    have hlt := depthFrom_lt_longestPath (depthStarts_subset _ hstart)
    omega
  omega

/-! ## Trees -/

/-- Where a node has one parent at most, all ways to it from a node without parents are equally
long. -/
theorem Leads.steps_eq {root last : String} {m n : Nat}
    (hsingle : ∀ v ∈ (ofEdges edges).nodes, (ofEdges edges).inDegree v ≤ 1)
    (hroot : (ofEdges edges).parents root = [])
    (way : Leads (ofEdges edges).children root m last)
    (way' : Leads (ofEdges edges).children root n last) : m = n := by
  induction way generalizing n with
  | here =>
      cases way' with
      | here => rfl
      | step _ h =>
          -- nothing leads into the root
          rw [← mem_parents_iff, hroot] at h
          simp at h
  | @step m via last way h ih =>
      cases way' with
      | here =>
          rw [← mem_parents_iff, hroot] at h
          simp at h
      | @step n via' _ way' h' =>
          -- both ways come from the only parent of their last node
          have hdegree := hsingle last ((confined_children edges).target_mem h)
          have honly := eq_singleton_of_mem hdegree (mem_parents_iff.mpr h)
          have hvia : via' = via := by
            rw [← List.mem_singleton, ← honly]
            exact mem_parents_iff.mpr h'
          subst hvia
          rw [ih way']

theorem leads_getLast {a : String} {rest : List String}
    (h : (a :: rest).IsChain fun u v => v ∈ next u) :
    ∃ last, Leads next a rest.length last := by
  induction rest generalizing a with
  | nil => exact ⟨a, .here⟩
  | cons b rest ih =>
      rw [List.isChain_cons_cons] at h
      rcases ih h.2 with ⟨last, way⟩
      exact ⟨last, way.cons h.1⟩

theorem parents_eq_nil_of_longest {first : String} {rest : List String}
    (hacyclic : ∀ n, ¬ (ofEdges edges).OnCycle n)
    (hpath : (ofEdges edges).longestPath.path = first :: rest) :
    (ofEdges edges).parents first = [] := by
  rcases isSimple_longestPath edges with ⟨hsimple, hsub⟩
  have hlongest := fun p => @length_le_longestPath edges p
  rw [hpath] at hsimple hsub hlongest
  apply List.eq_nil_iff_forall_not_mem.mpr
  intro p hp
  -- a parent of the first node lies on the path, and from there an edge leads back to its beginning
  have hmem := parents_head_mem hsimple hsub hlongest hp
  rcases exists_leads_iff.mpr (reachable_of_isChain hsimple.2 hmem) with ⟨n, way⟩
  exact hacyclic first ⟨n, way.step (mem_parents_iff.mp hp)⟩

theorem mem_roots_of_longest (hacyclic : ∀ n, ¬(ofEdges edges).OnCycle n) {first : String}
    {rest : List String} (hpath : (ofEdges edges).longestPath.path = first :: rest) :
    first ∈ (ofEdges edges).roots := by
  have hsub := (isSimple_longestPath edges).2
  rw [hpath] at hsub
  rw [roots, List.mem_filter, parents_eq_nil_of_longest hacyclic hpath]
  exact ⟨hsub List.mem_cons_self, rfl⟩

theorem longestPath_le_maxDepth (hedges : edges ≠ [])
    (hacyclic : ∀ n, ¬ (ofEdges edges).OnCycle n)
    (hsingle : ∀ n ∈ (ofEdges edges).nodes, (ofEdges edges).inDegree n ≤ 1) :
    (ofEdges edges).longestPath.length ≤ (ofEdges edges).maxDepth + 1 := by
  have hsimple := (isSimple_longestPath edges).1
  rcases List.exists_cons_of_ne_nil (longestPath_ne_nil hedges) with ⟨first, rest, hpath⟩
  rw [hpath] at hsimple
  have hnone := parents_eq_nil_of_longest hacyclic hpath
  have hroot : first ∈ (ofEdges edges).roots := mem_roots_of_longest hacyclic hpath
  have hstart : first ∈ (ofEdges edges).depthStarts := by
    unfold depthStarts
    rw [if_neg (by rw [List.isEmpty_iff]; exact List.ne_nil_of_mem hroot)]
    exact hroot
  rcases leads_getLast hsimple.2 with ⟨last, way⟩
  -- there is no shorter way to the last node than the path itself
  have hdistance : (ofEdges edges).IsDistance first last rest.length :=
    ⟨way, fun k way' => Nat.le_of_eq (way.steps_eq hsingle hnone way')⟩
  have hdeep := hdistance.le_maxDepth hstart
  show (ofEdges edges).longestPath.path.length ≤ (ofEdges edges).maxDepth + 1
  rw [hpath, List.length_cons]
  omega

/-! ## Bounds of the depth -/

/-- The depth of a graph lies between the distances of all nodes within reach of its starts and the
length of its longest path.  Without cycles and merge points it is one less than that length. -/
theorem maxDepth_bounds (edges : List Edge) (hedges : edges ≠ []) :
    let g := ofEdges edges
    (∀ start ∈ g.depthStarts, ∀ n, g.Reaches start n →
      ∃ d, g.IsDistance start n d ∧ d ≤ g.maxDepth) ∧
      g.maxDepth + 1 ≤ g.longestPath.length ∧
      ((∀ n, ¬ g.OnCycle n) → (∀ n ∈ g.nodes, g.inDegree n ≤ 1) →
        g.maxDepth + 1 = g.longestPath.length) := by
  intro g
  have hless : g.maxDepth + 1 ≤ g.longestPath.length := maxDepth_lt_longestPath hedges
  refine ⟨?_, hless, ?_⟩
  · intro start hstart n hreach
    rcases exists_isDistance hreach with ⟨d, hdistance⟩
    exact ⟨d, hdistance, hdistance.le_maxDepth hstart⟩
  · intro hacyclic hsingle
    exact hless.antisymm (longestPath_le_maxDepth hedges hacyclic hsingle)

/-- A leaf and a way of two steps below one root. -/
def smallTree : List Edge :=
  [⟨"A", "B", none, .solid⟩, ⟨"A", "C", none, .solid⟩, ⟨"C", "D", none, .solid⟩]

theorem maxDepth_bounds_smallTree :
    smallTree ≠ [] ∧ (∀ n, ¬ (ofEdges smallTree).OnCycle n) ∧
      (∀ n ∈ (ofEdges smallTree).nodes, (ofEdges smallTree).inDegree n ≤ 1) ∧
      "A" ∈ (ofEdges smallTree).depthStarts ∧ (ofEdges smallTree).Reaches "A" "D" ∧
      2 ≤ (ofEdges smallTree).maxDepth ∧
      (ofEdges smallTree).maxDepth + 1 = (ofEdges smallTree).longestPath.length := by
  have hedges : smallTree ≠ [] := by decide
  have hnodes : (ofEdges smallTree).nodes = ["A", "B", "C", "D"] := by decide
  have hacyclic : ∀ n, ¬ (ofEdges smallTree).OnCycle n := by
    -- all edges lead on in the order of the letters
    have horder : ∀ e ∈ smallTree, e.source < e.target := by decide
    have hstep : ∀ u v, v ∈ (ofEdges smallTree).children u → u < v := by
      intro u v hv
      rcases mem_children_ofEdges.mp hv with ⟨e, he, rfl, rfl⟩
      exact horder e he
    intro n hn
    have hless := Relation.TransGen.mono hstep _ _ (onCycle_iff.mp hn)
    rw [Relation.transGen_eq_self] at hless
    exact lt_irrefl n hless
  have hsingle : ∀ n ∈ (ofEdges smallTree).nodes, (ofEdges smallTree).inDegree n ≤ 1 := by
    rw [hnodes]
    simp only [inDegree, length_parents_ofEdges]
    decide
  have hroots : (ofEdges smallTree).roots = ["A"] := by
    rw [roots, hnodes]
    simp [parents_ofEdges, smallTree]
  have hstart : "A" ∈ (ofEdges smallTree).depthStarts := by
    rw [depthStarts, hroots]
    exact List.mem_singleton_self "A"
  have hway : Leads (ofEdges smallTree).children "A" 2 "D" := by
    refine .step (.step .here (?_ : "C" ∈ _)) ?_ <;> simp [children_ofEdges, smallTree]
  have hroot : (ofEdges smallTree).parents "A" = [] := by simp [parents_ofEdges, smallTree]
  have hbounds := maxDepth_bounds smallTree hedges
  rcases hbounds.1 "A" hstart "D" ⟨2, hway⟩ with ⟨d, hdistance, hdeep⟩
  rw [← hway.steps_eq hsingle hroot hdistance.1] at hdeep
  exact ⟨hedges, hacyclic, hsingle, hstart, ⟨2, hway⟩, hdeep, hbounds.2.2 hacyclic hsingle⟩

end DiagramReadability.Graph
