import DiagramReadability.Proofs.Graph.Cycle
import DiagramReadability.Proofs.Graph.Memoised

/-!
# What the memo may forget

A continuation is remembered under its first node and the nodes that are still open to it.  The key
forgets in two ways: of the nodes on the path so far it drops those outside the component, and of
those inside it keeps only what they cut off.  Neither changes the first longest continuation, ties
included, so an entry is right for every path that comes to its key.
-/

namespace DiagramReadability.Graph

variable {g : Graph} {next : String → List String} {home : String → String}

/-! ## The key -/

/-- The nodes open to a used node are those that a way of at least one free step comes to. -/
theorem mem_stillOpen_iff_follows (hc : Confined g.nodes g.edges.length next) {used : List String}
    {node n : String} (hnode : node ∈ used) :
    n ∈ (g.terrainBy next home).stillOpen node used ↔
      Follows ((g.terrainBy next home).freeSteps (home node) used) node n := by
  rw [mem_stillOpen_iff hc]
  constructor
  · rintro ⟨-, hne, hway⟩
    exact (Relation.reflTransGen_iff_eq_or_transGen.mp hway).resolve_left hne
  · intro hway
    -- the last step says where the node lies, and that it is not the first one, which is used
    obtain ⟨u, -, hstep⟩ := Relation.TransGen.tail'_iff.mp hway
    obtain ⟨hnext, hhome, hunused⟩ := mem_freeSteps.mp hstep
    refine ⟨⟨hc.target_mem hnext, hhome⟩, ?_, hway.to_reflTransGen⟩
    rintro rfl
    exact hunused hnode

/-- Keys list the open nodes in the order of the graph, so those with the same nodes are equal. -/
theorem stillOpen_eq_of_mem_iff {used used' : List String} {node : String}
    (h : ∀ n, n ∈ (g.terrainBy next home).stillOpen node used ↔
      n ∈ (g.terrainBy next home).stillOpen node used') :
    (g.terrainBy next home).stillOpen node used = (g.terrainBy next home).stillOpen node used' := by
  apply List.filter_congr
  intro n hn
  have hmem := h n
  rw [Terrain.stillOpen, Terrain.stillOpen, List.mem_filter, List.mem_filter,
    and_iff_right hn, and_iff_right hn] at hmem
  exact Bool.eq_iff_iff.mpr hmem

/-- Nodes that reach a node and are reached by it have the name of its component. -/
theorem home_eq_of_reachable (hc : Confined g.nodes g.edges.length next)
    (hnames : g.NamesComponents next home) {node n : String} (hnode : node ∈ g.nodes)
    (hforth : Reachable next n node) (hback : Reachable next node n) : home n = home node := by
  rcases Relation.ReflTransGen.cases_tail hback with heq | ⟨u, -, hstep⟩
  · rw [heq]
  · exact (hnames n (hc.target_mem hstep) node hnode).mpr ⟨hforth, hback⟩

/-! ## Paths that end in a node -/

/-- Every node of a path leads to its end. -/
theorem IsSimple.reachable_last {path : List String} {node : String}
    (h : IsSimple next (path ++ [node])) : ∀ n ∈ path, Reachable next n node :=
  h.2.backwards_concat_induction (Reachable next · node) path
    (fun _ _ hstep hway => .head hstep hway) .refl

/-- A simple path is a trail to its end. -/
theorem IsSimple.trail (hc : Confined g.nodes g.edges.length next) {path : List String}
    {node : String} (hnode : node ∈ g.nodes) (h : IsSimple next (path ++ [node])) :
    Trail g next node path where
  nodup := (List.perm_append_singleton node path).nodup_iff.mp h.1
  subset := by
    apply List.cons_subset.mpr ⟨hnode, fun n hn => ?_⟩
    rcases Relation.ReflTransGen.cases_head (h.reachable_last n hn) with heq | ⟨child, hstep, -⟩
    · exact heq ▸ hnode
    · exact hc.source_mem hstep
  leads := h.reachable_last

theorem usedAtHome_filter (home : String → String) (path : List String) (node : String) :
    UsedAtHome home node path ((path ++ [node]).filter fun n => home n = home node) := by
  intro n
  rw [List.mem_filter, decide_eq_true_eq, (List.perm_append_singleton node path).mem_iff]

/-- To use a node or not is the same to the paths from it. -/
theorem simplePaths_concat (next : String → List String) (extra : Nat) (path : List String)
    (node : String) :
    simplePaths next extra (path ++ [node]) node = simplePaths next extra path node := by
  apply simplePaths_congr
  intro u v _ _ hne
  simp [hne]

/-! ## What an entry stands for -/

/-- What makes it safe to read the memo at `node`. -/
structure KeySuffices (g : Graph) (next : String → List String) (home : String → String)
    (node : String) : Prop where
  /-- The key holds the nodes that a way through unused nodes of the component comes to. -/
  opened : ∀ used n, node ∈ used →
    (n ∈ (g.terrainBy next home).stillOpen node used ↔
      Relation.TransGen (fun u v => v ∈ next u ∧ home v = home node ∧ v ∉ used) node n)
  /-- Used nodes of the component with the same key leave the same first longest continuation. -/
  determines : ∀ used used', node ∈ used → node ∈ used' →
    (∀ n ∈ used, Reachable next n node ∧ Reachable next node n) →
    (∀ n ∈ used', Reachable next n node ∧ Reachable next node n) →
    (∀ n, n ∈ (g.terrainBy next home).stillOpen node used ↔
      n ∈ (g.terrainBy next home).stillOpen node used') →
    ∀ extra, longestFrom next extra used node = longestFrom next extra used' node
  /-- Of the nodes on a path only those in the component of its end restrict how it goes on. -/
  forgets : ∀ path, IsSimple next (path ++ [node]) → ∀ extra,
    longestFrom next extra ((path ++ [node]).filter fun n => home n = home node) node =
      longestFrom next extra (path ++ [node]) node
  /-- At the end of a path the search, whatever it remembers, finds the first longest continuation
  that avoids the whole path, and what it remembers then is right again. -/
  finds : ∀ path memo, IsSimple next (path ++ [node]) → Memo.Sound g next home memo →
    let found := (g.terrainBy next home).search g.nodes.length node
      ((path ++ [node]).filter fun n => home n = home node) memo
    found.1 = longestFrom next g.nodes.length (path ++ [node]) node ∧
      Memo.Sound g next home found.2

/-- In every graph, for every rule on which nodes extend a path and whatever names the strong
components have, what the memo holds for a key is right for all paths that come to the key. -/
theorem memoKey_suffices (edges : List Edge) (passes : String → Bool) {home : String → String}
    (hnames : (ofEdges edges).NamesComponents ((ofEdges edges).extension passes) home)
    {node : String} (hnode : node ∈ (ofEdges edges).nodes) :
    KeySuffices (ofEdges edges) ((ofEdges edges).extension passes) home node := by
  have hc : Confined (ofEdges edges).nodes (ofEdges edges).edges.length
      ((ofEdges edges).extension passes) := confined_extension edges passes
  constructor
  case opened =>
    intro used n hused
    rw [mem_stillOpen_iff_follows hc hused]
    simp only [Follows, mem_freeSteps]
  case determines =>
    intro used used' _ _ hused hused' hkeys extra
    have hhome := fun n hn => home_eq_of_reachable hc hnames hnode (hused n hn).1 (hused n hn).2
    have hhome' := fun n hn => home_eq_of_reachable hc hnames hnode (hused' n hn).1 (hused' n hn).2
    rw [longestFrom, longestFrom, simplePaths_of_stillOpen_eq hc hnames hnode hhome hhome'
      (stillOpen_eq_of_mem_iff hkeys)]
  case forgets =>
    intro path hpath extra
    rw [longestFrom, longestFrom, simplePaths_concat, simplePaths_trail hc hnames hnode
      hpath.reachable_last (usedAtHome_filter home path node)]
  case finds =>
    intro path memo hpath hmemo
    have hsearch := search_eq hc hnames (hpath.trail hc hnode) (usedAtHome_filter home path node)
      hmemo (Nat.le_add_right _ path.length)
    rwa [longestFrom, ← simplePaths_concat] at hsearch

/-- A ring over `A`, `C` and `D` with a branch to `B` and back, and a way out to `E`. -/
def branchedRing : List Edge :=
  [⟨"A", "B", none, .solid⟩, ⟨"B", "A", none, .solid⟩, ⟨"A", "C", none, .solid⟩,
    ⟨"C", "D", none, .solid⟩, ⟨"D", "A", none, .solid⟩, ⟨"D", "E", none, .solid⟩,
    ⟨"E", "C", none, .solid⟩]

/-- The steps in the branched ring where no path goes on from `E`, so that `E` is apart. -/
def branchedSteps : String → List String :=
  (ofEdges branchedRing).extension fun n => n ≠ "E"

theorem branchedSteps_eq :
    branchedSteps "A" = ["B", "C"] ∧ branchedSteps "B" = ["A"] ∧ branchedSteps "C" = ["D"] ∧
      branchedSteps "D" = ["A", "E"] ∧ branchedSteps "E" = [] := by
  simp [branchedSteps, extension, children_ofEdges, branchedRing]

theorem reachable_branchedSteps {n : String} (hn : n ∈ ["A", "B", "C", "D"]) :
    Reachable branchedSteps n "C" ∧ Reachable branchedSteps "C" n := by
  obtain ⟨hA, hB, hC, hD, -⟩ := branchedSteps_eq
  have hAC : Reachable branchedSteps "A" "C" := .single (by simp [hA])
  have hAB : Reachable branchedSteps "A" "B" := .single (by simp [hA])
  have hBA : Reachable branchedSteps "B" "A" := .single (by simp [hB])
  have hCD : Reachable branchedSteps "C" "D" := .single (by simp [hC])
  have hDA : Reachable branchedSteps "D" "A" := .single (by simp [hD])
  simp only [List.mem_cons, List.not_mem_nil, or_false] at hn
  rcases hn with rfl | rfl | rfl | rfl
  · exact ⟨hAC, hCD.trans hDA⟩
  · exact ⟨hBA.trans hAC, (hCD.trans hDA).trans hAB⟩
  · exact ⟨.refl, .refl⟩
  · exact ⟨hDA.trans hAC, hCD⟩

/-- Past `A`, whether `B` is used as well or not, only `D` is open to `C`. -/
theorem memoKey_suffices_branchedRing :
    ∃ home, (ofEdges branchedRing).NamesComponents branchedSteps home ∧
      "C" ∈ (ofEdges branchedRing).nodes ∧
      (∀ n, n ∈ ((ofEdges branchedRing).terrainBy branchedSteps home).stillOpen "C" ["A", "C"] ↔
        n ∈ ((ofEdges branchedRing).terrainBy branchedSteps home).stillOpen "C" ["A", "B", "C"]) ∧
      longestFrom branchedSteps 5 ["A", "C"] "C" =
        longestFrom branchedSteps 5 ["A", "B", "C"] "C" := by
  have hc : Confined (ofEdges branchedRing).nodes (ofEdges branchedRing).edges.length
      branchedSteps := confined_extension branchedRing _
  obtain ⟨home, hnames⟩ : ∃ home, (ofEdges branchedRing).NamesComponents branchedSteps home :=
    ⟨_, namesComponents_strongHomes hc⟩
  have hnodes : ["C", "E"] ⊆ (ofEdges branchedRing).nodes := by decide
  have hC : "C" ∈ (ofEdges branchedRing).nodes := hnodes (by decide)
  have hkey : KeySuffices (ofEdges branchedRing) branchedSteps home "C" :=
    memoKey_suffices branchedRing (fun n => n ≠ "E") hnames hC
  obtain ⟨-, -, hstepC, hstepD, hstepE⟩ := branchedSteps_eq
  have hhomeD : home "D" = home "C" :=
    (hnames "D" (hc.target_mem (u := "C") (by simp [hstepC])) "C" hC).mpr
      (reachable_branchedSteps (by decide))
  have hhomeE : home "E" ≠ home "C" := by
    intro heq
    have hway := ((hnames "E" (hnodes (by decide)) "C" hC).mp heq).1
    rcases Relation.ReflTransGen.cases_head hway with heq | ⟨child, hstep, -⟩
    · exact absurd heq (by decide)
    · simp [hstepE] at hstep
  -- of the ways on from `D` one is used and the other leaves the component
  have hopen : ∀ used, "A" ∈ used → "C" ∈ used → "D" ∉ used → ∀ n,
      n ∈ ((ofEdges branchedRing).terrainBy branchedSteps home).stillOpen "C" used ↔ n = "D" := by
    intro used hA hCused hD n
    rw [hkey.opened used n hCused]
    constructor
    · intro hway
      induction hway with
      | single hstep => simpa [hstepC] using hstep.1
      | tail _ hstep ih =>
          obtain ⟨hnext, hhome, hunused⟩ := hstep
          rw [ih, hstepD, List.mem_cons, List.mem_singleton] at hnext
          rcases hnext with rfl | rfl
          · exact absurd hA hunused
          · exact absurd hhome hhomeE
    · rintro rfl
      exact .single ⟨by simp [hstepC], hhomeD, hD⟩
  have hsame : ∀ n,
      n ∈ ((ofEdges branchedRing).terrainBy branchedSteps home).stillOpen "C" ["A", "C"] ↔
      n ∈ ((ofEdges branchedRing).terrainBy branchedSteps home).stillOpen "C" ["A", "B", "C"] := by
    intro n
    rw [hopen _ (by decide) (by decide) (by decide), hopen _ (by decide) (by decide) (by decide)]
  refine ⟨home, hnames, hC, hsame, hkey.determines _ _ (by decide) (by decide) ?_ ?_ hsame 5⟩
  · intro n hn
    exact reachable_branchedSteps ((by decide : ["A", "C"] ⊆ ["A", "B", "C", "D"]) hn)
  · intro n hn
    exact reachable_branchedSteps ((by decide : ["A", "B", "C"] ⊆ ["A", "B", "C", "D"]) hn)

end DiagramReadability.Graph
