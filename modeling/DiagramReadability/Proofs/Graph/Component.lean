import DiagramReadability.Graph.Walk.Memoised
import DiagramReadability.Proofs.Graph.Discovery
import DiagramReadability.Proofs.Graph.Enumeration

/-!
# Strong components and what they leave open

A name for each strong component is all that the memoised search needs to know of them.  Main
statements: of the nodes on the way to a node only those in its own component restrict how the way
goes on (`simplePaths_trail`), and of these all that counts is which nodes of the component stay
open (`simplePaths_of_stillOpen_eq`).
-/

namespace DiagramReadability.Graph

/-- Two nodes have the same name exactly if each of them reaches the other. -/
def NamesComponents (g : Graph) (next : String → List String) (home : String → String) : Prop :=
  ∀ u ∈ g.nodes, ∀ v ∈ g.nodes, home u = home v ↔ Reachable next u v ∧ Reachable next v u

variable {g : Graph} {next : String → List String} {home : String → String}

/-! ## The names the search uses -/

theorem homeOf_eq_iff (hc : Confined g.nodes g.edges.length next) {u v : String}
    (hu : u ∈ g.nodes) (hv : v ∈ g.nodes) :
    let reached := Std.HashMap.ofList (g.nodes.map fun n => (n, reach next g.edges.length n))
    homeOf reached g.nodes u = homeOf reached g.nodes v ↔
      Reachable next u v ∧ Reachable next v u := by
  intro reached
  have hreached : ∀ {n m : String}, n ∈ g.nodes →
      ((reached.getD n ∅).contains m = true ↔ Reachable next n m) := by
    intro n m hn
    rw [getD_ofList_map hc.nodup _ hn, Std.HashSet.contains_iff_mem, mem_reach_iff hc]
  have hboth : ∀ {n : String}, n ∈ g.nodes → ∀ m ∈ g.nodes,
      (((reached.getD n ∅).contains m && (reached.getD m ∅).contains n) = true ↔
        Reachable next n m ∧ Reachable next m n) := by
    intro n hn m hm
    rw [Bool.and_eq_true, hreached hn, hreached hm]
  -- the name of a node is one of the nodes it belongs with
  have hname : ∀ {n : String}, n ∈ g.nodes →
      Reachable next n (homeOf reached g.nodes n) ∧
        Reachable next (homeOf reached g.nodes n) n := by
    intro n hn
    rw [homeOf]
    cases hfind : g.nodes.find? fun other =>
        (reached.getD n ∅).contains other && (reached.getD other ∅).contains n with
    | none => exact ⟨.refl, .refl⟩
    | some m =>
        have htest := List.find?_some hfind
        exact (hboth hn m (List.mem_of_find?_eq_some hfind)).mp htest
  constructor
  · intro heq
    have hnu := hname hu
    have hnv := hname hv
    rw [heq] at hnu
    exact ⟨hnu.1.trans hnv.2, hnv.1.trans hnu.2⟩
  · rintro ⟨huv, hvu⟩
    have hsame : (g.nodes.find? fun other =>
        (reached.getD u ∅).contains other && (reached.getD other ∅).contains u) =
        g.nodes.find? fun other =>
          (reached.getD v ∅).contains other && (reached.getD other ∅).contains v := by
      rw [← List.head?_filter, ← List.head?_filter]
      congr 1
      apply List.filter_congr
      intro m hm
      rw [Bool.eq_iff_iff, hboth hu m hm, hboth hv m hm]
      exact ⟨fun h => ⟨hvu.trans h.1, h.2.trans huv⟩, fun h => ⟨huv.trans h.1, h.2.trans hvu⟩⟩
    have hself : (reached.getD v ∅).contains v && (reached.getD v ∅).contains v := by
      rw [hboth hv v hv]
      exact ⟨.refl, .refl⟩
    rw [homeOf, homeOf, hsame]
    -- the node itself passes the test, so that the search never comes back empty
    cases hfind : g.nodes.find? fun other =>
        (reached.getD v ∅).contains other && (reached.getD other ∅).contains v with
    | none => exact absurd hself (List.find?_eq_none.mp hfind v hv)
    | some m => rfl

theorem namesComponents_strongHomes (hc : Confined g.nodes g.edges.length next) :
    g.NamesComponents next fun n => (strongHomes g next).getD n n := by
  intro u hu v hv
  show (strongHomes g next).getD u u = (strongHomes g next).getD v v ↔ _
  rw [strongHomes, getD_ofList_map hc.nodup _ hu, getD_ofList_map hc.nodup _ hv]
  exact homeOf_eq_iff hc hu hv

/-! ## Ways inside a component -/

theorem mem_freeSteps {used : List String} {node u v : String} :
    v ∈ (g.terrainBy next home).freeSteps (home node) used u ↔
      v ∈ next u ∧ home v = home node ∧ v ∉ used := by
  show v ∈ (next u).filter (fun child => home child = home node && !used.contains child) ↔ _
  simp

theorem confined_freeSteps (hc : Confined g.nodes g.edges.length next) (name : String)
    (used : List String) :
    Confined g.nodes g.edges.length ((g.terrainBy next home).freeSteps name used) :=
  hc.of_sublist fun _ => List.filter_sublist

/-- A free way that ends in the component it began in has never left it. -/
theorem reachable_freeSteps (hc : Confined g.nodes g.edges.length next)
    (hnames : g.NamesComponents next home) {used : List String} {node u : String}
    (hnode : node ∈ g.nodes) (hway : Reachable (unusedSteps next used) node u)
    (hback : Reachable next u node) :
    Reachable ((g.terrainBy next home).freeSteps (home node) used) node u := by
  induction hway with
  | refl => exact .refl
  | @tail w u hwayw hstep ih =>
      rcases mem_unusedSteps.mp hstep with ⟨hnext, hunused⟩
      refine (ih (.head hnext hback)).tail (mem_freeSteps.mpr ⟨hnext, ?_, hunused⟩)
      have hforth : Reachable next node u :=
        (Reachable.mono (unusedSteps_subset next used) hwayw).tail hnext
      exact (hnames u (hc.target_mem hnext) node hnode).mpr ⟨hback, hforth⟩

theorem not_mem_used_of_reachable {used : List String} {node v : String}
    (hway : Reachable ((g.terrainBy next home).freeSteps (home node) used) node v)
    (hne : v ≠ node) : v ∉ used := by
  rcases Relation.ReflTransGen.cases_tail hway with heq | ⟨u, -, hstep⟩
  · exact absurd heq hne
  · exact (mem_freeSteps.mp hstep).2.2

theorem mem_stillOpen_iff (hc : Confined g.nodes g.edges.length next) {used : List String}
    {node v : String} :
    v ∈ (g.terrainBy next home).stillOpen node used ↔
      (v ∈ g.nodes ∧ home v = home node) ∧ v ≠ node ∧
        Reachable ((g.terrainBy next home).freeSteps (home node) used) node v := by
  have hmembers : (g.terrainBy next home).members (home node) =
      g.nodes.filter fun n => home n = home node := by
    show (Adjacency.ofPairs (g.nodes.map fun n => (home n, n))).getD (home node) [] = _
    rw [Adjacency.getD_ofPairs, List.filter_map, List.map_map]
    simp [Function.comp_def]
  show v ∈ ((g.terrainBy next home).members (home node)).filter (fun n => n ≠ node &&
    (reach ((g.terrainBy next home).freeSteps (home node) used) g.edges.length node).contains n) ↔ _
  rw [hmembers, List.mem_filter, List.mem_filter, Bool.and_eq_true, decide_eq_true_eq,
    decide_eq_true_eq, Std.HashSet.contains_iff_mem, mem_reach_iff (confined_freeSteps hc _ used)]

/-! ## What restricts a way -/

/-- Used nodes of the own component count only by what they leave open. -/
theorem simplePaths_of_stillOpen_eq (hc : Confined g.nodes g.edges.length next)
    (hnames : g.NamesComponents next home) {extra : Nat} {used used' : List String} {node : String}
    (hnode : node ∈ g.nodes) (hused : ∀ n ∈ used, home n = home node)
    (hused' : ∀ n ∈ used', home n = home node)
    (hopen : (g.terrainBy next home).stillOpen node used =
      (g.terrainBy next home).stillOpen node used') :
    simplePaths next extra used node = simplePaths next extra used' node := by
  apply simplePaths_congr
  intro u v hway hstep hne
  have hforth : Reachable next node v := (hway.mono (unusedSteps_subset next used)).tail hstep
  have hv : v ∈ g.nodes := hc.target_mem hstep
  by_cases hhome : home v = home node
  · -- inside the component a node is unused exactly if the step to it leaves it open
    have hback : Reachable next v node := ((hnames v hv node hnode).mp hhome).1
    have hfree := reachable_freeSteps hc hnames hnode hway (.head hstep hback)
    have hiff : ∀ {first second : List String},
        (g.terrainBy next home).stillOpen node first =
          (g.terrainBy next home).stillOpen node second →
        Reachable ((g.terrainBy next home).freeSteps (home node) first) node u →
        v ∉ first → v ∉ second := by
      intro first second heq hfirst hunused
      have hmem : v ∈ (g.terrainBy next home).stillOpen node first :=
        (mem_stillOpen_iff hc).mpr ⟨⟨hv, hhome⟩, hne,
          hfirst.tail (mem_freeSteps.mpr ⟨hstep, hhome, hunused⟩)⟩
      rw [heq, mem_stillOpen_iff hc] at hmem
      exact not_mem_used_of_reachable hmem.2.2 hmem.2.1
    have hfree' : Reachable ((g.terrainBy next home).freeSteps (home node) used') node u := by
      by_cases hu : u = node
      · rw [hu]
      · have hhomeu : home u = home node := by
          rcases Relation.ReflTransGen.cases_tail hfree with heq | ⟨w, -, hlast⟩
          · exact absurd heq hu
          · exact (mem_freeSteps.mp hlast).2.1
        have hmem : u ∈ (g.terrainBy next home).stillOpen node used :=
          (mem_stillOpen_iff hc).mpr ⟨⟨hc.source_mem hstep, hhomeu⟩, hu, hfree⟩
        rw [hopen, mem_stillOpen_iff hc] at hmem
        exact hmem.2.2
    constructor
    · intro hin
      by_contra hout
      exact hiff hopen.symm hfree' hout hin
    · intro hin
      by_contra hout
      exact hiff hopen hfree hout hin
  · exact ⟨fun h => absurd (hused v h) hhome, fun h => absurd (hused' v h) hhome⟩

/-- Of the nodes that lead to a node only those in its component restrict how a way goes on. -/
theorem simplePaths_trail (hc : Confined g.nodes g.edges.length next)
    (hnames : g.NamesComponents next home) {extra : Nat} {trail used : List String} {node : String}
    (hnode : node ∈ g.nodes) (htrail : ∀ n ∈ trail, Reachable next n node)
    (hused : ∀ n, n ∈ used ↔ n ∈ node :: trail ∧ home n = home node) :
    simplePaths next extra trail node = simplePaths next extra used node := by
  apply simplePaths_congr
  intro u v hway hstep hne
  rw [hused, List.mem_cons, or_iff_right hne]
  refine ⟨fun hin => ⟨hin, ?_⟩, And.left⟩
  have hforth : Reachable next node v := (hway.mono (unusedSteps_subset next trail)).tail hstep
  exact (hnames v (hc.target_mem hstep) node hnode).mpr ⟨htrail v hin, hforth⟩

end DiagramReadability.Graph
