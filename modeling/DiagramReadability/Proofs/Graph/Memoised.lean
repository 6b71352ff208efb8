import DiagramReadability.Proofs.Graph.Component

/-!
# Longest paths with cycles

The memoised search against the plain enumeration.  A search goes on from the end of a trail, of
which it only knows the nodes in the current component.  The memo is sound: what it holds for a node
and its open nodes is the first longest path for every list of used nodes that leaves those open.
Main statement: whatever names the components have, the search over all starts finds the path that
the enumeration keeps (`searchFrom_eq_longestByEnumeration`).
-/

namespace DiagramReadability.Graph

variable {g : Graph} {next : String → List String} {home : String → String}

/-- What a memo holds is right for all used nodes that leave the same nodes open. -/
def Memo.Sound (g : Graph) (next : String → List String) (home : String → String) (memo : Memo) :
    Prop :=
  ∀ node opened path, memo[(node, opened)]? = some path → node ∈ g.nodes →
    ∀ used, (∀ n ∈ used, home n = home node) →
      (g.terrainBy next home).stillOpen node used = opened →
        path = longestFrom next g.nodes.length used node

/-- A way through distinct nodes, last node first, that has come to `node`. -/
structure Trail (g : Graph) (next : String → List String) (node : String) (trail : List String) :
    Prop where
  nodup : (node :: trail).Nodup
  subset : node :: trail ⊆ g.nodes
  leads : ∀ n ∈ trail, Reachable next n node

/-- The nodes of the trail, its end included, that lie in the component of its end. -/
def UsedAtHome (home : String → String) (node : String) (trail used : List String) : Prop :=
  ∀ n, n ∈ used ↔ n ∈ node :: trail ∧ home n = home node

theorem Memo.Sound.insert (hc : Confined g.nodes g.edges.length next)
    (hnames : g.NamesComponents next home) {memo : Memo} (hmemo : Memo.Sound g next home memo)
    {node : String} {used : List String} (hused : ∀ n ∈ used, home n = home node)
    {path : List String} (hpath : path = longestFrom next g.nodes.length used node) :
    Memo.Sound g next home
      (memo.insert (node, (g.terrainBy next home).stillOpen node used) path) := by
  intro other opened found hfound hother used' hused' hopen
  rw [Std.HashMap.getElem?_insert] at hfound
  by_cases hkey : (node, (g.terrainBy next home).stillOpen node used) = (other, opened)
  · rw [if_pos (by simpa using hkey), Option.some.injEq] at hfound
    rcases Prod.mk.inj hkey with ⟨rfl, hopened⟩
    rw [← hfound, hpath, longestFrom, longestFrom]
    rw [simplePaths_of_stillOpen_eq hc hnames hother hused hused' (hopened.trans hopen.symm)]
  · rw [if_neg (by simpa using hkey)] at hfound
    exact hmemo other opened found hfound hother used' hused' hopen

theorem Trail.length_lt {node : String} {trail : List String} (htrail : Trail g next node trail) :
    trail.length < g.nodes.length := by
  have := (List.Nodup.subperm htrail.nodup htrail.subset).length_le
  rwa [List.length_cons] at this

/-- The trail goes on to an unused child. -/
theorem Trail.step (hc : Confined g.nodes g.edges.length next) {node child : String}
    {trail : List String} (htrail : Trail g next node trail) (hstep : child ∈ next node)
    (hunused : child ∉ node :: trail) : Trail g next child (node :: trail) where
  nodup := List.nodup_cons.mpr ⟨hunused, htrail.nodup⟩
  subset := List.cons_subset.mpr ⟨hc.target_mem hstep, htrail.subset⟩
  leads n hn := by
    rcases List.mem_cons.mp hn with rfl | hn
    · exact .single hstep
    · exact (htrail.leads n hn).tail hstep

theorem Trail.reachable {node n : String} {trail : List String} (htrail : Trail g next node trail)
    (hn : n ∈ node :: trail) : Reachable next n node := by
  rcases List.mem_cons.mp hn with rfl | hn
  · exact .refl
  · exact htrail.leads n hn

/-- Inside a component the child joins the used nodes, at its border they are forgotten. -/
theorem UsedAtHome.step (hc : Confined g.nodes g.edges.length next)
    (hnames : g.NamesComponents next home) {node child : String} {trail used : List String}
    (htrail : Trail g next node trail) (hused : UsedAtHome home node trail used)
    (hstep : child ∈ next node) :
    UsedAtHome home child (node :: trail)
      (if home child = home node then child :: used else [child]) := by
  intro n
  by_cases hinside : home child = home node
  · rw [if_pos hinside, List.mem_cons, hused n, hinside]
    constructor
    · rintro (rfl | h)
      · exact ⟨List.mem_cons_self, hinside⟩
      · exact ⟨List.mem_cons_of_mem _ h.1, h.2⟩
    · rintro ⟨h, hhome⟩
      rcases List.mem_cons.mp h with rfl | h
      · exact .inl rfl
      · exact .inr ⟨h, hhome⟩
  · rw [if_neg hinside, List.mem_singleton, List.mem_cons]
    constructor
    · rintro rfl
      exact ⟨.inl rfl, rfl⟩
    · rintro ⟨rfl | h, hhome⟩
      · rfl
      · -- a node of the trail in the child's component would put both ends of the step there
        have hchild := hc.target_mem hstep
        have hnode := htrail.subset List.mem_cons_self
        have hback := ((hnames n (htrail.subset h) child hchild).mp hhome).2
        have : home child = home node :=
          (hnames child hchild node hnode).mpr ⟨hback.trans (htrail.reachable h), .single hstep⟩
        exact absurd this hinside

/-- A child is passed over exactly if it is on the trail. -/
theorem blocked_iff (hnames : g.NamesComponents next home) {node child : String}
    {trail used : List String} (htrail : Trail g next node trail)
    (hused : UsedAtHome home node trail used) (hstep : child ∈ next node) :
    (home child = home node && used.contains child) = true ↔ child ∈ node :: trail := by
  rw [Bool.and_eq_true, decide_eq_true_eq, List.contains_iff_mem, hused child]
  constructor
  · exact fun h => h.2.1
  · intro h
    have hhome : home child = home node :=
      (hnames child (htrail.subset h) node (htrail.subset List.mem_cons_self)).mpr
        ⟨htrail.reachable h, .single hstep⟩
    exact ⟨hhome, h, hhome⟩

/-! ## The search from one node -/

/-- The choice among the children, one after the other, with the memo handed on. -/
def Terrain.tryChild (t : Terrain) (fuel : Nat) (node : String) (used : List String)
    (state : List String × Memo) (child : String) : List String × Memo :=
  if t.home child = t.home node && used.contains child then state
  else
    let found := t.search fuel child
      (if t.home child = t.home node then child :: used else [child]) state.2
    (longer state.1 found.1, found.2)

theorem Terrain.search_succ (t : Terrain) (fuel : Nat) (node : String) (used : List String)
    (memo : Memo) :
    t.search (fuel + 1) node used memo =
      match memo[(node, t.stillOpen node used)]? with
      | some path => (path, memo)
      | none =>
          let best := (t.next node).foldl (t.tryChild fuel node used) ([], memo)
          (node :: best.1, best.2.insert (node, t.stillOpen node used) (node :: best.1)) :=
  rfl

theorem foldl_tryChild (hc : Confined g.nodes g.edges.length next)
    (hnames : g.NamesComponents next home) {fuel : Nat} {node : String} {trail used : List String}
    (htrail : Trail g next node trail) (hused : UsedAtHome home node trail used)
    (hsearch : ∀ child used' memo, Trail g next child (node :: trail) →
      UsedAtHome home child (node :: trail) used' → Memo.Sound g next home memo →
        ((g.terrainBy next home).search fuel child used' memo).1 =
          longestFrom next g.nodes.length (node :: trail) child ∧
        Memo.Sound g next home ((g.terrainBy next home).search fuel child used' memo).2)
    {children : List String} (hchildren : children ⊆ next node) (best : List String) {memo : Memo}
    (hmemo : Memo.Sound g next home memo) :
    (children.foldl ((g.terrainBy next home).tryChild fuel node used) (best, memo)).1 =
        longer best (firstLongest ((children.filter fun c => !(node :: trail).contains c).map
          (longestFrom next g.nodes.length (node :: trail)))) ∧
      Memo.Sound g next home
        (children.foldl ((g.terrainBy next home).tryChild fuel node used) (best, memo)).2 := by
  induction children generalizing best memo with
  | nil => exact ⟨(longer_nil_right best).symm, hmemo⟩
  | cons child rest ih =>
      rcases List.cons_subset.mp hchildren with ⟨hstep, hrest⟩
      -- the search passes over a child exactly where the enumeration does
      have hblocked := blocked_iff hnames htrail hused hstep
      rw [List.foldl_cons]
      by_cases hin : child ∈ node :: trail
      · have htry : (g.terrainBy next home).tryChild fuel node used (best, memo) child =
            (best, memo) := if_pos (hblocked.mpr hin)
        have hcontains : (node :: trail).contains child = true := List.contains_iff_mem.mpr hin
        rw [htry, List.filter_cons_of_neg (by rw [hcontains]; decide)]
        exact ih hrest best hmemo
      · have htry : (g.terrainBy next home).tryChild fuel node used (best, memo) child = _ :=
          if_neg fun h => hin (hblocked.mp h)
        rcases hsearch child _ memo (htrail.step hc hstep hin)
          (hused.step hc hnames htrail hstep) hmemo with ⟨hfound, hsound⟩
        rw [List.filter_cons_of_pos (by simpa using hin), List.map_cons, firstLongest_cons,
          ← longer_assoc, ← hfound, htry]
        exact ih hrest _ hsound

theorem search_eq (hc : Confined g.nodes g.edges.length next)
    (hnames : g.NamesComponents next home) {fuel : Nat} {node : String} {trail used : List String}
    {memo : Memo} (htrail : Trail g next node trail) (hused : UsedAtHome home node trail used)
    (hmemo : Memo.Sound g next home memo) (hfuel : g.nodes.length ≤ fuel + trail.length) :
    ((g.terrainBy next home).search fuel node used memo).1 =
        longestFrom next g.nodes.length trail node ∧
      Memo.Sound g next home ((g.terrainBy next home).search fuel node used memo).2 := by
  induction fuel generalizing node trail used memo with
  | zero =>
      have := htrail.length_lt
      omega
  | succ fuel ih =>
      have hnode : node ∈ g.nodes := htrail.subset List.mem_cons_self
      have hhome : ∀ n ∈ used, home n = home node := fun n hn => ((hused n).mp hn).2
      have htrailUsed : longestFrom next g.nodes.length trail node =
          longestFrom next g.nodes.length used node := by
        rw [longestFrom, longestFrom, simplePaths_trail hc hnames hnode htrail.leads hused]
      rw [Terrain.search_succ]
      split
      · -- a hit: the entry is right for the used nodes, and only these count on the trail
        rename_i path hpath
        exact ⟨(hmemo node _ path hpath hnode used hhome rfl).trans htrailUsed.symm, hmemo⟩
      · -- a miss: the choice among the children is the one that the enumeration makes
        have hfold := foldl_tryChild hc hnames htrail hused (fun child used' memo' htrail' hused'
          hmemo' => ih htrail' hused' hmemo' (by rw [List.length_cons]; omega))
          (List.Subset.refl (next node)) [] hmemo
        rw [longer_nil_left] at hfold
        have hbest : node :: ((next node).foldl
            ((g.terrainBy next home).tryChild fuel node used) ([], memo)).1 =
              longestFrom next g.nodes.length trail node := by
          rw [hfold.1, longestFrom_eq_cons hc htrail.nodup htrail.subset]
          rfl
        exact ⟨hbest, hfold.2.insert hc hnames hhome (hbest.trans htrailUsed)⟩

/-! ## The search over all starts -/

theorem Terrain.searchFrom_cons (t : Terrain) (best : List String) (memo : Memo) (start : String)
    (rest : List String) :
    t.searchFrom best memo (start :: rest) =
      let found := t.search t.size start [start] memo
      if (longer best found.1).length = t.size then longer best found.1
      else t.searchFrom (longer best found.1) found.2 rest :=
  rfl

theorem searchFrom_eq (hc : Confined g.nodes g.edges.length next)
    (hnames : g.NamesComponents next home) {starts : List String} (hstarts : starts ⊆ g.nodes)
    (best : List String) {memo : Memo} (hmemo : Memo.Sound g next home memo) :
    (g.terrainBy next home).searchFrom best memo starts =
      longer best (firstLongest (starts.map (longestFrom next g.nodes.length []))) := by
  induction starts generalizing best memo with
  | nil => exact (longer_nil_right best).symm
  | cons start rest ih =>
      rcases List.cons_subset.mp hstarts with ⟨hstart, hrest⟩
      have htrail : Trail g next start [] :=
        ⟨List.nodup_singleton start, by simpa using hstart, by simp⟩
      have hused : UsedAtHome home start [] [start] := by
        intro n
        simp only [List.mem_singleton]
        exact ⟨fun h => ⟨h, h ▸ rfl⟩, And.left⟩
      have hsize : (g.terrainBy next home).size = g.nodes.length := rfl
      have hfuel : g.nodes.length ≤ g.nodes.length + ([] : List String).length := Nat.le_refl _
      have hsearch := search_eq hc hnames htrail hused hmemo hfuel
      rw [Terrain.searchFrom_cons, hsize]
      dsimp only
      rw [hsearch.1, List.map_cons, firstLongest_cons, ← longer_assoc]
      split
      · -- no path has more nodes than the graph
        rename_i hfull
        have hle : (firstLongest (rest.map (longestFrom next g.nodes.length []))).length ≤
            g.nodes.length := by
          by_cases hnil : rest.map (longestFrom next g.nodes.length []) = []
          · simp [hnil, firstLongest]
          · rcases List.mem_map.mp (firstLongest_mem hnil) with ⟨n, hn, heq⟩
            rw [← heq]
            exact length_longestFrom_le hc (hrest hn)
        exact (longer_eq_left_of_le (by rw [hfull]; exact hle)).symm
      · exact ih hrest _ hsearch.2

theorem searchFrom_eq_longestByEnumeration (hc : Confined g.nodes g.edges.length next)
    (hnames : g.NamesComponents next home) {starts : List String} (hstarts : starts ⊆ g.nodes) :
    (g.terrainBy next home).searchFrom [] ∅ starts = g.longestByEnumeration next starts := by
  have hempty : Memo.Sound g next home ∅ := by
    intro node opened path hpath
    simp at hpath
  rw [searchFrom_eq hc hnames hstarts [] hempty, longer_nil_left, longestByEnumeration,
    firstLongest_flatMap]
  rfl

end DiagramReadability.Graph
