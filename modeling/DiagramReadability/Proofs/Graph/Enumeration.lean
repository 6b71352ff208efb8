import DiagramReadability.Proofs.Graph.Steps
import Mathlib.Data.List.Chain
import Mathlib.Data.List.Perm.Subperm

/-!
# The first longest simple path

The plain enumeration of simple paths is what the searches are measured by.  Three facts let a
search take its place: the best path from a node is the node before the best of the best paths from
its children (`longestFrom_succ`), more fuel than there are unused nodes changes nothing
(`simplePaths_fuel`), and of the used nodes only those count that a free way can run into
(`simplePaths_congr`).
-/

namespace DiagramReadability.Graph

/-! ## The first of the longest -/

theorem longer_nil_left (path : List String) : longer [] path = path := by
  cases path with
  | nil => rfl
  | cons => simp [longer]

theorem longer_nil_right (best : List String) : longer best [] = best := by
  simp [longer]

theorem longer_assoc (a b c : List String) : longer (longer a b) c = longer a (longer b c) := by
  by_cases hab : a.length < b.length
  · by_cases hbc : b.length < c.length
    · have hac : a.length < c.length := by omega
      simp [longer, hab, hbc, hac]
    · simp [longer, hab, hbc]
  · by_cases hbc : b.length < c.length
    · simp [longer, hab, hbc]
    · have hac : ¬a.length < c.length := by omega
      simp [longer, hab, hbc, hac]

theorem longer_eq_left_of_le {a b : List String} (h : b.length ≤ a.length) : longer a b = a :=
  if_neg (by omega)

theorem longer_map_cons (n : String) (a b : List String) :
    longer (n :: a) (n :: b) = n :: longer a b := by
  simp only [longer, List.length_cons, Nat.add_lt_add_iff_right]
  split <;> rfl

theorem foldl_longer (best : List String) (paths : List (List String)) :
    paths.foldl longer best = longer best (firstLongest paths) := by
  induction paths generalizing best with
  | nil => rw [firstLongest, List.foldl_nil, List.foldl_nil, longer_nil_right]
  | cons path rest ih =>
      rw [firstLongest, List.foldl_cons, List.foldl_cons, ih, ih (longer [] path),
        longer_nil_left, longer_assoc]

theorem firstLongest_cons (path : List String) (rest : List (List String)) :
    firstLongest (path :: rest) = longer path (firstLongest rest) := by
  rw [firstLongest, List.foldl_cons, longer_nil_left, foldl_longer]

theorem firstLongest_append (a b : List (List String)) :
    firstLongest (a ++ b) = longer (firstLongest a) (firstLongest b) := by
  rw [firstLongest, List.foldl_append, foldl_longer, ← firstLongest]

theorem firstLongest_flatMap (f : String → List (List String)) (nodes : List String) :
    firstLongest (nodes.flatMap f) = firstLongest (nodes.map fun n => firstLongest (f n)) := by
  induction nodes with
  | nil => rfl
  | cons n rest ih =>
      rw [List.flatMap_cons, firstLongest_append, ih, List.map_cons, firstLongest_cons]

theorem firstLongest_map_cons (n : String) (paths : List (List String)) :
    firstLongest ([n] :: paths.map (n :: ·)) = n :: firstLongest paths := by
  have hfold : ∀ best, (paths.map (n :: ·)).foldl longer (n :: best) =
      n :: paths.foldl longer best := by
    induction paths with
    | nil => intro best; rfl
    | cons path rest ih =>
        intro best
        rw [List.map_cons, List.foldl_cons, longer_map_cons, ih, List.foldl_cons]
  rw [firstLongest, List.foldl_cons, longer_nil_left, hfold, firstLongest]

/-- The first longest of some paths stands behind shorter ones only, and none after it is longer. -/
theorem exists_eq_append_firstLongest {paths : List (List String)} (h : paths ≠ []) :
    ∃ before after, paths = before ++ firstLongest paths :: after ∧
      (∀ p ∈ before, p.length < (firstLongest paths).length) ∧
        ∀ p ∈ after, p.length ≤ (firstLongest paths).length := by
  induction paths with
  | nil => exact absurd rfl h
  | cons path rest ih =>
      rw [firstLongest_cons]
      -- the head is kept unless some later path is strictly longer
      by_cases hrest : path.length < (firstLongest rest).length
      · have hne : rest ≠ [] := by
          rintro rfl
          simp [firstLongest] at hrest
        obtain ⟨before, after, heq, hbefore, hafter⟩ := ih hne
        rw [longer, if_pos hrest]
        refine ⟨path :: before, after, ?_, ?_, hafter⟩
        · rw [List.cons_append, ← heq]
        · intro p hp
          rcases List.mem_cons.mp hp with rfl | hp
          · exact hrest
          · exact hbefore p hp
      · rw [longer, if_neg hrest]
        refine ⟨[], rest, rfl, by simp, ?_⟩
        intro p hp
        obtain ⟨before, after, heq, hbefore, hafter⟩ := ih (List.ne_nil_of_mem hp)
        have hle : p.length ≤ (firstLongest rest).length := by
          rw [heq] at hp
          rcases List.mem_append.mp hp with hp | hp
          · exact Nat.le_of_lt (hbefore p hp)
          · rcases List.mem_cons.mp hp with heq | hp
            · rw [heq]
            · exact hafter p hp
        omega

theorem firstLongest_mem {paths : List (List String)} (h : paths ≠ []) :
    firstLongest paths ∈ paths := by
  obtain ⟨before, after, heq, -⟩ := exists_eq_append_firstLongest h
  have hmem : firstLongest paths ∈ before ++ firstLongest paths :: after := by simp
  rwa [← heq] at hmem

theorem length_le_firstLongest {paths : List (List String)} {path : List String}
    (h : path ∈ paths) : path.length ≤ (firstLongest paths).length := by
  obtain ⟨before, after, heq, hbefore, hafter⟩ :=
    exists_eq_append_firstLongest (List.ne_nil_of_mem h)
  rw [heq] at h
  rcases List.mem_append.mp h with h | h
  · exact Nat.le_of_lt (hbefore path h)
  · rcases List.mem_cons.mp h with heq | h
    · rw [heq]
    · exact hafter path h

/-! ## Membership -/

variable {next : String → List String} {nodes : List String} {steps : Nat}

/-- The steps of `next` to nodes that are not used. -/
def unusedSteps (next : String → List String) (used : List String) (node : String) : List String :=
  (next node).filter fun child => !used.contains child

theorem mem_unusedSteps {used : List String} {u v : String} :
    v ∈ unusedSteps next used u ↔ v ∈ next u ∧ v ∉ used := by
  simp [unusedSteps]

theorem unusedSteps_subset (next : String → List String) (used : List String) (u : String) :
    unusedSteps next used u ⊆ next u :=
  List.filter_subset_self _

theorem simplePaths_succ (extra : Nat) (used : List String) (node : String) :
    simplePaths next (extra + 1) used node =
      [node] :: (unusedSteps next (node :: used) node).flatMap fun child =>
        (simplePaths next extra (node :: used) child).map (node :: ·) := by
  have hfilter : ∀ child ∈ next node, (child ≠ node && !used.contains child) =
      !(node :: used).contains child := by
    intro child _
    by_cases h : child = node
    · simp [h]
    · simp [h]
  rw [simplePaths, List.filter_congr hfilter, unusedSteps]

/-- Distinct nodes, each followed by one that `next` gives for it. -/
def IsSimple (next : String → List String) (path : List String) : Prop :=
  path.Nodup ∧ path.IsChain fun u v => v ∈ next u

theorem forall_zip_tail_iff {R : String → String → Prop} {path : List String} :
    (∀ p ∈ path.zip path.tail, R p.1 p.2) ↔ path.IsChain R := by
  induction path with
  | nil => simp
  | cons a rest ih =>
      cases rest with
      | nil => simp
      | cons b rest =>
          rw [List.isChain_cons_cons, ← ih]
          simp

theorem isSimplePath_iff {g : Graph} {path : List String} :
    g.IsSimplePath path ↔ IsSimple g.children path := by
  have hzip := @forall_zip_tail_iff (fun u v => v ∈ g.children u) path
  rw [IsSimplePath, IsSimple, ← hzip]

theorem IsSimple.mono {more : String → List String} {path : List String}
    (hsub : ∀ u, next u ⊆ more u) (h : IsSimple next path) : IsSimple more path :=
  ⟨h.1, h.2.imp fun u _ hv => hsub u hv⟩

theorem IsSimple.tail {n : String} {path : List String} (h : IsSimple next (n :: path)) :
    IsSimple next path :=
  ⟨(List.nodup_cons.mp h.1).2, h.2.tail⟩

theorem isSimple_singleton (next : String → List String) (n : String) : IsSimple next [n] :=
  ⟨List.nodup_singleton n, List.isChain_singleton n⟩

theorem isSimple_cons_cons {n child : String} {path : List String} :
    IsSimple next (n :: child :: path) ↔
      child ∈ next n ∧ n ∉ child :: path ∧ IsSimple next (child :: path) := by
  rw [IsSimple, IsSimple, List.nodup_cons, List.isChain_cons_cons]
  constructor
  · rintro ⟨⟨hn, hnodup⟩, hstep, hchain⟩
    exact ⟨hstep, hn, hnodup, hchain⟩
  · rintro ⟨hstep, hn, hnodup, hchain⟩
    exact ⟨⟨hn, hnodup⟩, hstep, hchain⟩

/-- A simple path goes on to a node that is not on it. -/
theorem IsSimple.concat {n : String} {path : List String} (h : IsSimple next path) (hn : n ∉ path)
    (hstep : ∀ last ∈ path.getLast?, n ∈ next last) : IsSimple next (path ++ [n]) := by
  constructor
  · rw [← List.concat_eq_append]
    exact h.1.concat hn
  · apply h.2.append (List.isChain_singleton n)
    intro last hlast m hm
    rw [List.head?_cons, Option.mem_some_iff] at hm
    exact hm ▸ hstep last hlast

theorem mem_simplePaths_iff {extra : Nat} {used : List String} {node : String}
    {path : List String} :
    path ∈ simplePaths next extra used node ↔
      ∃ tail, path = node :: tail ∧ IsSimple next path ∧ (∀ n ∈ tail, n ∉ used) ∧
        tail.length ≤ extra := by
  induction extra generalizing used node path with
  | zero =>
      rw [simplePaths, List.mem_singleton]
      constructor
      · rintro rfl
        exact ⟨[], rfl, isSimple_singleton next node, by simp, Nat.le_refl _⟩
      · rintro ⟨tail, rfl, -, -, hlen⟩
        rw [List.eq_nil_of_length_eq_zero (Nat.le_zero.mp hlen)]
  | succ extra ih =>
      rw [simplePaths_succ, List.mem_cons, List.mem_flatMap]
      constructor
      · rintro (rfl | ⟨child, hchild, hpath⟩)
        · exact ⟨[], rfl, isSimple_singleton next node, by simp, Nat.zero_le _⟩
        · rcases List.mem_map.mp hpath with ⟨onward, hmem, rfl⟩
          rcases ih.mp hmem with ⟨tail, rfl, hsimple, havoid, hlen⟩
          rcases mem_unusedSteps.mp hchild with ⟨hstep, hunused⟩
          -- the way on avoids this node as well, so the node occurs only once
          have hall : ∀ n ∈ child :: tail, n ∉ node :: used := by
            intro n hn
            rcases List.mem_cons.mp hn with rfl | hn
            · exact hunused
            · exact havoid n hn
          refine ⟨child :: tail, rfl, isSimple_cons_cons.mpr ⟨hstep, ?_, hsimple⟩, ?_,
            Nat.succ_le_succ hlen⟩
          · exact fun h => hall node h List.mem_cons_self
          · exact fun n hn h => hall n hn (List.mem_cons_of_mem _ h)
      · rintro ⟨tail, rfl, hsimple, havoid, hlen⟩
        cases tail with
        | nil => exact .inl rfl
        | cons child tail =>
            right
            rcases isSimple_cons_cons.mp hsimple with ⟨hstep, hnode, hrest⟩
            have hall : ∀ n ∈ child :: tail, n ∉ node :: used := by
              intro n hn h
              rcases List.mem_cons.mp h with rfl | h
              · exact hnode hn
              · exact havoid n hn h
            refine ⟨child, ?_, List.mem_map.mpr ⟨child :: tail, ?_, rfl⟩⟩
            · exact mem_unusedSteps.mpr ⟨hstep, hall child List.mem_cons_self⟩
            · exact ih.mpr ⟨tail, rfl, hrest, fun n hn => hall n (List.mem_cons_of_mem _ hn),
                Nat.le_of_succ_le_succ hlen⟩

theorem simplePaths_ne_nil (next : String → List String) (extra : Nat) (used : List String)
    (node : String) : simplePaths next extra used node ≠ [] := by
  cases extra with
  | zero => simp [simplePaths]
  | succ extra => simp [simplePaths]

theorem IsSimple.subset_nodes (hc : Confined nodes steps next) {start : String}
    {tail : List String} (h : IsSimple next (start :: tail)) (hmem : start ∈ nodes) :
    start :: tail ⊆ nodes := by
  induction tail generalizing start with
  | nil => simpa using hmem
  | cons child tail ih =>
      rcases isSimple_cons_cons.mp h with ⟨hstep, -, hrest⟩
      exact List.cons_subset.mpr ⟨hmem, ih hrest (hc.target_mem hstep)⟩

theorem IsSimple.length_le {path : List String} (h : IsSimple next path) (hsub : path ⊆ nodes) :
    path.length ≤ nodes.length :=
  (List.Nodup.subperm h.1 hsub).length_le

/-! ## What an enumeration depends on -/

/-- Two lists of used nodes give the same paths if they agree on all that a free way from the node
runs into. -/
theorem simplePaths_congr {extra : Nat} {used used' : List String} {node : String}
    (h : ∀ u v, Reachable (unusedSteps next used) node u → v ∈ next u → v ≠ node →
      (v ∈ used ↔ v ∈ used')) :
    simplePaths next extra used node = simplePaths next extra used' node := by
  induction extra generalizing used used' node with
  | zero => rfl
  | succ extra ih =>
      have hchildren : unusedSteps next (node :: used) node =
          unusedSteps next (node :: used') node := by
        apply List.filter_congr
        intro child hchild
        by_cases hne : child = node
        · simp [hne]
        · simp [hne, h node child .refl hchild hne]
      rw [simplePaths_succ, simplePaths_succ, ← hchildren]
      congr 1
      apply List.flatMap_congr
      intro child hmem
      congr 1
      rcases mem_unusedSteps.mp hmem with ⟨hchild, hunused⟩
      apply ih
      intro u v hu hv _
      -- a free way from the child is one from the node, after the step to the child
      have hway : Reachable (unusedSteps next used) node u := by
        refine .head (mem_unusedSteps.mpr ⟨hchild, ?_⟩) (Reachable.mono ?_ hu)
        · exact fun hin => hunused (List.mem_cons_of_mem _ hin)
        · intro w x hx
          rcases mem_unusedSteps.mp hx with ⟨hstep, hx⟩
          exact mem_unusedSteps.mpr ⟨hstep, fun hin => hx (List.mem_cons_of_mem _ hin)⟩
      by_cases hvn : v = node
      · simp [hvn]
      · rw [List.mem_cons, List.mem_cons, h u v hway hv hvn]

/-- When all nodes are used no step is left. -/
theorem unusedSteps_eq_nil (hc : Confined nodes steps next) {used : List String} {node : String}
    (hused : used.Nodup) (hsub : used ⊆ nodes) (hlen : nodes.length ≤ used.length) :
    unusedSteps next used node = [] := by
  have hperm := (List.Nodup.subperm hused hsub).perm_of_length_le hlen
  apply List.filter_eq_nil_iff.mpr
  intro child hchild
  simpa using hperm.mem_iff.mpr (hc.target_mem hchild)

/-- All fuel beyond the number of unused nodes gives the same paths. -/
theorem simplePaths_fuel (hc : Confined nodes steps next) {extra more : Nat} {used : List String}
    {node : String} (hused : (node :: used).Nodup) (hsub : node :: used ⊆ nodes)
    (hextra : nodes.length ≤ extra + (node :: used).length)
    (hmore : nodes.length ≤ more + (node :: used).length) :
    simplePaths next extra used node = simplePaths next more used node := by
  induction extra generalizing more used node with
  | zero =>
      cases more with
      | zero => rfl
      | succ more =>
          rw [simplePaths_succ, unusedSteps_eq_nil hc hused hsub (by omega)]
          rfl
  | succ extra ih =>
      cases more with
      | zero =>
          rw [simplePaths_succ, unusedSteps_eq_nil hc hused hsub (by omega)]
          rfl
      | succ more =>
          -- one more node is used, so both bounds stay large enough
          rw [simplePaths_succ, simplePaths_succ]
          congr 1
          apply List.flatMap_congr
          intro child hmem
          congr 1
          rcases mem_unusedSteps.mp hmem with ⟨hchild, hunused⟩
          apply ih
          · exact List.nodup_cons.mpr ⟨hunused, hused⟩
          · exact List.cons_subset.mpr ⟨hc.target_mem hchild, hsub⟩
          · rw [List.length_cons]; omega
          · rw [List.length_cons]; omega

/-! ## The first longest path from a node -/

/-- The first longest simple path from `node` that avoids the nodes in `used`. -/
def longestFrom (next : String → List String) (extra : Nat) (used : List String) (node : String) :
    List String :=
  firstLongest (simplePaths next extra used node)

theorem longestFrom_succ (extra : Nat) (used : List String) (node : String) :
    longestFrom next (extra + 1) used node =
      node :: firstLongest ((unusedSteps next (node :: used) node).map
        (longestFrom next extra (node :: used))) := by
  have hmap : (unusedSteps next (node :: used) node).flatMap (fun child =>
      (simplePaths next extra (node :: used) child).map (node :: ·)) =
      ((unusedSteps next (node :: used) node).flatMap
        (simplePaths next extra (node :: used))).map (node :: ·) := by
    rw [List.map_flatMap]
  rw [longestFrom, simplePaths_succ, hmap, firstLongest_map_cons, firstLongest_flatMap]
  rfl

/-- With fuel for all nodes, the first longest path from a node is the node before the first longest
of the paths from its unused children. -/
theorem longestFrom_eq_cons (hc : Confined nodes steps next) {used : List String} {node : String}
    (hused : (node :: used).Nodup) (hsub : node :: used ⊆ nodes) :
    longestFrom next nodes.length used node =
      node :: firstLongest ((unusedSteps next (node :: used) node).map
        (longestFrom next nodes.length (node :: used))) := by
  have hpos : 0 < nodes.length := List.length_pos_of_mem (hsub List.mem_cons_self)
  rcases Nat.exists_eq_succ_of_ne_zero (Nat.ne_of_gt hpos) with ⟨extra, hlen⟩
  rw [hlen, longestFrom_succ]
  -- the paths from the children have a step less to go, and the full bound gives the same ones
  congr 2
  apply List.map_congr_left
  intro child hmem
  rcases mem_unusedSteps.mp hmem with ⟨hchild, hunused⟩
  rw [longestFrom, longestFrom]
  congr 1
  apply simplePaths_fuel hc
  · exact List.nodup_cons.mpr ⟨hunused, hused⟩
  · exact List.cons_subset.mpr ⟨hc.target_mem hchild, hsub⟩
  · rw [hlen, List.length_cons, List.length_cons]; omega
  · rw [hlen, List.length_cons]; omega

theorem length_longestFrom_le (hc : Confined nodes steps next) {extra : Nat} {used : List String}
    {node : String} (hnode : node ∈ nodes) :
    (longestFrom next extra used node).length ≤ nodes.length := by
  rcases mem_simplePaths_iff.mp (firstLongest_mem (simplePaths_ne_nil next extra used node))
    with ⟨tail, heq, hsimple, -⟩
  apply hsimple.length_le
  rw [heq] at hsimple ⊢
  exact hsimple.subset_nodes hc hnode

end DiagramReadability.Graph
