import DiagramReadability.Graph.Visit
import DiagramReadability.Proofs.Graph.Depth

/-!
# A stack walk as recursive visits

Recursive visits as a relation, without a bound on how deep they nest.  A stack holds what such
visits have put off: the children of the node entered last, then its siblings, then theirs.  So a
discovery is the visit of its stack entries, one after the other.  A child seen since it was put on
the stack is passed over by both, and whether it was left out before makes no difference.
-/

namespace DiagramReadability.Graph

variable {next : String → List String} {nodes : List String} {steps : Nat} {edges : List Edge}

/-- Visits of the nodes of a list at the depths given with them, one after the other, from one list
of marks to another.  A node that has a mark when its turn comes is passed over.  Any other one is
marked and noted with its depth, and its children are visited one level below. -/
inductive Visits (next : String → List String) :
    List (String × Nat) → List String → List (String × Nat) → List String → Prop where
  | done {marked : List String} : Visits next [] marked [] marked
  | skip {node : String} {depth : Nat} {entries noted : List (String × Nat)}
      {marked final : List String} (h : node ∈ marked)
      (rest : Visits next entries marked noted final) :
      Visits next ((node, depth) :: entries) marked noted final
  | enter {node : String} {depth : Nat} {entries inner noted : List (String × Nat)}
      {marked inside final : List String} (h : node ∉ marked)
      (children : Visits next ((next node).map (·, depth + 1)) (node :: marked) inner inside)
      (rest : Visits next entries inside noted final) :
      Visits next ((node, depth) :: entries) marked ((node, depth) :: (inner ++ noted)) final

namespace Visits

variable {entries entries' noted noted' : List (String × Nat)} {marked final final' : List String}

/-- Marks are never taken away. -/
theorem marked_subset (h : Visits next entries marked noted final) : marked ⊆ final := by
  induction h with
  | done => exact List.Subset.refl _
  | skip _ _ ih => exact ih
  | enter _ _ _ ihc ihr =>
      exact List.Subset.trans (List.Subset.trans (List.subset_cons_self _ _) ihc) ihr

/-- Visits end in one way only. -/
theorem unique (h : Visits next entries marked noted final)
    (h' : Visits next entries marked noted' final') : noted = noted' ∧ final = final' := by
  induction h generalizing noted' final' with
  | done =>
      cases h'
      exact ⟨rfl, rfl⟩
  | skip hmem _ ih =>
      cases h' with
      | skip _ rest => exact ih rest
      | enter hnew _ _ => exact absurd hmem hnew
  | enter hnew _ _ ihc ihr =>
      cases h' with
      | skip hmem _ => exact absurd hmem hnew
      | enter _ children rest =>
          rcases ihc children with ⟨rfl, rfl⟩
          rcases ihr rest with ⟨rfl, rfl⟩
          exact ⟨rfl, rfl⟩

/-- Visits of two lists in a row are visits of the one, then of the other. -/
theorem exists_of_append (h : Visits next (entries ++ entries') marked noted final) :
    ∃ first inside later, Visits next entries marked first inside ∧
      Visits next entries' inside later final ∧ noted = first ++ later := by
  induction entries generalizing marked noted with
  | nil => exact ⟨[], marked, noted, .done, h, rfl⟩
  | cons entry entries ih =>
      cases h with
      | skip hmem rest =>
          rcases ih rest with ⟨first, inside, later, hfirst, hlater, heq⟩
          exact ⟨first, inside, later, .skip hmem hfirst, hlater, heq⟩
      | enter hnew children rest =>
          rcases ih rest with ⟨first, inside, later, hfirst, hlater, rfl⟩
          refine ⟨_, inside, later, .enter hnew children hfirst, hlater, ?_⟩
          rw [List.cons_append, List.append_assoc]

/-- Nodes that are marked at the beginning may be left out of the list or not. -/
theorem of_filter {p : String × Nat → Bool}
    (hp : ∀ entry ∈ entries, p entry = false → entry.1 ∈ marked)
    (h : Visits next (entries.filter p) marked noted final) :
    Visits next entries marked noted final := by
  induction entries generalizing marked noted with
  | nil => exact h
  | cons entry entries ih =>
      rw [List.forall_mem_cons] at hp
      by_cases hentry : p entry = true
      · rw [List.filter_cons_of_pos hentry] at h
        cases h with
        | skip hmem rest => exact .skip hmem (ih hp.2 rest)
        | enter hnew children rest =>
            refine .enter hnew children (ih (fun e he hout => ?_) rest)
            exact children.marked_subset (List.mem_cons_of_mem _ (hp.2 e he hout))
      · rw [List.filter_cons_of_neg hentry] at h
        rw [Bool.not_eq_true] at hentry
        exact .skip (hp.1 hentry) (ih hp.2 h)

end Visits

/-! ## Discoveries -/

/-- A discovery with enough fuel is the visit of its stack, and it finds the nodes in the order in
which the visits note them. -/
theorem visits_discoverFrom (hc : Confined nodes steps next) (fuel : Nat)
    (stack : List (String × Nat)) (seen : Std.HashSet String)
    (hfuel : entriesLeft nodes next stack seen ≤ fuel) {marked : List String}
    (hmarked : ∀ n, n ∈ seen ↔ n ∈ marked) :
    ∃ final, Visits next stack marked (discoverFrom next fuel stack seen).1 final := by
  fun_induction discoverFrom next fuel stack seen generalizing marked with
  | case1 stack seen =>
      rw [entriesLeft] at hfuel
      have hnil : stack = [] := List.eq_nil_of_length_eq_zero (by omega)
      rw [hnil]
      exact ⟨marked, .done⟩
  | case2 => exact ⟨marked, .done⟩
  | case3 fuel node depth stack seen hseen ih =>
      rw [entriesLeft, List.length_cons] at hfuel
      rcases ih (by rw [entriesLeft]; omega) hmarked with ⟨final, hvisits⟩
      exact ⟨final, .skip ((hmarked node).mp hseen) hvisits⟩
  | case4 fuel node depth stack seen hseen inserted fresh found final hrec =>
      rename_i ih
      have hless : entriesLeft nodes next (fresh.map (·, depth + 1) ++ stack) inserted <
          entriesLeft nodes next ((node, depth) :: stack) seen :=
        entriesLeft_enter_lt hc hseen _ depth stack
      have hinserted : ∀ n, n ∈ inserted ↔ n ∈ node :: marked := by
        intro n
        rw [Std.HashSet.mem_insert, List.mem_cons, hmarked n, beq_iff_eq, eq_comm]
      rcases ih (by omega) hinserted with ⟨final', hvisits⟩
      rw [hrec] at hvisits
      -- first the children that were put on the stack, then what lay below them
      rcases hvisits.exists_of_append with ⟨inner, inside, later, hchildren, hbelow, rfl⟩
      have hfilter : fresh.map (·, depth + 1) =
          ((next node).map (·, depth + 1)).filter fun entry => !inserted.contains entry.1 := by
        rw [List.filter_map]
        rfl
      rw [hfilter] at hchildren
      refine ⟨final', .enter (fun hmem => hseen ((hmarked node).mpr hmem)) ?_ hbelow⟩
      apply hchildren.of_filter
      intro entry _ hout
      exact (hinserted entry.1).mp (by simpa using hout)

/-! ## Visits with fuel -/

/-- What the visit of a node does about one of its children. -/
def visitChild (next : String → List String) (fuel depth : Nat) (state : List Nat × List String)
    (child : String) : List Nat × List String :=
  if state.2.contains child then state
  else
    (state.1 ++ (visit next fuel child depth state.2).1, (visit next fuel child depth state.2).2)

theorem visit_succ (next : String → List String) (fuel : Nat) (node : String) (depth : Nat)
    (marked : List String) :
    visit next (fuel + 1) node depth marked =
      (next node).foldl (visitChild next fuel (depth + 1)) ([depth], node :: marked) :=
  rfl

/-- The recursion with fuel does what the visits say as long as its fuel is not less than the number
of nodes they note. -/
theorem Visits.foldl_visitChild {entries noted : List (String × Nat)} {marked final : List String}
    (h : Visits next entries marked noted final) {children : List String} {depth : Nat}
    (hentries : children.map (·, depth) = entries) {fuel : Nat} (hfuel : noted.length ≤ fuel)
    (depths : List Nat) :
    children.foldl (visitChild next fuel depth) (depths, marked) =
      (depths ++ noted.map Prod.snd, final) := by
  induction h generalizing children depth fuel depths with
  | done =>
      rw [List.map_eq_nil_iff.mp hentries, List.foldl_nil, List.map_nil, List.append_nil]
  | skip hmem _ ih =>
      rcases List.map_eq_cons_iff.mp hentries with ⟨child, rest, rfl, hchild, hrest⟩
      obtain ⟨rfl, rfl⟩ := Prod.mk.injEq .. ▸ hchild
      rw [List.foldl_cons, visitChild, if_pos (List.contains_iff_mem.mpr hmem)]
      exact ih hrest hfuel depths
  | @enter _ _ _ inner noted marked inside final hnew _ _ ihc ihr =>
      rcases List.map_eq_cons_iff.mp hentries with ⟨child, rest, rfl, hchild, hrest⟩
      obtain ⟨rfl, rfl⟩ := Prod.mk.injEq .. ▸ hchild
      rw [List.length_cons, List.length_append] at hfuel
      rcases Nat.exists_eq_add_one_of_ne_zero (by omega : fuel ≠ 0) with ⟨less, rfl⟩
      have hvisit : visit next (less + 1) child depth marked =
          (depth :: inner.map Prod.snd, inside) := by
        rw [visit_succ]
        exact ihc rfl (by omega) [depth]
      rw [List.foldl_cons, visitChild, if_neg (by simpa using hnew), hvisit,
        ihr hrest (by omega), List.map_cons, List.map_append, List.append_assoc,
        List.cons_append]

theorem Visits.visit_eq {start : String} {noted : List (String × Nat)} {final : List String}
    (h : Visits next [(start, 0)] [] noted final) {fuel : Nat} (hfuel : noted.length ≤ fuel) :
    visit next fuel start 0 [] = (noted.map Prod.snd, final) := by
  -- a walk is the loop of a visit over its start alone
  show [start].foldl (visitChild next fuel 0) ([], []) = _
  exact h.foldl_visitChild rfl hfuel []

/-! ## The depth from a node -/

theorem visits_discovered (edges : List Edge) (start : String) :
    ∃ final, Visits (ofEdges edges).children [(start, 0)] []
      ((ofEdges edges).discovered start) final := by
  have hc := confined_children edges
  exact visits_discoverFrom hc _ _ ∅ (entriesLeft_start_le hc (start, 0) ∅) (by simp)

/-- A walk enters no more nodes than there are, and its start. -/
theorem length_discovered_le (edges : List Edge) (start : String) :
    ((ofEdges edges).discovered start).length ≤ (ofEdges edges).nodes.length + 1 := by
  have hnodup : (((ofEdges edges).discovered start).map Prod.fst).Nodup :=
    (nodup_discoverFrom _ _ _).1
  have hsub : ((ofEdges edges).discovered start).map Prod.fst ⊆
      start :: (ofEdges edges).nodes := by
    intro n hn
    rcases List.mem_map.mp hn with ⟨⟨m, d⟩, hmem, rfl⟩
    rcases leads_of_mem_discoverFrom _ _ _ hmem with ⟨entry, hentry, k, way, -⟩
    rw [List.mem_singleton.mp hentry] at way
    cases way with
    | here => exact List.mem_cons_self
    | step _ hstep => exact List.mem_cons_of_mem _ ((confined_children edges).target_mem hstep)
  have hlen := hnodup.length_le_of_subset hsub
  rwa [List.length_map, List.length_cons] at hlen

/-- The stack walk from any node, of the graph or not, notes the same nodes with the same depths and
in the same order as recursive visits with shared marks, which end in one way only.  The greatest
depth that they note is the depth from the node, and so it is for the recursion with fuel. -/
theorem depthFrom_recursive (edges : List Edge) (start : String) :
    let g := ofEdges edges
    ∃ final, (∀ noted marked, Visits g.children [(start, 0)] [] noted marked ↔
        noted = g.discovered start ∧ marked = final) ∧
      ((g.discovered start).map Prod.snd).max? = some (g.depthFrom start) ∧
      (∀ fuel, g.nodes.length < fuel →
        visit g.children fuel start 0 [] = ((g.discovered start).map Prod.snd, final)) ∧
      g.deepestVisit start = g.depthFrom start := by
  intro g
  rcases visits_discovered edges start with ⟨final, hvisits⟩
  have hfuel : ∀ fuel, g.nodes.length < fuel →
      visit g.children fuel start 0 [] = ((g.discovered start).map Prod.snd, final) := by
    intro fuel hfuel
    exact hvisits.visit_eq ((length_discovered_le edges start).trans hfuel)
  refine ⟨final, fun noted marked => ⟨fun h => h.unique hvisits, ?_⟩, ?_, hfuel, ?_⟩
  · rintro ⟨rfl, rfl⟩
    exact hvisits
  · -- the start itself is noted, so there is a greatest depth
    rcases @exists_mem_discovered edges start start .refl with ⟨d, hmem, -⟩
    rcases List.exists_cons_of_ne_nil (List.ne_nil_of_mem hmem) with ⟨entry, rest, heq⟩
    show _ = some (((g.discovered start).map Prod.snd).foldl max 0)
    rw [heq, List.map_cons, List.max?_cons', List.foldl_cons, Nat.zero_max]
  · rw [deepestVisit, hfuel _ (Nat.lt_succ_self _)]
    rfl

end DiagramReadability.Graph
