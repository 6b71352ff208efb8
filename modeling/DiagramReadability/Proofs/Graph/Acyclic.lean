import DiagramReadability.Graph.Walk.Acyclic
import DiagramReadability.Proofs.Graph.Cycle
import DiagramReadability.Proofs.Graph.Enumeration

/-!
# Longest paths without cycles

On an acyclic graph no way from a child comes back to its parent, so the used nodes never matter and
the first longest path from a node is the node before the best of those from its children.  Working
off a node settles it with this path, settles nothing but what it reaches, and costs no more than
one task and the weight of the nodes it settles.
-/

namespace DiagramReadability.Graph

variable {next : String → List String} {nodes : List String} {steps : Nat}

theorem longestFrom_acyclic (hc : Confined nodes steps next)
    (hacyclic : ∀ n, ¬Follows next n n) {node : String} (hnode : node ∈ nodes) :
    longestFrom next nodes.length [] node =
      node :: firstLongest ((next node).map (longestFrom next nodes.length [])) := by
  have hne : ∀ child ∈ next node, child ≠ node := by
    intro child hchild heq
    exact hacyclic node (.single (heq ▸ hchild))
  have hsteps : unusedSteps next [node] node = next node := by
    apply List.filter_eq_self.mpr
    intro child hchild
    simp [hne child hchild]
  rw [longestFrom_eq_cons hc (List.nodup_singleton node) (by simpa using hnode), hsteps]
  congr 2
  apply List.map_congr_left
  intro child hchild
  rw [longestFrom, longestFrom]
  congr 1
  apply simplePaths_congr
  intro u v hu hv _
  -- a way from the child back to the node would close a cycle
  have hvne : v ≠ node := by
    rintro rfl
    have hback : Reachable next child u := hu.mono (unusedSteps_subset next [v])
    exact hacyclic v (.head' hchild (hback.tail hv))
  simp [hvne]

theorem length_child_lt (hc : Confined nodes steps next) (hacyclic : ∀ n, ¬Follows next n n)
    {node child : String} (hnode : node ∈ nodes) (hchild : child ∈ next node) :
    (longestFrom next nodes.length [] child).length <
      (longestFrom next nodes.length [] node).length := by
  rw [longestFrom_acyclic hc hacyclic hnode, List.length_cons]
  have := length_le_firstLongest
    (List.mem_map_of_mem (f := longestFrom next nodes.length []) hchild)
  omega

/-! ## Settling nodes -/

/-- Every path that is remembered is the first longest one from its node. -/
def Settled.Sound (next : String → List String) (nodes : List String) (settled : Settled) : Prop :=
  ∀ n path, settled[n]? = some path → path = longestFrom next nodes.length [] n

/-- The weight of the nodes that are not settled: one task each, and one for each of its steps. -/
def settleLeft (next : String → List String) (nodes : List String) (settled : Settled) : Nat :=
  workLeft nodes (fun n => (next n).length + 1) fun n => !settled.contains n

/-- Working off the nodes `todo`, on top of any tasks, leads from one table to the other. -/
structure Settles (next : String → List String) (nodes todo : List String)
    (settled later : Settled) : Prop where
  sound : Settled.Sound next nodes later
  keeps : ∀ n, settled.contains n → later.contains n
  settles : ∀ n ∈ todo, later.contains n
  only : ∀ n, later.contains n → settled.contains n ∨ ∃ m ∈ todo, Reachable next m n
  run : ∃ cost, cost + settleLeft next nodes later ≤ todo.length + settleLeft next nodes settled ∧
    ∀ fuel tasks, settleAll? next (fuel + cost) (todo.map .enter ++ tasks) settled =
      settleAll? next fuel tasks later

theorem Settles.nil {settled : Settled} (hsound : Settled.Sound next nodes settled) :
    Settles next nodes [] settled settled where
  sound := hsound
  keeps _ h := h
  settles n hn := by simp at hn
  only _ h := .inl h
  run := ⟨0, by simp, fun _ _ => rfl⟩

theorem Settles.append {first second : List String} {settled mid later : Settled}
    (h₁ : Settles next nodes first settled mid) (h₂ : Settles next nodes second mid later) :
    Settles next nodes (first ++ second) settled later where
  sound := h₂.sound
  keeps n hn := h₂.keeps n (h₁.keeps n hn)
  settles n hn := by
    rcases List.mem_append.mp hn with hn | hn
    · exact h₂.keeps n (h₁.settles n hn)
    · exact h₂.settles n hn
  only n hn := by
    rcases h₂.only n hn with hn | ⟨m, hm, hway⟩
    · rcases h₁.only n hn with hn | ⟨m, hm, hway⟩
      · exact .inl hn
      · exact .inr ⟨m, List.mem_append_left _ hm, hway⟩
    · exact .inr ⟨m, List.mem_append_right _ hm, hway⟩
  run := by
    rcases h₁.run with ⟨cost₁, hcost₁, hrun₁⟩
    rcases h₂.run with ⟨cost₂, hcost₂, hrun₂⟩
    refine ⟨cost₂ + cost₁, by rw [List.length_append]; omega, fun fuel tasks => ?_⟩
    rw [List.map_append, List.append_assoc, ← Nat.add_assoc, hrun₁, hrun₂]

theorem exists_settles_of_forall {todo : List String}
    (heach : ∀ n ∈ todo, ∀ settled, Settled.Sound next nodes settled →
      ∃ later, Settles next nodes [n] settled later)
    {settled : Settled} (hsound : Settled.Sound next nodes settled) :
    ∃ later, Settles next nodes todo settled later := by
  induction todo generalizing settled with
  | nil => exact ⟨settled, .nil hsound⟩
  | cons n rest ih =>
      rcases heach n List.mem_cons_self settled hsound with ⟨mid, hmid⟩
      rcases ih (fun m hm => heach m (List.mem_cons_of_mem _ hm)) hmid.sound with ⟨later, hlater⟩
      exact ⟨later, hmid.append hlater⟩

theorem bestSettled?_eq {settled : Settled} (hsound : Settled.Sound next nodes settled)
    {children : List String} (hall : ∀ n ∈ children, settled.contains n) :
    bestSettled? settled children =
      some (firstLongest (children.map (longestFrom next nodes.length []))) := by
  have hfold : ∀ best, children.foldlM
      (fun best node => (settled[node]?).map (longer best)) best =
        some ((children.map (longestFrom next nodes.length [])).foldl longer best) := by
    induction children with
    | nil => intro best; rfl
    | cons n rest ih =>
        intro best
        have hn := hall n List.mem_cons_self
        rw [Std.HashMap.contains_eq_isSome_getElem?] at hn
        rcases Option.isSome_iff_exists.mp hn with ⟨path, hpath⟩
        rw [List.foldlM_cons, hpath, hsound n path hpath, List.map_cons, List.foldl_cons]
        exact ih (fun m hm => hall m (List.mem_cons_of_mem _ hm)) _
  exact hfold []

/-- When the children are settled, the node is settled with its first longest path. -/
theorem settleAll?_settle (hc : Confined nodes steps next) (hacyclic : ∀ n, ¬Follows next n n)
    {node : String} (hnode : node ∈ nodes) {settled : Settled}
    (hsound : Settled.Sound next nodes settled) (hnew : settled.contains node = false)
    (hall : ∀ n ∈ next node, settled.contains n) (fuel : Nat) (tasks : List Task) :
    settleAll? next (fuel + 1) (.settle node :: tasks) settled =
      settleAll? next fuel tasks
        (settled.insert node (longestFrom next nodes.length [] node)) := by
  rw [settleAll?, hnew, bestSettled?_eq hsound hall, longestFrom_acyclic hc hacyclic hnode]
  rfl

theorem Settled.Sound.insert {settled : Settled} (h : settled.Sound next nodes) (node : String) :
    Settled.Sound next nodes (settled.insert node (longestFrom next nodes.length [] node)) := by
  intro n path hpath
  rw [Std.HashMap.getElem?_insert] at hpath
  by_cases hn : node = n
  · subst hn
    simpa [eq_comm] using hpath
  · simp only [beq_iff_eq, hn, if_false] at hpath
    exact h n path hpath

theorem settleLeft_insert (hnodup : nodes.Nodup) {node : String} (hnode : node ∈ nodes)
    {settled : Settled} (hnew : settled.contains node = false) (path : List String) :
    settleLeft next nodes (settled.insert node path) + ((next node).length + 1) =
      settleLeft next nodes settled := by
  apply workLeft_done hnodup hnode
  · simpa using hnew
  · simp
  · intro n hn
    simp [Std.HashMap.contains_insert, Ne.symm hn]

theorem Settles.of_contains {node : String} {settled : Settled}
    (hsound : Settled.Sound next nodes settled) (hold : settled.contains node = true) :
    Settles next nodes [node] settled settled where
  sound := hsound
  keeps _ h := h
  settles := List.forall_mem_singleton.mpr hold
  only _ h := .inl h
  run := by
    refine ⟨1, by rw [List.length_singleton], fun fuel tasks => ?_⟩
    show settleAll? next (fuel + 1) (.enter node :: tasks) settled = _
    rw [settleAll?, if_pos hold]

theorem mem_unsettled {settled : Settled} {node n : String} :
    n ∈ (unsettled next settled node).reverse ↔ n ∈ next node ∧ settled.contains n = false := by
  rw [List.mem_reverse, unsettled, List.mem_filter, Bool.not_eq_true']

/-- A node is settled after its children: neither they nor what they reach settles it before. -/
theorem Settles.enter (hc : Confined nodes steps next) (hacyclic : ∀ n, ¬Follows next n n)
    {node : String} (hnode : node ∈ nodes) {settled mid : Settled}
    (hold : settled.contains node = false)
    (h : Settles next nodes (unsettled next settled node).reverse settled mid) :
    Settles next nodes [node] settled
      (mid.insert node (longestFrom next nodes.length [] node)) := by
  -- a child that settled the node would lead back to itself
  have hnew : mid.contains node = false := by
    by_contra hmid
    rcases h.only node (by simpa using hmid) with hset | ⟨child, hchild, hway⟩
    · rw [hold] at hset
      exact Bool.false_ne_true hset
    · exact hacyclic node (.head' (mem_unsettled.mp hchild).1 hway)
  have hall : ∀ n ∈ next node, mid.contains n := by
    intro n hn
    by_cases hset : settled.contains n = true
    · exact h.keeps n hset
    · exact h.settles n (mem_unsettled.mpr ⟨hn, by simpa using hset⟩)
  constructor
  case sound => exact h.sound.insert node
  case keeps =>
    intro n hn
    rw [Std.HashMap.contains_insert, h.keeps n hn, Bool.or_true]
  case settles => exact List.forall_mem_singleton.mpr Std.HashMap.contains_insert_self
  case only =>
    intro n hn
    rw [Std.HashMap.contains_insert, Bool.or_eq_true, beq_iff_eq] at hn
    rcases hn with rfl | hn
    · exact .inr ⟨node, List.mem_singleton_self _, .refl⟩
    · rcases h.only n hn with hn | ⟨child, hchild, hway⟩
      · exact .inl hn
      · exact .inr ⟨node, List.mem_singleton_self _, .head (mem_unsettled.mp hchild).1 hway⟩
  case run =>
    rcases h.run with ⟨cost, hcost, hrun⟩
    refine ⟨cost + 2, ?_, fun fuel tasks => ?_⟩
    · -- the node's own weight pays for its second task and for the tasks of its children
      have hdone :
          settleLeft next nodes (mid.insert node (longestFrom next nodes.length [] node)) +
            ((next node).length + 1) = settleLeft next nodes mid :=
        settleLeft_insert hc.nodup hnode hnew _
      have hfewer := List.length_filter_le (fun c => !settled.contains c) (next node)
      rw [List.length_reverse, unsettled] at hcost
      rw [List.length_singleton]
      omega
    · rw [show fuel + (cost + 2) = fuel + 1 + cost + 1 by omega]
      show settleAll? next (fuel + 1 + cost + 1) (.enter node :: tasks) settled = _
      rw [settleAll?, hold, if_neg Bool.false_ne_true]
      show settleAll? next (fuel + 1 + cost)
        ((unsettled next settled node).reverse.map .enter ++ .settle node :: tasks) settled = _
      rw [hrun, settleAll?_settle hc hacyclic hnode h.sound hnew hall]

theorem exists_settles (hc : Confined nodes steps next) (hacyclic : ∀ n, ¬Follows next n n)
    {node : String} (hnode : node ∈ nodes) {settled : Settled}
    (hsound : Settled.Sound next nodes settled) :
    ∃ later, Settles next nodes [node] settled later := by
  -- the children have shorter paths
  induction hlen : (longestFrom next nodes.length [] node).length using Nat.strongRecOn
    generalizing node settled with
  | _ len ih =>
    by_cases hold : settled.contains node = true
    · exact ⟨settled, .of_contains hsound hold⟩
    · have hchildren : ∀ n ∈ (unsettled next settled node).reverse, ∀ settled',
          Settled.Sound next nodes settled' → ∃ later, Settles next nodes [n] settled' later := by
        intro n hn settled' hsound'
        have hstep := (mem_unsettled.mp hn).1
        have hlt := length_child_lt hc hacyclic hnode hstep
        exact ih _ (hlen ▸ hlt) (hc.target_mem hstep) hsound' rfl
      rcases exists_settles_of_forall hchildren hsound with ⟨mid, hmid⟩
      rw [Bool.not_eq_true] at hold
      exact ⟨_, hmid.enter hc hacyclic hnode hold⟩

/-! ## The search as a whole -/

/-- On an acyclic graph the work ends with every node settled.  It takes no more fuel than one unit
for the entry of each node, one for each edge and one to settle each node. -/
theorem exists_settleAll?_eq {g : Graph} (hc : Confined g.nodes g.edges.length next)
    (hacyclic : ∀ n, ¬Follows next n n) :
    ∃ settled, Settled.Sound next g.nodes settled ∧ (∀ n ∈ g.nodes, settled.contains n) ∧
      ∀ fuel, 2 * g.nodes.length + g.edges.length ≤ fuel →
        settleAll? next fuel (g.nodes.map .enter) ∅ = some settled := by
  have hempty : Settled.Sound next g.nodes ∅ := by
    intro n path hpath
    simp at hpath
  have heach : ∀ n ∈ g.nodes, ∀ settled, Settled.Sound next g.nodes settled →
      ∃ later, Settles next g.nodes [n] settled later :=
    fun n hn _ hsound => exists_settles hc hacyclic hn hsound
  rcases exists_settles_of_forall heach hempty with ⟨settled, hsettled⟩
  rcases hsettled.run with ⟨cost, hcost, hrun⟩
  refine ⟨settled, hsettled.sound, hsettled.settles, fun fuel hfuel => ?_⟩
  have hle : cost ≤ fuel := by
    have hleft := workLeft_le g.nodes (fun n => (next n).length + 1)
      fun n => !(∅ : Settled).contains n
    have htotal := hc.length_le
    rw [List.sum_map_add, List.map_const', List.sum_replicate_nat] at hleft
    rw [settleLeft, settleLeft] at hcost
    omega
  have hend := hrun (fuel - cost) []
  rwa [Nat.sub_add_cancel hle, List.append_nil, settleAll?] at hend

/-- On an acyclic graph the search finds the path that the plain enumeration keeps. -/
theorem acyclicLongest?_eq {g : Graph} (hc : Confined g.nodes g.edges.length next)
    (hacyclic : ∀ n, ¬Follows next n n) {starts : List String} (hstarts : starts ⊆ g.nodes) :
    g.acyclicLongest? next starts = some (g.longestByEnumeration next starts) := by
  rcases exists_settleAll?_eq hc hacyclic with ⟨settled, hsound, hall, hrun⟩
  rw [acyclicLongest?, hrun _ (Nat.le_refl _), Option.bind_some,
    bestSettled?_eq hsound fun n hn => hall n (hstarts hn), longestByEnumeration,
    firstLongest_flatMap]
  rfl

end DiagramReadability.Graph
