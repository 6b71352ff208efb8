import DiagramReadability.Graph.Discovery
import DiagramReadability.Proofs.Graph.Steps

/-!
# What a discovery finds

The stack may hold a node many times and a node counts as seen only once it is taken off the stack.
So the main invariant speaks of the final set: it contains the whole stack and is closed under the
steps out of every node found.  A discovery from nothing therefore finds exactly the nodes that can
be reached.
-/

namespace DiagramReadability.Graph

variable {next : String → List String} {nodes : List String} {steps : Nat}

theorem mem_discoverFrom_seen (next : String → List String) (fuel : Nat)
    (stack : List (String × Nat)) (seen : Std.HashSet String) (n : String) :
    n ∈ (discoverFrom next fuel stack seen).2 ↔
      n ∈ seen ∨ n ∈ (discoverFrom next fuel stack seen).1.map Prod.fst := by
  fun_induction discoverFrom next fuel stack seen with
  | case1 => simp
  | case2 => simp
  | case3 fuel node depth stack seen hseen ih => exact ih
  | case4 fuel node depth stack seen hseen inserted fresh found final hrec ih =>
      rw [hrec] at ih
      rw [ih, List.map_cons, List.mem_cons, Std.HashSet.mem_insert, beq_iff_eq]
      constructor
      · rintro ((h | h) | h)
        · exact .inr (.inl h.symm)
        · exact .inl h
        · exact .inr (.inr h)
      · rintro (h | h | h)
        · exact .inl (.inr h)
        · exact .inl (.inl h.symm)
        · exact .inr h

/-- A discovery finds no node twice and none that was seen before it. -/
theorem nodup_discoverFrom (fuel : Nat) (stack : List (String × Nat))
    (seen : Std.HashSet String) :
    ((discoverFrom next fuel stack seen).1.map Prod.fst).Nodup ∧
      ∀ n ∈ (discoverFrom next fuel stack seen).1.map Prod.fst, n ∉ seen := by
  fun_induction discoverFrom next fuel stack seen with
  | case1 => simp
  | case2 => simp
  | case3 fuel node depth stack seen hseen ih => exact ih
  | case4 fuel node depth stack seen hseen inserted fresh found final hrec ih =>
      rw [hrec] at ih
      obtain ⟨hnodup, hnew⟩ := ih
      rw [List.map_cons, List.nodup_cons]
      refine ⟨⟨fun hmem => hnew node hmem Std.HashSet.mem_insert_self, hnodup⟩, ?_⟩
      intro n hn
      rcases List.mem_cons.mp hn with rfl | hn
      · rwa [← Std.HashSet.contains_iff_mem]
      · exact fun h => hnew n hn (Std.HashSet.mem_insert.mpr (.inr h))

/-- The depth of a node found is the number of steps of some way from an entry of the stack. -/
theorem leads_of_mem_discoverFrom (fuel : Nat) (stack : List (String × Nat))
    (seen : Std.HashSet String) {n : String} {d : Nat}
    (h : (n, d) ∈ (discoverFrom next fuel stack seen).1) :
    ∃ entry ∈ stack, ∃ k, Leads next entry.1 k n ∧ d = entry.2 + k := by
  fun_induction discoverFrom next fuel stack seen with
  | case1 => simp at h
  | case2 => simp at h
  | case3 fuel node depth stack seen hseen ih =>
      obtain ⟨entry, hentry, way⟩ := ih h
      exact ⟨entry, List.mem_cons_of_mem _ hentry, way⟩
  | case4 fuel node depth stack seen hseen inserted fresh found final hrec ih =>
      rw [hrec] at ih
      rcases List.mem_cons.mp h with heq | h
      · obtain ⟨rfl, rfl⟩ := Prod.mk.injEq .. ▸ heq
        exact ⟨(n, d), List.mem_cons_self, 0, .here, rfl⟩
      · obtain ⟨entry, hentry, k, way, hd⟩ := ih h
        rcases List.mem_append.mp hentry with hfresh | hbelow
        · obtain ⟨child, hchild, rfl⟩ := List.mem_map.mp hfresh
          refine ⟨(node, depth), List.mem_cons_self, k + 1, ?_, by simp only at hd ⊢; omega⟩
          exact way.cons (List.mem_filter.mp hchild).1
        · exact ⟨entry, List.mem_cons_of_mem _ hbelow, k, way, hd⟩

/-! ## Fuel -/

/-- How many entries a discovery takes from its stack at most: those on it, and one for each step
out of a node not seen yet. -/
def entriesLeft (nodes : List String) (next : String → List String) (stack : List (String × Nat))
    (seen : Std.HashSet String) : Nat :=
  stack.length + workLeft nodes (fun n => (next n).length) fun n => !seen.contains n

theorem entriesLeft_start_le (hc : Confined nodes steps next) (entry : String × Nat)
    (seen : Std.HashSet String) : entriesLeft nodes next [entry] seen ≤ steps + 1 := by
  have hwork := workLeft_le nodes (fun n => (next n).length) fun n => !seen.contains n
  have hsteps := hc.length_le
  rw [entriesLeft, List.length_singleton]
  omega

/-- A node that is entered takes the steps out of it off the work that is left. -/
theorem workLeft_insert (hc : Confined nodes steps next) {seen : Std.HashSet String} {node : String}
    (hnew : node ∉ seen) :
    workLeft nodes (fun n => (next n).length) (fun n => !(seen.insert node).contains n) +
        (next node).length =
      workLeft nodes (fun n => (next n).length) fun n => !seen.contains n := by
  by_cases hnode : node ∈ nodes
  · refine workLeft_done hc.nodup hnode (by simpa using hnew) ?_ ?_
    · simp
    · intro n hn
      simp [Std.HashSet.contains_insert, Ne.symm hn]
  · rw [hc.next_eq_nil hnode, List.length_nil, Nat.add_zero]
    refine workLeft_congr fun n hn => ?_
    have hne : node ≠ n := fun h => hnode (h ▸ hn)
    simp [Std.HashSet.contains_insert, hne]

/-- Entering a node leaves fewer entries to take, although its children are put on the stack. -/
theorem entriesLeft_enter_lt (hc : Confined nodes steps next) {seen : Std.HashSet String}
    {node : String} (hnew : node ∉ seen) (p : String → Bool) (depth : Nat)
    (stack : List (String × Nat)) :
    entriesLeft nodes next (((next node).filter p).map (·, depth + 1) ++ stack)
        (seen.insert node) <
      entriesLeft nodes next ((node, depth) :: stack) seen := by
  have hwork := workLeft_insert hc hnew
  have hfresh : ((next node).filter p).length ≤ (next node).length := List.length_filter_le _ _
  rw [entriesLeft, entriesLeft, List.length_append, List.length_map, List.length_cons]
  omega

/-- With enough fuel the final set contains the stack and every step out of a node found. -/
theorem discoverFrom_closed (hc : Confined nodes steps next) (fuel : Nat)
    (stack : List (String × Nat)) (seen : Std.HashSet String)
    (hfuel : entriesLeft nodes next stack seen ≤ fuel) :
    (∀ entry ∈ stack, entry.1 ∈ (discoverFrom next fuel stack seen).2) ∧
      ∀ u ∈ (discoverFrom next fuel stack seen).1.map Prod.fst, ∀ v ∈ next u,
        v ∈ (discoverFrom next fuel stack seen).2 := by
  fun_induction discoverFrom next fuel stack seen with
  | case1 stack seen =>
      rw [entriesLeft] at hfuel
      have : stack = [] := List.eq_nil_of_length_eq_zero (by omega)
      simp [this]
  | case2 => simp
  | case3 fuel node depth stack seen hseen ih =>
      rw [entriesLeft, List.length_cons] at hfuel
      obtain ⟨hstack, hsteps⟩ := ih (by rw [entriesLeft]; omega)
      refine ⟨?_, hsteps⟩
      intro entry hentry
      rcases List.mem_cons.mp hentry with rfl | hentry
      · -- the entry is passed over because its node was seen
        exact (mem_discoverFrom_seen ..).mpr (.inl hseen)
      · exact hstack entry hentry
  | case4 fuel node depth stack seen hseen inserted fresh found final hrec ih =>
      have hless : entriesLeft nodes next (fresh.map (·, depth + 1) ++ stack) inserted <
          entriesLeft nodes next ((node, depth) :: stack) seen :=
        entriesLeft_enter_lt hc hseen _ depth stack
      have hseen' := mem_discoverFrom_seen next fuel
        (fresh.map (·, depth + 1) ++ stack) inserted
      obtain ⟨hstack, hsteps⟩ := ih (by omega)
      rw [hrec] at hstack hsteps hseen'
      constructor
      · intro entry hentry
        rcases List.mem_cons.mp hentry with rfl | hentry
        · exact (hseen' _).mpr (.inl Std.HashSet.mem_insert_self)
        · exact hstack entry (List.mem_append_right _ hentry)
      · intro u hu v hv
        rcases List.mem_cons.mp hu with rfl | hu
        · -- a child that was seen stays seen, any other one has just been put on the stack
          by_cases hvseen : v ∈ inserted
          · exact (hseen' v).mpr (.inl hvseen)
          · have hmem : (v, depth + 1) ∈ fresh.map (·, depth + 1) ++ stack :=
              List.mem_append_left _ (List.mem_map.mpr
                ⟨v, List.mem_filter.mpr ⟨hv, by simpa using hvseen⟩, rfl⟩)
            exact hstack _ hmem
        · exact hsteps u hu v hv

/-- A discovery finds exactly the nodes that can be reached. -/
theorem mem_reach_iff (hc : Confined nodes steps next) {start n : String} :
    n ∈ reach next steps start ↔ Reachable next start n := by
  obtain ⟨hstack, hsteps⟩ := discoverFrom_closed hc _ _ ∅ (entriesLeft_start_le hc (start, 0) ∅)
  have hseen := mem_discoverFrom_seen next (steps + 1) [(start, 0)] ∅
  rw [reach]
  constructor
  · intro h
    obtain ⟨⟨m, d⟩, hmem, rfl⟩ := List.mem_map.mp (((hseen n).mp h).resolve_left (by simp))
    obtain ⟨entry, hentry, k, way, -⟩ := leads_of_mem_discoverFrom _ _ _ hmem
    rw [List.mem_singleton.mp hentry] at way
    exact way.reachable
  · intro h
    induction h with
    | refl => exact hstack _ (List.mem_singleton_self _)
    | tail _ hv ih => exact hsteps _ (((hseen _).mp ih).resolve_left (by simp)) _ hv

end DiagramReadability.Graph
