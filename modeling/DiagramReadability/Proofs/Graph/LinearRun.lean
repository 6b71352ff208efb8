import DiagramReadability.Proofs.Graph.LongestPath

/-!
# Linear runs

A linear run goes on along single links through linear nodes.  The run from a node is one, and no
run that begins there is longer, so the chain of a graph is as long as any of its runs.
-/

namespace DiagramReadability.Graph

/-- Distinct linear nodes, each followed by its only child, which has no other parent. -/
structure IsRun (g : Graph) (path : List String) : Prop where
  nodup : path.Nodup
  linear : ∀ n ∈ path, g.isLinear n = true
  linked : path.IsChain fun u v => g.linkedChild? u = some v

variable {g : Graph}

theorem linkedChild?_eq_some_iff {u v : String} :
    g.linkedChild? u = some v ↔ g.children u = [v] ∧ g.inDegree v = 1 := by
  rw [linkedChild?]
  constructor
  · intro h
    split at h
    · rename_i child hchildren
      by_cases hdegree : g.inDegree child = 1
      · rw [if_pos hdegree, Option.some.injEq] at h
        exact ⟨h ▸ hchildren, h ▸ hdegree⟩
      · rw [if_neg hdegree] at h
        simp at h
    · simp at h
  · rintro ⟨hchildren, hdegree⟩
    rw [hchildren]
    exact if_pos hdegree

theorem IsRun.isSimple {path : List String} (h : g.IsRun path) : IsSimple g.children path := by
  refine ⟨h.nodup, h.linked.imp fun u v hlink => ?_⟩
  rw [(linkedChild?_eq_some_iff.mp hlink).1]
  exact List.mem_singleton_self v

theorem IsRun.tail {n : String} {path : List String} (h : g.IsRun (n :: path)) : g.IsRun path where
  nodup := (List.nodup_cons.mp h.nodup).2
  linear m hm := h.linear m (List.mem_cons_of_mem _ hm)
  linked := h.linked.tail

/-! ## The run from a node -/

theorem runFrom_spec (fuel : Nat) (seen : Std.HashSet String) (node : String) :
    g.IsRun (g.runFrom fuel seen node) ∧ (∀ n ∈ g.runFrom fuel seen node, n ∉ seen) ∧
      ∀ n, (g.runFrom fuel seen node).head? = some n → n = node := by
  induction fuel generalizing seen node with
  | zero => exact ⟨⟨List.nodup_nil, by simp [runFrom], List.isChain_nil⟩, by simp [runFrom],
      by simp [runFrom]⟩
  | succ fuel ih =>
      rw [runFrom]
      split
      · exact ⟨⟨List.nodup_nil, by simp, List.isChain_nil⟩, by simp, by simp⟩
      · rename_i hgo
        rw [Bool.or_eq_true, not_or, Bool.not_eq_true', Bool.not_eq_false] at hgo
        have hnew : node ∉ seen := hgo.1
        cases hlink : g.linkedChild? node with
        | none =>
            refine ⟨⟨List.nodup_singleton node, by simpa using hgo.2, List.isChain_singleton node⟩,
              by simpa using hnew, ?_⟩
            intro n hn
            exact (Option.some.inj hn).symm
        | some child =>
            rcases ih (seen.insert node) child with ⟨hrun, hunseen, hhead⟩
            -- the run of the child avoids all that was seen, this node included
            have hout : node ∉ g.runFrom fuel (seen.insert node) child := fun hin =>
              hunseen node hin Std.HashSet.mem_insert_self
            refine ⟨⟨List.nodup_cons.mpr ⟨hout, hrun.nodup⟩, ?_, ?_⟩, ?_, ?_⟩
            · intro n hn
              rcases List.mem_cons.mp hn with rfl | hn
              · exact hgo.2
              · exact hrun.linear n hn
            · apply List.isChain_cons.mpr
              exact ⟨fun n hn => by rw [hhead n hn]; exact hlink, hrun.linked⟩
            · intro n hn
              rcases List.mem_cons.mp hn with rfl | hn
              · exact hnew
              · exact fun h => hunseen n hn (Std.HashSet.mem_insert.mpr (.inr h))
            · intro n hn
              exact (Option.some.inj hn).symm

/-- A run that begins at a node is no longer than the run the walk from there finds. -/
theorem length_le_runFrom {fuel : Nat} {seen : Std.HashSet String} {node : String}
    {rest : List String} (hrun : g.IsRun (node :: rest)) (hunseen : ∀ n ∈ node :: rest, n ∉ seen)
    (hfuel : (node :: rest).length ≤ fuel) :
    (node :: rest).length ≤ (g.runFrom fuel seen node).length := by
  induction rest generalizing fuel seen node with
  | nil =>
      cases fuel with
      | zero => simp at hfuel
      | succ fuel =>
          have hnew : seen.contains node = false := by
            simpa using hunseen node List.mem_cons_self
          rw [runFrom, hnew, hrun.linear node List.mem_cons_self]
          simp
  | cons child rest ih =>
      cases fuel with
      | zero => simp at hfuel
      | succ fuel =>
          have hnew : seen.contains node = false := by
            simpa using hunseen node List.mem_cons_self
          have hlink := (List.isChain_cons_cons.mp hrun.linked).1
          rw [runFrom, hnew, hrun.linear node List.mem_cons_self, hlink]
          have hunseen' : ∀ n ∈ child :: rest, n ∉ seen.insert node := by
            intro n hn hin
            rcases Std.HashSet.mem_insert.mp hin with heq | hin
            · rw [beq_iff_eq] at heq
              exact (List.nodup_cons.mp hrun.nodup).1 (heq ▸ hn)
            · exact hunseen n (List.mem_cons_of_mem _ hn) hin
          have hrest := ih hrun.tail hunseen' (Nat.le_of_succ_le_succ hfuel)
          simpa using hrest

/-! ## The chain of a graph -/

theorem isRun_linearChain {edges : List Edge} :
    (ofEdges edges).IsRun (ofEdges edges).linearChain.path ∧
      (ofEdges edges).linearChain.path ⊆ (ofEdges edges).nodes := by
  show (ofEdges edges).IsRun (firstLongest ((ofEdges edges).nodes.map (ofEdges edges).linearRun)) ∧
    firstLongest ((ofEdges edges).nodes.map (ofEdges edges).linearRun) ⊆ (ofEdges edges).nodes
  by_cases hnil : (ofEdges edges).nodes.map (ofEdges edges).linearRun = []
  · rw [hnil]
    exact ⟨⟨List.nodup_nil, by simp [firstLongest], List.isChain_nil⟩, List.nil_subset _⟩
  · rcases List.mem_map.mp (firstLongest_mem hnil) with ⟨node, hnode, heq⟩
    rcases runFrom_spec (g := ofEdges edges) ((ofEdges edges).nodes.length + 1) ∅ node
      with ⟨hrun, -, hhead⟩
    rw [← heq, linearRun]
    refine ⟨hrun, ?_⟩
    cases hpath : (ofEdges edges).runFrom ((ofEdges edges).nodes.length + 1) ∅ node with
    | nil => exact List.nil_subset _
    | cons first rest =>
        rw [hpath] at hrun hhead
        have hfirst : first ∈ (ofEdges edges).nodes := by
          rw [hhead first List.head?_cons]
          exact hnode
        exact hrun.isSimple.subset_nodes (confined_children edges) hfirst

/-- A run is no longer than the one that the walk from its first node finds. -/
theorem length_le_linearRun {edges : List Edge} {node : String} {rest : List String}
    (hrun : (ofEdges edges).IsRun (node :: rest)) (hsub : node :: rest ⊆ (ofEdges edges).nodes) :
    (node :: rest).length ≤ ((ofEdges edges).linearRun node).length :=
  length_le_runFrom hrun (by simp) (Nat.le_succ_of_le (hrun.isSimple.length_le hsub))

/-- No linear run of a graph is longer than its chain. -/
theorem length_le_linearChain {edges : List Edge} {path : List String}
    (hrun : (ofEdges edges).IsRun path) (hsub : path ⊆ (ofEdges edges).nodes) :
    path.length ≤ (ofEdges edges).linearChain.path.length := by
  cases path with
  | nil => exact Nat.zero_le _
  | cons node rest =>
      exact (length_le_linearRun hrun hsub).trans (length_le_firstLongest
        (List.mem_map_of_mem (f := (ofEdges edges).linearRun) (hsub List.mem_cons_self)))

end DiagramReadability.Graph
