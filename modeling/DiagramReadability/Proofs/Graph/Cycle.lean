import DiagramReadability.Graph.Cycle
import DiagramReadability.Proofs.Graph.Steps

/-!
# Finding a cycle

The walk keeps three kinds of nodes apart.  The active ones are those on its way, the finished ones
are closed under steps and lie on no cycle, and a child of a node on the way is still to be tried,
finished, or the next node of the way.  From this, a child that is active closes a cycle, and a walk
that ends without one has finished all it met.
-/

namespace DiagramReadability.Graph

/-- Some way along at least one step of `next` leads from one node to the other. -/
abbrev Follows (next : String → List String) : String → String → Prop :=
  Relation.TransGen fun u v => v ∈ next u

theorem Follows.mono {next more : String → List String} {u v : String}
    (hsub : ∀ w, next w ⊆ more w) (h : Follows next u v) : Follows more u v :=
  Relation.TransGen.mono (fun w _ hstep => hsub w hstep) _ _ h

theorem onCycle_iff {g : Graph} {node : String} :
    g.OnCycle node ↔ Follows g.children node node := by
  constructor
  · rintro ⟨n, way⟩
    cases way with
    | step way h => exact .tail' way.reachable h
  · intro h
    rcases Relation.TransGen.tail'_iff.mp h with ⟨via, hvia, hstep⟩
    rcases exists_leads_iff.mpr hvia with ⟨n, way⟩
    exact ⟨n, way.step hstep⟩

/-- What holds of the nodes on a way: each leads to the one above it, and its other children are
finished or still to be tried. -/
def Tried (g : Graph) (marks : Marks) : Option String → List (String × List String) → Prop
  | _, [] => True
  | above, (node, rest) :: way =>
      rest ⊆ g.children node ∧ (∀ c, above = some c → c ∈ g.children node) ∧
        (∀ c ∈ g.children node, c ∈ rest ∨ marks[c]? = some Mark.finished ∨ above = some c) ∧
          Tried g marks (some node) way

/-- The state of a walk between two steps. -/
structure WalkInv (g : Graph) (way : List (String × List String)) (marks : Marks) : Prop where
  nodup : (way.map Prod.fst).Nodup
  active : ∀ n, marks[n]? = some Mark.active ↔ n ∈ way.map Prod.fst
  closed : ∀ n, marks[n]? = some Mark.finished → ∀ c ∈ g.children n, marks[c]? = some Mark.finished
  acyclic : ∀ n, marks[n]? = some Mark.finished → ¬Follows g.children n n
  tried : g.Tried marks none way

variable {g : Graph} {marks : Marks} {way : List (String × List String)} {steps : Nat}

theorem getElem?_mark (marks : Marks) (node : String) (mark : Mark) (n : String) :
    (marks.insert node mark)[n]? = if node = n then some mark else marks[n]? := by
  rw [Std.HashMap.getElem?_insert]
  simp only [beq_iff_eq]

/-- To mark an unmarked node as active finishes nothing. -/
theorem mark_active_finished_iff {node : String} (hnone : marks[node]? = none) (n : String) :
    (marks.insert node Mark.active)[n]? = some Mark.finished ↔
      marks[n]? = some Mark.finished := by
  rw [getElem?_mark]
  by_cases heq : node = n
  · subst heq
    simp [hnone]
  · rw [if_neg heq]

theorem Tried.mono {later : Marks} {above : Option String}
    (hkeep : ∀ c : String, marks[c]? = some Mark.finished → later[c]? = some Mark.finished)
    (h : g.Tried marks above way) : g.Tried later above way := by
  induction way generalizing above with
  | nil => trivial
  | cons entry way ih =>
      rcases entry with ⟨node, rest⟩
      rcases h with ⟨hrest, habove, hchildren, hway⟩
      refine ⟨hrest, habove, ?_, ih hway⟩
      intro c hc
      rcases hchildren c hc with h | h | h
      · exact .inl h
      · exact .inr (.inl (hkeep c h))
      · exact .inr (.inr h)

/-- What stood above the way is finished, so nothing needs to stand there. -/
theorem Tried.finish {later : Marks} {node : String}
    (hkeep : ∀ c : String, marks[c]? = some Mark.finished → later[c]? = some Mark.finished)
    (hnode : later[node]? = some Mark.finished) (h : g.Tried marks (some node) way) :
    g.Tried later none way := by
  cases way with
  | nil => trivial
  | cons entry way =>
      rcases entry with ⟨below, rest⟩
      rcases h with ⟨hrest, -, hbelow, hway⟩
      refine ⟨hrest, by simp, ?_, hway.mono hkeep⟩
      intro c hc
      rcases hbelow c hc with h | h | h
      · exact .inl h
      · exact .inr (.inl (hkeep c h))
      · rw [Option.some.injEq] at h
        exact .inr (.inl (h ▸ hnode))

/-- Every node of the way leads to the one above it all. -/
theorem Tried.follows {last n : String} (h : g.Tried marks (some last) way)
    (hn : n ∈ way.map Prod.fst) : Follows g.children n last := by
  induction way generalizing last with
  | nil => simp at hn
  | cons entry way ih =>
      rcases entry with ⟨node, rest⟩
      rcases h with ⟨-, habove, -, hway⟩
      have hstep : last ∈ g.children node := habove last rfl
      rcases List.mem_cons.mp hn with rfl | hn
      · exact .single hstep
      · exact (ih hway hn).tail hstep

theorem WalkInv.reachable_finished (hinv : WalkInv g way marks) {u v : String}
    (h : Reachable g.children u v) (hu : marks[u]? = some Mark.finished) :
    marks[v]? = some Mark.finished := by
  induction h with
  | refl => exact hu
  | tail _ hstep ih => exact hinv.closed _ ih _ hstep

/-! ## The steps of a walk -/

/-- A node without untried children leaves the way. -/
theorem WalkInv.leave {node : String} (hinv : WalkInv g ((node, []) :: way) marks) :
    WalkInv g way (marks.insert node .finished) := by
  have hnode : marks[node]? = some Mark.active := (hinv.active node).mpr List.mem_cons_self
  rcases hinv.tried with ⟨-, -, hchildren, hway⟩
  have hnodup := List.nodup_cons.mp hinv.nodup
  have hdone : ∀ c ∈ g.children node, marks[c]? = some Mark.finished := by
    intro c hc
    rcases hchildren c hc with h | h | h
    · simp at h
    · exact h
    · simp at h
  -- no mark is taken back
  have hkeep : ∀ c : String, marks[c]? = some Mark.finished →
      (marks.insert node Mark.finished)[c]? = some Mark.finished := by
    intro c hc
    rw [getElem?_mark]
    split
    · rfl
    · exact hc
  constructor
  case nodup => exact hnodup.2
  case active =>
    intro n
    rw [getElem?_mark]
    by_cases hn : node = n
    · subst hn
      rw [if_pos rfl]
      exact ⟨fun h => by simp at h, fun h => absurd h hnodup.1⟩
    · rw [if_neg hn, hinv.active, List.map_cons, List.mem_cons]
      exact ⟨fun h => h.resolve_left fun heq => hn heq.symm, .inr⟩
  case closed =>
    intro n hn c hc
    rw [getElem?_mark] at hn
    apply hkeep
    by_cases heq : node = n
    · exact hdone c (heq ▸ hc)
    · rw [if_neg heq] at hn
      exact hinv.closed n hn c hc
  case acyclic =>
    intro n hn hcycle
    rw [getElem?_mark] at hn
    by_cases heq : node = n
    · -- a cycle through the node would have finished it before
      subst heq
      rcases Relation.TransGen.head'_iff.mp hcycle with ⟨c, hstep, hback⟩
      have := hinv.reachable_finished hback (hdone c hstep)
      rw [hnode] at this
      simp at this
    · rw [if_neg heq] at hn
      exact hinv.acyclic n hn hcycle
  case tried => exact hway.finish hkeep Std.HashMap.getElem?_insert_self

/-- A finished child needs no second walk. -/
theorem WalkInv.skip {node child : String} {rest : List String}
    (hinv : WalkInv g ((node, child :: rest) :: way) marks)
    (hchild : marks[child]? = some Mark.finished) : WalkInv g ((node, rest) :: way) marks := by
  rcases hinv.tried with ⟨hrest, habove, hchildren, hway⟩
  refine ⟨hinv.nodup, hinv.active, hinv.closed, hinv.acyclic, ?_⟩
  refine ⟨(List.cons_subset.mp hrest).2, habove, ?_, hway⟩
  intro c hc
  rcases hchildren c hc with h | h
  · rcases List.mem_cons.mp h with rfl | h
    · exact .inr (.inl hchild)
    · exact .inl h
  · exact .inr h

/-- A child without a mark goes onto the way. -/
theorem WalkInv.enter {node child : String} {rest : List String}
    (hinv : WalkInv g ((node, child :: rest) :: way) marks) (hchild : marks[child]? = none) :
    WalkInv g ((child, g.children child) :: (node, rest) :: way) (marks.insert child .active) := by
  rcases hinv.tried with ⟨hrest, habove, hchildren, hway⟩
  have hkeep := mark_active_finished_iff hchild
  -- the nodes on the way are the active ones, and the child has no mark
  have hoff : child ∉ ((node, child :: rest) :: way).map Prod.fst := by
    rw [← hinv.active, hchild]
    simp
  constructor
  case nodup => exact List.nodup_cons.mpr ⟨hoff, hinv.nodup⟩
  case active =>
    intro n
    rw [getElem?_mark, List.map_cons, List.mem_cons]
    by_cases heq : child = n
    · simp [heq]
    · rw [if_neg heq, hinv.active]
      exact ⟨.inr, fun h => h.resolve_left fun h => heq h.symm⟩
  case closed =>
    intro n hn c hc
    exact (hkeep c).mpr (hinv.closed n ((hkeep n).mp hn) c hc)
  case acyclic =>
    intro n hn
    exact hinv.acyclic n ((hkeep n).mp hn)
  case tried =>
    refine ⟨List.Subset.refl _, by simp, fun c hc => .inl hc, (List.cons_subset.mp hrest).2, ?_, ?_,
      hway.mono fun c hc => (hkeep c).mpr hc⟩
    · intro c hc
      rw [Option.some.injEq] at hc
      exact hc ▸ hrest List.mem_cons_self
    · intro c hc
      rcases hchildren c hc with h | h | h
      · rcases List.mem_cons.mp h with rfl | h
        · exact .inr (.inr rfl)
        · exact .inl h
      · exact .inr (.inl ((hkeep c).mpr h))
      · simp at h

/-- An active child closes a cycle. -/
theorem WalkInv.exists_cycle {node child : String} {rest : List String}
    (hinv : WalkInv g ((node, child :: rest) :: way) marks)
    (hchild : marks[child]? = some Mark.active) : Follows g.children child child := by
  rcases hinv.tried with ⟨hrest, -, -, hway⟩
  have hstep : child ∈ g.children node := hrest List.mem_cons_self
  rcases List.mem_cons.mp ((hinv.active child).mp hchild) with rfl | hbelow
  · exact .single hstep
  · exact (hway.follows hbelow).tail hstep

/-! ## Whole walks -/

/-- The steps a walk can still take: every node on the way is left, every child is tried. -/
def walkLeft (g : Graph) (way : List (String × List String)) (marks : Marks) : Nat :=
  (way.map fun entry => entry.2.length + 1).sum +
    workLeft g.nodes (fun n => (g.children n).length + 1) fun n => !marks.contains n

theorem workLeft_insert_mark (hc : Confined g.nodes steps g.children) (mark : Mark)
    {child : String} (hmem : child ∈ g.nodes) (hchild : marks.contains child = false) :
    workLeft g.nodes (fun n => (g.children n).length + 1)
        (fun n => !(marks.insert child mark).contains n) + ((g.children child).length + 1) =
      workLeft g.nodes (fun n => (g.children n).length + 1) fun n => !marks.contains n := by
  apply workLeft_done hc.nodup hmem
  · simpa using hchild
  · simp
  · intro n hn
    simp [Std.HashMap.contains_insert, Ne.symm hn]

/-- What a walk that began with the given marks may end with: marks that finish all that it met, or
the news of a cycle. -/
def WalkEnds (g : Graph) (marks : Marks) : Option Marks → Prop
  | some final => WalkInv g [] final ∧ ∀ n, marks.contains n → final.contains n
  | none => ∃ n, Follows g.children n n

theorem WalkEnds.of_insert {node : String} {mark : Mark} {final : Option Marks}
    (h : g.WalkEnds (marks.insert node mark) final) : g.WalkEnds marks final := by
  cases final with
  | none => exact h
  | some final =>
      refine ⟨h.1, fun n hn => h.2 n ?_⟩
      rw [Std.HashMap.contains_insert, hn, Bool.or_true]

theorem walk?_spec (hc : Confined g.nodes steps g.children) (fuel : Nat)
    (way : List (String × List String)) (marks : Marks) (hinv : WalkInv g way marks)
    (hfuel : g.walkLeft way marks ≤ fuel) : g.WalkEnds marks (g.walk? fuel way marks) := by
  fun_induction walk? g fuel way marks with
  | case1 way marks =>
      cases way with
      | nil => exact ⟨hinv, fun _ h => h⟩
      | cons entry way => simp [walkLeft] at hfuel
  | case2 fuel marks => exact ⟨hinv, fun _ h => h⟩
  | case3 fuel node way marks ih =>
      have hnode : marks.contains node = true := by
        rw [Std.HashMap.contains_eq_isSome_getElem?, (hinv.active node).mpr List.mem_cons_self]
        rfl
      -- the node had a mark before, so the step is paid for by the way alone
      have hwork : workLeft g.nodes (fun n => (g.children n).length + 1)
          (fun n => !(marks.insert node .finished).contains n) =
            workLeft g.nodes (fun n => (g.children n).length + 1) fun n => !marks.contains n := by
        apply workLeft_congr
        intro n _
        by_cases heq : node = n
        · subst heq
          simp [hnode]
        · simp [Std.HashMap.contains_insert, heq]
      have hleft : g.walkLeft way (marks.insert node .finished) ≤ fuel := by
        rw [walkLeft, hwork]
        rw [walkLeft, List.map_cons, List.sum_cons] at hfuel
        omega
      exact (ih hinv.leave hleft).of_insert
  | case4 fuel node child rest way marks hchild => exact ⟨child, hinv.exists_cycle hchild⟩
  | case5 fuel node child rest way marks hchild ih =>
      apply ih (hinv.skip hchild)
      simp only [walkLeft, List.map_cons, List.sum_cons, List.length_cons] at hfuel ⊢
      omega
  | case6 fuel node child rest way marks hchild ih =>
      have hnone : marks.contains child = false := by
        rw [Std.HashMap.contains_eq_isSome_getElem?, hchild]
        rfl
      have hmem : child ∈ g.nodes := hc.target_mem (hinv.tried.1 List.mem_cons_self)
      -- the new entry of the way is paid for by the weight of the child
      have hwork := workLeft_insert_mark hc .active hmem hnone
      have hleft : g.walkLeft ((child, g.children child) :: (node, rest) :: way)
          (marks.insert child .active) ≤ fuel := by
        simp only [walkLeft, List.map_cons, List.sum_cons, List.length_cons] at hfuel ⊢
        omega
      exact (ih (hinv.enter hchild) hleft).of_insert

/-- At the end of a walk all that it met is finished. -/
theorem WalkInv.acyclic_of_contains (hinv : WalkInv g [] marks) {n : String}
    (hn : marks.contains n = true) : ¬Follows g.children n n := by
  rw [Std.HashMap.contains_eq_isSome_getElem?] at hn
  rcases Option.isSome_iff_exists.mp hn with ⟨mark, hmark⟩
  cases mark with
  | active => simpa using (hinv.active n).mp hmark
  | finished => exact hinv.acyclic n hmark

/-- A walk from a new root begins in order. -/
theorem WalkInv.start (hinv : WalkInv g [] marks) {root : String}
    (hroot : marks.contains root = false) :
    WalkInv g [(root, g.children root)] (marks.insert root .active) := by
  have hnone : marks[root]? = none := by
    rw [Std.HashMap.contains_eq_isSome_getElem?] at hroot
    exact Option.not_isSome_iff_eq_none.mp (by simp [hroot])
  have hkeep := mark_active_finished_iff hnone
  constructor
  · exact List.nodup_singleton _
  · intro n
    rw [getElem?_mark, List.map_singleton, List.mem_singleton]
    by_cases heq : root = n
    · simp [heq]
    · rw [if_neg heq, hinv.active]
      exact ⟨fun h => by simp at h, fun h => absurd h.symm heq⟩
  · intro n hn c hc
    exact (hkeep c).mpr (hinv.closed n ((hkeep n).mp hn) c hc)
  · intro n hn
    exact hinv.acyclic n ((hkeep n).mp hn)
  · exact ⟨List.Subset.refl _, by simp, fun c hc => .inl hc, trivial⟩

/-- No walk from a new root needs more fuel than it is given. -/
theorem walkLeft_start_le (hc : Confined g.nodes g.edges.length g.children) {root : String}
    (hmem : root ∈ g.nodes) (hroot : marks.contains root = false) :
    g.walkLeft [(root, g.children root)] (marks.insert root .active) ≤
      g.nodes.length + g.edges.length + 1 := by
  have hwork := workLeft_insert_mark hc .active hmem hroot
  have hle := workLeft_le g.nodes (fun n => (g.children n).length + 1) fun n => !marks.contains n
  have htotal := hc.length_le
  rw [List.sum_map_add] at hle
  simp only [walkLeft, List.map_singleton, List.sum_singleton, List.map_const',
    List.sum_replicate_nat, Nat.mul_one] at hle ⊢
  omega

theorem closesCycle_spec (hc : Confined g.nodes g.edges.length g.children) (roots : List String)
    (marks : Marks) (hinv : WalkInv g [] marks) (hroots : roots ⊆ g.nodes) :
    (g.closesCycle marks roots = true → ∃ n, Follows g.children n n) ∧
      (g.closesCycle marks roots = false → ∀ n, marks.contains n ∨ n ∈ roots →
        ¬Follows g.children n n) := by
  fun_induction closesCycle g marks roots with
  | case1 marks =>
      refine ⟨by simp, fun _ n hn => hinv.acyclic_of_contains (hn.resolve_right (by simp))⟩
  | case2 marks root rest hseen ih =>
      rcases ih hinv (List.cons_subset.mp hroots).2 with ⟨hcycle, hacyclic⟩
      refine ⟨hcycle, fun hfalse n hn => hacyclic hfalse n ?_⟩
      rcases hn with hn | hn
      · exact .inl hn
      · rcases List.mem_cons.mp hn with rfl | hn
        · -- an earlier walk has been through this root
          exact .inl hseen
        · exact .inr hn
  | case3 marks root rest hseen hwalk =>
      rw [Bool.not_eq_true] at hseen
      rcases List.cons_subset.mp hroots with ⟨hroot, -⟩
      have hspec := walk?_spec hc _ _ _ (hinv.start hseen) (walkLeft_start_le hc hroot hseen)
      rw [hwalk] at hspec
      exact ⟨fun _ => hspec, by simp⟩
  | case4 marks root rest hseen final hwalk ih =>
      rw [Bool.not_eq_true] at hseen
      rcases List.cons_subset.mp hroots with ⟨hroot, hrest⟩
      have hspec := walk?_spec hc _ _ _ (hinv.start hseen) (walkLeft_start_le hc hroot hseen)
      rw [hwalk] at hspec
      rcases hspec with ⟨hfinal, hmarked⟩
      rcases ih hfinal hrest with ⟨hcycle, hacyclic⟩
      refine ⟨hcycle, fun hfalse n hn => hacyclic hfalse n ?_⟩
      rcases hn with hn | hn
      · exact .inl (hmarked n (by rw [Std.HashMap.contains_insert, hn, Bool.or_true]))
      · rcases List.mem_cons.mp hn with rfl | hn
        · exact .inl (hmarked n (by simp))
        · exact .inr hn

theorem walkInv_empty (g : Graph) : WalkInv g [] ∅ where
  nodup := List.nodup_nil
  active n := by simp
  closed n hn := by simp at hn
  acyclic n hn := by simp at hn
  tried := trivial

/-- The search finds a cycle exactly if some node leads back to itself. -/
theorem hasCycle_iff (edges : List Edge) :
    (ofEdges edges).hasCycle = true ↔
      ∃ n, Follows (ofEdges edges).children n n := by
  have hc := confined_children edges
  rcases closesCycle_spec hc (ofEdges edges).nodes ∅ (walkInv_empty _) (List.Subset.refl _)
    with ⟨hcycle, hacyclic⟩
  refine ⟨hcycle, ?_⟩
  rintro ⟨n, hn⟩
  by_contra hfalse
  refine hacyclic (Bool.eq_false_iff.mpr hfalse) n (.inr ?_) hn
  rcases Relation.TransGen.head'_iff.mp hn with ⟨c, hstep, -⟩
  exact hc.source_mem hstep

end DiagramReadability.Graph
