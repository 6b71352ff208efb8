import DiagramReadability.Proofs.Graph.Discovery

/-!
# Connected components

A discovery along edges in both directions starts at a node that no earlier one has found.  What was
seen before is closed under such steps, so the new discovery finds the whole class of its root and
nothing else.
-/

namespace DiagramReadability.Graph

variable {edges : List Edge}

theorem Reachable.neighbours_symm {u v : String} (h : Reachable (ofEdges edges).neighbours u v) :
    Reachable (ofEdges edges).neighbours v u := by
  induction h with
  | refl => exact .refl
  | tail _ hstep ih => exact .head (mem_neighbours_comm hstep) ih

/-- No step in either direction leads out of the nodes seen. -/
def ClosedSeen (g : Graph) (seen : Std.HashSet String) : Prop :=
  ∀ u ∈ seen, ∀ v ∈ g.neighbours u, v ∈ seen

theorem ClosedSeen.reachable {g : Graph} {seen : Std.HashSet String} (hseen : g.ClosedSeen seen)
    {u v : String} (h : Reachable g.neighbours u v) (hu : u ∈ seen) : v ∈ seen := by
  induction h with
  | refl => exact hu
  | tail _ hstep ih => exact hseen _ ih _ hstep

/-- The discovery that opens a component. -/
abbrev openComponent (g : Graph) (seen : Std.HashSet String) (root : String) :
    List (String × Nat) × Std.HashSet String :=
  discoverFrom g.neighbours (2 * g.edges.length + 1) [(root, 0)] seen

theorem componentsFrom_of_seen {g : Graph} {seen : Std.HashSet String} {root : String}
    (hroot : seen.contains root = true) (rest : List String) :
    g.componentsFrom seen (root :: rest) = g.componentsFrom seen rest := by
  rw [componentsFrom, if_pos hroot]

theorem componentsFrom_of_new {g : Graph} {seen : Std.HashSet String} {root : String}
    (hroot : ¬ seen.contains root = true) (rest : List String) :
    g.componentsFrom seen (root :: rest) =
      (g.openComponent seen root).1.map Prod.fst ::
        g.componentsFrom (g.openComponent seen root).2 rest := by
  rw [componentsFrom, if_neg hroot]

theorem openComponent_closed (seen : Std.HashSet String) (root : String) :
    root ∈ ((ofEdges edges).openComponent seen root).2 ∧
      ∀ u ∈ ((ofEdges edges).openComponent seen root).1.map Prod.fst,
        ∀ v ∈ (ofEdges edges).neighbours u, v ∈ ((ofEdges edges).openComponent seen root).2 := by
  have hc := confined_neighbours edges
  rcases discoverFrom_closed hc _ _ seen (entriesLeft_start_le hc (root, 0) seen)
    with ⟨hstack, hsteps⟩
  exact ⟨hstack _ (List.mem_singleton_self _), hsteps⟩

theorem ClosedSeen.discover {seen : Std.HashSet String} (hseen : (ofEdges edges).ClosedSeen seen)
    (root : String) : (ofEdges edges).ClosedSeen ((ofEdges edges).openComponent seen root).2 := by
  intro u hu v hv
  have hfinal := mem_discoverFrom_seen (ofEdges edges).neighbours (2 * edges.length + 1)
    [(root, 0)] seen
  rcases (hfinal u).mp hu with hu | hu
  · exact (hfinal v).mpr (.inl (hseen u hu v hv))
  · exact (openComponent_closed seen root).2 u hu v hv

/-- A component opened at a new root consists of all that is connected with it. -/
theorem mem_openComponent_iff {seen : Std.HashSet String} (hseen : (ofEdges edges).ClosedSeen seen)
    {root : String} (hroot : root ∉ seen) {n : String} :
    n ∈ ((ofEdges edges).openComponent seen root).1.map Prod.fst ↔
      Reachable (ofEdges edges).neighbours root n := by
  constructor
  · intro h
    rcases List.mem_map.mp h with ⟨⟨m, d⟩, hmem, rfl⟩
    rcases leads_of_mem_discoverFrom _ _ _ hmem with ⟨entry, hentry, k, way, -⟩
    rw [List.mem_singleton.mp hentry] at way
    exact way.reachable
  · intro h
    -- what is connected with a new root is new itself, so this discovery must have found it
    have hfinal := (hseen.discover root).reachable h (openComponent_closed seen root).1
    rcases (mem_discoverFrom_seen _ _ _ _ n).mp hfinal with hn | hn
    · exact absurd (hseen.reachable h.neighbours_symm hn) hroot
    · exact hn

theorem componentsFrom_spec (roots : List String) (seen : Std.HashSet String)
    (hseen : (ofEdges edges).ClosedSeen seen) :
    (∀ c ∈ (ofEdges edges).componentsFrom seen roots, c.Nodup ∧
      ∃ root ∈ roots, ∀ n, n ∈ c ↔ Reachable (ofEdges edges).neighbours root n) ∧
      ∀ n ∈ roots, n ∈ seen ∨ ∃ c ∈ (ofEdges edges).componentsFrom seen roots, n ∈ c := by
  induction roots generalizing seen with
  | nil => simp [componentsFrom]
  | cons root rest ih =>
      by_cases hroot : seen.contains root = true
      · -- a root that was seen opens no component
        rw [componentsFrom_of_seen hroot]
        rcases ih seen hseen with ⟨hclasses, hcover⟩
        refine ⟨fun c hcmem => ?_, fun n hn => ?_⟩
        · rcases hclasses c hcmem with ⟨hnodup, r, hr, hiff⟩
          exact ⟨hnodup, r, List.mem_cons_of_mem _ hr, hiff⟩
        · rcases List.mem_cons.mp hn with rfl | hn
          · exact .inl hroot
          · exact hcover n hn
      · have hnew : root ∉ seen := hroot
        have hopened := @mem_openComponent_iff edges seen hseen root hnew
        rcases ih _ (hseen.discover root) with ⟨hclasses, hcover⟩
        rw [componentsFrom_of_new hroot]
        refine ⟨fun c hcmem => ?_, fun n hn => ?_⟩
        · rcases List.mem_cons.mp hcmem with rfl | hcmem
          · exact ⟨(nodup_discoverFrom _ _ _).1, root, List.mem_cons_self, fun n => hopened⟩
          · rcases hclasses c hcmem with ⟨hnodup, r, hr, hiff⟩
            exact ⟨hnodup, r, List.mem_cons_of_mem _ hr, hiff⟩
        · rcases List.mem_cons.mp hn with rfl | hn
          · exact .inr ⟨_, List.mem_cons_self, hopened.mpr .refl⟩
          · rcases hcover n hn with hn | ⟨c, hcmem, hn⟩
            · rcases (mem_discoverFrom_seen _ _ _ _ n).mp hn with hn | hn
              · exact .inl hn
              · exact .inr ⟨_, List.mem_cons_self, hn⟩
            · exact .inr ⟨c, List.mem_cons_of_mem _ hcmem, hn⟩

theorem closedSeen_empty (g : Graph) : g.ClosedSeen ∅ := by
  intro u hu
  simp at hu

/-- Every node has a component, which lists once each all that is connected with it. -/
theorem exists_component {n : String} (hn : n ∈ (ofEdges edges).nodes) :
    ∃ c ∈ (ofEdges edges).components, c.Nodup ∧
      ∀ m, m ∈ c ↔ Reachable (ofEdges edges).neighbours n m := by
  rcases componentsFrom_spec (ofEdges edges).nodes ∅ (closedSeen_empty _) with ⟨hclasses, hcover⟩
  rcases (hcover n hn).resolve_left (by simp) with ⟨c, hcmem, hnc⟩
  rcases hclasses c hcmem with ⟨hnodup, root, -, hiff⟩
  have hroot := (hiff n).mp hnc
  refine ⟨c, hcmem, hnodup, fun m => ?_⟩
  rw [hiff m]
  exact ⟨fun h => hroot.neighbours_symm.trans h, fun h => hroot.trans h⟩

end DiagramReadability.Graph
