import DiagramReadability.Graph.Discovery

/-!
# Reachability

Ways through a graph as a relation, with their number of steps.  It says without any search what a
node reaches, which nodes are connected and which lie on a cycle.  Main statement: being connected
is an equivalence (`Connected.symm`, `Connected.trans`).
-/

namespace DiagramReadability.Graph

/-- Some way of so many steps along `next` leads from `start` to a node. -/
inductive Leads (next : String → List String) (start : String) : Nat → String → Prop where
  | here : Leads next start 0 start
  | step {n : Nat} {via last : String} (way : Leads next start n via) (h : last ∈ next via) :
      Leads next start (n + 1) last

def Reaches (g : Graph) (start last : String) : Prop :=
  ∃ n, Leads g.children start n last

def Connected (g : Graph) (start last : String) : Prop :=
  ∃ n, Leads g.neighbours start n last

def OnCycle (g : Graph) (node : String) : Prop :=
  ∃ n, Leads g.children node (n + 1) node

def IsSimplePath (g : Graph) (path : List String) : Prop :=
  path.Nodup ∧ ∀ p ∈ path.zip path.tail, p.2 ∈ g.children p.1

theorem Leads.append {next : String → List String} {start via last : String} {m n : Nat}
    (h₁ : Leads next start m via) (h₂ : Leads next via n last) :
    Leads next start (m + n) last := by
  induction h₂ with
  | here => exact h₁
  | step _ h ih => exact ih.step h

theorem Leads.cons {next : String → List String} {start via last : String} {n : Nat}
    (h : via ∈ next start) (way : Leads next via n last) : Leads next start (n + 1) last := by
  have := (Leads.here.step h).append way
  rwa [Nat.add_comm] at this

theorem Leads.reverse {next : String → List String}
    (hback : ∀ u v, v ∈ next u → u ∈ next v) {start last : String} {n : Nat}
    (way : Leads next start n last) : Leads next last n start := by
  induction way with
  | here => exact .here
  | step _ h ih => exact ih.cons (hback _ _ h)

theorem mem_children_ofEdges {edges : List Edge} {u v : String} :
    v ∈ (ofEdges edges).children u ↔ ∃ e ∈ edges, e.source = u ∧ e.target = v := by
  simp [children_ofEdges, and_assoc]

theorem mem_parents_ofEdges {edges : List Edge} {u v : String} :
    v ∈ (ofEdges edges).parents u ↔ ∃ e ∈ edges, e.target = u ∧ e.source = v := by
  simp [parents_ofEdges, and_assoc]

theorem mem_neighbours_comm {edges : List Edge} {u v : String}
    (h : v ∈ (ofEdges edges).neighbours u) : u ∈ (ofEdges edges).neighbours v := by
  rw [neighbours, List.mem_append, mem_children_ofEdges, mem_parents_ofEdges] at *
  rcases h with ⟨e, he, hs, ht⟩ | ⟨e, he, ht, hs⟩
  · exact .inr ⟨e, he, ht, hs⟩
  · exact .inl ⟨e, he, hs, ht⟩

theorem Reaches.refl (g : Graph) (node : String) : g.Reaches node node :=
  ⟨0, .here⟩

theorem Reaches.trans {g : Graph} {a b c : String} :
    g.Reaches a b → g.Reaches b c → g.Reaches a c
  | ⟨_, h₁⟩, ⟨_, h₂⟩ => ⟨_, h₁.append h₂⟩

theorem Connected.refl (g : Graph) (node : String) : g.Connected node node :=
  ⟨0, .here⟩

theorem Connected.trans {g : Graph} {a b c : String} :
    g.Connected a b → g.Connected b c → g.Connected a c
  | ⟨_, h₁⟩, ⟨_, h₂⟩ => ⟨_, h₁.append h₂⟩

theorem Connected.symm {edges : List Edge} {a b : String} :
    (ofEdges edges).Connected a b → (ofEdges edges).Connected b a
  | ⟨_, way⟩ => ⟨_, way.reverse fun _ _ h => mem_neighbours_comm h⟩

end DiagramReadability.Graph
