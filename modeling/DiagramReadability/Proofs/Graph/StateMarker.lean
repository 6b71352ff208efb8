import DiagramReadability.Graph.Degree
import DiagramReadability.Proofs.Graph.Steps
import DiagramReadability.Proofs.Statement.Origin

/-!
# Start and end markers

An anonymous marker is a start where a link leaves it and an end where a link enters it.  A link
that points both ways is drawn back between the same two ids, so a marker before its arrow is a
start with an edge into it, and a marker after its arrow an end with an edge out of it.  No other
link makes a start anything but a root, or an end anything but a leaf.
-/

namespace DiagramReadability

open DiagramReadability.Text

namespace Statement

/-! ## One link -/

/-- The node has an id of its own, and it is that of a start or an end. -/
def Node.NamesMarker (node : Node) : Prop :=
  node = .named startNode.toList ∨ node = .named endNode.toList

instance (node : Node) : Decidable node.NamesMarker :=
  inferInstanceAs (Decidable (_ ∨ _))

variable {node : Node} {id : List Char}

theorem Node.ofList_ne_of_not_namesMarker (h : ¬ (Node.named id).NamesMarker) :
    String.ofList id ≠ startNode ∧ String.ofList id ≠ endNode := by
  constructor
  · intro hid
    exact h (.inl (by rw [← hid, String.toList_ofList]))
  · intro hid
    exact h (.inr (by rw [← hid, String.toList_ofList]))

theorem Node.sourceId_ne_startNode_iff (h : ¬ node.NamesMarker) :
    node.sourceId ≠ startNode ↔ node ≠ .marker := by
  cases node with
  | marker => simp [Node.sourceId]
  | named id => exact iff_of_true (Node.ofList_ne_of_not_namesMarker h).1 Node.noConfusion

theorem Node.targetId_ne_endNode_iff (h : ¬ node.NamesMarker) :
    node.targetId ≠ endNode ↔ node ≠ .marker := by
  cases node with
  | marker => simp [Node.targetId]
  | named id => exact iff_of_true (Node.ofList_ne_of_not_namesMarker h).2 Node.noConfusion

theorem Node.targetId_ne_startNode (h : ¬ node.NamesMarker) : node.targetId ≠ startNode := by
  cases node with
  | marker => decide
  | named id => exact (Node.ofList_ne_of_not_namesMarker h).1

theorem Node.sourceId_ne_endNode (h : ¬ node.NamesMarker) : node.sourceId ≠ endNode := by
  cases node with
  | marker => decide
  | named id => exact (Node.ofList_ne_of_not_namesMarker h).2

/-- Neither node of the link has the id of a start or an end. -/
def Link.NamesNoMarker (link : Link) : Prop :=
  ¬ link.source.NamesMarker ∧ ¬ link.target.NamesMarker

instance (link : Link) : Decidable link.NamesNoMarker :=
  inferInstanceAs (Decidable (_ ∧ _))

-- The edge back swaps the two ids of the link and does not name its nodes again, so its target is a
-- source id.
theorem Link.forall_target_ne_iff (colon : Option (List Char)) (link : Link) (id : String) :
    (∀ edge ∈ link.edges colon, edge.target ≠ id) ↔
      link.target.targetId ≠ id ∧ (link.arrow = .bidirectional → link.source.sourceId ≠ id) := by
  by_cases harrow : link.arrow = .bidirectional <;> simp [Link.edges, harrow]

theorem Link.forall_source_ne_iff (colon : Option (List Char)) (link : Link) (id : String) :
    (∀ edge ∈ link.edges colon, edge.source ≠ id) ↔
      link.source.sourceId ≠ id ∧ (link.arrow = .bidirectional → link.target.targetId ≠ id) := by
  by_cases harrow : link.arrow = .bidirectional <;> simp [Link.edges, harrow]

/-- No link that points both ways has an anonymous marker before its arrow. -/
def KeepsStarts (links : List Link) : Prop :=
  ∀ link ∈ links, link.arrow = .bidirectional → link.source ≠ .marker

/-- No link that points both ways has an anonymous marker after its arrow. -/
def KeepsEnds (links : List Link) : Prop :=
  ∀ link ∈ links, link.arrow = .bidirectional → link.target ≠ .marker

instance (links : List Link) : Decidable (KeepsStarts links) :=
  inferInstanceAs (Decidable (∀ link ∈ links, _))

instance (links : List Link) : Decidable (KeepsEnds links) :=
  inferInstanceAs (Decidable (∀ link ∈ links, _))

end Statement

/-! ## The links of a diagram -/

open Statement

/-- The statements of a diagram, in the order of its text. -/
def statementsIn (content : String) : List (List Char) :=
  (lines content.toList).flatMap fun line =>
    if Line.kind line = .comment then []
    else (Line.statements line).filter fun part => Line.kind part = .statement

/-- The links of a diagram, in the order of its text. -/
def linksIn (content : String) : List Link :=
  (statementsIn content).flatMap linksOf

theorem extractEdges_eq_flatMap (content : String) :
    extractEdges content = (statementsIn content).flatMap edgesOf := by
  rw [extractEdges, statementsIn, List.flatMap_assoc]
  congr 1
  funext line
  rw [lineEdges]
  split
  · rfl
  · induction Line.statements line with
    | nil => rfl
    | cons part parts ih =>
        rw [List.flatMap_cons, ih, List.filter_cons]
        by_cases hkind : Line.kind part = .statement <;> simp [hkind]

/-- What all edges of a link satisfy if and only if the link is of some sort, whatever label stands
behind a colon, all edges of a diagram satisfy if and only if all its links are of that sort. -/
theorem forall_edges_iff {p : Edge → Prop} {q : Link → Prop}
    (hpq : ∀ colon link, (∀ edge ∈ Link.edges colon link, p edge) ↔ q link) (content : String) :
    (∀ edge ∈ extractEdges content, p edge) ↔ ∀ link ∈ linksIn content, q link := by
  rw [extractEdges_eq_flatMap, linksIn, List.forall_mem_flatMap, List.forall_mem_flatMap]
  refine forall₂_congr fun s _ => ?_
  obtain ⟨rest, -, hedges⟩ := exists_edgesOf_eq s
  rw [hedges, List.forall_mem_flatMap]
  exact forall₂_congr fun link _ => hpq (colonLabel? rest) link

variable {content : String}

theorem forall_target_ne_startNode_iff (hnames : ∀ link ∈ linksIn content, link.NamesNoMarker) :
    (∀ edge ∈ extractEdges content, edge.target ≠ startNode) ↔ KeepsStarts (linksIn content) := by
  rw [forall_edges_iff (fun colon link => link.forall_target_ne_iff colon startNode)]
  refine forall₂_congr fun link hlink => ?_
  obtain ⟨hsource, htarget⟩ := hnames link hlink
  -- the link's own edge has a target id, which is never that of a start
  rw [Node.sourceId_ne_startNode_iff hsource]
  exact and_iff_right (Node.targetId_ne_startNode htarget)

theorem forall_source_ne_endNode_iff (hnames : ∀ link ∈ linksIn content, link.NamesNoMarker) :
    (∀ edge ∈ extractEdges content, edge.source ≠ endNode) ↔ KeepsEnds (linksIn content) := by
  rw [forall_edges_iff (fun colon link => link.forall_source_ne_iff colon endNode)]
  refine forall₂_congr fun link hlink => ?_
  obtain ⟨hsource, htarget⟩ := hnames link hlink
  rw [Node.targetId_ne_endNode_iff htarget]
  exact and_iff_right (Node.sourceId_ne_endNode hsource)

/-! ## Roots and leaves -/

namespace Graph

variable {edges : List Edge} {n : String}

theorem mem_roots_ofEdges :
    n ∈ (ofEdges edges).roots ↔ n ∈ (ofEdges edges).nodes ∧ ∀ edge ∈ edges, edge.target ≠ n := by
  rw [roots_ofEdges, List.mem_filter, decide_eq_true_eq]

theorem mem_leaves_ofEdges :
    n ∈ (ofEdges edges).leaves ↔ n ∈ (ofEdges edges).nodes ∧ ∀ edge ∈ edges, edge.source ≠ n := by
  rw [leaves, List.mem_filter, children_ofEdges, List.isEmpty_iff, List.map_eq_nil_iff,
    List.filter_eq_nil_iff]
  simp only [decide_eq_true_eq]

/-- Where no node has the id of a marker, a start is never entered and an end never left, and the
one is a root and the other a leaf, if and only if no link that points both ways has an anonymous
marker on that side. -/
theorem markers_keep_role_iff (content : String)
    (hnames : ∀ link ∈ linksIn content, link.NamesNoMarker) :
    ((∀ edge ∈ extractEdges content, edge.target ≠ startNode) ↔ KeepsStarts (linksIn content)) ∧
      ((∀ edge ∈ extractEdges content, edge.source ≠ endNode) ↔ KeepsEnds (linksIn content)) ∧
      (startNode ∈ (ofText content).nodes →
        (startNode ∈ (ofText content).roots ↔ KeepsStarts (linksIn content))) ∧
      (endNode ∈ (ofText content).nodes →
        (endNode ∈ (ofText content).leaves ↔ KeepsEnds (linksIn content))) := by
  have hstart := forall_target_ne_startNode_iff hnames
  have hend := forall_source_ne_endNode_iff hnames
  refine ⟨hstart, hend, fun hnode => ?_, fun hnode => ?_⟩
  · exact mem_roots_ofEdges.trans ((and_iff_right hnode).trans hstart)
  · exact mem_leaves_ofEdges.trans ((and_iff_right hnode).trans hend)

theorem markers_keep_role_in_states :
    (∀ link ∈ linksIn "[*] --> A\nA --> [*]", link.NamesNoMarker) ∧
      startNode ∈ (ofText "[*] --> A\nA --> [*]").roots ∧
      endNode ∈ (ofText "[*] --> A\nA --> [*]").leaves := by
  have hnames : ∀ link ∈ linksIn "[*] --> A\nA --> [*]", link.NamesNoMarker := by decide +kernel
  have hedges : extractEdges "[*] --> A\nA --> [*]" =
      [⟨startNode, "A", none, .solid⟩, ⟨"A", endNode, none, .solid⟩] := by decide +kernel
  obtain ⟨-, -, hroot, hleaf⟩ := markers_keep_role_iff "[*] --> A\nA --> [*]" hnames
  rw [ofText, hedges] at hroot hleaf ⊢
  exact ⟨hnames, (hroot (mem_nodes.mpr (by simp))).mpr (by decide +kernel),
    (hleaf (mem_nodes.mpr (by simp))).mpr (by decide +kernel)⟩

/-- The edge back to the marker enters a start and not an end. -/
theorem start_entered_by_link_both_ways :
    (∀ link ∈ linksIn "[*] <--> A", link.NamesNoMarker) ∧
      extractEdges "[*] <--> A" =
        [⟨startNode, "A", none, .bidirectional⟩, ⟨"A", startNode, none, .bidirectional⟩] ∧
      startNode ∈ (ofText "[*] <--> A").nodes ∧ startNode ∉ (ofText "[*] <--> A").roots := by
  have hedges : extractEdges "[*] <--> A" =
      [⟨startNode, "A", none, .bidirectional⟩, ⟨"A", startNode, none, .bidirectional⟩] := by
    decide +kernel
  refine ⟨by decide +kernel, hedges, ?_, ?_⟩ <;> rw [ofText, hedges]
  · simp [mem_nodes]
  · simp [mem_roots_ofEdges]

end Graph

end DiagramReadability
