import DiagramReadability.Proofs.Statement.Origin

/-!
# Quoted labels

The reader of labels does not know quotes: a label between pipes ends at the next pipe, whatever
stands around it.  So no label between pipes or inside an arrow holds a pipe, and a quoted label is
read as it is written exactly when there is none in it.
-/

namespace DiagramReadability.Statement

open DiagramReadability.Text

/-! ## Where labels come from -/

/-- A label with a pipe in it is one that a colon gives. -/
theorem no_pipe_or_colon {s label : List Char} {edge : Edge} (h : edge ∈ edgesOf s)
    (hlabel : edge.label = some (String.ofList label)) :
    '|' ∉ label ∨ ∃ rest, rest <:+ s ∧ colonLabel? rest = some label := by
  obtain ⟨rest, hrest, hedges⟩ := exists_edgesOf_eq s
  rw [hedges] at h
  obtain ⟨link, hlink, hedge⟩ := List.mem_flatMap.mp h
  rw [label_of_mem_edges hedge] at hlabel
  obtain ⟨text, htext, heq⟩ := Option.map_eq_some_iff.mp hlabel
  obtain rfl := String.ofList_injective heq
  rcases Option.or_eq_some_iff.mp htext with hown | ⟨-, hcolon⟩
  · exact .inl ((isIn_of_mem_linksOf link hlink).label text hown).no_pipe
  · exact .inr ⟨rest, hrest, hcolon⟩

/-- A colon label goes on to the end of its text. -/
theorem getLast?_of_colonLabel? {rest label : List Char} {c : Char}
    (h : colonLabel? rest = some label) (hlast : rest.getLast? = some c)
    (hblank : isBlank c = false) : label.getLast? = some c := by
  have htrim : trimEnd rest = rest := by
    obtain ⟨init, rfl⟩ := List.getLast?_eq_some_iff.mp hlast
    exact trimEnd_concat hblank init
  unfold colonLabel? at h
  split at h
  · rename_i d text heq
    split at h
    · rename_i hcolon
      obtain ⟨rfl, hne⟩ := eq_of_nonempty? h
      have htext : trimEnd text = text := by
        have htwice : trimEnd (d :: text) = d :: text := by
          rw [← heq, trim, trimEnd_trimEnd]
        rw [hcolon, trimEnd_cons_of_not_blank (by decide)] at htwice
        exact (List.cons.inj htwice).2
      have hrest : d :: text <:+ rest := by
        rw [← heq]
        exact trim_suffix htrim
      have hsuffix : trim text <:+ rest :=
        (trim_suffix htext).trans ((List.suffix_cons d text).trans hrest)
      rw [getLast?_of_suffix hsuffix hne, hlast]
    · contradiction
  · contradiction

/-! ## Quoted links -/

namespace Written

/-- A link between two bare nodes that has a label in quotes. -/
structure QuotedLink where
  source : BareNode
  spelling : Spelling
  quoted : List Char
  target : BareNode

def QuotedLink.label (link : QuotedLink) : List Char :=
  '"' :: (link.quoted ++ ['"'])

def QuotedLink.text (link : QuotedLink) : List Char :=
  link.source.text ++ ' ' ::
    (link.spelling.text ++ '|' :: (link.label ++ '|' :: ' ' :: link.target.text))

/-- The edge from the source to the target with the whole label, and the one back if the link points
both ways. -/
def QuotedLink.edges (link : QuotedLink) : List Edge :=
  let source := link.source.node.sourceId
  let target := link.target.node.targetId
  let label := some (String.ofList link.label)
  let edge : Edge := ⟨source, target, label, link.spelling.arrow⟩
  let back : Edge := ⟨target, source, label, link.spelling.arrow⟩
  if link.spelling.arrow = .bidirectional then [edge, back] else [edge]

end Written

theorem trim_quoted (s : List Char) : trim ('"' :: (s ++ ['"'])) = '"' :: (s ++ ['"']) := by
  have hquote : isBlank '"' = false := by decide
  have hstart : trimStart ('"' :: (s ++ ['"'])) = '"' :: (s ++ ['"']) :=
    trimStart_of_not_blank hquote
  rw [trim, hstart]
  exact trimEnd_concat hquote ('"' :: s)

theorem edgesOf_quotedLink (link : Written.QuotedLink) (h : '|' ∉ link.quoted) :
    edgesOf link.text = link.edges := by
  have hpipe : '|' ∉ link.label := by simp [Written.QuotedLink.label, h]
  -- without a pipe the label can stand in a statement of the grammar
  have hblank : ∀ c ∈ [' '], isBlank c = true := List.forall_mem_singleton.mpr (by decide)
  let chain : Written.Chain := {
    lead := ⟨[], by simp⟩
    sources := ⟨link.source.node, []⟩
    hop := {
      before := ⟨[' '], hblank⟩
      link := .piped link.spelling ⟨[], by simp⟩ ⟨link.label, hpipe⟩
      after := ⟨[' '], hblank⟩
      group := ⟨link.target.node, []⟩ }
    hops := []
    ending := .blank ⟨[], by simp⟩
    apart := trivial }
  have htext : chain.text = link.text := by
    simp [chain, Written.Chain.text, Written.Group.text, Written.Hop.text, Written.Link.text,
      Written.Ending.text, Written.QuotedLink.text, Written.BareNode.text_node]
  have hlabel : nonempty? (trim link.label) = some link.label := by
    rw [Written.QuotedLink.label, trim_quoted]
    rfl
  have hedges : chain.edges = link.edges := by
    simp [chain, Written.Chain.edges, Written.edgesAlong, Written.Group.nodes, Written.Link.edges,
      Written.Link.label, Written.Link.arrow, Written.Ending.label, Written.QuotedLink.edges,
      hlabel]
  rw [← htext, ← hedges, edgesOf_text]

theorem exists_getLast?_bareNode (node : Written.BareNode) :
    ∃ c, node.text.getLast? = some c ∧ isBlank c = false ∧ c ≠ '"' := by
  cases node with
  | marker => exact ⟨']', rfl, by decide, by decide⟩
  | named id =>
      have hchars : ∀ c ∈ id.text, isBlank c = false ∧ c ≠ '"' :=
        id.forall_mem_text
          (fun c hc => ⟨not_isBlank_of_isWord hc, ne_of_isWord hc (by decide)⟩) (by decide)
      have hne := id_text_ne_nil id
      exact ⟨_, List.getLast?_eq_some_getLast hne, hchars _ (List.getLast_mem hne)⟩

/-- A colon label of the text would end as the target does, so it is not the quoted label. -/
theorem colonLabel?_ne_of_quotedLink (link : Written.QuotedLink) {rest : List Char}
    (hrest : rest <:+ link.text) : colonLabel? rest ≠ some link.label := by
  intro hcolon
  obtain ⟨c, hc, hblank, hquote⟩ := exists_getLast?_bareNode link.target
  have hne : rest ≠ [] := by
    rintro rfl
    contradiction
  have htarget : link.target.text ≠ [] := by
    intro hnil
    rw [hnil] at hc
    contradiction
  have hsuffix : link.target.text <:+ link.text :=
    ⟨link.source.text ++ ' ' :: (link.spelling.text ++ '|' :: (link.label ++ ['|', ' '])), by
      simp [Written.QuotedLink.text]⟩
  have hlast : rest.getLast? = some c := by
    rw [getLast?_of_suffix hrest hne, ← getLast?_of_suffix hsuffix htarget, hc]
  have hlabel := getLast?_of_colonLabel? hcolon hlast hblank
  have hend : link.label.getLast? = some '"' := by
    rw [Written.QuotedLink.label, ← List.cons_append, List.getLast?_concat]
  exact hquote (Option.some.inj (hlabel.symm.trans hend))

/-- A quoted label is read as it is written exactly when no pipe is in it. -/
theorem quotedLink_edges (link : Written.QuotedLink) :
    statementEdges (String.ofList link.text) = link.edges ↔ '|' ∉ link.quoted := by
  rw [statementEdges, String.toList_ofList]
  constructor
  · intro hedges hpipe
    have hfirst : (⟨link.source.node.sourceId, link.target.node.targetId,
        some (String.ofList link.label), link.spelling.arrow⟩ : Edge) ∈ edgesOf link.text := by
      rw [hedges, Written.QuotedLink.edges]
      split
      · exact List.mem_cons_self
      · exact List.mem_cons_self
    -- with a pipe in its label the edge could have it from a colon only
    rcases no_pipe_or_colon hfirst rfl with hnone | ⟨rest, hrest, hcolon⟩
    · exact hnone (by simp [Written.QuotedLink.label, hpipe])
    · exact colonLabel?_ne_of_quotedLink link hrest hcolon
  · exact edgesOf_quotedLink link

/-- A pipe between quotes ends the label, and what comes after it is read as a node. -/
theorem quoted_pipe_ends_label :
    ∃ link : Written.QuotedLink, String.ofList link.text = "A -->|\"x|y\"| B" ∧
      '"' ∉ link.quoted ∧
        statementEdges "A -->|\"x|y\"| B" = [⟨"A", "y", some "\"x", .solid⟩] := by
  let a : Written.Id := ⟨⟨['A'], by simp, List.forall_mem_singleton.mpr (by decide)⟩, []⟩
  let b : Written.Id := ⟨⟨['B'], by simp, List.forall_mem_singleton.mpr (by decide)⟩, []⟩
  refine ⟨⟨.named a, .solid 0, ['x', '|', 'y'], .named b⟩, by decide, by decide, ?_⟩
  decide +kernel

end DiagramReadability.Statement
