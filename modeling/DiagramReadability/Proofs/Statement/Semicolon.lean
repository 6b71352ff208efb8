import DiagramReadability.Proofs.Line.Pieces
import DiagramReadability.Proofs.Statement.Chain
import DiagramReadability.Proofs.Text.Lines

/-!
# Statements that share a line

A semicolon between two statements is as good as a line break when the scan over the first one ends
outside.  Shapes close their brackets, but the scan also counts the brackets in labels and the pipes
in shapes.  When it ends inside, the second statement is lost: it is read as what comes behind the
chain of the first.
-/

namespace DiagramReadability

open DiagramReadability.Text

variable {s t : List Char}

/-! ## Lines of one or two statements -/

theorem Line.allBlank_of_kind (h : Line.kind s = .statement) : allBlank s = false := by
  by_contra hblank
  rw [Bool.not_eq_false, allBlank, List.all_eq_true] at hblank
  have hstart : trimStart s = [] := List.dropWhile_eq_nil_iff.mpr hblank
  rw [Line.kind, trim, hstart] at h
  contradiction

theorem lineEdges_of_uncut (hs : Line.IsUncut s) (hkind : Line.kind s = .statement) :
    lineEdges s = Statement.edgesOf s := by
  rw [lineEdges, hkind, if_neg (by decide),
    Line.statements_of_uncut hs (Line.allBlank_of_kind hkind), List.flatMap_singleton, if_pos hkind]

/-- A line that is cut at a semicolon has the edges of both sides. -/
theorem lineEdges_cut (hs : Line.IsUncut s) (ht : Line.IsUncut t)
    (hout : (Line.Nesting.start.run s).isOutside = true) (hs' : Line.kind s = .statement)
    (ht' : Line.kind t = .statement) (hcomment : Line.kind (s ++ ';' :: t) ≠ .comment) :
    lineEdges (s ++ ';' :: t) = Statement.edgesOf s ++ Statement.edgesOf t := by
  have hstatements : Line.statements (s ++ ';' :: t) = [s, t] := by
    rw [Line.statements, Line.pieces, Line.piecesFrom_append hs hout, Line.pieces,
      Line.piecesFrom_of_uncut ht, List.filter_cons, List.filter_cons,
      Line.allBlank_of_kind hs', Line.allBlank_of_kind ht']
    rfl
  rw [lineEdges, if_neg hcomment, hstatements, List.flatMap_cons, List.flatMap_singleton,
    if_pos hs', if_pos ht']

/-- A line that is not cut has the edges of one statement, or none. -/
theorem lineEdges_uncut_eq (h : Line.IsUncut s) :
    lineEdges s = [] ∨ lineEdges s = Statement.edgesOf s := by
  by_cases hkind : Line.kind s = .statement
  · exact .inr (lineEdges_of_uncut h hkind)
  · left
    rw [lineEdges]
    split
    · rfl
    · rw [List.flatMap_eq_nil_iff]
      intro part hpart
      -- the only part is the whole line
      rw [Line.statements, Line.pieces, Line.piecesFrom_of_uncut h, List.mem_filter,
        List.mem_singleton] at hpart
      rw [hpart.1, if_neg hkind]

theorem extractEdges_line (hs : ∀ c ∈ s, isLineBreak c = false) (hne : s ≠ []) :
    extractEdges (String.ofList s) = lineEdges s := by
  rw [extractEdges, String.toList_ofList, lines_of_no_break hs hne, List.flatMap_singleton]

theorem extractEdges_two_lines (hs : ∀ c ∈ s, isLineBreak c = false)
    (ht : ∀ c ∈ t, isLineBreak c = false) (hne : t ≠ []) :
    extractEdges (String.ofList (s ++ '\n' :: t)) = lineEdges s ++ lineEdges t := by
  have hfeed : ∀ c ∈ ('\n' :: t).head?, isLineBreak c = true :=
    forall_mem_head?_cons (by decide) t
  rw [extractEdges, String.toList_ofList, lines_append_of_opens hs hfeed (by simp),
    List.flatMap_cons]
  show _ ++ (lines t).flatMap lineEdges = _
  rw [lines_of_no_break ht hne, List.flatMap_singleton]

namespace Statement

/-! ## Written statements on a line -/

/-- A connection statement that can share a line with others: it has no colon label, and neither a
double quote nor a semicolon nor a line break stands in it. -/
structure Written.LineStatement extends Written.Chain where
  trail : Written.Blanks
  ending_eq : ending = .blank trail
  no_quote : '"' ∉ toChain.text
  no_semicolon : ';' ∉ toChain.text
  no_break : ∀ c ∈ toChain.text, isLineBreak c = false
  kind_eq : Line.kind toChain.text = .statement

theorem kind_ne_comment (lead : Written.Blanks) (group : Written.Group) (s : List Char) :
    Line.kind (lead.val ++ (group.text ++ s)) ≠ .comment := by
  obtain ⟨c, rest, heq, hblank, -, hpercent⟩ := exists_node_cons group.first
  have hstart : trimStart (lead.val ++ (group.text ++ s)) =
      c :: (rest ++ group.more.flatMap Written.Member.text ++ s) := by
    rw [trimStart_append_blanks lead.property, trimStart_of_not_blank (startsBlank_group group s),
      Written.Group.text, heq, List.cons_append, List.cons_append]
  exact kind_ne_comment_of_trimStart hstart hblank hpercent

theorem edges_ne_nil (chain : Written.Chain) : chain.edges ≠ [] := by
  intro h
  rw [Written.Chain.edges, Written.edgesAlong, List.append_eq_nil_iff, Written.Group.nodes,
    Written.Group.nodes, List.flatMap_cons, List.append_eq_nil_iff, List.flatMap_cons,
    List.append_eq_nil_iff] at h
  have hfirst := h.1.1.1
  rw [Written.Link.edges] at hfirst
  split at hfirst <;> contradiction

variable {group : Written.Group}

theorem EndsChain.blanks (h : EndsChain group s) (blanks : Written.Blanks) :
    EndsChain group (blanks.val ++ s) where
  ends_group := h.ends_group.blanks blanks
  no_arrow := by
    rw [trimStart_append_blanks blanks.property]
    exact h.no_arrow

theorem endsChain_semicolon (s : List Char) : EndsChain group (';' :: s) where
  ends_group := (endsNode_of_separates (by decide) s).endsGroup (by decide) (by decide)
  no_arrow := rfl

/-- What stands behind the semicolon after a statement is not read with it. -/
theorem edgesOf_semicolon (statement : Written.LineStatement) (s : List Char) :
    edgesOf (statement.text ++ ';' :: s) = statement.edges := by
  have hsemicolon : trimStart (';' :: s) = ';' :: s :=
    trimStart_of_not_blank (by decide : isBlank ';' = false)
  have hcolon : ∀ blanks : Written.Blanks,
      colonLabel? (trimStart (blanks.val ++ ';' :: s)) = none := by
    intro blanks
    rw [trimStart_append_blanks blanks.property, hsemicolon, colonLabel?, trim, hsemicolon,
      trimEnd_cons_of_not_blank (by decide)]
    rfl
  rw [Written.Chain.text, statement.ending_eq, Written.Ending.text,
    List.append_assoc, List.append_assoc, List.append_assoc,
    edgesOf_append statement.lead statement.sources statement.hop
      statement.hops ((endsChain_semicolon s).blanks statement.trail), hcolon,
    Written.Chain.edges, statement.ending_eq]
  rfl

/-- Between two statements a semicolon does what a line break does, if and only if the pipes in the
first one are even in number and its brackets are closed. -/
theorem semicolon_eq_line_break (first second : Written.LineStatement) :
    extractEdges (String.ofList (first.text ++ ';' :: second.text)) =
        extractEdges (String.ofList (first.text ++ '\n' :: second.text)) ↔
      first.text.count '|' % 2 = 0 ∧ Line.ClosesBrackets first.text := by
  have hfirst : Line.IsUncut first.text := Line.isUncutFrom_of_no_semicolon first.no_semicolon _
  have hsecond : Line.IsUncut second.text := Line.isUncutFrom_of_no_semicolon second.no_semicolon _
  have hne : second.text ≠ [] := by
    intro hnil
    have hkind := second.kind_eq
    rw [show second.text = [] from hnil] at hkind
    contradiction
  have hbreaks : ∀ c ∈ first.text ++ ';' :: second.text, isLineBreak c = false := by
    intro c hc
    rw [List.mem_append, List.mem_cons] at hc
    rcases hc with hc | rfl | hc
    · exact first.no_break c hc
    · decide
    · exact second.no_break c hc
  -- on two lines every statement keeps its edges
  rw [extractEdges_line hbreaks (by simp),
    extractEdges_two_lines first.no_break second.no_break hne,
    lineEdges_of_uncut hfirst first.kind_eq, lineEdges_of_uncut hsecond second.kind_eq,
    ← Line.isOutside_run_iff first.no_quote]
  constructor
  · intro heq
    by_contra hin
    rw [Bool.not_eq_true] at hin
    have hboth := lineEdges_uncut_eq (hfirst.append hin second.no_semicolon)
    rw [heq, edgesOf_semicolon, edgesOf_text,
      edgesOf_text, List.append_eq_nil_iff, List.append_right_eq_self] at hboth
    rcases hboth with ⟨-, hnone⟩ | hnone <;> exact edges_ne_nil second.toChain hnone
  · intro hout
    apply lineEdges_cut hfirst hsecond hout first.kind_eq second.kind_eq
    rw [Written.Chain.text, List.append_assoc, List.append_assoc]
    exact kind_ne_comment first.lead first.sources _

/-- A bracket in a label is never closed, so the semicolon is no separator and the second statement
is lost. -/
theorem bracket_in_label_hides_statement :
    ∃ first second : Written.LineStatement,
      String.ofList (first.text ++ ';' :: second.text) = "A -->|(| B;C --> D" ∧
      String.ofList (first.text ++ '\n' :: second.text) = "A -->|(| B\nC --> D" ∧
      extractEdges "A -->|(| B;C --> D" = [⟨"A", "B", some "(", .solid⟩] ∧
      extractEdges "A -->|(| B\nC --> D" =
        [⟨"A", "B", some "(", .solid⟩, ⟨"C", "D", none, .solid⟩] := by
  let bare (c : Char) (h : isWord c = true) : Written.Group :=
    ⟨⟨.named ⟨⟨[c], by simp, List.forall_mem_singleton.mpr h⟩, []⟩ none, none⟩, []⟩
  let gap : Written.Blanks := ⟨[' '], List.forall_mem_singleton.mpr (by decide)⟩
  let nothing : Written.Blanks := ⟨[], by simp⟩
  let first : Written.Chain := {
    lead := nothing
    sources := bare 'A' (by decide)
    hop := ⟨gap, .piped (.solid 0) nothing ⟨['('], by decide⟩, gap, bare 'B' (by decide)⟩
    hops := []
    ending := .blank nothing
    apart := trivial }
  let second : Written.Chain := {
    lead := nothing
    sources := bare 'C' (by decide)
    hop := ⟨gap, .plain (.solid 0), gap, bare 'D' (by decide)⟩
    hops := []
    ending := .blank nothing
    apart := trivial }
  refine ⟨⟨first, nothing, rfl, by decide, by decide, forall_mem_of_all (by decide), by decide⟩,
    ⟨second, nothing, rfl, by decide, by decide, forall_mem_of_all (by decide), by decide⟩,
    by decide, by decide, ?_, ?_⟩
  · decide +kernel
  · decide +kernel

end Statement

end DiagramReadability
