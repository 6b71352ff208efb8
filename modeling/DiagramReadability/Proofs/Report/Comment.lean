import DiagramReadability.Proofs.Label.Definitions
import DiagramReadability.Proofs.Line.Pieces
import DiagramReadability.Proofs.Report.Agreement
import DiagramReadability.Proofs.Text.Lines

/-!
# Comments

A comment holds no edges and no labels, so what stands in it has no influence on the structure in a
report.  The declared direction is looked for behind the semicolons of a comment too, so only
comments that declare none can be exchanged without any change of the report.
-/

namespace DiagramReadability

open DiagramReadability.Text

variable {line line' : List Char} {earlier later : List (List Char)} {content content' : String}

/-! ## What is read line by line -/

theorem ne_nil_of_kind (h : Line.kind line = .comment) : line ≠ [] := by
  rintro rfl
  exact absurd h (by decide)

theorem lineEdges_comment (h : Line.kind line = .comment) : lineEdges line = [] :=
  if_pos h

theorem extractEdges_comment (h : Line.kind line = .comment) (h' : Line.kind line' = .comment)
    (hlines : lines content.toList = earlier ++ line :: later)
    (hlines' : lines content'.toList = earlier ++ line' :: later) :
    extractEdges content = extractEdges content' := by
  unfold extractEdges
  rw [hlines, hlines', List.flatMap_append, List.flatMap_append, List.flatMap_cons,
    List.flatMap_cons, lineEdges_comment h, lineEdges_comment h']

theorem labelStats?_comment (h : Line.kind line = .comment) (h' : Line.kind line' = .comment)
    (hlines : lines content.toList = earlier ++ line :: later)
    (hlines' : lines content'.toList = earlier ++ line' :: later) :
    labelStats? content = labelStats? content' := by
  have hbody : Label.bodyOf content.toList = Label.bodyOf content'.toList := by
    unfold Label.bodyOf
    rw [hlines, hlines', List.map_append, List.map_append, List.map_cons, List.map_cons, if_pos h,
      if_pos h']
  unfold labelStats?
  rw [hbody]

/-! ## Declarations in comments -/

/-- No statement of the line is a header with a direction or a directive. -/
def Direction.DeclaresNone (line : List Char) : Prop :=
  ∀ part ∈ Line.statements line, ofHeader? (trim part) = none ∧ ofDirective? (trim part) = none

theorem findSome?_candidates {find : List Char → Option Direction}
    (hnone : ∀ part ∈ Line.statements line, find (trim part) = none) :
    ((earlier ++ line :: later).flatMap fun l => (Line.statements l).map trim).findSome? find =
      ((earlier ++ later).flatMap fun l => (Line.statements l).map trim).findSome? find := by
  have hline : ((Line.statements line).map trim).findSome? find = none := by
    rw [List.findSome?_map, List.findSome?_eq_none_iff]
    exact hnone
  simp only [List.flatMap_append, List.flatMap_cons, List.findSome?_append, hline, Option.none_or]

theorem Direction.declared?_comment (h : DeclaresNone line) (h' : DeclaresNone line')
    (hlines : lines content.toList = earlier ++ line :: later)
    (hlines' : lines content'.toList = earlier ++ line' :: later) :
    declared? content = declared? content' := by
  unfold declared? candidates
  rw [hlines, hlines']
  dsimp only
  rw [findSome?_candidates fun part hpart => (h part hpart).1,
    findSome?_candidates fun part hpart => (h part hpart).2,
    findSome?_candidates fun part hpart => (h' part hpart).1,
    findSome?_candidates fun part hpart => (h' part hpart).2]

/-- A comment without a semicolon declares no direction. -/
theorem Direction.declaresNone_of_no_semicolon (hcomment : Line.kind line = .comment)
    (h : ';' ∉ line) : DeclaresNone line := by
  intro part hpart
  unfold Line.statements at hpart
  rw [Line.pieces, Line.piecesFrom_of_uncut (Line.isUncutFrom_of_no_semicolon h .start),
    List.mem_filter, List.mem_singleton] at hpart
  rw [hpart.1]
  have hlead := Line.isComment_of_kind hcomment
  cases hs : trim line with
  | nil =>
    rw [hs] at hlead
    exact absurd hlead (by decide)
  | cons c s =>
    rw [hs] at hlead
    have hc : '%' = c := by
      by_contra hne
      unfold Line.isComment at hlead
      rw [show "%%".toList = ['%', '%'] by decide, after?_cons_of_ne hne] at hlead
      contradiction
    subst hc
    exact ⟨rfl, rfl⟩

/-! ## Reports -/

/-- Another comment in the place of a comment leaves the edges, the labels and so the structure in
the report of a diagram as they are, and if neither of the two comments declares a direction, it
leaves the whole report as it is. -/
theorem analyze_comment (content filePath : String) (number : Int) (config : Config)
    (earlier : List (List Char)) (line : List Char) (later : List (List Char))
    (hlines : lines content.toList = earlier ++ line :: later)
    (hcomment : Line.kind line = .comment) :
    ∃ before after, content.toList = before ++ line ++ after ∧
      ∀ line', (∀ c ∈ line', isLineBreak c = false) → Line.kind line' = .comment →
        let d : Diagram := ⟨content, filePath, number⟩
        let d' : Diagram := ⟨String.ofList (before ++ line' ++ after), filePath, number⟩
        lines d'.content.toList = earlier ++ line' :: later ∧
        extractEdges d.content = extractEdges d'.content ∧
        labelStats? d.content = labelStats? d'.content ∧
        (∀ r s, analyze d config = .ok r → analyze d' config = .ok s →
          r.SameStructure s.toFindings) ∧
        (∀ r, analyze d config = .ok r →
          (analyze d' config = .ok r ↔ d.direction? = d'.direction?)) ∧
        (Direction.DeclaresNone line → Direction.DeclaresNone line' →
          analyze d config = analyze d' config) := by
  obtain ⟨before, after, heq, hline, rfl, rfl⟩ := exists_isLineIn hlines (ne_nil_of_kind hcomment)
  refine ⟨before, after, heq, fun line' hinside hcomment' => ?_⟩
  intro d d'
  have hlines' :
      lines d'.content.toList = lines before ++ line' :: lines (afterLineBreak after) := by
    rw [String.toList_ofList]
    exact IsLineIn.lines_eq ⟨hinside, ne_nil_of_kind hcomment', hline.opens, hline.closes⟩
  have hedges : extractEdges d.content = extractEdges d'.content :=
    extractEdges_comment hcomment hcomment' hlines hlines'
  have hlabels : labelStats? d.content = labelStats? d'.content :=
    labelStats?_comment hcomment hcomment' hlines hlines'
  refine ⟨hlines', hedges, hlabels, fun r s => sameStructure_of_analyze hedges hlabels, ?_, ?_⟩
  · intro r hr
    constructor
    · intro hr'
      rw [← layout_of_analyze hr, layout_of_analyze hr']
    · intro hdirection
      rw [← hr]
      symm
      exact analyze_congr rfl rfl hedges hlabels hdirection
  · intro hnone hnone'
    exact analyze_congr rfl rfl hedges hlabels
      (Direction.declared?_comment hnone hnone' hlines hlines')

theorem analyze_comment_plain :
    ∃ before after, "%% a\nA --> B".toList = before ++ "%% a".toList ++ after ∧
      analyze ⟨"%% a\nA --> B", "", 1⟩ {} =
        analyze ⟨String.ofList (before ++ "%% b".toList ++ after), "", 1⟩ {} := by
  obtain ⟨before, after, heq, hother⟩ := analyze_comment "%% a\nA --> B" "" 1 {} []
    "%% a".toList ["A --> B".toList] (by decide) (by decide)
  obtain ⟨-, -, -, -, -, hreport⟩ := hother "%% b".toList (forall_mem_of_all (by decide))
    (by decide)
  refine ⟨before, after, heq, hreport ?_ ?_⟩
  · exact Direction.declaresNone_of_no_semicolon (by decide) (by decide)
  · exact Direction.declaresNone_of_no_semicolon (by decide) (by decide)

/-- A statement behind the semicolon of a comment declares the direction of the diagram. -/
theorem comment_declares_direction :
    Line.kind "%% a; graph LR".toList = .comment ∧ Line.kind "%% a".toList = .comment ∧
      IsLineIn [] "%% a; graph LR".toList "\nA --> B".toList ∧
      IsLineIn [] "%% a".toList "\nA --> B".toList ∧
      ∃ r s, analyze ⟨"%% a; graph LR\nA --> B", "", 1⟩ {} = .ok r ∧
        analyze ⟨"%% a\nA --> B", "", 1⟩ {} = .ok s ∧
        r.layout = some .leftRight ∧ s.layout = none := by
  have hafter : ∀ c ∈ "\nA --> B".toList.head?, isLineBreak c = true :=
    forall_mem_head?_cons (by decide) "A --> B".toList
  have hreport : ∀ content, (∀ b, Label.definitionsFrom b 0 0 (Label.bodyOf content.toList) = []) →
      ∃ r, analyze ⟨content, "", 1⟩ {} = .ok r := fun content h =>
    exists_report_of_no_labels (labelStats?_of_no_definitions h) rfl rfl
  obtain ⟨r, hr⟩ := hreport "%% a; graph LR\nA --> B" (by rintro (_ | _ | _) <;> decide)
  obtain ⟨s, hs⟩ := hreport "%% a\nA --> B" (by rintro (_ | _ | _) <;> decide)
  refine ⟨by decide, by decide, ⟨forall_mem_of_all (by decide), by decide, by simp, hafter⟩,
    ⟨forall_mem_of_all (by decide), by decide, by simp, hafter⟩, r, s, hr, hs, ?_, ?_⟩
  · rw [layout_of_analyze hr]
    decide
  · rw [layout_of_analyze hs]
    decide

end DiagramReadability
