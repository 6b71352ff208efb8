import DiagramReadability.Proofs.Label.Search
import DiagramReadability.Proofs.Report.Agreement
import DiagramReadability.Proofs.Report.Total
import DiagramReadability.Proofs.Text.Lines

/-!
# Headers

A header above a diagram declares the direction, whatever directives and further headers the diagram
holds, and adds neither edges nor labels to it.  So another direction in the header leaves the
structure in the report as it is, and one in the same line leaves the size as it is too.
-/

namespace DiagramReadability

open DiagramReadability.Text
open DiagramReadability.Line (isOpener)

namespace Direction

/-- The header that declares a direction. -/
def header (x : Direction) : List Char :=
  ("graph " ++ x.name).toList

/-- A diagram with such a header above it. -/
def above (x : Direction) (body : String) : String :=
  "graph " ++ x.name ++ "\n" ++ body

theorem length_header (x : Direction) : x.header.length = 8 := by
  cases x <;> decide

theorem kind_header (x : Direction) : Line.kind x.header = .header := by
  cases x <;> decide

theorem trim_header (x : Direction) : trim x.header = x.header := by
  cases x <;> decide

theorem statements_header (x : Direction) : Line.statements x.header = [x.header] := by
  cases x <;> decide

theorem ofHeader?_header (x : Direction) : ofHeader? x.header = some x := by
  cases x <;> decide

theorem lineEdges_header (x : Direction) : lineEdges x.header = [] := by
  simp [lineEdges, statements_header, kind_header]

theorem plain_of_mem_header (x : Direction) {c : Char} (hc : c ∈ x.header) :
    isOpener c = false ∧ isLineBreak c = false := by
  have hall : (x.header.all fun c => !isOpener c && !isLineBreak c) = true := by
    cases x <;> decide
  simpa using List.all_eq_true.mp hall c hc

theorem toList_above (x : Direction) (body : String) :
    (x.above body).toList = x.header ++ '\n' :: body.toList := by
  simp [above, header]

theorem lines_above (x : Direction) (body : String) :
    lines (x.above body).toList = x.header :: lines body.toList := by
  have hbreaks : ∀ c ∈ x.header, isLineBreak c = false := fun c hc => (x.plain_of_mem_header hc).2
  have hopens : ∀ c ∈ ('\n' :: body.toList).head?, isLineBreak c = true :=
    forall_mem_head?_cons (by decide) _
  rw [toList_above, lines_append_of_opens hbreaks hopens (by simp)]
  rfl

/-- The header wins over every declaration below it. -/
theorem declared?_above (x : Direction) (body : String) : declared? (x.above body) = some x := by
  unfold declared? candidates
  rw [lines_above, List.flatMap_cons, statements_header, List.map_singleton, trim_header,
    List.singleton_append]
  simp only [List.findSome?_cons, ofHeader?_header, Option.some_or]

end Direction

theorem extractEdges_above (x : Direction) (body : String) :
    extractEdges (x.above body) = extractEdges body := by
  unfold extractEdges
  rw [Direction.lines_above, List.flatMap_cons, Direction.lineEdges_header, List.nil_append]

theorem labelStats?_above (x y : Direction) (body : String) :
    labelStats? (x.above body) = labelStats? (y.above body) := by
  have hdefinitions : Label.definitions (Label.bodyOf (x.above body).toList) =
      Label.definitions (Label.bodyOf (y.above body).toList) := by
    unfold Label.bodyOf
    simp only [Direction.lines_above, List.map_cons, Direction.kind_header, unlines_cons,
      reduceCtorEq, if_false]
    generalize (lines body.toList).map _ = below
    apply Label.definitions_append_congr
    · exact fun c hc => (x.plain_of_mem_header hc).1
    · exact fun c hc => (y.plain_of_mem_header hc).1
    · rw [x.length_header, y.length_header]
    -- what stands below a header, if anything, begins with a line feed
    · cases below with
      | nil => rfl
      | cons line below => rfl
    · cases below with
      | nil => exact fun c hc => absurd hc (by simp)
      | cons line below => exact forall_mem_head?_cons (by decide) _
  unfold labelStats?
  rw [hdefinitions]

/-- The direction in the header of a diagram has no influence on the structure in its report, and
none on the size and the ratings either as long as it stays in the same line. -/
theorem analyze_above (body filePath : String) (line : Int) (config : Config) (x y : Direction) :
    let diagram (z : Direction) : Diagram := ⟨"graph " ++ z.name ++ "\n" ++ body, filePath, line⟩
    (∀ r s, analyze (diagram x) config = .ok r → analyze (diagram y) config = .ok s →
      r.SameStructure s.toFindings) ∧
    (x ∈ [.leftRight, .rightLeft] ∧ y ∈ [.leftRight, .rightLeft] ∨
        x ∈ [.topDown, .topBottom, .bottomTop] ∧ y ∈ [.topDown, .topBottom, .bottomTop] →
      SameOutcome Report.SameSize (analyze (diagram x) config) (analyze (diagram y) config)) := by
  intro diagram
  have hedges : extractEdges (diagram x).content = extractEdges (diagram y).content :=
    (extractEdges_above x body).trans (extractEdges_above y body).symm
  have hlabels : labelStats? (diagram x).content = labelStats? (diagram y).content :=
    labelStats?_above x y body
  refine ⟨fun r s hr hs => sameStructure_of_analyze hedges hlabels hr hs, fun hline => ?_⟩
  apply analyze_agree hedges hlabels
  rw [show (diagram x).direction? = some x from Direction.declared?_above x body,
    show (diagram y).direction? = some y from Direction.declared?_above y body]
  cases x <;> cases y <;> first | rfl | exact absurd hline (by decide)

theorem analyze_above_chain :
    let diagram (z : Direction) : Diagram :=
      ⟨"graph " ++ z.name ++ "\n" ++ "A[One] --> B[Two]", "", 1⟩
    ∃ r s t, analyze (diagram .leftRight) {} = .ok r ∧ analyze (diagram .rightLeft) {} = .ok s ∧
      analyze (diagram .topDown) {} = .ok t ∧ r.estimate.isSome ∧
      r.SameStructure t.toFindings ∧ r.SameSize s := by
  intro diagram
  have hfound : Label.definitions (Label.bodyOf (diagram .leftRight).content.toList) =
      [⟨9, ['A'], "One".toList⟩, ⟨20, ['B'], "Two".toList⟩] :=
    Label.definitions_eq_of_perm (by decide) (by decide +kernel)
  have hlabels : ∀ z, labelStats? (diagram z).content =
      some ⟨[("A", "One"), ("B", "Two")], 3, 3⟩ := by
    intro z
    rw [show labelStats? (diagram z).content = labelStats? (diagram .leftRight).content from
      labelStats?_above z .leftRight _, labelStats?, hfound]
    decide +kernel
  have hedges : ∀ z, extractEdges (diagram z).content = [⟨"A", "B", none, .solid⟩] := by
    intro z
    rw [show extractEdges (diagram z).content = extractEdges "A[One] --> B[Two]" from
      extractEdges_above z _]
    decide +kernel
  have hreport : ∀ z, ∃ r, analyze (diagram z) {} = .ok r := by
    intro z
    apply exists_report (Preset.isComplete .standard)
    intro labels hsome
    rw [hlabels, Option.some.injEq] at hsome
    rw [← hsome, Graph.ofText, hedges]
    refine Number.InRange.of_le (?_ : Number.InRange (3 * 4 : Nat)) ?_
    · decide
    · exact Nat.mul_le_mul_right 4 (Graph.extent_le [⟨"A", "B", none, .solid⟩])
  obtain ⟨r, hr⟩ := hreport .leftRight
  obtain ⟨s, hs⟩ := hreport .rightLeft
  obtain ⟨t, ht⟩ := hreport .topDown
  have hestimate : r.estimate.isSome := by
    rw [← Option.isSome_map, labels_of_analyze hr, hlabels, Option.isSome_some]
  have hsize := (analyze_above "A[One] --> B[Two]" "" 1 {} .leftRight .rightLeft).2 (by decide)
  rw [show analyze _ _ = .ok r from hr, show analyze _ _ = .ok s from hs] at hsize
  exact ⟨r, s, t, hr, hs, ht, hestimate,
    (analyze_above "A[One] --> B[Two]" "" 1 {} .leftRight .topDown).1 r t hr ht, hsize⟩

end DiagramReadability
