import DiagramReadability.Proofs.Text.Lines
import DiagramReadability.Statement.Edges

/-!
# Texts one below the other

Edges are read off each line by itself.  Nothing that a text leaves open at its end, a quote, a
bracket, a pipe or a block, reaches the text below it, and an empty line between the two holds
nothing.
-/

namespace DiagramReadability

open DiagramReadability.Text

theorem toList_append_feed (first second : String) :
    (first ++ "\n" ++ second).toList = first.toList ++ '\n' :: second.toList := by
  rw [String.toList_append, String.toList_append, List.append_assoc]
  rfl

theorem lineEdges_nil : lineEdges [] = [] := by
  decide

/-- The edges of two texts one below the other are those of the first, then those of the second. -/
theorem extractEdges_append_feed (first second : String) :
    extractEdges (first ++ "\n" ++ second) = extractEdges first ++ extractEdges second := by
  unfold extractEdges
  rw [toList_append_feed, flatMap_lines_append_feed lineEdges_nil]

example : extractEdges ("A --> B[\"(x|\r" ++ "\n" ++ "C --> D") =
    extractEdges "A --> B[\"(x|\r" ++ extractEdges "C --> D" := by
  decide +kernel

end DiagramReadability
