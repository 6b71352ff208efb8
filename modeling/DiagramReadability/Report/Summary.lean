import DiagramReadability.Report.Rules

/-!
# Summaries

How many diagrams, files and issues there are in a run, and the exit code that follows.
-/

namespace DiagramReadability

structure Summary where
  diagrams : Nat
  files : Nat
  errors : Nat
  warnings : Nat
  infos : Nat
deriving Repr, DecidableEq

namespace Summary

def allIssues (reports : List Report) : List Issue :=
  reports.flatMap fun r => r.issues

def countOf (severity : Severity) (reports : List Report) : Nat :=
  (allIssues reports).countP fun i => i.severity = severity

def ofReports (reports : List Report) : Summary where
  diagrams := reports.length
  files := (reports.map fun r => r.filePath).eraseDups.length
  errors := countOf .error reports
  warnings := countOf .warning reports
  infos := countOf .info reports

end Summary

def Report.needsAttention (r : Report) : Bool :=
  match r.worstSeverity? with
  | some .error | some .warning => true
  | _ => false

/-- The exit code of a run: one if there are errors, or warnings in a strict run. -/
def exitCode (reports : List Report) (strict : Bool) : Nat :=
  let summary := Summary.ofReports reports
  if 0 < summary.errors || (strict && 0 < summary.warnings) then 1 else 0

end DiagramReadability
