import DiagramReadability.Json
import DiagramReadability.Report.Summary

/-!
# Reports as JSON

The parts of a report as JSON records, and the document with the summary and all reports of a run.
-/

namespace DiagramReadability

/-- A size as a number of its kind; an absent one is an empty list. -/
def Pixels.toJson : Pixels → Json
  | .whole n => .whole n
  | .real x => .real x
  | .absent => .list []

def MainPath.entries (p : MainPath) : List (String × Json) := [
  ("length", .count p.length),
  ("path", .texts p.path),
  ("ratio", .real p.ratio)]

def MainPath.toJson (p : MainPath) : Json :=
  .record p.entries

def StraightPath.toJson (p : StraightPath) : Json :=
  .record (p.entries ++ [("is_linear", .bool p.isLinear)])

def Pattern.toJson (p : Pattern) : Json :=
  .record [
    ("type", .text p.kind.name),
    ("confidence", .real p.confidence),
    ("evidence", .texts p.evidence),
    ("recommendation", .text p.recommendation),
    ("example", .option .text p.example)]

def LayoutAdvice.toJson (a : LayoutAdvice) : Json :=
  .record [
    ("current", .option .text a.current),
    ("recommended", .text a.recommended),
    ("reason", .text a.reason),
    ("confidence", .real a.confidence),
    ("patterns", .list (a.patterns.map Pattern.toJson))]

def LabelStats.toJson (s : LabelStats) : Json :=
  .record [
    ("labels", .list (s.labels.map fun (id, label) => .texts [id, label])),
    ("mean_length", .whole s.meanLength),
    ("max_length", .whole s.maxLength)]

def Estimate.toJson (e : Estimate) : Json :=
  .record [
    ("width", e.width.toJson),
    ("height", e.height.toJson),
    ("source", .text e.source.name),
    ("layout", .text e.layout),
    ("path_length", .count e.path.length),
    ("path", .texts e.path),
    ("max_branch_width", .count e.branchWidth),
    ("depth", .count e.depth),
    ("label_stats", e.labels.toJson)]

def Issue.toJson (i : Issue) : Json :=
  .record [
    ("rule", .text i.rule.name),
    ("severity", .text i.severity.name),
    ("message", .text i.message),
    ("file_path", .text i.filePath),
    ("line", .whole i.line),
    ("suggestion", .text i.suggestion)]

def Report.toJson (r : Report) : Json :=
  .record [
    ("file_path", .text r.filePath),
    ("line", .whole r.line),
    ("layout", .option (fun d => .text d.name) r.layout),
    ("nodes", .count r.nodes),
    ("edges", .count r.edges),
    ("components", .count r.components),
    ("cyclomatic_complexity", .whole r.cyclomaticComplexity),
    ("is_dag", .bool r.isAcyclic),
    ("max_depth", .count r.maxDepth),
    ("max_branch_width", .count r.maxBranchWidth),
    ("spine", r.spine.toJson),
    ("chain", r.chain.toJson),
    ("longest_path", r.longestPath.toJson),
    ("patterns", .list (r.patterns.map Pattern.toJson)),
    ("layout_recommendation", r.advice.toJson),
    ("estimate", .option Estimate.toJson r.estimate),
    ("issues", .list (r.issues.map Issue.toJson))]

def Summary.toJson (s : Summary) : Json :=
  .record [
    ("diagrams", .count s.diagrams),
    ("files", .count s.files),
    ("errors", .count s.errors),
    ("warnings", .count s.warnings),
    ("infos", .count s.infos)]

def jsonReport (reports : List Report) : String :=
  (Json.record [
    ("summary", (Summary.ofReports reports).toJson),
    ("results", .list (reports.map Report.toJson))]).pretty

end DiagramReadability
