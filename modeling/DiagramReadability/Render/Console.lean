import DiagramReadability.Report.Summary
import DiagramReadability.Source.Path

/-!
# Reports for the console

A report and the summary of a run as lines of text, with colours.
-/

namespace DiagramReadability

open DiagramReadability.Number (fixed percent padStart padEnd)

inductive Tone where
  | error
  | warning
  | info
  | ok
  | reset
  | dim
  | bold
deriving Repr, DecidableEq

def Tone.code : Tone → String
  | .error => "\x1b[91m"
  | .warning => "\x1b[93m"
  | .info => "\x1b[96m"
  | .ok => "\x1b[92m"
  | .reset => "\x1b[0m"
  | .dim => "\x1b[2m"
  | .bold => "\x1b[1m"

def Tone.paint (tone : Tone) (s : String) : String :=
  tone.code ++ s ++ Tone.reset.code

def Severity.tone : Severity → Tone
  | .error => .error
  | .warning => .warning
  | .info => .info

def Severity.sign : Severity → String
  | .error => "🔴"
  | .warning => "🟡"
  | .info => "🔵"

namespace Console

def heading (title : String) : List String :=
  let rule := String.ofList (List.replicate 70 '=')
  ["", rule, title, rule, ""]

def column (n : Int) : String :=
  padStart 4 (toString n)

def place (r : Report) : String :=
  (Path.ofString r.filePath).name ++ ":" ++ toString r.line

def pathShare (p : MainPath) : String :=
  Tone.dim.paint s!"({percent p.ratio} of nodes)"

def structureLines (r : Report) : List String := [
  "📈 Structure:",
  "   Nodes:       " ++ column r.nodes,
  "   Edges:       " ++ column r.edges,
  "   Components:  " ++ column r.components,
  "   Max depth:   " ++ column r.maxDepth,
  "   Max branch:  " ++ column r.maxBranchWidth,
  "   Cyclomatic:  " ++ column r.cyclomaticComplexity ++ "  " ++ Tone.dim.paint "(E - N + 2P)",
  "   Spine:       " ++ column r.spine.length ++ "  " ++ pathShare r.spine,
  "   Chain:       " ++ column r.chain.length ++ "  " ++ pathShare r.chain.toMainPath,
  "   Longest path:" ++ column r.longestPath.length ++ "  " ++ pathShare r.longestPath.toMainPath]

def patternLine (p : Pattern) : String :=
  "   " ++ padEnd 15 p.kind.name ++ " " ++ padStart 4 (fixed 2 p.confidence) ++ "  "
    ++ Tone.dim.paint (p.evidence.headD "")

def patternLines (r : Report) : List String :=
  if r.patterns.isEmpty then [] else ["", "🧭 Patterns:"] ++ r.patterns.map patternLine

def layoutLines (r : Report) : List String :=
  let declared := (r.layout.map Direction.name).getD "(none declared)"
  ["", s!"📐 Layout: {declared} → recommended " ++ Tone.bold.paint r.advice.recommended ++ " "
    ++ Tone.dim.paint s!"(confidence {fixed 2 r.advice.confidence})"]

def sizeLine (r : Report) : Except Fault String := do
  match r.estimate with
  | none => return "   " ++ Tone.dim.paint "Estimated size: n/a (no node labels)"
  | some e =>
      let width ← e.width.rounded
      let height ← e.height.rounded
      return s!"   Estimated size: {width} × {height} px  "
        ++ Tone.dim.paint s!"(width from {e.source.name}, mean label {e.labels.meanLength} chars)"

def issueLines (suggestions : Bool) (i : Issue) : List String :=
  let level := Text.upperText i.severity.name
  let first := i.severity.sign ++ " " ++ i.severity.tone.code ++ Tone.bold.paint level
    ++ s!" [{i.rule.name}] " ++ i.message
  let advice := if suggestions then Text.lines i.suggestion.toList else []
  first :: advice.map fun line => "      " ++ Tone.dim.paint (String.ofList line)

def allIssueLines (suggestions : Bool) (r : Report) : List String :=
  if r.issues.isEmpty then ["", "✅ " ++ Tone.ok.paint "No readability issues"]
  else "" :: r.issues.flatMap (issueLines suggestions)

def report (suggestions : Bool) (r : Report) : Except Fault String := do
  let size ← sizeLine r
  return "\n".intercalate
    (heading ("📊 " ++ Tone.bold.paint (place r)) ++ structureLines r ++ patternLines r
      ++ layoutLines r ++ [size] ++ allIssueLines suggestions r)

/-- The names of the rules that a diagram breaks, each once and in alphabetical order. -/
def brokenRules (r : Report) : List String :=
  ((r.issues.map fun i => i.rule.name).eraseDups).mergeSort fun a b => a ≤ b

def countLines (s : Summary) : List String :=
  let count := fun (n : Nat) => padStart 3 (toString n)
  heading s!"📊 SUMMARY: {s.diagrams} diagram(s) in {s.files} file(s)" ++ [
    "  🔴 Errors:   " ++ count s.errors,
    "  🟡 Warnings: " ++ count s.warnings,
    "  🔵 Info:     " ++ count s.infos]

def attentionLine (r : Report) : String :=
  s!"   • {place r}: " ++ ", ".intercalate (brokenRules r)

def attentionLines (needy : List Report) : List String :=
  if needy.isEmpty then []
  else ["", "📋 Diagrams needing attention:"] ++ needy.map attentionLine

def summary (reports : List Report) : String :=
  "\n".intercalate
    (countLines (Summary.ofReports reports)
      ++ attentionLines (reports.filter Report.needsAttention))

end Console

end DiagramReadability
