import DiagramReadability.Report.Basic

/-!
# Rules

Each rule looks at the findings on a diagram and raises at most one issue, with advice on what to
change.
-/

namespace DiagramReadability.Findings

def numbered (suggestions : List String) : String :=
  "Suggestions:\n" ++
    "\n\n".intercalate (suggestions.mapIdx fun i s => toString (i + 1) ++ ". " ++ s)

def issue (f : Findings) (rule : Rule) (severity : Severity) (message suggestion : String) :
    Issue where
  rule := rule
  severity := severity
  message := message
  filePath := f.filePath
  line := f.line
  suggestion := suggestion

def widthAdvice (e : Estimate) : String × String × List String :=
  match e.source with
  | .sequentialChain =>
      ("sequential nodes (longest path: " ++ pathPreview e.path ++ ")",
       s!"longest path of {e.path.length} nodes",
       ["Convert to TD (top-down) layout for better vertical scrolling:\n\n"
          ++ "graph TD\n  A --> B --> C\n  ...",
        "Break into multiple sequential diagrams, each covering a specific phase"])
  | .branching =>
      ("parallel branches",
       s!"{e.branchWidth} parallel branches",
       ["Group related branches into subgraphs to reduce width",
        "Split wide branches into separate diagrams",
        "Introduce intermediate grouping nodes"])

def checkWidth (f : Findings) (config : Config) : Except Fault (Option Issue) :=
  match f.estimate with
  | none => return none
  | some e => do
      let steps ← config.widthSteps
      match ← steps.rate e.width with
      | none => return none
      | some severity =>
          let excess ← e.width.excess steps.error
          let width ← e.width.rounded
          let (cause, measure, suggestions) := widthAdvice e
          let message := s!"Diagram width ({width}px) exceeds viewport limit due to {cause} "
            ++ s!"and label length in {e.layout} layout"
          let opening := s!"This {e.layout} layout with {measure} creates excessive width.\n"
          let limits := s!"Estimated width: {width}px "
            ++ s!"(exceeds {steps.error}px safe limit by {Number.fixed 0 excess}px)\n\n"
          let all := suggestions ++
            ["Use shorter, more concise labels", "Use abbreviations with a legend"]
          return some (f.issue .width severity message (opening ++ limits ++ numbered all))

def heightAdvice (e : Estimate) : String × List String :=
  if Direction.isHorizontalName e.layout then
    (s!"{e.branchWidth} parallel branches",
     ["Reduce the number of parallel branches from a single node",
      "Group parallel branches into subgraphs"])
  else
    (s!"depth of {e.depth} levels",
     ["Convert to LR (left-right) layout if the flow is mostly sequential",
      "Split the diagram into phases, one diagram per phase"])

def checkHeight (f : Findings) (config : Config) : Except Fault (Option Issue) :=
  match f.estimate with
  | none => return none
  | some e => do
      let steps ← config.heightSteps
      match ← steps.rate e.height with
      | none => return none
      | some severity =>
          let height ← e.height.rounded
          let (cause, suggestions) := heightAdvice e
          let message := s!"Diagram height ({height}px) exceeds viewport limit due to {cause} "
            ++ s!"in {e.layout} layout"
          let all := suggestions ++ ["Collapse intermediate steps that do not add information"]
          return some (f.issue .height severity message (numbered all))

def chainPreview (path : List String) : String :=
  if 4 < path.length then
    " → ".intercalate (path.take 3) ++ " ... → " ++ path.getLast?.getD ""
  else " → ".intercalate path

def connections (path : List String) : String :=
  " --> ".intercalate path

def chainSuggestions (path : List String) (horizontal : Bool) : List String :=
  let half := (path.length + 1) / 2
  let convert :=
    "Convert to TD (top-down) layout for better vertical scrolling:\n\ngraph TD\n  "
      ++ connections (path.take 3) ++ (if 3 < path.length then "\n  ..." else "")
  let divide :=
    "Organize into logical subgraphs to break up the chain:\n\nsubgraph Phase1\n  direction TB\n  "
      ++ connections (path.take half) ++ "\nend\n\nsubgraph Phase2\n  direction TB\n  "
      ++ connections (path.drop half) ++ "\nend"
  (if horizontal then [convert] else []) ++
    [divide, "Simplify by removing intermediate steps and focusing on key transitions"]

def chainIssue? (f : Findings) (limit : Int) : Option Issue :=
  let layout := (f.layout.getD .topDown).name
  let horizontal := Direction.isHorizontalName layout
  let length := f.chain.length
  if (length : Int) ≤ limit then none
  else
    let family := if horizontal then "horizontal" else "vertical"
    let effect :=
      if horizontal then "excessive width in horizontal layout" else "an excessively tall diagram"
    let message := s!"Linear chain of {length} nodes in {layout} layout "
      ++ s!"exceeds {limit}-node threshold for {family} layouts"
    let opening := s!"Linear chain of {length} nodes detected:\n{chainPreview f.chain.path}\n\n"
      ++ s!"This creates {effect}.\n\n"
    some (f.issue .chainLength .warning message
      (opening ++ numbered (chainSuggestions f.chain.path horizontal)))

def checkChain (f : Findings) (config : Config) : Except Fault (Option Issue) :=
  let horizontal := Direction.isHorizontalName (f.layout.getD .topDown).name
  match if horizontal then config.chainLimitHorizontal else config.chainLimitVertical with
  | some limit => .ok (f.chainIssue? limit)
  | none => .error .absentLimit

/-- The direction that a diagram is drawn in when it declares one of this name: top-bottom is
another name of top-down, which is also the direction without a declaration. -/
def effectiveDirection (declared : Option String) : String :=
  match declared with
  | none => Direction.topDown.name
  | some name => if name = Direction.topBottom.name then Direction.topDown.name else name

/-- The first pattern's example, or a small diagram in the recommended direction. -/
def adviceExample (advice : LayoutAdvice) : String :=
  ((advice.patterns.head?.bind Pattern.example).filter fun s => !s.isEmpty).getD
    ("graph " ++ advice.recommended ++ "\n  A --> B --> C")

def checkLayout (f : Findings) (config : Config) : Option Issue :=
  let advice := f.advice
  if advice.confidence < config.layoutMinConfidence
      || effectiveDirection advice.current = advice.recommended then none
  else
    let now :=
      match advice.current with
      | some name => if name.isEmpty then "" else "current: " ++ name ++ ", "
      | none => ""
    let message := s!"{advice.reason} ({now}suggested: {advice.recommended})"
    let patterns := "\n".intercalate (advice.patterns.map fun p =>
      "  - " ++ p.kind.name ++ ": " ++ ", ".intercalate p.evidence)
    let change := s!"Consider changing layout to {advice.recommended}:\n\n"
    let grounds := s!"Detected patterns:\n{patterns}\n\nExample:\n{adviceExample advice}"
    some (f.issue .layoutHint .warning message (change ++ grounds))

def checkComponents (f : Findings) (config : Config) : Option Issue :=
  if (f.components : Int) < config.componentThreshold then none
  else
    some (f.issue .components .warning
      s!"Diagram contains {f.components} disconnected components"
      (s!"Consider splitting into {f.components} separate diagrams, "
        ++ "each focusing on one logical concern, linked by references if related."))

/-- The issues that the rules raise, in the order of the rules. -/
def issues (f : Findings) (config : Config) : Except Fault (List Issue) := do
  let width ← f.checkWidth config
  let height ← f.checkHeight config
  let chain ← f.checkChain config
  return [width, height, chain, f.checkLayout config, f.checkComponents config].filterMap id

end DiagramReadability.Findings

namespace DiagramReadability

def analyze (d : Diagram) (config : Config) : Except Fault Report := do
  let findings ← Findings.ofDiagram d config
  let issues ← findings.issues config
  return { findings with issues := issues }

end DiagramReadability
