import DiagramReadability.Proofs.Graph.TopologicalOrder
import DiagramReadability.Proofs.Label.Definitions
import DiagramReadability.Report.Rules

/-!
# What a report depends on

An analysis sees the text of a diagram through its edges, its labels and its declared direction
only, and the direction enters nothing but the layout, the advice on it and the estimate.
-/

namespace DiagramReadability

variable {d : Diagram} {config : Config} {r : Report}

theorem exists_of_bind_eq_ok {α β : Type} {x : Except Fault α} {f : α → Except Fault β} {b : β}
    (h : x >>= f = .ok b) : ∃ a, x = .ok a ∧ f a = .ok b := by
  cases x with
  | error e => cases h
  | ok a => exact ⟨a, rfl, h⟩

theorem exists_of_map_eq_ok {α β : Type} {x : Except Fault α} {f : α → β} {b : β}
    (h : x.map f = .ok b) : ∃ a, x = .ok a ∧ f a = b := by
  cases x with
  | error e => cases h
  | ok a => exact ⟨a, rfl, Except.ok.inj h⟩

/-! ## The parts of a report -/

namespace Findings

/-- The estimate that goes into the findings on a graph; there is none without labels. -/
def estimateOf (g : Graph) (labels : Option LabelStats) (layout : Option Direction)
    (config : Config) : Except Fault (Option Estimate) :=
  match labels with
  | some labels =>
      (Estimate.ofGraph g labels (layout.map Direction.name) config.dimensions
        g.longestPath.path).map some
  | none => .ok none

/-- The findings on a graph with a given estimate. -/
def ofParts (filePath : String) (line : Int) (g : Graph) (layout : Option Direction)
    (config : Config) (estimate : Option Estimate) : Findings where
  filePath := filePath
  line := line
  layout := layout
  nodes := g.nodes.length
  edges := g.edges.length
  components := g.components.length
  cyclomaticComplexity := g.cyclomaticComplexity
  isAcyclic := g.isAcyclic
  maxDepth := g.maxDepth
  maxBranchWidth := g.widestBranch.1
  spine := g.spine
  chain := g.linearChain
  longestPath := g.longestPath
  patterns := g.patterns config.patternThresholds
  advice := LayoutAdvice.ofPatterns (g.patterns config.patternThresholds)
    (layout.map Direction.name)
  estimate := estimate

theorem ofDiagram_eq (d : Diagram) (config : Config) :
    ofDiagram d config =
      (estimateOf (Graph.ofText d.content) (labelStats? d.content) d.direction? config).map
        (ofParts d.filePath d.line (Graph.ofText d.content) d.direction? config) := by
  unfold ofDiagram estimateOf
  cases labelStats? d.content with
  | none => rfl
  | some labels =>
    cases Estimate.ofGraph (Graph.ofText d.content) labels (d.direction?.map Direction.name)
      config.dimensions (Graph.ofText d.content).longestPath.path <;> rfl

theorem labels_of_estimateOf {g : Graph} {labels : Option LabelStats} {layout : Option Direction}
    {estimate : Option Estimate} (h : estimateOf g labels layout config = .ok estimate) :
    estimate.map Estimate.labels = labels := by
  unfold estimateOf at h
  cases labels with
  | none =>
    rw [← Except.ok.inj h]
    rfl
  | some labels =>
    obtain ⟨e, he, rfl⟩ := exists_of_map_eq_ok h
    unfold Estimate.ofGraph at he
    obtain ⟨height, -, he⟩ := exists_of_bind_eq_ok he
    obtain ⟨width, -, he⟩ := exists_of_bind_eq_ok he
    rw [← Except.ok.inj he]
    rfl

end Findings

/-- The findings of a report are those on the graph of the text, with an estimate if there are
labels. -/
theorem exists_ofParts_of_analyze (h : analyze d config = .ok r) :
    ∃ estimate, Findings.estimateOf (Graph.ofText d.content) (labelStats? d.content) d.direction?
        config = .ok estimate ∧
      r.toFindings = Findings.ofParts d.filePath d.line (Graph.ofText d.content) d.direction?
        config estimate := by
  unfold analyze at h
  obtain ⟨f, hf, h⟩ := exists_of_bind_eq_ok h
  obtain ⟨issues, -, h⟩ := exists_of_bind_eq_ok h
  rw [Findings.ofDiagram_eq] at hf
  obtain ⟨estimate, hestimate, rfl⟩ := exists_of_map_eq_ok hf
  refine ⟨estimate, hestimate, ?_⟩
  rw [← Except.ok.inj h]

theorem layout_of_analyze (h : analyze d config = .ok r) : r.layout = d.direction? := by
  obtain ⟨estimate, -, hparts⟩ := exists_ofParts_of_analyze h
  rw [hparts]
  rfl

theorem labels_of_analyze (h : analyze d config = .ok r) :
    r.estimate.map Estimate.labels = labelStats? d.content := by
  obtain ⟨estimate, hestimate, hparts⟩ := exists_ofParts_of_analyze h
  rw [hparts]
  exact Findings.labels_of_estimateOf hestimate

/-- Of the text of a diagram, only its edges, its labels and its declared direction enter a
report. -/
theorem analyze_congr {d' : Diagram} (hpath : d.filePath = d'.filePath) (hline : d.line = d'.line)
    (hedges : extractEdges d.content = extractEdges d'.content)
    (hlabels : labelStats? d.content = labelStats? d'.content)
    (hdirection : d.direction? = d'.direction?) : analyze d config = analyze d' config := by
  have hgraph : Graph.ofText d.content = Graph.ofText d'.content := congrArg Graph.ofEdges hedges
  unfold analyze
  rw [Findings.ofDiagram_eq, Findings.ofDiagram_eq, hpath, hline, hgraph, hlabels, hdirection]

theorem Findings.exists_checkChain {f : Findings} (hhorizontal : config.chainLimitHorizontal.isSome)
    (hvertical : config.chainLimitVertical.isSome) : ∃ chain, f.checkChain config = .ok chain := by
  unfold checkChain
  dsimp only
  split
  · exact ⟨_, rfl⟩
  · rename_i hlimit
    split at hlimit
    · simp [hlimit] at hhorizontal
    · simp [hlimit] at hvertical

/-- Without an estimate nothing is calculated that could fail. -/
theorem Findings.exists_issues {f : Findings} (hestimate : f.estimate = none)
    (hhorizontal : config.chainLimitHorizontal.isSome)
    (hvertical : config.chainLimitVertical.isSome) : ∃ issues, f.issues config = .ok issues := by
  obtain ⟨chain, hchain⟩ := f.exists_checkChain hhorizontal hvertical
  unfold issues checkWidth checkHeight
  rw [hestimate, hchain]
  exact ⟨_, rfl⟩

theorem exists_report_of_no_labels (hlabels : labelStats? d.content = none)
    (hhorizontal : config.chainLimitHorizontal.isSome)
    (hvertical : config.chainLimitVertical.isSome) : ∃ r, analyze d config = .ok r := by
  obtain ⟨issues, hissues⟩ := Findings.exists_issues
    (f := .ofParts d.filePath d.line (Graph.ofText d.content) d.direction? config none) rfl
    hhorizontal hvertical
  unfold analyze
  rw [Findings.ofDiagram_eq, hlabels]
  show ∃ r, (Findings.issues _ config >>= _) = Except.ok r
  rw [hissues]
  exact ⟨_, rfl⟩

/-! ## The flag for cycles -/

/-- A walk that looks for cycles finds one if and only if edges lead from some node back to itself,
and every test that tells whether the keyed edges have a topological order gives the opposite
answer.  The flag of a report is such a test, so it tells which search its longest walks use. -/
theorem cycleFlags_agree (edges : List Edge) (d : Diagram) (config : Config) :
    ((Graph.ofEdges edges).hasCycle = true ↔
      ∃ n, Relation.TransGen (fun u v => ∃ e ∈ edges, e.source = u ∧ e.target = v) n n) ∧
    ((Graph.ofEdges edges).isAcyclic = true ↔
      ∃ order, (Graph.ofEdges edges).IsTopologicalOrder order) ∧
    (∀ isDag : Graph → Bool,
      (∀ es, isDag (Graph.ofEdges es) = true ↔
        ∃ order, (Graph.ofEdges es).IsTopologicalOrder order) →
      isDag (Graph.ofEdges edges) = !(Graph.ofEdges edges).hasCycle) ∧
    ∀ r, analyze d config = .ok r →
      let g := Graph.ofText d.content
      r.isAcyclic = !g.hasCycle ∧
        ∀ next starts, starts ≠ [] → g.longestWalk next starts =
          if r.isAcyclic then (g.acyclicLongest? next starts).getD []
          else g.memoisedLongest next starts := by
  refine ⟨?_, Graph.isAcyclic_iff_exists_order edges, fun isDag hdag => ?_, fun r hr => ?_⟩
  · rw [Graph.hasCycle_iff]
    simp only [Graph.Follows, Graph.mem_children_ofEdges]
  · rw [Graph.hasCycle_eq_not_isAcyclic, Bool.not_not, Bool.eq_iff_iff, hdag,
      Graph.isAcyclic_iff_exists_order]
  · intro g
    obtain ⟨estimate, -, hparts⟩ := exists_ofParts_of_analyze hr
    have hflag : r.isAcyclic = g.isAcyclic := by rw [hparts, Findings.ofParts]
    have hcycle : g.hasCycle = !g.isAcyclic := Graph.hasCycle_eq_not_isAcyclic _
    refine ⟨by rw [hflag, hcycle, Bool.not_not], fun next starts hstarts => ?_⟩
    rw [Graph.longestWalk, if_neg (by rwa [List.isEmpty_iff]), hflag, hcycle]
    cases g.isAcyclic <;> rfl

/-- A node with an edge to itself. -/
def selfLoop : List Edge :=
  [⟨"A", "A", none, .solid⟩]

theorem cycleFlags_agree_selfLoop :
    let g := Graph.ofEdges selfLoop
    g.hasCycle = true ∧ g.isAcyclic = false ∧
      ∃ r, analyze ⟨"graph LR\nA --> A", "", 1⟩ {} = .ok r ∧ r.isAcyclic = false ∧
        ∀ next starts, starts ≠ [] →
          g.longestWalk next starts = g.memoisedLongest next starts := by
  intro g
  let d : Diagram := ⟨"graph LR\nA --> A", "", 1⟩
  obtain ⟨hwalk, -, htest, hreport⟩ := cycleFlags_agree selfLoop d {}
  have hcycle : g.hasCycle = true :=
    hwalk.mpr ⟨"A", .single ⟨⟨"A", "A", none, .solid⟩, by decide, rfl, rfl⟩⟩
  have hflag : g.isAcyclic = false := by
    rw [htest Graph.isAcyclic Graph.isAcyclic_iff_exists_order, hcycle]
    rfl
  have hlabels : labelStats? d.content = none := by
    apply labelStats?_of_no_definitions
    rintro (_ | _ | _) <;> decide
  have hedges : extractEdges d.content = selfLoop := by decide +kernel
  have hgraph : Graph.ofText d.content = g := congrArg Graph.ofEdges hedges
  obtain ⟨r, hr⟩ : ∃ r, analyze d {} = .ok r := exists_report_of_no_labels hlabels rfl rfl
  obtain ⟨hagree, hsearch⟩ := hreport r hr
  rw [hgraph, hcycle, Bool.not_true] at hagree
  refine ⟨hcycle, hflag, r, hr, hagree, fun next starts hstarts => ?_⟩
  have hswitch := hsearch next starts hstarts
  rwa [hgraph, hagree, if_neg Bool.false_ne_true] at hswitch

end DiagramReadability
