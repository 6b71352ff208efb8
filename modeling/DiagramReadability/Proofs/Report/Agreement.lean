import DiagramReadability.Proofs.Report.Findings

/-!
# Reports that agree

Two analyses are compared step by step: each step of one fails as the step of the other does, or
gives a related result.  Diagrams with the same edges and labels have reports of the same structure
whatever direction they declare, and of the same size if the directions lie in the same line.
-/

namespace DiagramReadability

/-! ## Computations with the same outcome -/

/-- Both computations give results, which are related, or both fail with the same fault. -/
def SameOutcome {α : Type} (R : α → α → Prop) : Except Fault α → Except Fault α → Prop
  | .ok a, .ok b => R a b
  | .error e, .error e' => e = e'
  | _, _ => False

section Outcome

variable {α β : Type} {R : α → α → Prop} {S : β → β → Prop} {x y : Except Fault α}

theorem SameOutcome.bind {f g : α → Except Fault β} (h : SameOutcome R x y)
    (hnext : ∀ a b, R a b → SameOutcome S (f a) (g b)) : SameOutcome S (x >>= f) (y >>= g) := by
  cases x with
  | error e =>
    cases y with
    | error e' => exact h
    | ok b => exact h.elim
  | ok a =>
    cases y with
    | error e' => exact h.elim
    | ok b => exact hnext a b h

/-- After the same computation only what follows it can differ. -/
theorem SameOutcome.bind_same (x : Except Fault α) {f g : α → Except Fault β}
    (hnext : ∀ a, SameOutcome S (f a) (g a)) : SameOutcome S (x >>= f) (x >>= g) := by
  cases x with
  | error e => rfl
  | ok a => exact hnext a

theorem SameOutcome.map {f g : α → β} (h : SameOutcome R x y)
    (hnext : ∀ a b, R a b → S (f a) (g b)) : SameOutcome S (x.map f) (y.map g) := by
  cases x with
  | error e =>
    cases y with
    | error e' => exact h
    | ok b => exact h.elim
  | ok a =>
    cases y with
    | error e' => exact h.elim
    | ok b => exact hnext a b h

end Outcome

/-! ## The same size -/

/-- Whether a layout puts the ranks side by side; without a declaration they stand one below the
other. -/
def Direction.isHorizontal (layout : Option Direction) : Bool :=
  isHorizontalName (layout.getD .topDown).name

theorem Estimate.layoutName_map (layout : Option Direction) :
    layoutName (layout.map Direction.name) = (layout.getD .topDown).name := by
  cases layout with
  | none => decide
  | some d => cases d <;> decide

/-- Two estimates of the same width and height. -/
structure Estimate.SameSize (e e' : Estimate) : Prop where
  width : e.width = e'.width
  height : e.height = e'.height

namespace Findings

variable {f f' : Findings} {config : Config} {layout layout' : Option Direction}

theorem estimateOf_agree (g : Graph) (labels : Option LabelStats) (config : Config)
    (hline : Direction.isHorizontal layout = Direction.isHorizontal layout') :
    SameOutcome (Option.Rel Estimate.SameSize) (estimateOf g labels layout config)
      (estimateOf g labels layout' config) := by
  unfold estimateOf
  cases labels with
  | none => exact .none
  | some labels =>
    refine SameOutcome.map (R := Estimate.SameSize) ?_ fun _ _ h => .some h
    unfold Estimate.ofGraph
    simp only [Estimate.layoutName_map]
    rw [show Direction.isHorizontalName (layout.getD .topDown).name =
      Direction.isHorizontalName (layout'.getD .topDown).name from hline]
    refine SameOutcome.bind_same _ fun height => SameOutcome.bind_same _ fun width => ?_
    exact ⟨rfl, rfl⟩

/-- The rule that an issue is about, with its severity. -/
def rating (issue : Issue) : Rule × Severity :=
  (issue.rule, issue.severity)

/-- Two checks raise issues of the same rule and severity, or none. -/
def SameRating (i j : Option Issue) : Prop :=
  i.map rating = j.map rating

/-- The texts of an issue have no part in its rating. -/
theorem sameRating_issue (f f' : Findings) (rule : Rule) (severity : Severity)
    (m m' s s' : String) :
    SameOutcome SameRating (.ok (some (f.issue rule severity m s)))
      (.ok (some (f'.issue rule severity m' s'))) :=
  rfl

theorem checkWidth_agree (h : Option.Rel Estimate.SameSize f.estimate f'.estimate) :
    SameOutcome SameRating (f.checkWidth config) (f'.checkWidth config) := by
  unfold checkWidth
  generalize f.estimate = e, f'.estimate = e' at h
  cases h with
  | none => rfl
  | some hsize =>
    simp only [hsize.width]
    refine SameOutcome.bind_same _ fun steps => SameOutcome.bind_same _ fun severity => ?_
    cases severity with
    | none => rfl
    | some severity =>
      refine SameOutcome.bind_same _ fun excess => SameOutcome.bind_same _ fun width => ?_
      exact sameRating_issue f f' .width severity _ _ _ _

theorem checkHeight_agree (h : Option.Rel Estimate.SameSize f.estimate f'.estimate) :
    SameOutcome SameRating (f.checkHeight config) (f'.checkHeight config) := by
  unfold checkHeight
  generalize f.estimate = e, f'.estimate = e' at h
  cases h with
  | none => rfl
  | some hsize =>
    simp only [hsize.height]
    refine SameOutcome.bind_same _ fun steps => SameOutcome.bind_same _ fun severity => ?_
    cases severity with
    | none => rfl
    | some severity =>
      refine SameOutcome.bind_same _ fun height => ?_
      exact sameRating_issue f f' .height severity _ _ _ _

theorem checkChain_agree (hchain : f.chain = f'.chain)
    (hline : Direction.isHorizontal f.layout = Direction.isHorizontal f'.layout) :
    SameOutcome SameRating (f.checkChain config) (f'.checkChain config) := by
  unfold checkChain
  rw [show Direction.isHorizontalName (f.layout.getD .topDown).name =
    Direction.isHorizontalName (f'.layout.getD .topDown).name from hline]
  dsimp only
  split
  · rename_i limit _
    unfold chainIssue?
    rw [hchain]
    dsimp only
    split
    · exact rfl
    · exact sameRating_issue f f' .chainLength .warning _ _ _ _
  · rfl

theorem checkComponents_agree (h : f.components = f'.components) :
    SameRating (f.checkComponents config) (f'.checkComponents config) := by
  unfold SameRating checkComponents
  rw [h]
  split <;> rfl

/-- The ratings of some issues, the hint on the layout apart. -/
def ratings (issues : List Issue) : List (Rule × Severity) :=
  (issues.map rating).filter fun p => p.1 ≠ .layoutHint

theorem ratings_filterMap (checks : List (Option Issue)) :
    ratings (checks.filterMap id) =
      checks.flatMap fun i => (i.map rating).toList.filter fun p => p.1 ≠ .layoutHint := by
  induction checks with
  | nil => rfl
  | cons i rest ih =>
    rw [List.flatMap_cons, ← ih]
    cases i with
    | none => rfl
    | some issue =>
      show List.filter _ ([rating issue] ++ _) = _
      rw [List.filter_append]
      rfl

theorem ratings_checkLayout (f : Findings) (config : Config) :
    (((f.checkLayout config).map rating).toList.filter fun p => p.1 ≠ .layoutHint) = [] := by
  unfold checkLayout
  dsimp only
  split
  · rfl
  · simp [rating, issue]

theorem issues_agree (hestimate : Option.Rel Estimate.SameSize f.estimate f'.estimate)
    (hchain : f.chain = f'.chain) (hcomponents : f.components = f'.components)
    (hline : Direction.isHorizontal f.layout = Direction.isHorizontal f'.layout) :
    SameOutcome (fun issues issues' => ratings issues = ratings issues') (f.issues config)
      (f'.issues config) := by
  unfold issues
  refine (checkWidth_agree hestimate).bind fun width width' hwidth => ?_
  refine (checkHeight_agree hestimate).bind fun height height' hheight => ?_
  refine (checkChain_agree hchain hline).bind fun chain chain' hchain => ?_
  show ratings (List.filterMap id _) = ratings (List.filterMap id _)
  unfold SameRating at hwidth hheight hchain
  simp only [ratings_filterMap, List.flatMap_cons, List.flatMap_nil, ratings_checkLayout, hwidth,
    hheight, hchain, show Option.map rating _ = _ from checkComponents_agree hcomponents]

end Findings

/-! ## Whole reports -/

/-- Two reports of the same size, which rate it alike: whatever each rule but the hint on the layout
raises in one, it raises in the other with the same severity. -/
structure Report.SameSize (r s : Report) : Prop where
  estimate : Option.Rel Estimate.SameSize r.estimate s.estimate
  ratings : Findings.ratings r.issues = Findings.ratings s.issues

/-- Two findings that agree in all that does not depend on the direction. -/
structure Findings.SameStructure (f f' : Findings) : Prop where
  nodes : f.nodes = f'.nodes
  edges : f.edges = f'.edges
  components : f.components = f'.components
  cyclomaticComplexity : f.cyclomaticComplexity = f'.cyclomaticComplexity
  isAcyclic : f.isAcyclic = f'.isAcyclic
  maxDepth : f.maxDepth = f'.maxDepth
  maxBranchWidth : f.maxBranchWidth = f'.maxBranchWidth
  spine : f.spine = f'.spine
  chain : f.chain = f'.chain
  longestPath : f.longestPath = f'.longestPath
  patterns : f.patterns = f'.patterns
  recommended : f.advice.recommended = f'.advice.recommended
  reason : f.advice.reason = f'.advice.reason
  confidence : f.advice.confidence = f'.advice.confidence
  evidence : f.advice.patterns = f'.advice.patterns
  labels : f.estimate.map Estimate.labels = f'.estimate.map Estimate.labels

/-- The same advice on another declaration. -/
def LayoutAdvice.withCurrent (advice : LayoutAdvice) (current : Option String) : LayoutAdvice :=
  { advice with current := current }

theorem LayoutAdvice.decideBy_withCurrent (advice : LayoutAdvice) (current : Option String)
    (pattern? : Option Pattern) (direction : Direction) (reason : String) :
    (advice.withCurrent current).decideBy pattern? direction reason =
      (advice.decideBy pattern? direction reason).withCurrent current := by
  unfold decideBy
  cases pattern? with
  | none => rfl
  | some pattern =>
    by_cases h : advice.confidence < pattern.confidence
    · simp only [withCurrent, h, if_true]
    · simp only [withCurrent, h, if_false]

/-- The declared direction is carried along by the advice and decides nothing. -/
theorem LayoutAdvice.ofPatterns_eq (patterns : List Pattern) (current current' : Option String) :
    ofPatterns patterns current = (ofPatterns patterns current').withCurrent current := by
  have hstandard : standard current = (standard current').withCurrent current := rfl
  unfold ofPatterns
  rw [hstandard, decideBy_withCurrent, decideBy_withCurrent]
  rfl

variable {d d' : Diagram} {config : Config}

/-- Diagrams with the same edges and labels have reports of the same structure. -/
theorem sameStructure_of_analyze (hedges : extractEdges d.content = extractEdges d'.content)
    (hlabels : labelStats? d.content = labelStats? d'.content) {r s : Report}
    (hr : analyze d config = .ok r) (hs : analyze d' config = .ok s) :
    r.SameStructure s.toFindings := by
  have hstats : r.estimate.map Estimate.labels = s.estimate.map Estimate.labels := by
    rw [labels_of_analyze hr, labels_of_analyze hs, hlabels]
  obtain ⟨e, -, hr⟩ := exists_ofParts_of_analyze hr
  obtain ⟨e', -, hs⟩ := exists_ofParts_of_analyze hs
  have hgraph : Graph.ofText d.content = Graph.ofText d'.content := congrArg Graph.ofEdges hedges
  have hadvice := LayoutAdvice.ofPatterns_eq
    ((Graph.ofText d'.content).patterns config.patternThresholds)
    (d.direction?.map Direction.name) (d'.direction?.map Direction.name)
  rw [hr, hs] at hstats
  rw [hr, hs, hgraph]
  constructor
  case recommended => exact (congrArg LayoutAdvice.recommended hadvice :)
  case reason => exact (congrArg LayoutAdvice.reason hadvice :)
  case confidence => exact (congrArg LayoutAdvice.confidence hadvice :)
  case evidence => exact (congrArg LayoutAdvice.patterns hadvice :)
  case labels => exact hstats
  all_goals rfl

/-- If their directions lie in the same line as well, the reports have the same size. -/
theorem analyze_agree (hedges : extractEdges d.content = extractEdges d'.content)
    (hlabels : labelStats? d.content = labelStats? d'.content)
    (hline : Direction.isHorizontal d.direction? = Direction.isHorizontal d'.direction?) :
    SameOutcome Report.SameSize (analyze d config) (analyze d' config) := by
  have hgraph : Graph.ofText d.content = Graph.ofText d'.content := congrArg Graph.ofEdges hedges
  unfold analyze
  rw [Findings.ofDiagram_eq, Findings.ofDiagram_eq, hgraph, hlabels]
  refine SameOutcome.bind (R := fun f f' => Option.Rel Estimate.SameSize f.estimate f'.estimate ∧
    f.chain = f'.chain ∧ f.components = f'.components ∧
      Direction.isHorizontal f.layout = Direction.isHorizontal f'.layout) ?_ ?_
  · exact (Findings.estimateOf_agree _ _ config hline).map fun _ _ h => ⟨h, rfl, rfl, hline⟩
  · rintro f f' ⟨hestimate, hchain, hcomponents, hlayout⟩
    refine (Findings.issues_agree hestimate hchain hcomponents hlayout).bind ?_
    exact fun _ _ hratings => ⟨hestimate, hratings⟩

end DiagramReadability
