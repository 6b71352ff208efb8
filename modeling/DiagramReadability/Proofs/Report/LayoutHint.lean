import DiagramReadability.Proofs.Graph.LongestPath
import DiagramReadability.Proofs.Report.Header
import DiagramReadability.Proofs.Report.Total

/-!
# Following the hint on the layout

The recommended direction follows from the patterns of the graph and never from the direction that
is declared, and it is one of two directions that have no other name.  So once a diagram declares
the recommended direction, the recommendation is the same and there is nothing left to hint at.
-/

namespace DiagramReadability

namespace Findings

variable {f : Findings} {config : Config} {i : Issue}

/-! ## The rules of the issues -/

theorem rule_of_checkWidth (h : f.checkWidth config = .ok (some i)) : i.rule = .width := by
  unfold checkWidth at h
  cases hestimate : f.estimate with
  | none =>
    rw [hestimate] at h
    cases h
  | some e =>
    rw [hestimate] at h
    obtain ⟨steps, -, h⟩ := exists_of_bind_eq_ok h
    obtain ⟨severity, -, h⟩ := exists_of_bind_eq_ok h
    cases severity with
    | none => cases h
    | some severity =>
      obtain ⟨excess, -, h⟩ := exists_of_bind_eq_ok h
      obtain ⟨width, -, h⟩ := exists_of_bind_eq_ok h
      cases h
      rfl

theorem rule_of_checkHeight (h : f.checkHeight config = .ok (some i)) : i.rule = .height := by
  unfold checkHeight at h
  cases hestimate : f.estimate with
  | none =>
    rw [hestimate] at h
    cases h
  | some e =>
    rw [hestimate] at h
    obtain ⟨steps, -, h⟩ := exists_of_bind_eq_ok h
    obtain ⟨severity, -, h⟩ := exists_of_bind_eq_ok h
    cases severity with
    | none => cases h
    | some severity =>
      obtain ⟨height, -, h⟩ := exists_of_bind_eq_ok h
      cases h
      rfl

theorem rule_of_checkChain (h : f.checkChain config = .ok (some i)) : i.rule = .chainLength := by
  unfold checkChain chainIssue? at h
  dsimp only at h
  split at h
  · split at h
    · cases h
    · cases h
      rfl
  · cases h

theorem rule_of_checkLayout (h : f.checkLayout config = some i) : i.rule = .layoutHint := by
  unfold checkLayout at h
  dsimp only at h
  split at h
  · cases h
  · cases h
    rfl

theorem rule_of_checkComponents (h : f.checkComponents config = some i) :
    i.rule = .components := by
  unfold checkComponents at h
  split at h
  · cases h
  · cases h
    rfl

/-- Only the rule about the layout hints at another one. -/
theorem hint_mem_issues {issues : List Issue} (h : f.issues config = .ok issues)
    (hi : i.rule = .layoutHint) : i ∈ issues ↔ f.checkLayout config = some i := by
  unfold Findings.issues at h
  obtain ⟨width, hwidth, h⟩ := exists_of_bind_eq_ok h
  obtain ⟨height, hheight, h⟩ := exists_of_bind_eq_ok h
  obtain ⟨chain, hchain, h⟩ := exists_of_bind_eq_ok h
  rw [← Except.ok.inj h]
  constructor
  · intro hmem
    simp only [List.mem_filterMap, List.mem_cons, List.not_mem_nil, or_false, id] at hmem
    obtain ⟨check, hcheck, rfl⟩ := hmem
    rcases hcheck with h | h | h | h | h
    · rw [rule_of_checkWidth (h ▸ hwidth)] at hi
      cases hi
    · rw [rule_of_checkHeight (h ▸ hheight)] at hi
      cases hi
    · rw [rule_of_checkChain (h ▸ hchain)] at hi
      cases hi
    · exact h.symm
    · rw [rule_of_checkComponents h.symm] at hi
      cases hi
  · intro hlayout
    rw [hlayout]
    simp

end Findings

/-! ## The recommended direction -/

namespace LayoutAdvice

theorem recommended_decideBy (advice : LayoutAdvice) (pattern? : Option Pattern)
    (direction : Direction) (reason : String) :
    (advice.decideBy pattern? direction reason).recommended = direction.name ∨
      (advice.decideBy pattern? direction reason).recommended = advice.recommended := by
  unfold decideBy
  cases pattern? with
  | none => exact .inr rfl
  | some pattern =>
    dsimp only
    split
    · exact .inl rfl
    · exact .inr rfl

/-- No more than two directions are ever recommended. -/
theorem exists_recommended (patterns : List Pattern) (current : Option String) :
    ∃ y : Direction, y ∈ [.leftRight, .topDown] ∧
      (ofPatterns patterns current).recommended = y.name := by
  unfold ofPatterns
  dsimp only
  generalize lastOf? .sequential patterns = sequential
  generalize lastOf? .hierarchical patterns = hierarchical
  rcases recommended_decideBy ((standard current).decideBy sequential .leftRight _) hierarchical
    .topDown _ with h | h
  · exact ⟨.topDown, by decide, h⟩
  · rcases recommended_decideBy (standard current) sequential .leftRight _ with h' | h'
    · exact ⟨.leftRight, by decide, h.trans h'⟩
    · exact ⟨.topDown, by decide, h.trans h'⟩

end LayoutAdvice

theorem Findings.effectiveDirection_name {y : Direction} (hy : y ∈ [.leftRight, .topDown]) :
    effectiveDirection (some y.name) = y.name := by
  revert hy
  cases y <;> decide

/-- When the rule about the layout raises an issue. -/
theorem Findings.isSome_checkLayout (f : Findings) (config : Config) :
    (f.checkLayout config).isSome ↔ ¬ f.advice.confidence < config.layoutMinConfidence ∧
      effectiveDirection f.advice.current ≠ f.advice.recommended := by
  unfold checkLayout
  dsimp only
  split
  next h =>
    rw [Bool.or_eq_true, decide_eq_true_eq, decide_eq_true_eq] at h
    simp only [Option.isSome_none, Bool.false_eq_true, false_iff]
    tauto
  next h =>
    rw [Bool.or_eq_true, decide_eq_true_eq, decide_eq_true_eq] at h
    simp only [Option.isSome_some, true_iff]
    tauto

variable {d : Diagram} {config : Config} {r : Report}

theorem issues_of_analyze (h : analyze d config = .ok r) :
    r.toFindings.issues config = .ok r.issues := by
  unfold analyze at h
  obtain ⟨f, -, h⟩ := exists_of_bind_eq_ok h
  obtain ⟨issues, hissues, h⟩ := exists_of_bind_eq_ok h
  rw [← Except.ok.inj h]
  exact hissues

/-- The report hints at another layout. -/
def Report.HintsLayout (r : Report) : Prop :=
  ∃ i ∈ r.issues, i.rule = .layoutHint

theorem hintsLayout_iff (h : analyze d config = .ok r) :
    r.HintsLayout ↔ ¬ r.advice.confidence < config.layoutMinConfidence ∧
      Findings.effectiveDirection r.advice.current ≠ r.advice.recommended := by
  have hissues := issues_of_analyze h
  rw [← Findings.isSome_checkLayout, Option.isSome_iff_exists]
  constructor
  · rintro ⟨i, hmem, hrule⟩
    exact ⟨i, (Findings.hint_mem_issues hissues hrule).mp hmem⟩
  · rintro ⟨i, hi⟩
    have hrule := Findings.rule_of_checkLayout hi
    exact ⟨i, (Findings.hint_mem_issues hissues hrule).mpr hi, hrule⟩

theorem current_of_analyze (h : analyze d config = .ok r) :
    r.advice.current = d.direction?.map Direction.name := by
  obtain ⟨estimate, -, hparts⟩ := exists_ofParts_of_analyze h
  rw [hparts]
  exact congrArg LayoutAdvice.current (LayoutAdvice.ofPatterns_eq _ _ none)

theorem exists_recommended_of_analyze (h : analyze d config = .ok r) :
    ∃ y : Direction, y ∈ [.leftRight, .topDown] ∧ r.advice.recommended = y.name := by
  obtain ⟨estimate, -, hparts⟩ := exists_ofParts_of_analyze h
  rw [hparts]
  exact LayoutAdvice.exists_recommended _ _

/-- A diagram that declares the direction recommended to it gets no hint. -/
theorem not_hintsLayout {x : Direction} (h : analyze d config = .ok r)
    (hdirection : d.direction? = some x) (hrecommended : r.advice.recommended = x.name) :
    ¬ r.HintsLayout := by
  obtain ⟨y, hy, hname⟩ := exists_recommended_of_analyze h
  have hcurrent : r.advice.current = some y.name := by
    rw [current_of_analyze h, hdirection, ← hname, hrecommended]
    rfl
  -- neither of the two directions that are recommended is another name of one
  rw [hintsLayout_iff h, hcurrent, hname, Findings.effectiveDirection_name hy]
  exact fun h => h.2 rfl

/-- A hint is about another direction than the declared one.  A diagram that declares that direction
has no hint in its report, and it has a report if the configuration gives all its numbers and the
counts are in range. -/
theorem layoutHint_followed (body filePath : String) (line : Int) (config : Config)
    (x : Direction) :
    let diagram (direction : String) : Diagram :=
      ⟨"graph " ++ direction ++ "\n" ++ body, filePath, line⟩
    ∀ r, analyze (diagram x.name) config = .ok r → r.HintsLayout →
      (∃ y, r.advice.recommended = Direction.name y ∧ y ≠ x) ∧
      (∀ s, analyze (diagram r.advice.recommended) config = .ok s → ¬ s.HintsLayout) ∧
      (config.IsComplete → (diagram x.name).HasCountsInRange →
        ∃ s, analyze (diagram r.advice.recommended) config = .ok s) := by
  intro diagram r hr hhint
  obtain ⟨y, -, hrecommended⟩ := exists_recommended_of_analyze hr
  have hedges : extractEdges (diagram x.name).content = extractEdges (diagram y.name).content :=
    (extractEdges_above x body).trans (extractEdges_above y body).symm
  have hlabels : labelStats? (diagram x.name).content = labelStats? (diagram y.name).content :=
    labelStats?_above x y body
  rw [hrecommended]
  refine ⟨⟨y, rfl, ?_⟩, fun s hs => ?_, fun hconfig hcounts => ?_⟩
  · rintro rfl
    exact not_hintsLayout hr (Direction.declared?_above y body) hrecommended hhint
  · -- the recommendation to the other diagram is the same, and now it is what that one declares
    have hsame := sameStructure_of_analyze hedges hlabels hr hs
    apply not_hintsLayout hs (Direction.declared?_above y body)
    rw [← hsame.recommended, hrecommended]
  · apply exists_report hconfig
    intro labels h
    rw [show Graph.ofText (diagram y.name).content = Graph.ofText (diagram x.name).content from
      congrArg Graph.ofEdges hedges.symm]
    exact hcounts labels (hlabels.trans h)

namespace Graph

/-- A single link. -/
def singleLink : List Edge :=
  [⟨"A", "B", none, .solid⟩]

theorem nodes_singleLink : (ofEdges singleLink).nodes = ["A", "B"] := by
  decide

theorem spine_singleLink : (ofEdges singleLink).spine.path = ["A", "B"] := by
  have hstarts : (ofEdges singleLink).spineStarts = ["A"] := by
    rw [spineStarts, roots, nodes_singleLink]
    simp [parents_ofEdges, singleLink]
  rw [spine_path, hstarts, longestByEnumeration, nodes_singleLink]
  simp [simplePaths, spineSteps, extension, outDegree, spineChildren, children_ofEdges, singleLink]
  decide

theorem patterns_singleLink : ∃ p : Pattern, (ofEdges singleLink).patterns {} = [p] ∧
    p.kind = .sequential ∧ p.confidence = 1.0 := by
  have hratio : (ofEdges singleLink).spine.ratio = 1.0 := by
    show (ofEdges singleLink).nodeShare (ofEdges singleLink).spine.path.length = 1.0
    rw [spine_singleLink, nodeShare, nodes_singleLink]
    decide +kernel
  have hseq : ∃ p : Pattern, (ofEdges singleLink).sequential? {} = some p ∧ p.kind = .sequential ∧
      p.confidence = 1.0 := by
    unfold sequential?
    dsimp only
    rw [hratio, if_neg (by decide)]
    exact ⟨_, rfl, rfl, by decide⟩
  have hhier : (ofEdges singleLink).hierarchical? {} = none := by
    have haverage : (ofEdges singleLink).averageChildren ≤ 0.8 := by
      unfold averageChildren nodeShare
      rw [nodes_singleLink]
      decide +kernel
    unfold hierarchical?
    split
    · dsimp only
      simp [haverage]
    · rfl
  have hwide : (ofEdges singleLink).wideBranching? {} = none := by
    have hwidest : (ofEdges singleLink).widestBranch = (1, some "A") := by
      rw [widestBranch, nodes_singleLink]
      simp [wider, outDegree, children_ofEdges, singleLink]
    unfold wideBranching?
    rw [hwidest]
    rfl
  have hrec : (ofEdges singleLink).reconvergence? {} = none := by
    have hmerge : (ofEdges singleLink).mergePoints = [] := by
      rw [mergePoints, nodes_singleLink]
      simp [inDegree, parents_ofEdges, singleLink]
    have hshare : (ofEdges singleLink).nodeShare 0 ≤ 0.2 := by
      rw [nodeShare, nodes_singleLink]
      decide +kernel
    unfold reconvergence?
    dsimp only
    rw [hmerge]
    simp [hshare]
  obtain ⟨p, hp, hkind, hconfidence⟩ := hseq
  refine ⟨p, ?_, hkind, hconfidence⟩
  rw [patterns, hp, hhier, hwide, hrec]
  exact List.mergeSort_singleton p

end Graph

theorem layoutHint_followed_singleLink :
    let diagram (direction : String) : Diagram :=
      ⟨"graph " ++ direction ++ "\n" ++ "A --> B", "d.mmd", 1⟩
    ∃ r s, analyze (diagram "TD") {} = .ok r ∧ r.HintsLayout ∧ r.advice.recommended = "LR" ∧
      analyze (diagram "LR") {} = .ok s ∧ ¬ s.HintsLayout := by
  intro diagram
  have hlabels : labelStats? (diagram "TD").content = none := by
    apply labelStats?_of_no_definitions
    rintro (_ | _ | _) <;> decide
  have hedges : extractEdges (diagram "TD").content = Graph.singleLink := by decide +kernel
  have hgraph : Graph.ofText (diagram "TD").content = Graph.ofEdges Graph.singleLink :=
    congrArg Graph.ofEdges hedges
  have hconfig : Config.IsComplete {} := Preset.isComplete .standard
  have hcounts : (diagram "TD").HasCountsInRange := by
    intro labels h
    rw [hlabels] at h
    cases h
  obtain ⟨r, hr⟩ := exists_report hconfig hcounts
  obtain ⟨p, hp, hkind, hconfidence⟩ := Graph.patterns_singleLink
  have hadvice : r.advice = LayoutAdvice.ofPatterns [p] (some "TD") := by
    obtain ⟨estimate, -, hparts⟩ := exists_ofParts_of_analyze hr
    rw [hparts, hgraph,
      show (diagram "TD").direction? = some .topDown from Direction.declared?_above .topDown _]
    exact congrArg (LayoutAdvice.ofPatterns · _) hp
  have hsequential : LayoutAdvice.lastOf? .sequential [p] = some p := by
    simp [LayoutAdvice.lastOf?, hkind]
  have hhierarchical : LayoutAdvice.lastOf? .hierarchical [p] = none := by
    simp [LayoutAdvice.lastOf?, hkind]
  have hdecide : (LayoutAdvice.standard (some "TD")).confidence < p.confidence := by
    rw [hconfidence]
    decide
  rw [LayoutAdvice.ofPatterns, hsequential, hhierarchical] at hadvice
  simp only [LayoutAdvice.decideBy, hdecide, if_true] at hadvice
  have hrecommended : r.advice.recommended = "LR" := by
    rw [hadvice]
    rfl
  have hhint : r.HintsLayout := by
    rw [hintsLayout_iff hr, hrecommended, hadvice]
    dsimp only
    rw [hconfidence]
    decide
  obtain ⟨-, hsilent, htotal⟩ := layoutHint_followed "A --> B" "d.mmd" 1 {} .topDown r hr hhint
  obtain ⟨s, hs⟩ := htotal hconfig hcounts
  rw [hrecommended] at hsilent hs
  exact ⟨r, s, hr, hhint, hrecommended, hs, hsilent s hs⟩

end DiagramReadability
