import DiagramReadability.Config.Preset
import DiagramReadability.Proofs.Graph.Depth
import DiagramReadability.Proofs.Number.Range
import DiagramReadability.Proofs.Report.Findings

/-!
# Analyses that give a report

An analysis breaks off at a number that is absent or at a whole number beyond the range of real
numbers.  With a configuration that gives all its numbers, and a diagram whose counts are in range,
there is always a report.
-/

namespace DiagramReadability

open DiagramReadability.Number (InRange)

/-- A configuration that gives all its numbers, with greatest sizes in the range of real numbers. -/
structure Config.IsComplete (c : Config) : Prop where
  given : ∀ field : Field, (field.number? (c.get field)).isSome
  width_inRange : ∀ n, c.maxWidth = some n → InRange n
  height_inRange : ∀ n, c.maxHeight = some n → InRange n

theorem Preset.isComplete (preset : Preset) : preset.config.IsComplete where
  given field := by
    cases preset <;> cases field <;> rfl
  width_inRange := by
    cases preset <;> (rintro _ ⟨⟩; decide)
  height_inRange := by
    cases preset <;> (rintro _ ⟨⟩; decide)

/-- The greatest number of nodes that a size is calculated for, in any layout. -/
def Graph.extent (g : Graph) : Nat :=
  max g.widestBranch.1 (max g.maxDepth g.longestPath.path.length)

theorem Graph.extent_le (edges : List Edge) :
    (ofEdges edges).extent ≤ (ofEdges edges).nodes.length + edges.length := by
  obtain ⟨hsimple, hsub⟩ := isSimple_longestPath edges
  have hlongest := hsimple.length_le hsub
  have hdepth : (ofEdges edges).maxDepth ≤ (ofEdges edges).longestPath.path.length :=
    maxDepth_le_iff.mpr fun start hstart =>
      (depthFrom_lt_longestPath (depthStarts_subset _ hstart)).le
  have hwidest : (ofEdges edges).widestBranch.1 ≤ edges.length := by
    apply widestBranch_le_iff.mpr
    intro n _
    rw [outDegree, children_ofEdges, List.length_map]
    exact List.length_filter_le _ edges
  unfold extent
  omega

/-- The counts that go into the size of a diagram are in the range of real numbers. -/
def Diagram.HasCountsInRange (d : Diagram) : Prop :=
  ∀ labels, labelStats? d.content = some labels →
    InRange ((Graph.ofText d.content).extent * (labels.meanLength.natAbs + 1) : Nat)

variable {config : Config} {d : Diagram}

namespace Pixels

theorem exists_real {x : Option Float} (h : x.isSome) : ∃ y, ofReal? x = .real y := by
  obtain ⟨y, rfl⟩ := Option.isSome_iff_exists.mp h
  exact ⟨y, rfl⟩

theorem exists_times_real {count : Int} (h : InRange count) (x : Float) :
    ∃ y, (real x).times count = .ok (.real y) := by
  obtain ⟨c, hc⟩ := h.exists_toReal
  unfold times
  rw [hc]
  exact ⟨_, rfl⟩

theorem exists_excess_real {limit : Int} (h : InRange limit) (x : Float) :
    ∃ y, (real x).excess limit = .ok y := by
  obtain ⟨bound, hbound⟩ := h.exists_toReal
  unfold excess
  dsimp only
  rw [hbound]
  exact ⟨_, rfl⟩

end Pixels

namespace Estimate

theorem exists_widthOf (hconfig : config.IsComplete) {count : Nat} {mean : Int}
    (hcount : InRange count) (htexts : InRange (count * mean)) :
    ∃ x, widthOf config.dimensions count mean = .ok (.real x) := by
  obtain ⟨charWidth, hcharWidth⟩ : ∃ x, config.dimensions.charWidth = .real x :=
    Pixels.exists_real (hconfig.given .charWidth)
  obtain ⟨spacing, hspacing⟩ : ∃ x, config.dimensions.nodeSpacing = .real x :=
    Pixels.exists_real (hconfig.given .nodeSpacing)
  obtain ⟨texts, htexts⟩ := Pixels.exists_times_real htexts charWidth
  obtain ⟨gaps, hgaps⟩ := Pixels.exists_times_real hcount spacing
  unfold widthOf
  rw [hcharWidth, hspacing, htexts, hgaps]
  exact ⟨_, rfl⟩

theorem exists_heightOf (hconfig : config.IsComplete) {count : Nat} (hcount : InRange count) :
    ∃ x, heightOf config.dimensions count = .ok (.real x) := by
  obtain ⟨height, hheight⟩ : ∃ x, config.dimensions.nodeHeight = .real x :=
    Pixels.exists_real (hconfig.given .nodeHeight)
  obtain ⟨spacing, hspacing⟩ : ∃ x, config.dimensions.verticalSpacing = .real x :=
    Pixels.exists_real (hconfig.given .verticalSpacing)
  unfold heightOf
  rw [hheight, hspacing]
  exact Pixels.exists_times_real hcount _

theorem exists_ofGraph (hconfig : config.IsComplete) {g : Graph} {labels : LabelStats}
    (hcounts : InRange (g.extent * (labels.meanLength.natAbs + 1) : Nat))
    (layout : Option String) :
    ∃ e, ofGraph g labels layout config.dimensions g.longestPath.path = .ok e ∧
      (∃ x, e.width = .real x) ∧ ∃ y, e.height = .real y := by
  have hcount : ∀ count : Nat, count ≤ g.extent → InRange count ∧
      InRange (count * labels.meanLength) := by
    intro count hle
    constructor
    · apply hcounts.of_le
      show count ≤ g.extent * (labels.meanLength.natAbs + 1)
      exact hle.trans (Nat.le_mul_of_pos_right _ (Nat.succ_pos _))
    · apply hcounts.of_le
      rw [Int.natAbs_mul]
      exact Nat.mul_le_mul hle (Nat.le_succ _)
  have hdown : (if Direction.isHorizontalName (layoutName layout) then g.widestBranch.1
      else g.maxDepth) ≤ g.extent := by
    unfold Graph.extent
    split <;> omega
  have hacross : (if Direction.isHorizontalName (layoutName layout) then g.longestPath.path.length
      else g.widestBranch.1) ≤ g.extent := by
    unfold Graph.extent
    split <;> omega
  obtain ⟨height, hheight⟩ := exists_heightOf hconfig (hcount _ hdown).1
  obtain ⟨width, hwidth⟩ := exists_widthOf hconfig (hcount _ hacross).1 (hcount _ hacross).2
  unfold ofGraph
  dsimp only
  rw [hheight]
  show ∃ e, (widthOf config.dimensions _ _ >>= _) = Except.ok e ∧ _
  rw [hwidth]
  exact ⟨_, rfl, ⟨width, rfl⟩, height, rfl⟩

end Estimate

/-! ## Ratings -/

namespace Config

theorem exists_stepsOf (info warning : Int) {limit : Option Int} (hgiven : limit.isSome)
    (hrange : ∀ n, limit = some n → InRange n) :
    ∃ steps, stepsOf info warning limit = .ok steps ∧ InRange steps.error := by
  obtain ⟨n, rfl⟩ := Option.isSome_iff_exists.mp hgiven
  obtain ⟨x, hx⟩ := (hrange n rfl).exists_toReal
  have hstep : ∀ step share, ∃ m, stepOr step n share = .ok m := by
    intro step share
    unfold stepOr stepOf
    rw [hx]
    split <;> exact ⟨_, rfl⟩
  obtain ⟨info', hinfo⟩ := hstep info 0.6
  obtain ⟨warning', hwarning⟩ := hstep warning 0.8
  refine ⟨⟨info', warning', n⟩, ?_, hrange n rfl⟩
  unfold stepsOf
  dsimp only
  rw [hinfo, hwarning]
  rfl

theorem IsComplete.exists_widthSteps (h : config.IsComplete) :
    ∃ steps, config.widthSteps = .ok steps ∧ InRange steps.error :=
  exists_stepsOf _ _ (h.given .maxWidth) h.width_inRange

theorem IsComplete.exists_heightSteps (h : config.IsComplete) :
    ∃ steps, config.heightSteps = .ok steps ∧ InRange steps.error :=
  exists_stepsOf _ _ (h.given .maxHeight) h.height_inRange

end Config

theorem Steps.exists_rate_real (steps : Steps) (x : Float) :
    ∃ severity, steps.rate (.real x) = .ok severity := by
  unfold rate Severity.ofSize Pixels.reaches
  dsimp only [bind, Except.bind]
  split
  · exact ⟨_, rfl⟩
  · split
    · exact ⟨_, rfl⟩
    · split <;> exact ⟨_, rfl⟩

/-! ## Reports -/

namespace Findings

variable {f : Findings} {e : Estimate} {x : Float}

theorem exists_checkWidth (hconfig : config.IsComplete) (hestimate : f.estimate = some e)
    (hwidth : e.width = .real x) : ∃ issue, f.checkWidth config = .ok issue := by
  obtain ⟨steps, hsteps, hrange⟩ := hconfig.exists_widthSteps
  obtain ⟨severity, hseverity⟩ := steps.exists_rate_real x
  obtain ⟨excess, hexcess⟩ := Pixels.exists_excess_real hrange x
  unfold checkWidth
  rw [hestimate, hsteps]
  dsimp only [bind, Except.bind]
  rw [hwidth, hseverity, hexcess]
  cases severity <;> exact ⟨_, rfl⟩

theorem exists_checkHeight (hconfig : config.IsComplete) (hestimate : f.estimate = some e)
    (hheight : e.height = .real x) : ∃ issue, f.checkHeight config = .ok issue := by
  obtain ⟨steps, hsteps, -⟩ := hconfig.exists_heightSteps
  obtain ⟨severity, hseverity⟩ := steps.exists_rate_real x
  unfold checkHeight
  rw [hestimate, hsteps]
  dsimp only [bind, Except.bind]
  rw [hheight, hseverity]
  cases severity <;> exact ⟨_, rfl⟩

end Findings

/-- If the configuration gives all its numbers and the counts are in range, there is a report. -/
theorem exists_report (hconfig : config.IsComplete) (hcounts : d.HasCountsInRange) :
    ∃ r, analyze d config = .ok r := by
  cases hlabels : labelStats? d.content with
  | none =>
    exact exists_report_of_no_labels hlabels (hconfig.given .chainLimitHorizontal)
      (hconfig.given .chainLimitVertical)
  | some labels =>
    obtain ⟨e, he, ⟨x, hwidth⟩, y, hheight⟩ := Estimate.exists_ofGraph hconfig
      (hcounts labels hlabels) (d.direction?.map Direction.name)
    have hestimate : Findings.estimateOf (Graph.ofText d.content) (some labels) d.direction?
        config = .ok (some e) := by
      unfold Findings.estimateOf
      dsimp only
      rw [he]
      rfl
    let f := Findings.ofParts d.filePath d.line (Graph.ofText d.content) d.direction? config
      (some e)
    obtain ⟨width, hcheckWidth⟩ := f.exists_checkWidth hconfig rfl hwidth
    obtain ⟨height, hcheckHeight⟩ := f.exists_checkHeight hconfig rfl hheight
    obtain ⟨chain, hcheckChain⟩ := f.exists_checkChain (hconfig.given .chainLimitHorizontal)
      (hconfig.given .chainLimitVertical)
    have hissues : ∃ issues, f.issues config = .ok issues := by
      unfold Findings.issues
      rw [hcheckWidth, hcheckHeight, hcheckChain]
      exact ⟨_, rfl⟩
    obtain ⟨issues, hissues⟩ := hissues
    unfold analyze
    rw [Findings.ofDiagram_eq, hlabels, hestimate]
    show ∃ r, (f.issues config >>= _) = Except.ok r
    rw [hissues]
    exact ⟨_, rfl⟩

end DiagramReadability
