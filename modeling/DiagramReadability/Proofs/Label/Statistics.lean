import DiagramReadability.Proofs.Label.Search
import Mathlib.Algebra.Order.BigOperators.Group.List
import Mathlib.Data.Rat.Floor
import Mathlib.Order.Bounds.Basic

/-!
# The statistics of labels

The labels of a diagram are those of the first definition of each id that leaves some text, in the
order of the definitions.  Their mean length is rounded to the nearest whole number, a half upward,
and lies between the least and the greatest length.
-/

namespace DiagramReadability

open DiagramReadability.Text

namespace Label

variable {d e : Definition} {found : List Definition} {seen : List (List Char)} {lengths : List Nat}

/-! ## The first definition of an id -/

/-- The definition leaves some text, and none of its id before it does. -/
def IsFirst (found : List Definition) (d : Definition) : Prop :=
  clean d.raw ≠ [] ∧ ∀ e ∈ found, e.id = d.id → clean e.raw ≠ [] → d.offset ≤ e.offset

instance (found : List Definition) (d : Definition) : Decidable (IsFirst found d) :=
  inferInstanceAs (Decidable (_ ∧ _))

/-- The definitions that give a node its label. -/
def firstDefinitions (found : List Definition) : List Definition :=
  found.filter fun d => IsFirst found d

theorem isFirst_head (h : Ascending (d :: found)) :
    IsFirst (d :: found) d ↔ clean d.raw ≠ [] := by
  refine and_iff_left ?_
  intro e he _ _
  rcases List.mem_cons.mp he with rfl | he
  · exact Nat.le_refl _
  · exact Nat.le_of_lt (List.rel_of_pairwise_cons h he)

/-- Behind another definition a definition is the first one of its id if that one has another id or
leaves no text. -/
theorem isFirst_tail (h : Ascending (d :: found)) (he : e ∈ found) :
    IsFirst (d :: found) e ↔ IsFirst found e ∧ ¬ (d.id = e.id ∧ clean d.raw ≠ []) := by
  have hlt : d.offset < e.offset := List.rel_of_pairwise_cons h he
  rw [IsFirst, IsFirst, List.forall_mem_cons, and_assoc]
  refine and_congr_right fun _ => ?_
  rw [and_comm]
  refine and_congr_right fun _ => ?_
  constructor
  · rintro hle ⟨hid, hclean⟩
    exact absurd (hle hid hclean) (Nat.not_le.mpr hlt)
  · intro hnot hid hclean
    exact absurd ⟨hid, hclean⟩ hnot

/-- The pairs of id and label, with the ids in `seen` left out. -/
theorem firstLabels_eq (h : Ascending found) (seen : List (List Char)) :
    firstLabels seen found =
      (found.filter fun d => d.id ∉ seen ∧ IsFirst found d).map fun d => (d.id, clean d.raw) := by
  induction found generalizing seen with
  | nil => rfl
  | cons d found ih =>
    have htail : Ascending found := h.of_cons
    rw [firstLabels]
    by_cases hskip : d.id ∈ seen ∨ clean d.raw = []
    · have hhead : ¬ (d.id ∉ seen ∧ IsFirst (d :: found) d) := by
        rw [isFirst_head h]
        exact fun ⟨hid, hclean⟩ => hskip.elim hid hclean
      rw [if_pos (by simpa using hskip), ih htail, List.filter_cons_of_neg (by simpa using hhead)]
      congr 1
      apply List.filter_congr
      intro e he
      rw [decide_eq_decide, isFirst_tail h he]
      -- an id that may still come is not that of a definition passed over
      refine and_congr_right fun hid => ⟨fun hfirst => ⟨hfirst, ?_⟩, And.left⟩
      rintro ⟨heq, hclean⟩
      exact hskip.elim (fun hseen => hid (heq ▸ hseen)) hclean
    · have hhead : d.id ∉ seen ∧ IsFirst (d :: found) d := by
        rw [isFirst_head h]
        exact not_or.mp hskip
      rw [if_neg (by simpa using hskip), ih htail, List.filter_cons_of_pos (by simpa using hhead)]
      show _ = (d.id, clean d.raw) :: _
      congr 2
      apply List.filter_congr
      intro e he
      rw [decide_eq_decide, isFirst_tail h he, List.mem_cons, not_or, eq_comm (a := e.id)]
      have hclean : clean d.raw ≠ [] := fun hclean => hskip (.inr hclean)
      constructor
      · rintro ⟨⟨hne, hid⟩, hfirst⟩
        exact ⟨hid, hfirst, fun hsame => hne hsame.1⟩
      · rintro ⟨hid, hfirst, hnot⟩
        exact ⟨⟨fun heq => hnot ⟨heq, hclean⟩, hid⟩, hfirst⟩

theorem Ascending.ids_firstDefinitions_nodup (h : Ascending found) :
    ((firstDefinitions found).map Definition.id).Nodup := by
  rw [List.Nodup, List.pairwise_map]
  apply (List.Pairwise.filter _ h).imp_of_mem
  intro d e hd he hlt hid
  rw [List.mem_filter, decide_eq_true_iff] at hd he
  have hle : e.offset ≤ d.offset := he.2.2 d hd.1 hid hd.2.1
  exact absurd hlt (Nat.not_lt.mpr hle)

/-- Every id of a definition that leaves some text has a definition that comes first. -/
theorem exists_mem_firstDefinitions (hd : d ∈ found) (hclean : clean d.raw ≠ []) :
    ∃ e ∈ firstDefinitions found, e.id = d.id := by
  induction hoffset : d.offset using Nat.strongRecOn generalizing d with
  | ind offset ih =>
    by_cases hfirst : IsFirst found d
    · exact ⟨d, List.mem_filter.mpr ⟨hd, decide_eq_true hfirst⟩, rfl⟩
    · -- one of the same id comes before it, so the first one is that of the earlier definition
      have hearlier : ∃ e ∈ found, e.id = d.id ∧ clean e.raw ≠ [] ∧ e.offset < d.offset := by
        by_contra hnone
        push Not at hnone
        exact hfirst ⟨hclean, hnone⟩
      obtain ⟨e, he, hid, htext, hlt⟩ := hearlier
      obtain ⟨first, hmem, hsame⟩ := ih e.offset (by omega) he htext rfl
      exact ⟨first, hmem, hsame.trans hid⟩

theorem firstDefinitions_eq_self (hids : (found.map Definition.id).Nodup)
    (hclean : ∀ d ∈ found, clean d.raw ≠ []) : firstDefinitions found = found := by
  apply List.filter_eq_self.mpr
  intro d hd
  rw [decide_eq_true_iff]
  refine ⟨hclean d hd, fun e he hid _ => ?_⟩
  rw [List.inj_on_of_nodup_map hids he hd hid]

theorem firstDefinitions_eq_nil_iff :
    firstDefinitions found = [] ↔ ∀ d ∈ found, clean d.raw = [] := by
  rw [List.eq_nil_iff_forall_not_mem]
  constructor
  · intro hnone d hd
    by_contra hclean
    obtain ⟨e, he, -⟩ := exists_mem_firstDefinitions hd hclean
    exact hnone e he
  · intro hall d hd
    obtain ⟨hmem, hfirst⟩ := List.mem_filter.mp hd
    rw [decide_eq_true_iff] at hfirst
    exact hfirst.1 (hall d hmem)

/-! ## Lengths -/

theorem isGreatest_foldl_max (h : lengths ≠ []) :
    IsGreatest {n | n ∈ lengths} (lengths.foldl max 0) := by
  obtain ⟨greatest, hgreatest⟩ := Option.isSome_iff_exists.mp (List.isSome_max?_iff.mpr h)
  rw [List.foldl_max, hgreatest, Option.getD_some, Nat.zero_max]
  exact List.max?_eq_some_iff.mp hgreatest

theorem exists_isLeast (h : lengths ≠ []) : ∃ least, IsLeast {n | n ∈ lengths} least := by
  have hsome : lengths.min?.isSome := List.isSome_min?_iff.mpr h
  obtain ⟨least, hleast⟩ := Option.isSome_iff_exists.mp hsome
  exact ⟨least, List.min?_eq_some_iff.mp hleast⟩

theorem roundedMean_eq_floor (h : lengths ≠ []) :
    (roundedMean lengths : Int) = ⌊(lengths.sum / lengths.length : ℚ) + 1 / 2⌋ := by
  have hpos : (lengths.length : ℚ) ≠ 0 := by
    rw [Nat.cast_ne_zero, Ne, List.length_eq_zero_iff]
    exact h
  have hquotient : (lengths.sum / lengths.length : ℚ) + 1 / 2 =
      ((2 * lengths.sum + lengths.length : Nat) : ℚ) / ((2 * lengths.length : Nat) : ℚ) := by
    push_cast
    field_simp
  -- twice the sum and the number of labels, over twice their number
  rw [hquotient, Rat.floor_natCast_div_natCast, roundedMean, ← List.sum_eq_foldl]
  rfl

theorem le_roundedMean {least : Nat} (h : lengths ≠ []) (hleast : ∀ n ∈ lengths, least ≤ n) :
    least ≤ roundedMean lengths := by
  have hpos : 0 < lengths.length := List.length_pos_iff.mpr h
  have hsum : lengths.length * least ≤ lengths.sum :=
    List.card_nsmul_le_sum lengths least hleast
  rw [roundedMean, ← List.sum_eq_foldl, Nat.le_div_iff_mul_le (by omega)]
  calc least * (2 * lengths.length) = 2 * (lengths.length * least) := by ring
    _ ≤ 2 * lengths.sum := Nat.mul_le_mul_left 2 hsum
    _ ≤ 2 * lengths.sum + lengths.length := Nat.le_add_right _ _

theorem roundedMean_le {greatest : Nat} (h : lengths ≠ [])
    (hgreatest : ∀ n ∈ lengths, n ≤ greatest) : roundedMean lengths ≤ greatest := by
  have hpos : 0 < lengths.length := List.length_pos_iff.mpr h
  have hsum : lengths.sum ≤ lengths.length * greatest :=
    List.sum_le_card_nsmul lengths greatest hgreatest
  rw [roundedMean, ← List.sum_eq_foldl, ← Nat.lt_succ_iff, Nat.div_lt_iff_lt_mul (by omega)]
  calc 2 * lengths.sum + lengths.length
      ≤ 2 * (lengths.length * greatest) + lengths.length :=
        Nat.add_le_add_right (Nat.mul_le_mul_left 2 hsum) _
    _ < 2 * (lengths.length * greatest) + 2 * lengths.length := by omega
    _ = (greatest + 1) * (2 * lengths.length) := by ring

def Definition.label (d : Definition) : String × String :=
  (String.ofList d.id, String.ofList (clean d.raw))

end Label

def LabelStats.lengths (stats : LabelStats) : List Nat :=
  stats.labels.map fun (_, label) => Label.effectiveLength label.toList

/-- The statistics are those of the definitions found in a text: every id has the label of its first
definition that leaves some text, and the lengths are those of the labels. -/
structure LabelStats.Summarises (stats : LabelStats) (found : List Label.Definition) : Prop where
  labels_eq : stats.labels = (Label.firstDefinitions found).map Label.Definition.label
  ids_nodup : (stats.labels.map Prod.fst).Nodup
  labels_trimmed : ∀ label ∈ stats.labels.map Prod.snd,
    label ≠ "" ∧ trim label.toList = label.toList
  isGreatest : ∃ greatest : Nat,
    IsGreatest {n | n ∈ stats.lengths} greatest ∧ stats.maxLength = greatest
  meanLength_eq :
    stats.meanLength = ⌊(stats.lengths.sum / stats.lengths.length : ℚ) + 1 / 2⌋
  least_le : ∃ least : Nat, IsLeast {n | n ∈ stats.lengths} least ∧ least ≤ stats.meanLength
  meanLength_le : stats.meanLength ≤ stats.maxLength

theorem Label.trim_clean (raw : List Char) : trim (clean raw) = clean raw :=
  trim_trim _

theorem Label.firstLabels_definitions (body : List Char) :
    firstLabels [] (definitions body) =
      (firstDefinitions (definitions body)).map fun d => (d.id, clean d.raw) := by
  rw [firstLabels_eq (ascending_definitions body), firstDefinitions]
  simp only [List.not_mem_nil, not_false_eq_true, true_and]

theorem labelStats?_eq_none_iff {content : String} :
    labelStats? content = none ↔
      Label.firstDefinitions (Label.definitions (Label.bodyOf content.toList)) = [] := by
  rw [labelStats?, Label.firstLabels_definitions]
  simp

theorem eq_of_labelStats? {content : String} {stats : LabelStats}
    (h : labelStats? content = some stats) :
    stats.labels =
        (Label.firstDefinitions (Label.definitions (Label.bodyOf content.toList))).map
          Label.Definition.label ∧
      stats.lengths ≠ [] ∧ stats.meanLength = roundedMean stats.lengths ∧
      stats.maxLength = (stats.lengths.foldl max 0 : Nat) := by
  rw [labelStats?, Label.firstLabels_definitions] at h
  dsimp only at h
  split at h
  · contradiction
  · rename_i hsome
    obtain rfl := Option.some.inj h
    refine ⟨by rw [List.map_map]; rfl, by simpa [LabelStats.lengths] using hsome, ?_, ?_⟩
    · simp only [LabelStats.lengths, List.map_map, Function.comp_def, String.toList_ofList]
    · simp only [LabelStats.lengths, List.map_map, Function.comp_def, String.toList_ofList]

/-- A diagram has no labels when none of its definitions leaves any text, and otherwise its
statistics are those of its definitions. -/
theorem labelStats?_summarises (content : String) :
    ∃ found, Label.IsSearch (Label.bodyOf content.toList) found ∧
      (labelStats? content = none ↔ ∀ d ∈ found, Label.clean d.raw = []) ∧
      ∀ stats, labelStats? content = some stats → stats.Summarises found := by
  have hsearch := Label.isSearch_definitions (Label.bodyOf content.toList)
  refine ⟨_, hsearch, ?_, ?_⟩
  · rw [labelStats?_eq_none_iff, Label.firstDefinitions_eq_nil_iff]
  · intro stats hstats
    obtain ⟨hlabels, hne, hmean, hmax⟩ := eq_of_labelStats? hstats
    obtain ⟨least, hleast⟩ := Label.exists_isLeast hne
    have hgreatest := Label.isGreatest_foldl_max hne
    have hids := hsearch.ascending.ids_firstDefinitions_nodup
    refine ⟨hlabels, ?_, ?_, ⟨_, hgreatest, hmax⟩, ?_, ⟨least, hleast, ?_⟩, ?_⟩
    · rw [hlabels, List.map_map]
      have hstrings := hids.map fun s t (hst : String.ofList s = String.ofList t) =>
        String.ofList_inj.mp hst
      rwa [List.map_map] at hstrings
    · rw [hlabels, List.map_map, List.forall_mem_map]
      intro d hd
      have hfirst := (List.mem_filter.mp hd).2
      rw [decide_eq_true_iff] at hfirst
      rw [Function.comp_apply, Label.Definition.label]
      dsimp only
      rw [String.toList_ofList, Label.trim_clean, Ne, ← String.toList_inj, String.toList_ofList]
      exact ⟨hfirst.1, rfl⟩
    · rw [hmean, Label.roundedMean_eq_floor hne]
    · rw [hmean]
      exact Int.ofNat_le.mpr (Label.le_roundedMean hne fun n hn => hleast.2 hn)
    · rw [hmean, hmax]
      exact Int.ofNat_le.mpr (Label.roundedMean_le hne fun n hn => hgreatest.2 hn)

/-- An empty label is passed over, the first of two labels of one id counts, and a mean of two and a
half is rounded up. -/
theorem labelStats?_summarises_mixed :
    labelStats? "A[ ] --> A{{two}}\nB[(db)] --> B{later}" =
        some ⟨[("A", "two"), ("B", "db")], 3, 3⟩ ∧
      ∃ found,
        Label.IsSearch (Label.bodyOf "A[ ] --> A{{two}}\nB[(db)] --> B{later}".toList) found ∧
        LabelStats.Summarises ⟨[("A", "two"), ("B", "db")], 3, 3⟩ found := by
  have hfound : Label.definitions (Label.bodyOf "A[ ] --> A{{two}}\nB[(db)] --> B{later}".toList) =
      [⟨0, ['A'], [' ']⟩, ⟨9, ['A'], "\x7btwo".toList⟩, ⟨18, ['B'], "(db)".toList⟩,
        ⟨30, ['B'], "later".toList⟩] :=
    Label.definitions_eq_of_perm (by decide) (by decide +kernel)
  have hstats : labelStats? "A[ ] --> A{{two}}\nB[(db)] --> B{later}" =
      some ⟨[("A", "two"), ("B", "db")], 3, 3⟩ := by
    rw [labelStats?, hfound]
    decide +kernel
  obtain ⟨found, hsearch, -, hsummarises⟩ :=
    labelStats?_summarises "A[ ] --> A{{two}}\nB[(db)] --> B{later}"
  exact ⟨hstats, found, hsearch, hsummarises _ hstats⟩

end DiagramReadability
