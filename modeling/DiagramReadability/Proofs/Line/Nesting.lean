import DiagramReadability.Line.Nesting
import Mathlib.Data.List.Basic

/-!
# What a scan leaves open

A scan is outside where nothing is open.  Over a text without quotes it ends there exactly when the
pipes come in pairs and every opening bracket has a closing one behind it: a closing bracket with
nothing to close changes nothing, so brackets are counted from the end of the text.
-/

namespace DiagramReadability.Line

variable {n : Nesting} {c : Char} {s : List Char}

/-- Nothing is open outside, so a scan that is outside is where it began. -/
theorem Nesting.isOutside_iff : n.isOutside = true ↔ n = .start := by
  obtain ⟨depth, quoted, piped⟩ := n
  simp [Nesting.isOutside, Nesting.start, and_assoc]

/-- No end of the text opens more brackets than it closes. -/
def ClosesBrackets (s : List Char) : Prop :=
  ∀ rest, rest <:+ s → rest.countP isOpener ≤ rest.countP isCloser

theorem closesBrackets_cons :
    ClosesBrackets (c :: s) ↔
      (c :: s).countP isOpener ≤ (c :: s).countP isCloser ∧ ClosesBrackets s := by
  constructor
  · intro h
    exact ⟨h _ List.suffix_rfl, fun rest hrest => h rest (hrest.trans (List.suffix_cons c s))⟩
  · rintro ⟨hwhole, hs⟩ rest hrest
    rcases List.suffix_cons_iff.mp hrest with rfl | hrest
    · exact hwhole
    · exact hs rest hrest

theorem not_isCloser_of_isOpener (h : isOpener c = true) : isCloser c = false := by
  rw [isOpener, Bool.or_eq_true, Bool.or_eq_true, decide_eq_true_iff, decide_eq_true_iff,
    decide_eq_true_iff] at h
  rcases h with (rfl | rfl) | rfl <;> decide

/-- What a character other than a quote does to a scan that is not between quotes. -/
theorem step_cases (hn : n.quoted = false) (hc : c ≠ '"') :
    (c = '|' ∧ isOpener c = false ∧ isCloser c = false ∧
      n.step c = { n with piped := !n.piped }) ∨
    (c ≠ '|' ∧ isOpener c = true ∧ isCloser c = false ∧
      n.step c = { n with depth := n.depth + 1 }) ∨
    (c ≠ '|' ∧ isOpener c = false ∧ isCloser c = true ∧
      n.step c = { n with depth := n.depth - 1 }) ∨
    (c ≠ '|' ∧ isOpener c = false ∧ isCloser c = false ∧ n.step c = n) := by
  rw [Nesting.step, if_neg hc, hn, if_neg Bool.false_ne_true]
  by_cases hpipe : c = '|'
  · exact .inl ⟨hpipe, by rw [hpipe]; decide, by rw [hpipe]; decide, if_pos hpipe⟩
  · rw [if_neg hpipe]
    cases hopener : isOpener c with
    | true => exact .inr (.inl ⟨hpipe, rfl, not_isCloser_of_isOpener hopener, rfl⟩)
    | false =>
        cases hcloser : isCloser c with
        | true => exact .inr (.inr (.inl ⟨hpipe, rfl, rfl, rfl⟩))
        | false => exact .inr (.inr (.inr ⟨hpipe, rfl, rfl, rfl⟩))

theorem quoted_step (hn : n.quoted = false) (hc : c ≠ '"') : (n.step c).quoted = false := by
  rcases step_cases hn hc with ⟨-, -, -, h⟩ | ⟨-, -, -, h⟩ | ⟨-, -, -, h⟩ | ⟨-, -, -, h⟩ <;>
    rw [h, hn]

theorem quoted_run (hn : n.quoted = false) (hs : '"' ∉ s) : (n.run s).quoted = false := by
  induction s generalizing n with
  | nil => exact hn
  | cons c s ih =>
      rw [List.mem_cons, not_or] at hs
      exact ih (quoted_step hn (Ne.symm hs.1)) hs.2

theorem piped_run (hn : n.quoted = false) (hs : '"' ∉ s) :
    (n.run s).piped = (n.piped != decide (s.count '|' % 2 = 1)) := by
  induction s generalizing n with
  | nil => simp [Nesting.run]
  | cons c s ih =>
      rw [List.mem_cons, not_or] at hs
      have hc : c ≠ '"' := Ne.symm hs.1
      show ((n.step c).run s).piped = _
      rw [ih (quoted_step hn hc) hs.2]
      rcases step_cases hn hc with ⟨rfl, -, -, h⟩ | ⟨hpipe, -, -, h⟩ | ⟨hpipe, -, -, h⟩ |
        ⟨hpipe, -, -, h⟩
      · have hparity : decide ((s.count '|' + 1) % 2 = 1) = !decide (s.count '|' % 2 = 1) := by
          rw [← decide_not, decide_eq_decide]
          omega
        rw [h, List.count_cons_self, hparity]
        cases n.piped <;> simp
      · rw [h, List.count_cons_of_ne hpipe]
      · rw [h, List.count_cons_of_ne hpipe]
      · rw [h, List.count_cons_of_ne hpipe]

theorem depth_run_eq_zero_iff (hn : n.quoted = false) (hs : '"' ∉ s) :
    (n.run s).depth = 0 ↔
      n.depth + s.countP isOpener ≤ s.countP isCloser ∧ ClosesBrackets s := by
  induction s generalizing n with
  | nil =>
      have hnil : ClosesBrackets [] := by simp [ClosesBrackets]
      simp [Nesting.run, hnil]
  | cons c s ih =>
      rw [List.mem_cons, not_or] at hs
      have hc : c ≠ '"' := Ne.symm hs.1
      have hwhole : ClosesBrackets s → s.countP isOpener ≤ s.countP isCloser := fun h =>
        h s List.suffix_rfl
      show ((n.step c).run s).depth = 0 ↔ _
      rw [ih (quoted_step hn hc) hs.2, closesBrackets_cons]
      -- one step changes both sides of the count in the same way
      rcases step_cases hn hc with ⟨-, hopener, hcloser, h⟩ | ⟨-, hopener, hcloser, h⟩ |
        ⟨-, hopener, hcloser, h⟩ | ⟨-, hopener, hcloser, h⟩ <;>
      · rw [h]
        simp only [List.countP_cons, hopener, hcloser]
        grind

/-- A scan over a text without quotes ends outside exactly when the text closes its pipes and its
brackets. -/
theorem isOutside_run_iff (hs : '"' ∉ s) :
    (Nesting.start.run s).isOutside = true ↔ s.count '|' % 2 = 0 ∧ ClosesBrackets s := by
  have hquoted : (Nesting.start.run s).quoted = false := quoted_run rfl hs
  have hpiped : (Nesting.start.run s).piped = decide (s.count '|' % 2 = 1) := by
    rw [piped_run rfl hs]
    exact Bool.false_bne _
  have hdepth := depth_run_eq_zero_iff (n := Nesting.start) rfl hs
  have hwhole : ClosesBrackets s → s.countP isOpener ≤ s.countP isCloser := fun h =>
    h s List.suffix_rfl
  rw [Nesting.isOutside, hquoted, hpiped]
  simp only [Bool.and_eq_true, Bool.not_eq_true', decide_eq_true_iff, decide_eq_false_iff_not,
    Bool.not_false, and_true, hdepth]
  show (0 + _ ≤ _ ∧ _) ∧ _ ↔ _
  constructor
  · rintro ⟨⟨-, hbrackets⟩, hpipes⟩
    exact ⟨by omega, hbrackets⟩
  · rintro ⟨hpipes, hbrackets⟩
    exact ⟨⟨by rw [Nat.zero_add]; exact hwhole hbrackets, hbrackets⟩, by omega⟩

end DiagramReadability.Line
