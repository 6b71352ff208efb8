import DiagramReadability.Text.Blank
import DiagramReadability.Text.WordChar
import Mathlib.Data.List.DropRight

/-!
# Blanks around a text

Blanks never stand in a word, and they can be taken off the two ends of a text in either order.
-/

namespace DiagramReadability.Text

/-! ## Characters -/

/-- The code points of the ranges, one by one. -/
def CharRanges.codes (ranges : CharRanges) : List Nat :=
  ranges.flatMap fun (first, last) => List.range' first (last + 1 - first)

theorem CharRanges.mem_codes {ranges : CharRanges} {n : Nat} (h : ranges.holds n = true) :
    n ∈ ranges.codes := by
  induction ranges with
  | nil => simp [CharRanges.holds] at h
  | cons range rest ih =>
      rw [CharRanges.holds] at h
      rw [CharRanges.codes, List.flatMap_cons, List.mem_append, List.mem_range'_1]
      by_cases hfirst : n < range.1
      · rw [if_pos hfirst] at h
        simp at h
      · by_cases hlast : n ≤ range.2
        · left
          omega
        · rw [if_neg hfirst, if_neg hlast] at h
          exact .inr (ih h)

theorem isWord_of_isBlank {c : Char} (h : isBlank c = true) : isWord c = false := by
  have hcodes : ∀ n ∈ blankRanges.codes, wordRanges.holds n = false := by decide +kernel
  exact hcodes c.toNat (CharRanges.mem_codes h)

theorem not_isBlank_of_isWord {c : Char} (h : isWord c = true) : isBlank c = false := by
  by_contra hblank
  rw [Bool.not_eq_false] at hblank
  rw [isWord_of_isBlank hblank] at h
  contradiction

theorem ne_of_isBlank {c d : Char} (h : isBlank c = true) (hd : isBlank d = false) : c ≠ d := by
  rintro rfl
  rw [h] at hd
  contradiction

theorem ne_of_isWord {c d : Char} (h : isWord c = true) (hd : isWord d = false) : c ≠ d := by
  rintro rfl
  rw [h] at hd
  contradiction

/-! ## Reading a given text -/

theorem after?_append (lead rest : List Char) : after? lead (lead ++ rest) = some rest := by
  induction lead with
  | nil => rfl
  | cons c lead ih => rw [List.cons_append, after?, if_pos rfl, ih]

theorem after?_cons_of_ne {l c : Char} (h : l ≠ c) (lead s : List Char) :
    after? (l :: lead) (c :: s) = none := by
  rw [after?, if_neg h]

theorem takeWhile_replicate_append {c d : Char} (h : d ≠ c) (n : Nat) (rest : List Char) :
    (List.replicate n c ++ d :: rest).takeWhile (· = c) = List.replicate n c := by
  rw [List.takeWhile_append_of_pos (by simp), List.takeWhile_cons_of_neg (by simpa using h),
    List.append_nil]

theorem dropWhile_replicate_append {c d : Char} (h : d ≠ c) (n : Nat) (rest : List Char) :
    (List.replicate n c ++ d :: rest).dropWhile (· = c) = d :: rest := by
  rw [List.dropWhile_append_of_pos (by simp), List.dropWhile_cons_of_neg (by simpa using h)]

/-! ## Trimming -/

theorem trimStart_of_not_blank {s : List Char} (h : startsBlank s = false) : trimStart s = s := by
  cases s with
  | nil => rfl
  | cons c s => exact List.dropWhile_cons_of_neg (by rw [← startsBlank.eq_1 c s, h]; decide)

theorem startsBlank_of_trimStart_eq {s : List Char} (h : trimStart s = s) :
    startsBlank s = false := by
  cases s with
  | nil => rfl
  | cons c s =>
      by_contra hblank
      rw [Bool.not_eq_false] at hblank
      have hdrop : trimStart (c :: s) = trimStart s := List.dropWhile_cons_of_pos hblank
      have hlen : (trimStart s).length ≤ s.length := (List.dropWhile_sublist _).length_le
      rw [← hdrop, h, List.length_cons] at hlen
      omega

theorem trimStart_append_blanks {blanks : List Char} (hblanks : ∀ c ∈ blanks, isBlank c = true)
    (s : List Char) : trimStart (blanks ++ s) = trimStart s := by
  induction blanks with
  | nil => rfl
  | cons c blanks ih =>
      rw [List.forall_mem_cons] at hblanks
      rw [← ih hblanks.2]
      exact List.dropWhile_cons_of_pos hblanks.1

theorem trimStart_append_of_ne_nil {s : List Char} (h : trimStart s ≠ []) (t : List Char) :
    trimStart (s ++ t) = trimStart s ++ t := by
  rw [trimStart, List.dropWhile_append, if_neg]
  · rfl
  · rwa [List.isEmpty_iff]

theorem trimEnd_cons (c : Char) (s : List Char) :
    trimEnd (c :: s) = if isBlank c && (trimEnd s).isEmpty then [] else c :: trimEnd s := by
  have hs : trimEnd s = (s.reverse.dropWhile isBlank).reverse := rfl
  have hcs : trimEnd (c :: s) = ((s.reverse ++ [c]).dropWhile isBlank).reverse := by
    rw [← List.reverse_cons]
    rfl
  -- reversed, the new character is the last one and counts only when all others are dropped
  rw [hcs, hs, List.dropWhile_append, List.isEmpty_reverse]
  by_cases hempty : (s.reverse.dropWhile isBlank).isEmpty = true
  · rw [if_pos hempty, List.isEmpty_iff.mp hempty]
    by_cases hc : isBlank c = true
    · simp [hc]
    · simp [hc]
  · rw [if_neg hempty]
    simp [hempty]

theorem trimEnd_cons_of_not_blank {c : Char} (h : isBlank c = false) (s : List Char) :
    trimEnd (c :: s) = c :: trimEnd s := by
  rw [trimEnd_cons, h]
  rfl

theorem trimEnd_eq_nil {s : List Char} (h : trimStart s = []) : trimEnd s = [] :=
  List.rdropWhile_eq_nil_iff.mpr (List.dropWhile_eq_nil_iff.mp h)

theorem trimStart_trimEnd (s : List Char) : trimStart (trimEnd s) = trimEnd (trimStart s) := by
  induction s with
  | nil => rfl
  | cons c s ih =>
      by_cases hc : isBlank c = true
      · have hstart : trimStart (c :: s) = trimStart s := List.dropWhile_cons_of_pos hc
        rw [trimEnd_cons, hc, Bool.true_and, hstart, ← ih]
        by_cases hempty : (trimEnd s).isEmpty = true
        · rw [if_pos hempty, List.isEmpty_iff.mp hempty]
        · rw [if_neg hempty]
          exact List.dropWhile_cons_of_pos hc
      · rw [Bool.not_eq_true] at hc
        have hstart : ∀ t, trimStart (c :: t) = c :: t := fun t => trimStart_of_not_blank hc
        rw [trimEnd_cons_of_not_blank hc, hstart, hstart, trimEnd_cons_of_not_blank hc]

theorem trimEnd_trimEnd (s : List Char) : trimEnd (trimEnd s) = trimEnd s :=
  List.rdropWhile_idempotent isBlank s

theorem trim_trimEnd (s : List Char) : trim (trimEnd s) = trim s := by
  rw [trim, trimStart_trimEnd, trimEnd_trimEnd, trim]

theorem length_trimEnd_le (s : List Char) : (trimEnd s).length ≤ s.length :=
  (List.rdropWhile_prefix isBlank s).length_le

/-- A text without blanks around it has none in front. -/
theorem trimStart_of_trim_eq {s : List Char} (h : trim s = s) : trimStart s = s := by
  have hsub : (trimStart s).Sublist s := List.dropWhile_sublist _
  apply hsub.eq_of_length_le
  have hlen := length_trimEnd_le (trimStart s)
  rwa [← trim, h] at hlen

theorem trimEnd_of_trim_eq {s : List Char} (h : trim s = s) : trimEnd s = s := by
  rwa [trim, trimStart_of_trim_eq h] at h

theorem trimEnd_concat {c : Char} (h : isBlank c = false) (s : List Char) :
    trimEnd (s ++ [c]) = s ++ [c] :=
  List.rdropWhile_concat_neg isBlank s c (Bool.eq_false_iff.mp h)

/-! ## Parts of a text -/

theorem trimStart_suffix (s : List Char) : trimStart s <:+ s :=
  List.dropWhile_suffix isBlank

theorem getLast?_of_suffix {s t : List Char} (h : s <:+ t) (hs : s ≠ []) :
    s.getLast? = t.getLast? := by
  obtain ⟨before, rfl⟩ := h
  rw [List.getLast?_append_of_ne_nil before hs]

theorem trim_suffix {s : List Char} (h : trimEnd s = s) : trim s <:+ s := by
  rw [trim, ← trimStart_trimEnd, h]
  exact trimStart_suffix s

theorem trim_isInfix (s : List Char) : trim s <:+: s :=
  (List.rdropWhile_prefix isBlank (trimStart s)).isInfix.trans (trimStart_suffix s).isInfix

theorem trim_subset (s : List Char) : trim s ⊆ s :=
  (trim_isInfix s).subset

theorem trim_trim (s : List Char) : trim (trim s) = trim s := by
  rw [trim, trim, trimStart_trimEnd, trimEnd_trimEnd]
  exact congrArg trimEnd (List.dropWhile_idempotent isBlank s)

theorem eq_of_nonempty? {s t : List Char} (h : nonempty? s = some t) : s = t ∧ s ≠ [] := by
  rw [nonempty?] at h
  split at h
  · contradiction
  · rename_i hs
    rw [List.isEmpty_iff] at hs
    exact ⟨Option.some.inj h, hs⟩

end DiagramReadability.Text
