import DiagramReadability.Proofs.Statement.Written
import DiagramReadability.Proofs.Text.Trim
import DiagramReadability.Statement.Chain

/-!
# Links are read as they are written

An arrow without a text inside is found by its spelling.  A text inside an arrow holds no closing
angle bracket, so the only half that can end it is the one after it: an earlier half would have to
reach over a blank.
-/

namespace DiagramReadability.Statement

open DiagramReadability.Text

/-! ## Arrows without a text inside -/

theorem afterShaft?_shaft {c : Char} (h : '>' ≠ c) (extra : Nat) (rest : List Char) :
    afterShaft? c (List.replicate (extra + 2) c ++ '>' :: rest) = some rest := by
  rw [afterShaft?, takeWhile_replicate_append h, dropWhile_replicate_append h,
    List.length_replicate, if_pos (by omega)]
  rfl

theorem afterShaft?_eq_none {c d : Char} (hd : d ≠ c) (hangle : '>' ≠ d) (n : Nat)
    (rest : List Char) : afterShaft? c (List.replicate n c ++ d :: rest) = none := by
  rw [afterShaft?, dropWhile_replicate_append hd, after?_cons_of_ne hangle]
  exact ite_self none

/-- A text that opens with two hyphens is at most a solid arrow. -/
theorem readPlainArrow?_hyphens (s : List Char) :
    readPlainArrow? ('-' :: '-' :: s) =
      (afterShaft? '-' ('-' :: '-' :: s)).map (Arrow.solid, ·) :=
  rfl

/-- A text that opens with an equals sign is at most a thick arrow. -/
theorem readPlainArrow?_equals (s : List Char) :
    readPlainArrow? ('=' :: s) = (afterShaft? '=' ('=' :: s)).map (Arrow.thick, ·) :=
  Option.or_none

/-- A text that opens with a hyphen and a dot is at most a dotted arrow. -/
theorem readPlainArrow?_dotted (s : List Char) :
    readPlainArrow? ('-' :: '.' :: s) = (after? ['-', '>'] s).map (Arrow.dotted, ·) := by
  have hdotted : after? ['-', '.', '-', '>'] ('-' :: '.' :: s) = after? ['-', '>'] s := rfl
  cases h : after? ['-', '>'] s with
  | none => simp [readPlainArrow?, fixedArrows, after?, afterShaft?, h]
  | some rest => simp [readPlainArrow?, fixedArrows, after?, h]

theorem readPlainArrow?_text (spelling : Written.Spelling) (rest : List Char) :
    readPlainArrow? (spelling.text ++ rest) = some (spelling.arrow, rest) := by
  cases spelling with
  | dotted => rfl
  | solidBoth => rfl
  | dottedBoth => rfl
  | thickBoth => rfl
  | solid extra =>
      have hshaft := afterShaft?_shaft (by decide : '>' ≠ '-') extra rest
      rw [Written.Spelling.text, List.append_assoc]
      exact (readPlainArrow?_hyphens _).trans (congrArg (Option.map (Arrow.solid, ·)) hshaft)
  | thick extra =>
      have hshaft := afterShaft?_shaft (by decide : '>' ≠ '=') extra rest
      rw [Written.Spelling.text, List.append_assoc]
      exact (readPlainArrow?_equals _).trans (congrArg (Option.map (Arrow.thick, ·)) hshaft)

/-! ## The second half of an arrow -/

theorem afterCloseHalf?_text (closing : Written.CloseHalf) (rest : List Char) :
    afterCloseHalf? (closing.text ++ rest) = some rest := by
  cases closing with
  | dotted => rfl
  | solid extra =>
      rw [Written.CloseHalf.text, List.append_assoc, afterCloseHalf?]
      have hshaft := afterShaft?_shaft (by decide : '>' ≠ '-') extra rest
      exact congrArg (Option.or · _) hshaft
  | thick extra =>
      rw [Written.CloseHalf.text, List.append_assoc, afterCloseHalf?]
      have hshaft := afterShaft?_shaft (by decide : '>' ≠ '=') extra rest
      exact congrArg (Option.or · _) hshaft

theorem startsBlank_closeHalf (closing : Written.CloseHalf) (rest : List Char) :
    startsBlank (closing.text ++ rest) = false := by
  have hhyphen : isBlank '-' = false := by decide
  have hequals : isBlank '=' = false := by decide
  have hdot : isBlank '.' = false := by decide
  cases closing with
  | solid extra => exact hhyphen
  | thick extra => exact hequals
  | dotted => exact hdot

theorem eq_append_of_after? {lead s rest : List Char} (h : after? lead s = some rest) :
    s = lead ++ rest := by
  induction lead generalizing s with
  | nil => exact Option.some.inj h
  | cons l lead ih =>
      cases s with
      | nil => simp [after?] at h
      | cons c s =>
          rw [after?] at h
          by_cases hc : l = c
          · rw [if_pos hc] at h
            rw [ih h, hc, List.cons_append]
          · rw [if_neg hc] at h
            contradiction

/-- What a reader takes for the second half of an arrow is a run without blanks and then an angle
bracket. -/
theorem exists_eq_of_afterShaft? {c : Char} (hc : isBlank c = false) {s rest : List Char}
    (h : afterShaft? c s = some rest) :
    ∃ lead, s = lead ++ '>' :: rest ∧ ∀ d ∈ lead, isBlank d = false := by
  rw [afterShaft?] at h
  split at h
  · refine ⟨s.takeWhile (· = c), ?_, fun d hd => ?_⟩
    · have heq : s.dropWhile (· = c) = '>' :: rest := eq_append_of_after? h
      rw [← heq, List.takeWhile_append_dropWhile]
    · have heq := List.mem_takeWhile_imp hd
      rw [decide_eq_true_iff] at heq
      rwa [heq]
  · contradiction

theorem exists_eq_of_afterCloseHalf? {s rest : List Char} (h : afterCloseHalf? s = some rest) :
    ∃ lead, s = lead ++ '>' :: rest ∧ ∀ d ∈ lead, isBlank d = false := by
  rw [afterCloseHalf?, Option.or_eq_some_iff, Option.or_eq_some_iff] at h
  rcases h with h | ⟨-, h | ⟨-, h⟩⟩
  · exact exists_eq_of_afterShaft? (by decide) h
  · exact exists_eq_of_afterShaft? (by decide) h
  · have heq : s = ['.', '-', '>'] ++ rest := eq_append_of_after? h
    have hlead : ∀ d ∈ ['.', '-'], isBlank d = false := by
      rw [List.forall_mem_cons, List.forall_mem_singleton]
      exact ⟨by decide, by decide⟩
    exact ⟨['.', '-'], heq, hlead⟩

/-- A blank before the first angle bracket: no second half of an arrow is in front. -/
theorem afterCloseHalf?_eq_none {s : List Char} (hangle : '>' ∉ s) {c : Char}
    (hc : isBlank c = true) (rest : List Char) : afterCloseHalf? (s ++ c :: rest) = none := by
  by_contra hne
  rcases Option.ne_none_iff_exists'.mp hne with ⟨after, h⟩
  rcases exists_eq_of_afterCloseHalf? h with ⟨lead, heq, hlead⟩
  have hca : c ≠ '>' := ne_of_isBlank hc (by decide)
  -- the half ends at an angle bracket and holds no blank, so it ends on neither side of the blank
  rcases List.append_eq_append_iff.mp heq with ⟨mid, rfl, hmid⟩ | ⟨mid, rfl, hmid⟩
  · cases mid with
    | nil => exact hca (List.cons.inj hmid).1
    | cons d mid =>
        have hd : isBlank d = false := hlead d (by simp)
        exact ne_of_isBlank hc hd (List.cons.inj hmid).1
  · cases mid with
    | nil => exact hca (List.cons.inj hmid).1.symm
    | cons d mid => exact hangle (by rw [(List.cons.inj hmid).1]; simp)

/-! ## Texts inside arrows -/

theorem startsBlank_gap (gap : Written.Gap) (s : List Char) :
    startsBlank (gap.val ++ s) = true := by
  rcases List.exists_cons_of_ne_nil gap.property.1 with ⟨c, rest, heq⟩
  rw [heq]
  apply gap.property.2 c
  rw [heq]
  exact List.mem_cons_self

theorem readInlineText?_cons_none {c : Char} (hpipe : c ≠ '|') (hangle : c ≠ '>')
    {rest : List Char} (h : startsBlank rest = true → afterCloseHalf? (trimStart rest) = none) :
    readInlineText? (c :: rest) =
      (readInlineText? rest).map fun (text, after) => (c :: text, after) := by
  have hnone : (if startsBlank rest then afterCloseHalf? (trimStart rest) else none) = none := by
    split
    · exact h ‹_›
    · rfl
  rw [readInlineText?, decide_eq_false hpipe, decide_eq_false hangle, hnone]
  rfl

theorem readInlineText?_cons_some {c : Char} (hpipe : c ≠ '|') (hangle : c ≠ '>')
    {rest after : List Char} (hblank : startsBlank rest = true)
    (h : afterCloseHalf? (trimStart rest) = some after) :
    readInlineText? (c :: rest) = some ([c], after) := by
  rw [readInlineText?, decide_eq_false hpipe, decide_eq_false hangle, hblank, if_pos rfl, h]
  rfl

/-- The text inside an arrow is read up to the half that was written after it. -/
theorem readInlineText?_text {text : List Char} (hne : text ≠ []) (htrim : trimEnd text = text)
    (hpipe : '|' ∉ text) (hangle : '>' ∉ text) (after : Written.Gap)
    (closing : Written.CloseHalf) (rest : List Char) :
    readInlineText? (text ++ (after.val ++ (closing.text ++ rest))) = some (text, rest) := by
  have hclose : trimStart (after.val ++ (closing.text ++ rest)) = closing.text ++ rest := by
    rw [trimStart_append_blanks after.property.2,
      trimStart_of_not_blank (startsBlank_closeHalf closing rest)]
  induction text with
  | nil => exact absurd rfl hne
  | cons c text ih =>
      rw [List.mem_cons, not_or] at hpipe hangle
      cases text with
      | nil =>
          apply readInlineText?_cons_some (Ne.symm hpipe.1) (Ne.symm hangle.1)
          · exact startsBlank_gap after _
          · exact (congrArg afterCloseHalf? hclose).trans (afterCloseHalf?_text closing rest)
      | cons d text =>
          have hend : trimEnd (d :: text) = d :: text := by
            rw [trimEnd_cons] at htrim
            split at htrim
            · contradiction
            · exact (List.cons.inj htrim).2
          have hread := ih (List.cons_ne_nil d text) hend hpipe.2 hangle.2
          rw [List.cons_append, readInlineText?_cons_none (Ne.symm hpipe.1) (Ne.symm hangle.1),
            hread]
          · rfl
          · intro _
            -- blanks in the middle are not the last ones, so the gap comes after other characters
            have hstart : trimStart (d :: text) ≠ [] := by
              intro hnil
              rw [trimEnd_eq_nil hnil] at hend
              contradiction
            rw [trimStart_append_of_ne_nil hstart]
            rcases List.exists_cons_of_ne_nil after.property.1 with ⟨b, blanks, heq⟩
            rw [heq]
            apply afterCloseHalf?_eq_none
            · exact fun h => hangle.2 ((List.dropWhile_sublist _).subset h)
            · apply after.property.2 b
              rw [heq]
              exact List.mem_cons_self

theorem readInlineTail?_text (before : Written.Gap) (label : Written.InlineText)
    (after : Written.Gap) (closing : Written.CloseHalf) (rest : List Char) :
    readInlineTail? (before.val ++ (label.text ++ (after.val ++ (closing.text ++ rest)))) =
      some (some label.text, rest) := by
  have hstart : startsBlank (label.text ++ (after.val ++ (closing.text ++ rest))) = false := by
    have hlabel := startsBlank_of_trimStart_eq (trimStart_of_trim_eq label.trimmed)
    rcases List.exists_cons_of_ne_nil label.ne_nil with ⟨c, text, heq⟩
    rw [heq] at hlabel ⊢
    exact hlabel
  have htext := readInlineText?_text label.ne_nil (trimEnd_of_trim_eq label.trimmed)
    label.no_pipe label.no_angle after closing rest
  rw [readInlineTail?, startsBlank_gap, if_pos rfl, trimStart_append_blanks before.property.2,
    trimStart_of_not_blank hstart, htext]
  show some (nonempty? (trim label.text), rest) = some (some label.text, rest)
  rw [label.trimmed, nonempty?, if_neg (by rw [List.isEmpty_iff]; exact label.ne_nil)]

/-- The first half of an arrow is not the whole of one when a blank comes after it. -/
theorem readPlainArrow?_openHalf (opening : Written.OpenHalf) {c : Char} (h : isBlank c = true)
    (rest : List Char) : readPlainArrow? (opening.text ++ c :: rest) = none := by
  have hangle : '>' ≠ c := (ne_of_isBlank h (by decide)).symm
  have hhyphen : c ≠ '-' := ne_of_isBlank h (by decide)
  have hequals : c ≠ '=' := ne_of_isBlank h (by decide)
  cases opening with
  | solid =>
      have hshaft := afterShaft?_eq_none hhyphen hangle 2 rest
      exact (readPlainArrow?_hyphens _).trans (congrArg (Option.map (Arrow.solid, ·)) hshaft)
  | thick =>
      have hshaft := afterShaft?_eq_none hequals hangle 2 rest
      exact (readPlainArrow?_equals _).trans (congrArg (Option.map (Arrow.thick, ·)) hshaft)
  | dotted =>
      have hrest : after? ['-', '>'] (c :: rest) = none := after?_cons_of_ne hhyphen.symm _ _
      exact (readPlainArrow?_dotted _).trans (congrArg (Option.map (Arrow.dotted, ·)) hrest)

theorem readInlineArrow?_openHalf (opening : Written.OpenHalf) {s rest : List Char}
    {label : Option (List Char)} (h : readInlineTail? s = some (label, rest)) :
    readInlineArrow? (opening.text ++ s) = some (opening.arrow, label, rest) := by
  cases opening with
  | solid => simp [readInlineArrow?, openHalves, Written.OpenHalf.text, after?, h,
      Written.OpenHalf.arrow]
  | thick => simp [readInlineArrow?, openHalves, Written.OpenHalf.text, after?, h,
      Written.OpenHalf.arrow]
  | dotted => simp [readInlineArrow?, openHalves, Written.OpenHalf.text, after?, h,
      Written.OpenHalf.arrow]

theorem readArrow?_inline (opening : Written.OpenHalf) (before : Written.Gap)
    (label : Written.InlineText) (after : Written.Gap) (closing : Written.CloseHalf)
    (rest : List Char) :
    readArrow? (opening.text ++ (before.val ++ (label.text ++ (after.val ++
      (closing.text ++ rest))))) = some (opening.arrow, some label.text, rest) := by
  have htail := readInlineTail?_text before label after closing rest
  have hplain : readPlainArrow? (opening.text ++ (before.val ++ (label.text ++ (after.val ++
      (closing.text ++ rest))))) = none := by
    rcases List.exists_cons_of_ne_nil before.property.1 with ⟨b, blanks, heq⟩
    rw [heq]
    apply readPlainArrow?_openHalf
    apply before.property.2 b
    rw [heq]
    exact List.mem_cons_self
  rw [readArrow?, hplain]
  exact readInlineArrow?_openHalf opening htail

/-! ## Links with their labels -/

theorem readLabel?_of_not_pipe {s : List Char} (h : s.head? ≠ some '|')
    (own : Option (List Char)) : readLabel? own s = some (own, s) := by
  have hmissing : readPipeLabel s = .missing := by
    cases s with
    | nil => rfl
    | cons c s =>
        rw [List.head?_cons, Ne, Option.some.injEq] at h
        rw [readPipeLabel, if_neg h]
  rw [readLabel?, hmissing]

theorem readLabel?_pipes (own : Option (List Char)) (label : Written.PipeText) (s : List Char) :
    readLabel? own ('|' :: (label.val ++ '|' :: s)) =
      some (nonempty? (trim label.val), trimStart s) := by
  have hlabel : ∀ c ∈ label.val, decide (c ≠ '|') = true := by
    intro c hc
    rw [decide_eq_true_iff]
    rintro rfl
    exact label.property hc
  have hdrop : (label.val ++ '|' :: s).dropWhile (· ≠ '|') = '|' :: s := by
    rw [List.dropWhile_append_of_pos hlabel]
    rfl
  have htake : (label.val ++ '|' :: s).takeWhile (· ≠ '|') = label.val := by
    rw [List.takeWhile_append_of_pos hlabel]
    exact List.append_nil _
  have hclosed : readPipeLabel ('|' :: (label.val ++ '|' :: s)) =
      .closed (nonempty? (trim label.val)) (trimStart s) := by
    rw [readPipeLabel, if_pos rfl, hdrop, htake]
  rw [readLabel?, hclosed]

/-- A written link is read back with its label, up to the group after it. -/
theorem exists_readArrow?_text (link : Written.Link) (after : Written.Blanks) {s : List Char}
    (hblank : startsBlank s = false) (hpipe : s.head? ≠ some '|') :
    ∃ own rest, readArrow? (link.text ++ (after.val ++ s)) = some (link.arrow, own, rest) ∧
      readLabel? own (trimStart rest) = some (link.label, s) := by
  have hgroup : trimStart (after.val ++ s) = s := by
    rw [trimStart_append_blanks after.property, trimStart_of_not_blank hblank]
  cases link with
  | plain spelling =>
      refine ⟨none, after.val ++ s, ?_, ?_⟩
      · rw [Written.Link.text, readArrow?, readPlainArrow?_text]
        rfl
      · rw [hgroup]
        exact readLabel?_of_not_pipe hpipe none
  | piped spelling gap label =>
      refine ⟨none, gap.val ++ '|' :: (label.val ++ '|' :: (after.val ++ s)), ?_, ?_⟩
      · have htext : Written.Link.text (.piped spelling gap label) ++ (after.val ++ s) =
            spelling.text ++ (gap.val ++ '|' :: (label.val ++ '|' :: (after.val ++ s))) := by
          simp [Written.Link.text]
        rw [htext, readArrow?, readPlainArrow?_text]
        rfl
      · have hbar : startsBlank ('|' :: (label.val ++ '|' :: (after.val ++ s))) = false :=
          (by decide : isBlank '|' = false)
        rw [trimStart_append_blanks gap.property, trimStart_of_not_blank hbar, readLabel?_pipes,
          hgroup]
        rfl
  | inline opening before label inner closing =>
      refine ⟨some label.text, after.val ++ s, ?_, ?_⟩
      · have htext : Written.Link.text (.inline opening before label inner closing) ++
            (after.val ++ s) = opening.text ++ (before.val ++ (label.text ++ (inner.val ++
              (closing.text ++ (after.val ++ s))))) := by
          simp [Written.Link.text]
        rw [htext, readArrow?_inline]
        rfl
      · rw [hgroup]
        exact readLabel?_of_not_pipe hpipe (some label.text)

end DiagramReadability.Statement
