import DiagramReadability.Proofs.Line.Nesting

/-!
# The pieces of a line

A line is cut at the semicolons that stand outside, and there the scan is where it began.  So every
piece can be scanned on its own, and the pieces are the only texts that make the line when they are
joined, hold no semicolon outside and, the last one apart, close all that they open.
-/

namespace DiagramReadability.Line

open DiagramReadability.Text

variable {n : Nesting} {c : Char} {s line : List Char} {parts : List (List Char)}

/-! ## Texts that are not cut -/

/-- Every semicolon of the text stands inside, when the scan comes to the text in the state `n`. -/
def IsUncutFrom (n : Nesting) (s : List Char) : Prop :=
  ∀ before after, s = before ++ ';' :: after → (n.run before).isOutside = false

/-- Every semicolon of the text stands inside quotes, pipes or brackets of the text. -/
def IsUncut (s : List Char) : Prop :=
  IsUncutFrom .start s

theorem isUncutFrom_of_no_semicolon (h : ';' ∉ s) (n : Nesting) : IsUncutFrom n s := by
  rintro before after rfl
  simp at h

theorem IsUncutFrom.tail (h : IsUncutFrom n (c :: s)) : IsUncutFrom (n.step c) s := by
  rintro before after rfl
  exact h (c :: before) after rfl

theorem IsUncutFrom.cons (hc : c = ';' → n.isOutside = false) (h : IsUncutFrom (n.step c) s) :
    IsUncutFrom n (c :: s) := by
  intro before after heq
  cases before with
  | nil => exact hc (List.cons.inj heq).1
  | cons d before =>
      obtain ⟨rfl, hs⟩ := List.cons.inj heq
      exact h before after hs

/-- A semicolon inside joins two texts into one that is not cut. -/
theorem IsUncutFrom.append (h : IsUncutFrom n s) (hin : (n.run s).isOutside = false)
    {t : List Char} (ht : ';' ∉ t) : IsUncutFrom n (s ++ ';' :: t) := by
  induction s generalizing n with
  | nil => exact (isUncutFrom_of_no_semicolon ht _).cons fun _ => hin
  | cons c s ih => exact (ih h.tail hin).cons fun hc => h [] s (by rw [hc]; rfl)

theorem IsUncutFrom.not_cut (h : IsUncutFrom n (c :: s)) :
    ¬ (c = ';' && n.isOutside) = true := by
  intro hcut
  rw [Bool.and_eq_true, decide_eq_true_iff] at hcut
  obtain ⟨rfl, hout⟩ := hcut
  have hin := h [] s rfl
  rw [show n.run [] = n from rfl, hout] at hin
  contradiction

theorem piecesFrom_of_uncut (h : IsUncutFrom n s) : piecesFrom n s = [s] := by
  induction s generalizing n with
  | nil => rfl
  | cons c s ih =>
      rw [piecesFrom, if_neg h.not_cut, ih h.tail]
      rfl

/-! ## Cutting at a semicolon -/

theorem piecesFrom_append (h : IsUncutFrom n s) (hrun : (n.run s).isOutside = true)
    (rest : List Char) : piecesFrom n (s ++ ';' :: rest) = s :: pieces rest := by
  induction s generalizing n with
  | nil =>
      have hout : n.isOutside = true := hrun
      rw [List.nil_append, piecesFrom, hout, Nesting.isOutside_iff.mp hout]
      rfl
  | cons c s ih =>
      rw [List.cons_append, piecesFrom, if_neg h.not_cut, ih h.tail hrun]
      rfl

/-- A text is cut nowhere, or there is a first semicolon at which it is cut. -/
theorem isUncutFrom_or_cut (n : Nesting) (s : List Char) :
    IsUncutFrom n s ∨ ∃ first rest, s = first ++ ';' :: rest ∧ IsUncutFrom n first ∧
      (n.run first).isOutside = true := by
  induction s generalizing n with
  | nil => exact .inl (isUncutFrom_of_no_semicolon List.not_mem_nil n)
  | cons c s ih =>
      by_cases hcut : c = ';' ∧ n.isOutside = true
      · obtain ⟨rfl, hout⟩ := hcut
        exact .inr ⟨[], s, rfl, isUncutFrom_of_no_semicolon List.not_mem_nil n, hout⟩
      · have hc : c = ';' → n.isOutside = false := fun hc =>
          Bool.eq_false_iff.mpr fun hout => hcut ⟨hc, hout⟩
        rcases ih (n.step c) with hs | ⟨first, rest, rfl, hfirst, hrun⟩
        · exact .inl (hs.cons hc)
        · exact .inr ⟨c :: first, rest, rfl, hfirst.cons hc, hrun⟩

/-- How a line is cut: the parts make the line when they are joined, the scan of each part but the
last comes back outside, and no part holds a further semicolon to cut at. -/
structure IsCutInto (line : List Char) (parts : List (List Char)) : Prop where
  nonempty : parts ≠ []
  joined : joinWith [';'] parts = line
  closed : ∀ part ∈ parts.dropLast, (Nesting.start.run part).isOutside = true
  uncut : ∀ part ∈ parts, IsUncut part

theorem isCutInto_single (h : IsUncut s) : IsCutInto s [s] where
  nonempty := List.cons_ne_nil s []
  joined := rfl
  closed := by simp
  uncut := List.forall_mem_singleton.mpr h

theorem IsCutInto.cons (h : IsCutInto line parts) (hs : IsUncut s)
    (hrun : (Nesting.start.run s).isOutside = true) :
    IsCutInto (s ++ ';' :: line) (s :: parts) where
  nonempty := List.cons_ne_nil s parts
  joined := by
    rw [joinWith.eq_3 _ _ _ h.nonempty, h.joined, List.append_assoc]
    rfl
  closed := by
    rw [List.dropLast_cons_of_ne_nil h.nonempty, List.forall_mem_cons]
    exact ⟨hrun, h.closed⟩
  uncut := List.forall_mem_cons.mpr ⟨hs, h.uncut⟩

theorem isCutInto_pieces (line : List Char) : IsCutInto line (pieces line) := by
  induction hlength : line.length using Nat.strongRecOn generalizing line with
  | ind length ih =>
      rcases isUncutFrom_or_cut .start line with hline | ⟨first, rest, rfl, hfirst, hrun⟩
      · rw [pieces, piecesFrom_of_uncut hline]
        exact isCutInto_single hline
      · have hshorter : rest.length < length := by
          rw [← hlength, List.length_append, List.length_cons]
          omega
        rw [pieces, piecesFrom_append hfirst hrun]
        exact (ih rest.length hshorter rest rfl).cons hfirst hrun

/-- A line can be cut in one way only. -/
theorem IsCutInto.eq_pieces (h : IsCutInto line parts) : parts = pieces line := by
  induction parts generalizing line with
  | nil => exact absurd rfl h.nonempty
  | cons s parts ih =>
      obtain ⟨-, rfl, hclosed, huncut⟩ := h
      rw [List.forall_mem_cons] at huncut
      cases parts with
      | nil => exact (piecesFrom_of_uncut huncut.1).symm
      | cons t parts =>
          have hne : t :: parts ≠ [] := List.cons_ne_nil t parts
          rw [List.dropLast_cons_of_ne_nil hne, List.forall_mem_cons] at hclosed
          rw [joinWith.eq_3 _ _ _ hne, List.append_assoc, List.singleton_append, pieces,
            piecesFrom_append huncut.1 hclosed.1]
          exact congrArg (s :: ·) (ih ⟨hne, rfl, hclosed.2, huncut.2⟩)

/-! ## Statements of a line -/

theorem statements_of_uncut (h : IsUncut s) (hblank : allBlank s = false) : statements s = [s] := by
  rw [statements, pieces, piecesFrom_of_uncut h, List.filter_cons_of_pos (by simp [hblank])]
  rfl

/-- The statements of a line are the parts into which it is cut, in their order and without the
blank ones, and a statement by itself is not cut again. -/
theorem statements_cut (line : List Char) :
    ∃ parts, IsCutInto line parts ∧ (∀ other, IsCutInto line other → other = parts) ∧
      statements line = parts.filter (fun part => !allBlank part) ∧
      ∀ part ∈ statements line, statements part = [part] := by
  have hcut := isCutInto_pieces line
  refine ⟨pieces line, hcut, fun other hother => hother.eq_pieces, rfl, fun part hpart => ?_⟩
  rw [statements, List.mem_filter, Bool.not_eq_true'] at hpart
  exact statements_of_uncut (hcut.uncut part hpart.1) hpart.2

example : statements "A[\"x; y\"] --> B; ; C -->|a;b| D ]; E".toList =
    ["A[\"x; y\"] --> B".toList, " C -->|a;b| D ]".toList, " E".toList] := by
  decide

end DiagramReadability.Line
