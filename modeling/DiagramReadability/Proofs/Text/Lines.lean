import DiagramReadability.Text.Lines

/-!
# The lines of a text put together

A line that stands between two breaks is a line of the text, and what stands before and behind it
keeps its own lines.
-/

namespace DiagramReadability.Text

variable {s before line after rest : List Char}

/-- The text behind the line break that it opens with. -/
def afterLineBreak : List Char → List Char
  | [] => []
  | '\r' :: '\n' :: rest => rest
  | _ :: rest => rest

theorem forall_mem_head?_cons {p : Char → Prop} {c : Char} (h : p c) (s : List Char) :
    ∀ d ∈ (c :: s).head?, p d := by
  intro d hd
  rwa [← Option.some.inj hd]

-- an instance that decides this by itself would go over all characters there are
theorem forall_mem_of_all {p : Char → Prop} [DecidablePred p]
    (h : (s.all fun c => decide (p c)) = true) : ∀ c ∈ s, p c := by
  simpa using h

theorem lines_of_break {c : Char} (hc : isLineBreak c = true) (s : List Char) :
    lines (c :: s) = [] :: lines (afterLineBreak (c :: s)) := by
  by_cases hpair : ∃ rest, c = '\r' ∧ s = '\n' :: rest
  · obtain ⟨rest, rfl, rfl⟩ := hpair
    rw [lines, afterLineBreak]
  · have hsingle : ∀ rest, c = '\r' → s = '\n' :: rest → False := fun rest hr hs =>
      hpair ⟨rest, hr, hs⟩
    rw [lines.eq_3 c s hsingle, if_pos hc, afterLineBreak.eq_3 c s hsingle]

theorem lines_of_not_break {c : Char} (hc : isLineBreak c = false) (s : List Char) :
    lines (c :: s) = consFirst c (lines s) := by
  have hne : c ≠ '\r' := by
    rintro rfl
    exact absurd hc (by decide)
  rw [lines.eq_3 c s fun _ hr _ => hne hr, hc]
  rfl

/-- A text without breaks is the first line, whatever follows behind a break. -/
theorem lines_append_of_opens (hs : ∀ c ∈ s, isLineBreak c = false)
    (hrest : ∀ c ∈ rest.head?, isLineBreak c = true) (hne : s ++ rest ≠ []) :
    lines (s ++ rest) = s :: lines (afterLineBreak rest) := by
  induction s with
  | nil =>
    cases rest with
    | nil => exact absurd rfl hne
    | cons c rest => exact lines_of_break (hrest c rfl) rest
  | cons c s ih =>
    rw [List.forall_mem_cons] at hs
    rw [List.cons_append, lines_of_not_break hs.1]
    by_cases hnil : s ++ rest = []
    · rw [List.append_eq_nil_iff] at hnil
      obtain ⟨rfl, rfl⟩ := hnil
      rfl
    · rw [ih hs.2 hnil]
      rfl

theorem lines_of_no_break (hs : ∀ c ∈ s, isLineBreak c = false) (hne : s ≠ []) :
    lines s = [s] := by
  have hlines : lines (s ++ []) = s :: lines (afterLineBreak []) :=
    lines_append_of_opens hs (by simp) (by rwa [List.append_nil])
  rwa [List.append_nil] at hlines

theorem lines_ne_nil (h : s ≠ []) : lines s ≠ [] := by
  fun_cases lines s with
  | case1 => exact absurd rfl h
  | case2 rest => exact List.cons_ne_nil _ _
  | case3 c s _ hc => exact List.cons_ne_nil _ _
  | case4 c s _ hc =>
    cases lines s with
    | nil => exact List.cons_ne_nil _ _
    | cons first later => exact List.cons_ne_nil _ _

theorem consFirst_append (c : Char) {ls : List (List Char)} (h : ls ≠ []) (ls' : List (List Char)) :
    consFirst c (ls ++ ls') = consFirst c ls ++ ls' := by
  cases ls with
  | nil => exact absurd rfl h
  | cons first later => rfl

/-- A text that ends with a break keeps its lines before any other, unless the two breaks between
them make a pair. -/
theorem lines_append_of_ends (hbefore : ∀ c ∈ before.getLast?, isLineBreak c = true)
    (hjoin : rest.head? ≠ some '\n') : lines (before ++ rest) = lines before ++ lines rest := by
  fun_induction lines before with
  | case1 => rfl
  | case2 s ih =>
    show [] :: lines (s ++ rest) = _
    rw [ih, List.cons_append]
    intro c hc
    apply hbefore c
    rw [List.getLast?_cons_cons, List.getLast?_cons, Option.mem_def.mp hc]
    rfl
  | case3 c s hsingle hc ih =>
    have hend : ∀ e ∈ s.getLast?, isLineBreak e = true := by
      intro e he
      apply hbefore e
      rw [List.getLast?_cons, Option.mem_def.mp he]
      rfl
    -- the break stays single: what follows it is in `s`, or is `rest`, which is no second half
    have happend : ∀ t, c = '\r' → s ++ rest = '\n' :: t → False := by
      intro t hr ht
      cases s with
      | nil => exact hjoin (by rw [show rest = '\n' :: t from ht]; rfl)
      | cons e s => exact hsingle s hr (by rw [(List.cons.inj ht).1])
    rw [List.cons_append, lines.eq_3 c (s ++ rest) happend, if_pos hc, ih hend]
    rfl
  | case4 c s hsingle hc ih =>
    rw [Bool.not_eq_true] at hc
    cases s with
    | nil =>
      rw [hbefore c rfl] at hc
      contradiction
    | cons e s =>
      rw [List.getLast?_cons_cons] at hbefore
      rw [List.cons_append, lines_of_not_break hc, ih hbefore,
        consFirst_append c (lines_ne_nil (List.cons_ne_nil e s))]

/-- Behind a line feed the lines are those of what follows.  In front of it they are those of the
text there, with at most an empty one more, for a feed that is not part of a break before it. -/
theorem exists_lines_append_feed (s t : List Char) :
    ∃ gap, (∀ line ∈ gap, line = []) ∧ lines (s ++ '\n' :: t) = lines s ++ gap ++ lines t := by
  have hfeed : lines ('\n' :: t) = [] :: lines t := lines_of_break (by decide) t
  fun_induction lines s with
  | case1 => exact ⟨[[]], by simp, hfeed⟩
  | case2 rest ih =>
    obtain ⟨gap, hgap, heq⟩ := ih
    refine ⟨gap, hgap, ?_⟩
    show [] :: lines (rest ++ '\n' :: t) = _
    rw [heq]
    rfl
  | case3 c s hsingle hc ih =>
    obtain ⟨gap, hgap, heq⟩ := ih
    by_cases hpair : c = '\r' ∧ s = []
    · -- the feed is the second half of the break that the text ends with
      obtain ⟨rfl, rfl⟩ := hpair
      exact ⟨[], by simp, rfl⟩
    · have happend : ∀ u, c = '\r' → s ++ '\n' :: t = '\n' :: u → False := by
        intro u hr hu
        cases s with
        | nil => exact hpair ⟨hr, rfl⟩
        | cons d s => exact hsingle s hr (by rw [(List.cons.inj hu).1])
      refine ⟨gap, hgap, ?_⟩
      rw [List.cons_append, lines.eq_3 c _ happend, if_pos hc, heq]
      rfl
  | case4 c s hsingle hc ih =>
    rw [Bool.not_eq_true] at hc
    obtain ⟨gap, hgap, heq⟩ := ih
    rw [List.cons_append, lines_of_not_break hc]
    cases s with
    | nil =>
      refine ⟨[], by simp, ?_⟩
      rw [List.nil_append, hfeed]
      rfl
    | cons d s =>
      refine ⟨gap, hgap, ?_⟩
      rw [heq, List.append_assoc, consFirst_append c (lines_ne_nil (List.cons_ne_nil d s)),
        List.append_assoc]

/-- What is read off each line by itself, and is nothing for an empty line, is read off two texts
that a line feed joins as off each of them. -/
theorem flatMap_lines_append_feed {α : Type} {read : List Char → List α} (hread : read [] = [])
    (s t : List Char) :
    (lines (s ++ '\n' :: t)).flatMap read = (lines s).flatMap read ++ (lines t).flatMap read := by
  obtain ⟨gap, hgap, heq⟩ := exists_lines_append_feed s t
  have hnone : gap.flatMap read = [] := by
    rw [List.flatMap_eq_nil_iff]
    intro line hline
    rw [hgap line hline, hread]
  rw [heq, List.flatMap_append, List.flatMap_append, hnone, List.append_nil]

theorem unlines_cons (s : List Char) (ls : List (List Char)) :
    unlines (s :: ls) = s ++ ls.flatMap fun line => '\n' :: line := by
  unfold unlines
  induction ls generalizing s with
  | nil => rw [List.flatMap_nil, List.append_nil]; rfl
  | cons line ls ih =>
    rw [joinWith.eq_3 _ _ _ (List.cons_ne_nil line ls), ih, List.flatMap_cons, List.append_assoc]
    rfl

theorem unlines_cons_cons (s t : List Char) (ls : List (List Char)) :
    unlines (s :: t :: ls) = s ++ '\n' :: unlines (t :: ls) := by
  rw [unlines_cons, unlines_cons, List.flatMap_cons]
  rfl

/-- Written one below the other, lines are read again as they are; an empty last line is lost. -/
theorem lines_unlines {ls : List (List Char)} (h : ∀ line ∈ ls, ∀ c ∈ line, isLineBreak c = false) :
    lines (unlines ls) = if ls.getLast? = some [] then ls.dropLast else ls := by
  induction ls with
  | nil => rfl
  | cons line ls ih =>
    rw [List.forall_mem_cons] at h
    cases ls with
    | nil =>
      cases line with
      | nil => rfl
      | cons c line =>
        rw [if_neg (by simp)]
        exact lines_of_no_break h.1 (List.cons_ne_nil c line)
    | cons second ls =>
      have hfeed : ∀ c ∈ ('\n' :: unlines (second :: ls)).head?, isLineBreak c = true :=
        forall_mem_head?_cons (by decide) _
      rw [unlines_cons_cons, lines_append_of_opens h.1 hfeed (by simp)]
      show line :: lines (unlines (second :: ls)) = _
      rw [ih h.2, List.getLast?_cons_cons, List.dropLast_cons_of_ne_nil (List.cons_ne_nil _ _)]
      split <;> rfl

/-! ## One line of a text -/

/-- `line` is a line of the text `before ++ line ++ after`: it holds no break, and breaks or the
ends of the text stand around it. -/
structure IsLineIn (before line after : List Char) : Prop where
  inside : ∀ c ∈ line, isLineBreak c = false
  nonempty : line ≠ []
  opens : ∀ c ∈ before.getLast?, isLineBreak c = true
  closes : ∀ c ∈ after.head?, isLineBreak c = true

theorem IsLineIn.cons_break (h : IsLineIn before line after) {c : Char}
    (hc : isLineBreak c = true) : IsLineIn (c :: before) line after where
  inside := h.inside
  nonempty := h.nonempty
  opens := by
    intro d hd
    rw [List.getLast?_cons] at hd
    cases hlast : before.getLast? with
    | none =>
      rw [hlast] at hd
      rwa [← Option.some.inj hd]
    | some e =>
      rw [hlast] at hd
      rw [← Option.some.inj hd]
      exact h.opens e hlast
  closes := h.closes

theorem IsLineIn.cons_of_ne_nil (h : IsLineIn before line after) (hne : before ≠ []) (c : Char) :
    IsLineIn (c :: before) line after where
  inside := h.inside
  nonempty := h.nonempty
  opens := by
    cases before with
    | nil => exact absurd rfl hne
    | cons d before =>
      rw [List.getLast?_cons_cons]
      exact h.opens
  closes := h.closes

theorem IsLineIn.lines_eq (h : IsLineIn before line after) :
    lines (before ++ line ++ after) =
      lines before ++ line :: lines (afterLineBreak after) := by
  have hjoin : (line ++ after).head? ≠ some '\n' := by
    cases line with
    | nil => exact absurd rfl h.nonempty
    | cons c line =>
      intro hc
      have hbreak := h.inside c List.mem_cons_self
      rw [Option.some.inj hc] at hbreak
      exact absurd hbreak (by decide)
  have hne : line ++ after ≠ [] := fun hnil => h.nonempty (List.append_eq_nil_iff.mp hnil).1
  rw [List.append_assoc, lines_append_of_ends h.opens hjoin,
    lines_append_of_opens h.inside h.closes hne]

theorem exists_first_line {s line : List Char} {later : List (List Char)}
    (h : lines s = line :: later) :
    ∃ after, s = line ++ after ∧ (∀ c ∈ line, isLineBreak c = false) ∧
      (∀ c ∈ after.head?, isLineBreak c = true) ∧ lines (afterLineBreak after) = later := by
  fun_induction lines s generalizing line with
  | case1 => contradiction
  | case2 rest =>
    obtain ⟨rfl, rfl⟩ := List.cons.inj h
    exact ⟨'\r' :: '\n' :: rest, rfl, by simp, forall_mem_head?_cons (by decide) _, rfl⟩
  | case3 c s hsingle hc =>
    obtain ⟨rfl, rfl⟩ := List.cons.inj h
    exact ⟨c :: s, rfl, by simp, forall_mem_head?_cons hc s,
      by rw [afterLineBreak.eq_3 c s hsingle]⟩
  | case4 c s _ hc ih =>
    rw [Bool.not_eq_true] at hc
    cases hs : lines s with
    | nil =>
      cases s with
      | nil =>
        obtain ⟨rfl, rfl⟩ := List.cons.inj h
        exact ⟨[], rfl, by simpa using hc, by simp, rfl⟩
      | cons e s => exact absurd hs (lines_ne_nil (List.cons_ne_nil e s))
    | cons first rest =>
      rw [hs] at h
      obtain ⟨rfl, rfl⟩ := List.cons.inj h
      obtain ⟨after, rfl, hinside, hcloses, hlater⟩ := ih hs
      exact ⟨after, rfl, List.forall_mem_cons.mpr ⟨hc, hinside⟩, hcloses, hlater⟩

/-- Every line of a text that is not empty stands in it between breaks or the ends of the text. -/
theorem exists_isLineIn {s line : List Char} {earlier later : List (List Char)}
    (h : lines s = earlier ++ line :: later) (hne : line ≠ []) :
    ∃ before after, s = before ++ line ++ after ∧ IsLineIn before line after ∧
      lines before = earlier ∧ lines (afterLineBreak after) = later := by
  fun_induction lines s generalizing earlier with
  | case1 => exact absurd h (by simp)
  | case2 s ih =>
    cases earlier with
    | nil => exact absurd (List.cons.inj h).1.symm hne
    | cons first earlier =>
      obtain ⟨rfl, hs⟩ := List.cons.inj h
      obtain ⟨before, after, rfl, hline, rfl, hlater⟩ := ih hs
      refine ⟨'\r' :: '\n' :: before, after, rfl, ?_, rfl, hlater⟩
      exact (hline.cons_break (by decide)).cons_break (by decide)
  | case3 c s hsingle hc ih =>
    cases earlier with
    | nil => exact absurd (List.cons.inj h).1.symm hne
    | cons first earlier =>
      obtain ⟨rfl, hs⟩ := List.cons.inj h
      obtain ⟨before, after, rfl, hline, rfl, hlater⟩ := ih hs
      refine ⟨c :: before, after, rfl, hline.cons_break hc, ?_, hlater⟩
      have hbefore : ∀ t, c = '\r' → before = '\n' :: t → False := by
        rintro t hr rfl
        exact hsingle _ hr rfl
      rw [lines.eq_3 c before hbefore, if_pos hc]
  | case4 c s hsingle hc ih =>
    rw [Bool.not_eq_true] at hc
    cases earlier with
    | nil =>
      -- the line is the first one and begins with this character
      rw [← lines_of_not_break hc] at h
      obtain ⟨after, heq, hinside, hcloses, hlater⟩ := exists_first_line h
      exact ⟨[], after, heq, ⟨hinside, hne, by simp, hcloses⟩, rfl, hlater⟩
    | cons first earlier =>
      cases hs : lines s with
      | nil =>
        rw [hs] at h
        exact absurd (List.cons.inj h).2.symm (by simp)
      | cons second rest =>
        rw [hs] at h
        obtain ⟨rfl, hrest⟩ := List.cons.inj h
        -- without the character the first line is shorter, and the others are the same
        have hlines : lines s = (second :: earlier) ++ line :: later := by
          rw [hs, hrest]
          rfl
        obtain ⟨before, after, rfl, hline, hearlier, hlater⟩ := ih hlines
        refine ⟨c :: before, after, rfl, hline.cons_of_ne_nil ?_ c, ?_, hlater⟩
        · rintro rfl
          exact absurd hearlier.symm (List.cons_ne_nil second earlier)
        · rw [lines_of_not_break hc, hearlier]
          rfl

end DiagramReadability.Text
