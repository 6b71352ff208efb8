import DiagramReadability.Proofs.Label.Statistics

/-!
# The lines of a label

A label is broken at line feeds and at break tags, each time at the first break in what is left of
it.  An angle bracket that opens is the first character of every break that holds one, so no break
that begins before a tag reaches into it: the lines of a label around a tag are those of its two
sides, whatever these hold.
-/

namespace DiagramReadability.Label

open DiagramReadability.Text
open DiagramReadability.Statement

variable {s line rest : List Char} {ls : List (List Char)}

/-! ## Breaks -/

/-- A break tag: its letters in either case, and blanks of any kind before a slash that may be
missing. -/
structure BreakTag where
  b : Char
  r : Char
  blanks : Written.Blanks
  slash : Bool
  b_case : b = 'b' ∨ b = 'B'
  r_case : r = 'r' ∨ r = 'R'

/-- What ends a break tag. -/
def BreakTag.closing (tag : BreakTag) : List Char :=
  if tag.slash then ['/', '>'] else ['>']

def BreakTag.text (tag : BreakTag) : List Char :=
  '<' :: tag.b :: tag.r :: (tag.blanks.val ++ tag.closing)

/-- What stands between two lines of a label. -/
inductive LineBreak where
  | feed
  | tag (tag : BreakTag)

def LineBreak.text : LineBreak → List Char
  | .feed => ['\n']
  | .tag t => t.text

theorem BreakTag.trimStart_blanks (tag : BreakTag) (rest : List Char) :
    trimStart (tag.blanks.val ++ tag.closing ++ rest) = tag.closing ++ rest := by
  have hclosing : startsBlank (tag.closing ++ rest) = false := by
    unfold BreakTag.closing
    split
    · exact (by decide : isBlank '/' = false)
    · exact (by decide : isBlank '>' = false)
  rw [List.append_assoc, trimStart_append_blanks tag.blanks.property,
    trimStart_of_not_blank hclosing]

theorem LineBreak.text_ne_nil (br : LineBreak) : br.text ≠ [] := by
  cases br with
  | feed => exact List.cons_ne_nil _ _
  | tag tag => exact List.cons_ne_nil _ _

/-- No break holds an opening angle bracket behind its own first character. -/
theorem LineBreak.not_mem_tail_text (br : LineBreak) : '<' ∉ br.text.tail := by
  cases br with
  | feed => exact List.not_mem_nil
  | tag tag =>
    have hb : '<' ≠ tag.b := by rcases tag.b_case with hb | hb <;> rw [hb] <;> decide
    have hr : '<' ≠ tag.r := by rcases tag.r_case with hr | hr <;> rw [hr] <;> decide
    have hblanks : '<' ∉ tag.blanks.val := fun hmem =>
      ne_of_isBlank (tag.blanks.property _ hmem) (by decide : isBlank '<' = false) rfl
    have hclosing : '<' ∉ tag.closing := by
      unfold BreakTag.closing
      split <;> decide
    show '<' ∉ tag.b :: tag.r :: (tag.blanks.val ++ tag.closing)
    rw [List.mem_cons, List.mem_cons, List.mem_append]
    rintro (h | h | h | h)
    · exact hb h
    · exact hr h
    · exact hblanks h
    · exact hclosing h

theorem afterBreak?_text (br : LineBreak) (rest : List Char) :
    afterBreak? (br.text ++ rest) = some rest := by
  cases br with
  | feed => rfl
  | tag tag =>
    have hletters : ((tag.b = 'b' || tag.b = 'B') && (tag.r = 'r' || tag.r = 'R')) = true := by
      simpa using ⟨tag.b_case, tag.r_case⟩
    show afterBreak? ('<' :: tag.b :: tag.r :: (tag.blanks.val ++ tag.closing ++ rest)) = some rest
    rw [afterBreak?, if_pos hletters, tag.trimStart_blanks]
    unfold BreakTag.closing
    cases tag.slash <;> rfl

theorem exists_blanks_append_trimStart (s : List Char) :
    ∃ blanks : Written.Blanks, s = blanks.val ++ trimStart s :=
  ⟨⟨s.takeWhile isBlank, fun _ hc => List.mem_takeWhile_imp hc⟩,
    List.takeWhile_append_dropWhile.symm⟩

/-- What is read off the front of a text as a break is one as it is written. -/
theorem exists_text_of_afterBreak? (h : afterBreak? s = some rest) :
    ∃ br : LineBreak, s = br.text ++ rest := by
  unfold afterBreak? at h
  split at h
  · rw [Option.some.inj h]
    exact ⟨.feed, rfl⟩
  · rename_i b r inside
    split at h
    · rename_i hletters
      have hcase : (b = 'b' ∨ b = 'B') ∧ (r = 'r' ∨ r = 'R') := by simpa using hletters
      obtain ⟨blanks, hinside⟩ := exists_blanks_append_trimStart inside
      split at h
      · rename_i hclosing
        rw [hclosing, Option.some.inj h] at hinside
        refine ⟨.tag ⟨b, r, blanks, true, hcase.1, hcase.2⟩, ?_⟩
        rw [hinside]
        exact congrArg ('<' :: b :: r :: ·) (List.append_assoc _ ['/', '>'] rest).symm
      · rename_i hclosing
        rw [hclosing, Option.some.inj h] at hinside
        refine ⟨.tag ⟨b, r, blanks, false, hcase.1, hcase.2⟩, ?_⟩
        rw [hinside]
        exact congrArg ('<' :: b :: r :: ·) (List.append_assoc _ ['>'] rest).symm
      · contradiction
    · contradiction
  · contradiction

theorem afterBreak?_eq_none_iff :
    afterBreak? s = none ↔ ∀ (br : LineBreak) rest, s ≠ br.text ++ rest := by
  constructor
  · rintro hnone br rest rfl
    rw [afterBreak?_text] at hnone
    contradiction
  · intro hall
    by_contra hsome
    obtain ⟨rest, hrest⟩ := Option.ne_none_iff_exists'.mp hsome
    obtain ⟨br, heq⟩ := exists_text_of_afterBreak? hrest
    exact hall br rest heq

/-- An angle bracket behind a text takes no part in a break that begins in the text. -/
theorem afterBreak?_append (hs : s ≠ []) (rest : List Char) :
    afterBreak? (s ++ '<' :: rest) = (afterBreak? s).map (· ++ '<' :: rest) := by
  cases hbreak : afterBreak? s with
  | some after =>
    obtain ⟨br, rfl⟩ := exists_text_of_afterBreak? hbreak
    rw [List.append_assoc, afterBreak?_text]
    rfl
  | none =>
    rw [afterBreak?_eq_none_iff] at hbreak
    refine afterBreak?_eq_none_iff.mpr fun br after heq => ?_
    -- the break would end in the text, or hold the angle bracket behind its first character
    rcases List.append_eq_append_iff.mp heq with ⟨mid, hbr, hmid⟩ | ⟨mid, hmid, -⟩
    · cases mid with
      | nil => exact hbreak br [] (by rw [hbr, List.append_nil, List.append_nil])
      | cons c mid =>
        obtain ⟨d, s, rfl⟩ := List.exists_cons_of_ne_nil hs
        apply br.not_mem_tail_text
        rw [hbr, ← (List.cons.inj hmid).1]
        simp
    · exact hbreak br mid hmid

/-! ## Breaking a label -/

theorem labelLines_skip (s t : List Char) : labelLines s.length (s ++ t) = labelLines 0 t := by
  induction s with
  | nil => rfl
  | cons c s ih => rw [List.cons_append, List.length_cons, labelLines, ih]

theorem labelLines_break (br : LineBreak) (rest : List Char) :
    labelLines 0 (br.text ++ rest) = [] :: labelLines 0 rest := by
  have hbreak := afterBreak?_text br rest
  obtain ⟨c, s, hs⟩ := List.exists_cons_of_ne_nil br.text_ne_nil
  rw [hs, List.cons_append] at hbreak ⊢
  rw [labelLines, hbreak]
  dsimp only
  rw [List.length_append, Nat.add_sub_cancel, labelLines_skip]

theorem labelLines_of_no_break {c : Char} (h : afterBreak? (c :: s) = none) :
    labelLines 0 (c :: s) = consFirst c (labelLines 0 s) := by
  rw [labelLines, h]

/-- A label is empty, opens with a break, or opens with a character that stays in its line. -/
@[elab_as_elim]
theorem breaks_induction {motive : List Char → Prop} (nil : motive [])
    (broken : ∀ (br : LineBreak) s, motive s → motive (br.text ++ s))
    (kept : ∀ c s, afterBreak? (c :: s) = none → motive s → motive (c :: s)) (s : List Char) :
    motive s := by
  induction hlength : s.length using Nat.strongRecOn generalizing s with
  | ind length ih =>
    cases s with
    | nil => exact nil
    | cons c s =>
      cases hbreak : afterBreak? (c :: s) with
      | none => exact kept c s hbreak (ih s.length (by simp [← hlength]) s rfl)
      | some rest =>
        obtain ⟨br, heq⟩ := exists_text_of_afterBreak? hbreak
        -- a break may take off many characters, so the induction is on the length
        have hpos : 0 < br.text.length := List.length_pos_iff.mpr br.text_ne_nil
        rw [heq, List.length_append] at hlength
        rw [heq]
        exact broken br rest (ih rest.length (by omega) rest rfl)

theorem labelLines_ne_nil (s : List Char) : labelLines 0 s ≠ [] := by
  induction s using breaks_induction with
  | nil => exact List.cons_ne_nil _ _
  | broken br s ih =>
    rw [labelLines_break]
    exact List.cons_ne_nil _ _
  | kept c s h ih =>
    rw [labelLines_of_no_break h]
    cases hls : labelLines 0 s with
    | nil => exact absurd hls ih
    | cons first later => exact List.cons_ne_nil _ _

/-- The lines around a break tag are those of the two sides. -/
theorem labelLines_append_tag (s : List Char) (tag : BreakTag) (t : List Char) :
    labelLines 0 (s ++ (tag.text ++ t)) = labelLines 0 s ++ labelLines 0 t := by
  induction s using breaks_induction with
  | nil => exact labelLines_break (.tag tag) t
  | broken br s ih =>
    rw [List.append_assoc, labelLines_break, labelLines_break, ih, List.cons_append]
  | kept c s h ih =>
    -- the tag opens with an angle bracket, so `c` begins no break in front of it either
    have happend : afterBreak? (c :: (s ++ (tag.text ++ t))) = none := by
      have hmap := afterBreak?_append (List.cons_ne_nil c s) (tag.text ++ t).tail
      rwa [h] at hmap
    rw [List.cons_append, labelLines_of_no_break happend, labelLines_of_no_break h, ih,
      consFirst_append c (labelLines_ne_nil s)]

/-! ## The lines without the search -/

/-- No break begins in `line` where `rest` follows it. -/
def IsUnbroken (line rest : List Char) : Prop :=
  ∀ before after (br : LineBreak),
    line ++ rest = before ++ (br.text ++ after) → line.length ≤ before.length

/-- How a label is broken into lines: a line goes on up to the first break, and the break itself
belongs to no line. -/
inductive IsBrokenInto : List Char → List (List Char) → Prop where
  | last {line : List Char} (h : IsUnbroken line []) : IsBrokenInto line [line]
  | broken {line rest : List Char} {ls : List (List Char)} (br : LineBreak)
      (h : IsUnbroken line (br.text ++ rest)) (hrest : IsBrokenInto rest ls) :
      IsBrokenInto (line ++ (br.text ++ rest)) (line :: ls)

theorem isUnbroken_nil (rest : List Char) : IsUnbroken [] rest := fun _ _ _ _ => Nat.zero_le _

theorem isUnbroken_cons_iff {c : Char} :
    IsUnbroken (c :: line) rest ↔
      afterBreak? (c :: (line ++ rest)) = none ∧ IsUnbroken line rest := by
  rw [afterBreak?_eq_none_iff]
  constructor
  · intro h
    constructor
    · intro br after heq
      exact absurd (h [] after br heq) (Nat.not_succ_le_zero _)
    · intro before after br heq
      exact Nat.le_of_succ_le_succ (h (c :: before) after br (congrArg (c :: ·) heq))
  · rintro ⟨hnone, hline⟩ before after br heq
    cases before with
    | nil => exact absurd heq (hnone br after)
    | cons d before => exact Nat.succ_le_succ (hline before after br (List.cons.inj heq).2)

/-- A text in which no break begins is put in front of the first line. -/
theorem labelLines_append_of_unbroken {first : List Char} (h : IsUnbroken line rest)
    (hrest : labelLines 0 rest = first :: ls) :
    labelLines 0 (line ++ rest) = (line ++ first) :: ls := by
  induction line with
  | nil => exact hrest
  | cons c line ih =>
    obtain ⟨hnone, hline⟩ := isUnbroken_cons_iff.mp h
    rw [List.cons_append, labelLines_of_no_break hnone, ih hline]
    rfl

/-- A label can be broken in one way only. -/
theorem IsBrokenInto.eq_labelLines (h : IsBrokenInto s ls) : ls = labelLines 0 s := by
  induction h with
  | @last line h =>
    have hlines := labelLines_append_of_unbroken h (rfl : labelLines 0 [] = [[]])
    rw [List.append_nil] at hlines
    exact hlines.symm
  | @broken line rest ls br h hrest ih =>
    rw [labelLines_append_of_unbroken h (labelLines_break br rest), List.append_nil, ih]

theorem IsBrokenInto.cons {c : Char} (h : IsBrokenInto s ls) (hc : afterBreak? (c :: s) = none) :
    IsBrokenInto (c :: s) (consFirst c ls) := by
  cases h with
  | last h =>
    refine .last (isUnbroken_cons_iff.mpr ⟨?_, h⟩)
    rwa [List.append_nil]
  | broken br h hrest => exact .broken br (isUnbroken_cons_iff.mpr ⟨hc, h⟩) hrest

theorem isBrokenInto_labelLines (s : List Char) : IsBrokenInto s (labelLines 0 s) := by
  induction s using breaks_induction with
  | nil => exact .last (isUnbroken_nil [])
  | broken br s ih =>
    rw [labelLines_break]
    exact .broken br (isUnbroken_nil _) ih
  | kept c s hc ih =>
    rw [labelLines_of_no_break hc]
    exact ih.cons hc

theorem IsBrokenInto.isInfix (h : IsBrokenInto s ls) : ∀ line ∈ ls, line <:+: s := by
  induction h with
  | last h => exact List.forall_mem_singleton.mpr List.infix_rfl
  | @broken line rest ls br h hrest ih =>
    have hsuffix : rest <:+ line ++ (br.text ++ rest) :=
      (List.suffix_append br.text rest).trans (List.suffix_append line _)
    rw [List.forall_mem_cons]
    exact ⟨(List.prefix_append line _).isInfix, fun l hl => (ih l hl).trans hsuffix.isInfix⟩

/-! ## The widest line -/

/-- The widths of some lines, without the blanks around them. -/
def widths (ls : List (List Char)) : Set Nat :=
  {n | ∃ line ∈ ls, (trim line).length = n}

theorem widths_append (ls ls' : List (List Char)) :
    widths (ls ++ ls') = widths ls ∪ widths ls' := by
  ext n
  simp [widths, or_and_right, exists_or]

theorem isGreatest_effectiveLength (s : List Char) :
    IsGreatest (widths (labelLines 0 s)) (effectiveLength s) := by
  have hne : (labelLines 0 s).map (fun line => (trim line).length) ≠ [] := by
    rw [Ne, List.map_eq_nil_iff]
    exact labelLines_ne_nil s
  have hgreatest := isGreatest_foldl_max hne
  simp only [List.mem_map] at hgreatest
  exact hgreatest

theorem effectiveLength_le (s : List Char) : effectiveLength s ≤ s.length := by
  obtain ⟨line, hline, hwidth⟩ := (isGreatest_effectiveLength s).1
  have hinfix := (isBrokenInto_labelLines s).isInfix line hline
  rw [← hwidth]
  exact ((trim_isInfix line).trans hinfix).length_le

/-- A label with a break tag in it, in any spelling, is as wide as the wider of the two sides.  The
width of a label is that of the widest of its lines, so it is never greater than its length. -/
theorem effectiveLength_around_tag (a b : List Char) (tag : BreakTag) :
    effectiveLength (a ++ tag.text ++ b) = max (effectiveLength a) (effectiveLength b) ∧
      effectiveLength a ≤ a.length ∧
      ∃ ls, IsBrokenInto a ls ∧ (∀ other, IsBrokenInto a other → other = ls) ∧
        IsGreatest (widths ls) (effectiveLength a) := by
  refine ⟨?_, effectiveLength_le a, labelLines 0 a, isBrokenInto_labelLines a,
    fun other hother => hother.eq_labelLines, isGreatest_effectiveLength a⟩
  have hwhole := isGreatest_effectiveLength (a ++ (tag.text ++ b))
  have hsides := (isGreatest_effectiveLength a).union (isGreatest_effectiveLength b)
  rw [labelLines_append_tag, widths_append] at hwhole
  rw [List.append_assoc]
  exact hwhole.unique hsides

/-- A tag in mixed case, with a line feed inside. -/
def tornTag : BreakTag where
  b := 'B'
  r := 'r'
  blanks := ⟨['\n'], forall_mem_of_all (by decide)⟩
  slash := true
  b_case := .inr rfl
  r_case := .inl rfl

theorem effectiveLength_around_tag_tornTag :
    tornTag.text = "<Br\n/>".toList ∧
      effectiveLength ("wide <br".toList ++ tornTag.text ++ "> b".toList) = 8 := by
  refine ⟨by decide, ?_⟩
  rw [(effectiveLength_around_tag _ _ tornTag).1]
  decide

end DiagramReadability.Label
