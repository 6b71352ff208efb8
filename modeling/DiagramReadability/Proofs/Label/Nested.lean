import DiagramReadability.Proofs.Label.Statistics

/-!
# Definitions inside labels

Each form of brackets is searched for by itself, so a definition may open in the label text of a
definition with other brackets, and then both give a label.  This is the only way in which two
definitions overlap.  The labels of a diagram come from places apart from each other if and only if
none of them opens in the text of another one.
-/

namespace DiagramReadability

open DiagramReadability.Text
open DiagramReadability.Line (isOpener isCloser)
open DiagramReadability.Statement

namespace Label

variable {b c : Bracket} {d e : Definition} {found : List Definition} {body t : List Char}

/-! ## Overlaps -/

/-- The id and the opening bracket of `e` stand in the label text of `d`. -/
def Definition.OpensIn (e : Definition) (c : Bracket) (d : Definition) (b : Bracket) : Prop :=
  ∃ before after, d.raw = before ++ (e.id ++ (c.opening ++ after)) ∧
    e.offset = d.offset + (d.id.length + (b.opening.length + before.length))

/-- No two of the definitions share a place in the text. -/
def AreApart (body : List Char) (found : List Definition) : Prop :=
  ∀ d ∈ found, ∀ e ∈ found, d ≠ e → ∀ b c, d.IsIn body b → e.IsIn body c →
    d.endOffset b ≤ e.offset ∨ e.endOffset c ≤ d.offset

theorem Definition.IsIn.exists_append (hd : d.IsIn body b) (he : e.IsIn body c)
    (hle : d.offset ≤ e.offset) :
    ∃ skipped rest rest', d.offset + skipped.length = e.offset ∧
      d.text b ++ rest = skipped ++ (e.text c ++ rest') := by
  obtain ⟨rest, hrest, -⟩ := hd.exists_readDefinition?
  obtain ⟨rest', hrest', -⟩ := he.exists_readDefinition?
  refine ⟨(body.drop d.offset).take (e.offset - d.offset), rest, rest', ?_, ?_⟩
  · have hpos : 0 < (body.drop e.offset).length := by
      rw [hrest', List.length_append]
      exact Nat.add_pos_left (List.length_pos_iff.mpr he.text_ne_nil) _
    rw [List.length_drop] at hpos
    rw [List.length_take, List.length_drop]
    omega
  · have hdrop : (body.drop d.offset).drop (e.offset - d.offset) = body.drop e.offset := by
      rw [List.drop_drop, Nat.add_sub_cancel' hle]
    rw [← hrest, ← hrest', ← hdrop, List.take_append_drop]

theorem isCloser_of_mem_id (id : Written.Id) : ∀ x ∈ id.text, isCloser x = false := by
  refine id.forall_mem_text (fun x hx => ?_) (by decide)
  have hplain := isPlain_of_isWord hx
  rw [isPlain, Bool.and_eq_true, Bool.not_eq_true'] at hplain
  exact hplain.2

theorem head?_id_append {P : Char → Prop} (id : Written.Id) (h : ∀ x ∈ id.text, P x)
    (s : List Char) : ∀ x ∈ (id.text ++ s).head?, P x := by
  obtain ⟨c, rest, heq, -⟩ := exists_id_cons id
  rw [heq] at h ⊢
  exact forall_mem_head?_cons (h c List.mem_cons_self) _

theorem not_isCloser_of_mem_opening (b : Bracket) : ∀ x ∈ b.opening, isCloser x = false := by
  cases b <;> exact forall_mem_of_all (by decide)

/-- A definition that begins inside one with other brackets opens in the label text of that one. -/
theorem opensIn_of_overlap (hd : d.IsIn body b) (he : e.IsIn body c) (hforms : b ≠ c)
    (hlt : d.offset < e.offset) (hover : e.offset < d.endOffset b) : e.OpensIn c d b := by
  obtain ⟨skipped, rest, rest', hlength, heq⟩ := hd.exists_append he (Nat.le_of_lt hlt)
  obtain ⟨id, hid⟩ := hd.exists_id
  obtain ⟨id', hid'⟩ := he.exists_id
  have hopener := head?_id_append id' (isOpener_of_mem_id id')
  have hcloser := head?_id_append id' (isCloser_of_mem_id id')
  rw [Definition.endOffset, Definition.text, ← hid] at hover
  simp only [Definition.text, ← hid, ← hid', List.append_assoc] at heq
  rcases List.append_eq_append_iff.mp heq with ⟨u, rfl, hu⟩ | ⟨u, hu, hids⟩
  · -- an id does not begin in the opening bracket
    obtain ⟨before, rfl, hraw⟩ := exists_append_of_head b.isOpener_of_mem_opening (hopener _) hu
    rcases List.append_eq_append_iff.mp hraw with ⟨w, rfl, hw⟩ | ⟨w, hw, hids⟩
    · -- nor in the closing bracket
      obtain ⟨w, rfl, -⟩ := exists_append_of_head b.isCloser_of_mem_closing (hcloser _) hw
      simp only [List.length_append] at hlength hover
      omega
    · -- and nothing of it or of its opening bracket closes the label
      rw [← List.append_assoc] at hids
      have hplain : ∀ x ∈ id'.text ++ c.opening, !isCloser x := by
        simp only [Bool.not_eq_true', List.forall_mem_append]
        exact ⟨isCloser_of_mem_id id', not_isCloser_of_mem_opening c⟩
      obtain ⟨after, rfl, -⟩ := exists_append_of_head hplain
        (by simpa using head?_closing_append b rest) hids
      refine ⟨before, after, by rw [hw, ← hid', List.append_assoc], ?_⟩
      rw [← hid, ← hlength]
      simp only [List.length_append]
  · -- inside the id of `d` only a definition of the same form begins
    have hprefix : ∀ x ∈ u, isOpener x = false := fun x hx =>
      isOpener_of_mem_id id x (by rw [hu]; exact List.mem_append_right _ hx)
    exact absurd (eq_of_append_opening (isOpener_of_mem_id id') hprefix hids).2.1.symm hforms

theorem Definition.OpensIn.bounds (h : e.OpensIn c d b) (hd : d.WellFormed b)
    (he : e.WellFormed c) : d.offset < e.offset ∧ e.offset < d.endOffset b := by
  obtain ⟨before, after, hraw, hoffset⟩ := h
  obtain ⟨id, hid⟩ := hd.exists_id
  obtain ⟨id', hid'⟩ := he.exists_id
  have hpos : 0 < id.text.length := List.length_pos_iff.mpr (id_text_ne_nil id)
  have hpos' : 0 < id'.text.length := List.length_pos_iff.mpr (id_text_ne_nil id')
  rw [hoffset, Definition.endOffset, Definition.text, hraw, ← hid, ← hid']
  simp only [List.length_append]
  omega

/-- Of two definitions found in a text the first ends before the second begins, unless the second
opens in its label text. -/
theorem IsSearch.endOffset_le_iff (h : IsSearch body found) (hd : d ∈ found) (he : e ∈ found)
    (hdb : d.IsIn body b) (hec : e.IsIn body c) (hlt : d.offset < e.offset) :
    d.endOffset b ≤ e.offset ↔ ¬ e.OpensIn c d b := by
  constructor
  · intro hle hopens
    have hover := (hopens.bounds hdb.toWellFormed hec.toWellFormed).2
    omega
  · intro hopens
    by_contra hover
    rw [Nat.not_le] at hover
    by_cases hforms : b = c
    · subst hforms
      obtain ⟨scan, hscan, hmem⟩ := h.exists_scans
      -- the scan in which a definition is found is that of its own form
      have hfound : ∀ d ∈ found, d.IsIn body b → d ∈ scan b := by
        intro d hd hdb
        obtain ⟨b', hb'⟩ := (hmem d).mp hd
        obtain ⟨rfl, -⟩ := hdb.eq_of_offset_eq ((hscan b').isIn d hb').1 rfl
        exact hb'
      have hle := (hscan b).endOffset_le (hfound d hd hdb) (hfound e he hec) hlt
      omega
    · exact hopens (opensIn_of_overlap hdb hec hforms hlt hover)

/-- Definitions found in a text share no place if and only if none opens in another one. -/
theorem IsSearch.areApart_iff (h : IsSearch body found) {chosen : List Definition}
    (hsub : ∀ d ∈ chosen, d ∈ found) :
    AreApart body chosen ↔ ∀ d ∈ chosen, ∀ e ∈ chosen, ∀ b c, d.IsIn body b → e.IsIn body c →
      ¬ e.OpensIn c d b := by
  constructor
  · intro hapart d hd e he b c hdb hec hopens
    obtain ⟨hlt, hover⟩ := hopens.bounds hdb.toWellFormed hec.toWellFormed
    have hend := hec.offset_lt_endOffset
    have hne : d ≠ e := fun heq => by
      rw [heq] at hlt
      exact Nat.lt_irrefl _ hlt
    have hboth := hapart d hd e he hne b c hdb hec
    omega
  · intro hopens d hd e he hne b c hdb hec
    rcases Nat.lt_trichotomy d.offset e.offset with hlt | heq | hgt
    · exact .inl ((h.endOffset_le_iff (hsub d hd) (hsub e he) hdb hec hlt).mpr
        (hopens d hd e he b c hdb hec))
    · exact absurd (h.ascending.eq_of_offset_eq (hsub d hd) (hsub e he) heq) hne
    · exact .inr ((h.endOffset_le_iff (hsub e he) (hsub d hd) hec hdb hgt).mpr
        (hopens e he d hd c b hec hdb))

/-! ## A single label -/

def Definition.moveBy (n : Nat) (d : Definition) : Definition :=
  { d with offset := d.offset + n }

theorem definitionsFrom_moveBy (b : Bracket) (n offset skip : Nat) (s : List Char) :
    definitionsFrom b (offset + n) skip s =
      (definitionsFrom b offset skip s).map (Definition.moveBy n) := by
  induction s generalizing offset skip with
  | nil => rfl
  | cons c s ih =>
    have hnext : offset + n + 1 = offset + 1 + n := Nat.add_right_comm offset n 1
    cases skip with
    | succ skip => rw [definitionsFrom, definitionsFrom, hnext, ih]
    | zero =>
      rw [definitionsFrom, definitionsFrom]
      cases readDefinition? b (c :: s) with
      | none => dsimp only; rw [hnext, ih]
      | some found =>
        dsimp only
        rw [hnext, ih, List.map_cons]
        rfl

theorem getLast?_text_ne (h : b ≠ .square) (d : Definition) : (d.text b).getLast? ≠ some ']' := by
  have hclosing : b.closing ≠ [] ∧ b.closing.getLast? ≠ some ']' := by
    revert h
    cases b <;> decide
  rw [Definition.text, ← List.append_assoc, ← List.append_assoc,
    List.getLast?_append_of_ne_nil _ hclosing.1]
  exact hclosing.2

/-- A square bracket that closes is not read with a definition of another form. -/
theorem readDefinition?_append_square (h : b ≠ .square) (s : List Char) :
    readDefinition? b (s ++ [']']) =
      (readDefinition? b s).map fun (id, raw, rest) => (id, raw, rest ++ [']']) := by
  apply Option.ext
  rintro ⟨id, raw, rest⟩
  rw [Option.map_eq_some_iff, readDefinition?_eq_some_iff 0]
  constructor
  · rintro ⟨hd, heq⟩
    -- a definition of the form `b` does not end with the bracket, so the rest does
    obtain ⟨rest, rfl⟩ : ∃ rest', rest = rest' ++ [']'] := by
      rcases List.eq_nil_or_concat' rest with rfl | ⟨rest', x, rfl⟩
      · have hlast := congrArg List.getLast? heq
        rw [List.append_nil, List.getLast?_concat] at hlast
        exact absurd hlast.symm (getLast?_text_ne h _)
      · rw [← List.append_assoc] at heq
        obtain ⟨-, hx⟩ := List.append_inj' heq rfl
        exact ⟨rest', by rw [hx]⟩
    rw [← List.append_assoc] at heq
    refine ⟨(id, raw, rest), ?_, rfl⟩
    exact (readDefinition?_eq_some_iff 0).mpr ⟨hd, List.append_cancel_right heq⟩
  · rintro ⟨⟨id', raw', rest'⟩, hread, heq⟩
    obtain ⟨rfl, rfl, rfl⟩ := heq
    obtain ⟨hd, rfl⟩ := (readDefinition?_eq_some_iff 0).mp hread
    exact ⟨hd, List.append_assoc _ _ _⟩

theorem definitionsFrom_append_square (h : b ≠ .square) (offset skip : Nat) (s : List Char) :
    definitionsFrom b offset skip (s ++ [']']) = definitionsFrom b offset skip s := by
  induction s generalizing offset skip with
  | nil =>
    cases skip with
    | zero => cases b <;> rfl
    | succ skip => rfl
  | cons c s ih =>
    rw [List.cons_append]
    cases skip with
    | succ skip => rw [definitionsFrom, definitionsFrom, ih]
    | zero =>
      rw [definitionsFrom, definitionsFrom, ← List.cons_append, readDefinition?_append_square h]
      cases readDefinition? b (c :: s) with
      | none => exact ih _ _
      | some found =>
        dsimp only [Option.map_some]
        rw [List.length_append, List.length_append, Nat.add_sub_add_right, ih]

theorem definitionsFrom_eq_nil (h : b.stop ∉ t) : definitionsFrom b 0 0 t = [] := by
  rw [List.eq_nil_iff_forall_not_mem]
  intro d hd
  obtain ⟨rest, hrest, -⟩ := ((isScan_definitionsFrom_zero t b).isIn d hd).1.exists_readDefinition?
  apply h
  apply List.mem_of_mem_drop (i := d.offset)
  rw [hrest, Definition.text, b.closing_eq_cons]
  simp

theorem definitionsFrom_square_label (id : Written.Id) (ht : ']' ∉ t) :
    definitionsFrom .square 0 0 (id.text ++ '[' :: (t ++ [']'])) =
      if t = [] then [] else [⟨0, id.text, t⟩] := by
  split
  · rename_i hnil
    subst hnil
    -- an empty label is no label, and no longer one begins in the id
    rw [definitionsFrom_append_of_none]
    · rfl
    · intro u hu _
      by_contra hsome
      obtain ⟨⟨id', raw, rest⟩, hread⟩ := Option.ne_none_iff_exists'.mp hsome
      obtain ⟨hd, htext⟩ := (readDefinition?_eq_some_iff 0).mp hread
      obtain ⟨written, rfl⟩ := hd.exists_id
      simp only [Definition.text, List.append_assoc] at htext
      obtain ⟨-, -, hraw⟩ := eq_of_append_opening (b := .square) (u := [']'])
        (fun x hx => isOpener_of_mem_id id x (hu.subset hx)) (isOpener_of_mem_id written) htext
      obtain ⟨c, raw, rfl⟩ := List.exists_cons_of_ne_nil hd.raw_ne_nil
      rw [List.cons_append, List.cons.injEq] at hraw
      exact hd.no_stop (List.mem_cons.mpr (.inl hraw.1))
  · rename_i hne
    have hd : (⟨0, id.text, t⟩ : Definition).WellFormed .square := ⟨⟨id, rfl⟩, hne, ht⟩
    have hsearch := definitionsFrom_text hd []
    rwa [List.append_nil] at hsearch

/-- A form of brackets other than the square one finds in a label what it finds in its text. -/
theorem definitionsFrom_label (h : b ≠ .square) (id : Written.Id) (t : List Char) :
    definitionsFrom b 0 0 (id.text ++ '[' :: (t ++ [']'])) =
      (definitionsFrom b 0 0 t).map (Definition.moveBy (id.text.length + 1)) := by
  have hopen : after? b.opening ('[' :: (t ++ [']'])) = none := after?_opening_of_ne h (t ++ [']'])
  have hbehind : continuesId ('[' :: (t ++ [']'])) = false := continuesId_opening .square _
  have hbracket : ∀ c ∈ ['['], isWord c = false := List.forall_mem_singleton.mpr (by decide)
  -- over the id, over the opening bracket, and up to the closing one
  rw [definitionsFrom_append b 0 (isOpener_of_mem_id id) hbehind hopen,
    ← List.singleton_append, definitionsFrom_append_of_not_word b _ hbracket,
    definitionsFrom_append_square h, Nat.zero_add, List.length_singleton,
    ← definitionsFrom_moveBy, Nat.zero_add]

theorem mem_definitions_label (id : Written.Id) (ht : ']' ∉ t) :
    d ∈ definitions (id.text ++ '[' :: (t ++ [']'])) ↔
      (t ≠ [] ∧ d = ⟨0, id.text, t⟩) ∨
        ∃ e ∈ definitions t, d = e.moveBy (id.text.length + 1) := by
  rw [mem_definitions]
  constructor
  · rintro ⟨b, hd⟩
    by_cases hb : b = .square
    · rw [hb, definitionsFrom_square_label id ht] at hd
      split at hd
      · contradiction
      · exact .inl ⟨‹_›, List.mem_singleton.mp hd⟩
    · rw [definitionsFrom_label hb, List.mem_map] at hd
      obtain ⟨e, he, rfl⟩ := hd
      exact .inr ⟨e, mem_definitions.mpr ⟨b, he⟩, rfl⟩
  · rintro (⟨hne, rfl⟩ | ⟨e, he, rfl⟩)
    · refine ⟨.square, ?_⟩
      rw [definitionsFrom_square_label id ht, if_neg hne]
      exact List.mem_singleton_self _
    · obtain ⟨b, he⟩ := mem_definitions.mp he
      have hb : b ≠ .square := by
        rintro rfl
        rw [definitionsFrom_eq_nil ht] at he
        contradiction
      refine ⟨b, ?_⟩
      rw [definitionsFrom_label hb]
      exact List.mem_map_of_mem he

theorem forall_firstDefinitions_id_iff {id : List Char} :
    (∀ d ∈ firstDefinitions found, d.id = id) ↔ ∀ d ∈ found, d.id = id ∨ clean d.raw = [] := by
  constructor
  · intro hfirst d hd
    by_cases hclean : clean d.raw = []
    · exact .inr hclean
    · obtain ⟨e, he, hid⟩ := exists_mem_firstDefinitions hd hclean
      exact .inl (hid ▸ hfirst e he)
  · intro hall d hd
    obtain ⟨hmem, hfirst⟩ := List.mem_filter.mp hd
    rw [decide_eq_true_iff] at hfirst
    exact (hall d hmem).resolve_right hfirst.1

end Label

theorem forall_labels_iff {content : String} {P : String → Prop} :
    (∀ stats, labelStats? content = some stats → ∀ label ∈ stats.labels, P label.1) ↔
      ∀ d ∈ Label.firstDefinitions (Label.definitions (Label.bodyOf content.toList)),
        P (String.ofList d.id) := by
  cases hstats : labelStats? content with
  | none =>
    rw [labelStats?_eq_none_iff.mp hstats]
    simp
  | some stats =>
    simp only [Option.some.injEq, forall_eq', (eq_of_labelStats? hstats).1, List.forall_mem_map,
      Label.Definition.label]

/-- The labels of a diagram come from places apart from each other if and only if none of them opens
in the text of another one.  So a diagram `n[t]` has labels of `n` only if and only if every
definition that a search of `t` finds is one of `n` or leaves no text. -/
theorem labels_apart_iff (content : String) :
    (∃ found, Label.IsSearch (Label.bodyOf content.toList) found ∧
      (∀ d ∈ found, ∃ b, d.IsIn (Label.bodyOf content.toList) b) ∧
      (∀ stats, labelStats? content = some stats →
        stats.labels = (Label.firstDefinitions found).map Label.Definition.label) ∧
      (Label.AreApart (Label.bodyOf content.toList) (Label.firstDefinitions found) ↔
        ∀ d ∈ Label.firstDefinitions found, ∀ e ∈ Label.firstDefinitions found, ∀ b c,
          d.IsIn (Label.bodyOf content.toList) b → e.IsIn (Label.bodyOf content.toList) c →
            ¬ e.OpensIn c d b)) ∧
    ∀ (id : Statement.Written.Id) (t : List Char), content.toList = id.text ++ '[' :: (t ++ [']']) →
      ']' ∉ t → (∀ c ∈ t, isLineBreak c = false) →
        ∃ inner, Label.IsSearch t inner ∧
          ((∀ stats, labelStats? content = some stats →
            ∀ label ∈ stats.labels, label.1 = String.ofList id.text) ↔
          ∀ d ∈ inner, d.id = id.text ∨ Label.clean d.raw = []) := by
  constructor
  · have hsearch := Label.isSearch_definitions (Label.bodyOf content.toList)
    exact ⟨_, hsearch, fun d => hsearch.exists_isIn,
      fun stats hstats => (eq_of_labelStats? hstats).1,
      hsearch.areApart_iff fun d hd => List.mem_of_mem_filter hd⟩
  · intro id t hcontent ht hbreaks
    refine ⟨_, Label.isSearch_definitions t, ?_⟩
    have hline : ∀ c ∈ '[' :: (t ++ [']']), isLineBreak c = false := by
      rw [List.forall_mem_cons, List.forall_mem_append, List.forall_mem_singleton]
      exact ⟨by decide, hbreaks, by decide⟩
    rw [forall_labels_iff (P := fun label => label = String.ofList id.text), hcontent,
      Label.bodyOf_id_append id hline]
    simp only [String.ofList_inj]
    rw [Label.forall_firstDefinitions_id_iff]
    -- the definition of `n` itself is one of `n`
    constructor
    · intro hall e he
      exact hall (e.moveBy _) ((Label.mem_definitions_label id ht).mpr (.inr ⟨e, he, rfl⟩))
    · intro hinner d hd
      rcases (Label.mem_definitions_label id ht).mp hd with ⟨-, rfl⟩ | ⟨e, he, rfl⟩
      · exact .inl rfl
      · exact hinner e he

/-- A pair of single parentheses in a label defines nothing, so `A[f(x)]` labels `A` alone. -/
theorem labels_apart_iff_call :
    (∃ stats, labelStats? "A[f(x)]" = some stats) ∧
      ∀ stats, labelStats? "A[f(x)]" = some stats → ∀ label ∈ stats.labels, label.1 = "A" := by
  have hfound : Label.definitions (Label.bodyOf "A[f(x)]".toList) = [⟨0, ['A'], "f(x)".toList⟩] :=
    Label.definitions_eq_of_perm (by decide) (by decide +kernel)
  have hinner : Label.definitions "f(x)".toList = [] :=
    Label.definitions_eq_of_perm (by decide) (by decide +kernel)
  obtain ⟨inner, hsearch, hlabels⟩ :=
    (labels_apart_iff "A[f(x)]").2 (.single 'A' (by decide)) "f(x)".toList (by decide) (by decide)
      (forall_mem_of_all (by decide))
  constructor
  · rw [labelStats?, hfound]
    exact ⟨⟨[("A", "f(x)")], 4, 4⟩, by decide +kernel⟩
  · apply hlabels.mpr
    rw [Label.isSearch_iff.mp hsearch, hinner]
    simp

/-- The label of `A` holds a definition of `f`, and both are labels of the diagram. -/
theorem label_inside_label :
    ∃ (id : Statement.Written.Id) (t : List Char), ']' ∉ t ∧ (∀ c ∈ t, isLineBreak c = false) ∧
      String.ofList (id.text ++ '[' :: (t ++ [']'])) = "A[f{x}]" ∧ String.ofList id.text = "A" ∧
      labelStats? "A[f{x}]" = some ⟨[("A", "f{x}"), ("f", "x")], 3, 4⟩ := by
  have hfound : Label.definitions (Label.bodyOf "A[f{x}]".toList) =
      [⟨0, ['A'], "f{x}".toList⟩, ⟨2, ['f'], ['x']⟩] :=
    Label.definitions_eq_of_perm (by decide) (by decide +kernel)
  refine ⟨.single 'A' (by decide), "f{x}".toList, by decide, forall_mem_of_all (by decide),
    by decide, by decide, ?_⟩
  rw [labelStats?, hfound]
  decide +kernel

end DiagramReadability
