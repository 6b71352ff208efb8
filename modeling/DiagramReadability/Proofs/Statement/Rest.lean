import DiagramReadability.Proofs.Statement.Chain

/-!
# What a reader leaves

A reader takes something off the front of a text, so what it leaves is a suffix of that text.  Every
arrow is read up to an angle bracket.  A text without one therefore has no chain and no edge.
-/

namespace DiagramReadability.Statement

open DiagramReadability.Text
open DiagramReadability.Line (isOpener isCloser)

/-! ## Nodes and groups -/

theorem suffix_of_after? {lead s rest : List Char} (h : after? lead s = some rest) : rest <:+ s :=
  ⟨lead, (eq_append_of_after? h).symm⟩

theorem append_splitId (s : List Char) : (splitId s).1 ++ (splitId s).2 = s := by
  induction s with
  | nil => rfl
  | cons c s ih =>
      rw [splitId]
      split
      · exact congrArg (c :: ·) ih
      · rfl

theorem eq_append_of_readId? {s id rest : List Char} (h : readId? s = some (id, rest)) :
    s = id ++ rest := by
  rw [readId?] at h
  split at h
  · have hsplit : splitId s = (id, rest) := Option.some.inj h
    have happend := append_splitId s
    rw [hsplit] at happend
    exact happend.symm
  · contradiction

theorem suffix_of_readId? {s id rest : List Char} (h : readId? s = some (id, rest)) :
    rest <:+ s :=
  ⟨id, (eq_append_of_readId? h).symm⟩

theorem skipBrackets_suffix (depth : Nat) (quoted : Bool) (s : List Char) :
    skipBrackets depth quoted s <:+ s := by
  fun_induction skipBrackets depth quoted s with
  | case1 => exact List.suffix_rfl
  | case5 => exact List.suffix_cons _ _
  | _ => exact List.IsSuffix.trans ‹_› (List.suffix_cons _ _)

theorem skipShape_suffix (s : List Char) : skipShape s <:+ s := by
  cases s with
  | nil => exact List.suffix_rfl
  | cons c rest =>
      rw [skipShape]
      split
      · have hdrop : (rest.dropWhile (· ≠ ']')).drop 1 <:+ rest :=
          (List.drop_suffix 1 _).trans (List.dropWhile_suffix _)
        exact hdrop.trans (List.suffix_cons c rest)
      · split
        · exact (skipBrackets_suffix 1 false rest).trans (List.suffix_cons c rest)
        · exact List.suffix_rfl

theorem skipClass_suffix (s : List Char) : skipClass s <:+ s := by
  unfold skipClass
  split
  · rename_i id rest h
    obtain ⟨t, ht, hid⟩ := Option.bind_eq_some_iff.mp h
    exact (suffix_of_readId? hid).trans (suffix_of_after? ht)
  · exact List.suffix_rfl

theorem suffix_of_readNode? {s rest : List Char} {node : Node}
    (h : readNode? s = some (node, rest)) : rest <:+ s := by
  unfold readNode? at h
  split at h
  · rename_i t ht
    obtain ⟨-, rfl⟩ := Prod.mk.inj (Option.some.inj h)
    exact (skipClass_suffix t).trans (suffix_of_after? ht)
  · obtain ⟨⟨id, t⟩, ht, hr⟩ := Option.map_eq_some_iff.mp h
    obtain ⟨-, rfl⟩ := Prod.mk.inj hr
    exact ((skipClass_suffix _).trans (skipShape_suffix t)).trans (suffix_of_readId? ht)

theorem readMembers_suffix (s : List Char) : (readMembers s).2 <:+ s := by
  fun_induction readMembers s with
  | case1 s rest node after hnode nodes last hrec =>
      rename_i hamp _ ih
      rw [hrec] at ih
      have hrest : rest <:+ s := by
        have hstart := trimStart_suffix s
        rw [hamp] at hstart
        exact (List.suffix_cons _ rest).trans hstart
      exact ((ih.trans (suffix_of_readNode? hnode)).trans (trimStart_suffix rest)).trans hrest
  | case2 => exact List.suffix_rfl
  | case3 => exact List.suffix_rfl
  | case4 => exact List.suffix_rfl

theorem suffix_of_readGroup? {s rest : List Char} {group : List Node}
    (h : readGroup? s = some (group, rest)) : rest <:+ s := by
  obtain ⟨⟨node, t⟩, ht, hr⟩ := Option.map_eq_some_iff.mp h
  obtain ⟨-, rfl⟩ := Prod.mk.inj hr
  exact (readMembers_suffix t).trans (suffix_of_readNode? ht)

/-! ## Arrows -/

theorem suffix_of_afterShaft? {c : Char} {s rest : List Char} (h : afterShaft? c s = some rest) :
    '>' :: rest <:+ s := by
  rw [afterShaft?] at h
  split at h
  · have heq : s.dropWhile (· = c) = '>' :: rest := eq_append_of_after? h
    rw [← heq]
    exact List.dropWhile_suffix _
  · contradiction

theorem suffix_of_afterCloseHalf? {s rest : List Char} (h : afterCloseHalf? s = some rest) :
    '>' :: rest <:+ s := by
  obtain ⟨lead, rfl, -⟩ := exists_eq_of_afterCloseHalf? h
  exact List.suffix_append lead _

theorem suffix_of_readPlainArrow? {s rest : List Char} {arrow : Arrow}
    (h : readPlainArrow? s = some (arrow, rest)) : '>' :: rest <:+ s := by
  rw [readPlainArrow?, Option.or_eq_some_iff, Option.or_eq_some_iff] at h
  rcases h with h | ⟨-, h | ⟨-, h⟩⟩
  · obtain ⟨⟨spelling, kind⟩, hmem, h⟩ := List.exists_of_findSome?_eq_some h
    obtain ⟨t, ht, hr⟩ := Option.map_eq_some_iff.mp h
    obtain ⟨-, rfl⟩ := Prod.mk.inj hr
    have hspelling : ∀ entry ∈ fixedArrows, ['>'] <:+ entry.1 := by decide
    obtain ⟨lead, rfl⟩ : ['>'] <:+ spelling := hspelling _ hmem
    have heq : s = lead ++ '>' :: t := by
      rw [eq_append_of_after? ht, List.append_assoc, List.singleton_append]
    rw [heq]
    exact List.suffix_append lead _
  · obtain ⟨t, ht, hr⟩ := Option.map_eq_some_iff.mp h
    obtain ⟨-, rfl⟩ := Prod.mk.inj hr
    exact suffix_of_afterShaft? ht
  · obtain ⟨t, ht, hr⟩ := Option.map_eq_some_iff.mp h
    obtain ⟨-, rfl⟩ := Prod.mk.inj hr
    exact suffix_of_afterShaft? ht

theorem suffix_of_readInlineText? {s text rest : List Char}
    (h : readInlineText? s = some (text, rest)) : '>' :: rest <:+ s := by
  induction s generalizing text rest with
  | nil => contradiction
  | cons c s ih =>
      rw [readInlineText?] at h
      split at h
      · contradiction
      · apply List.IsSuffix.trans _ (List.suffix_cons c s)
        split at h
        · rename_i after hafter
          obtain ⟨-, rfl⟩ := Prod.mk.inj (Option.some.inj h)
          split at hafter
          · exact (suffix_of_afterCloseHalf? hafter).trans (trimStart_suffix s)
          · contradiction
        · obtain ⟨⟨t, r⟩, ht, hr⟩ := Option.map_eq_some_iff.mp h
          obtain ⟨-, rfl⟩ := Prod.mk.inj hr
          exact ih ht

theorem suffix_of_readInlineTail? {s rest : List Char} {label : Option (List Char)}
    (h : readInlineTail? s = some (label, rest)) : '>' :: rest <:+ s := by
  unfold readInlineTail? at h
  split at h
  · apply List.IsSuffix.trans _ (trimStart_suffix s)
    split at h
    · rename_i text after hafter
      obtain ⟨-, rfl⟩ := Prod.mk.inj (Option.some.inj h)
      exact suffix_of_readInlineText? hafter
    · split at h
      · obtain ⟨t, ht, hr⟩ := Option.map_eq_some_iff.mp h
        obtain ⟨-, rfl⟩ := Prod.mk.inj hr
        exact suffix_of_afterCloseHalf? ht
      · contradiction
  · contradiction

theorem suffix_of_readArrow? {s rest : List Char} {arrow : Arrow} {label : Option (List Char)}
    (h : readArrow? s = some (arrow, label, rest)) : '>' :: rest <:+ s := by
  unfold readArrow? at h
  split at h
  · rename_i kind t ht
    obtain ⟨-, -, rfl⟩ : kind = arrow ∧ none = label ∧ t = rest := by simpa using h
    exact suffix_of_readPlainArrow? ht
  · obtain ⟨⟨half, kind⟩, -, h⟩ := List.exists_of_findSome?_eq_some h
    obtain ⟨⟨l, t⟩, ht, hr⟩ := Option.map_eq_some_iff.mp h
    obtain ⟨-, -, rfl⟩ : kind = arrow ∧ l = label ∧ t = rest := by simpa using hr
    obtain ⟨u, hu, ht⟩ := Option.bind_eq_some_iff.mp ht
    exact (suffix_of_readInlineTail? ht).trans (suffix_of_after? hu)

/-! ## Links and chains -/

/-- Either there is no pipe and the label is the arrow's own, or the label is what stands before the
next pipe. -/
theorem eq_of_readLabel? {own label : Option (List Char)} {s rest : List Char}
    (h : readLabel? own s = some (label, rest)) :
    (label = own ∧ rest = s) ∨ ∃ (inner : Written.PipeText) (after : List Char),
      s = '|' :: (inner.val ++ '|' :: after) ∧ label = nonempty? (trim inner.val) ∧
        rest = trimStart after := by
  by_cases hpipe : s.head? = some '|'
  · right
    obtain ⟨t, rfl⟩ := List.head?_eq_some_iff.mp hpipe
    by_cases hclosed : '|' ∈ t
    · obtain ⟨inner, after, rfl, hinner⟩ := List.eq_append_cons_of_mem hclosed
      rw [readLabel?_pipes own ⟨inner, hinner⟩ after] at h
      obtain ⟨rfl, rfl⟩ := Prod.mk.inj (Option.some.inj h)
      exact ⟨⟨inner, hinner⟩, after, rfl, rfl, rfl⟩
    · have hdrop : t.dropWhile (· ≠ '|') = [] := by
        rw [List.dropWhile_eq_nil_iff]
        intro c hc
        rw [decide_eq_true_iff]
        rintro rfl
        exact hclosed hc
      rw [readLabel?, readPipeLabel, if_pos rfl, hdrop] at h
      contradiction
  · left
    rw [readLabel?_of_not_pipe hpipe] at h
    obtain ⟨rfl, rfl⟩ := Prod.mk.inj (Option.some.inj h)
    exact ⟨rfl, rfl⟩

theorem suffix_of_readLabel? {own label : Option (List Char)} {s rest : List Char}
    (h : readLabel? own s = some (label, rest)) : rest <:+ s := by
  obtain ⟨-, rfl⟩ | ⟨inner, after, rfl, -, rfl⟩ := eq_of_readLabel? h
  · exact List.suffix_rfl
  · have hafter : after <:+ '|' :: (inner.val ++ '|' :: after) :=
      ⟨'|' :: (inner.val ++ ['|']), by simp⟩
    exact (trimStart_suffix after).trans hafter

theorem suffix_of_arrow {s rest : List Char} {arrow : Arrow} {own : Option (List Char)}
    (h : readArrow? (trimStart s) = some (arrow, own, rest)) : trimStart rest <:+ s := by
  have hrest : rest <:+ trimStart s := (List.suffix_cons '>' rest).trans (suffix_of_readArrow? h)
  exact (trimStart_suffix rest).trans (hrest.trans (trimStart_suffix s))

theorem readLinks_suffix (sources : List Node) (s : List Char) : (readLinks sources s).2 <:+ s := by
  fun_induction readLinks sources s with
  | case1 sources s => exact trimStart_suffix s
  | case2 sources s arrow own afterArrow harrow => exact suffix_of_arrow harrow
  | case3 sources s arrow own afterArrow harrow label afterLabel hlabel =>
      exact (suffix_of_readLabel? hlabel).trans (suffix_of_arrow harrow)
  | case4 sources s arrow own afterArrow harrow label afterLabel hlabel targets afterGroup hgroup
      _ links rest hrec ih =>
      rw [hrec] at ih
      exact ((ih.trans (suffix_of_readGroup? hgroup)).trans (suffix_of_readLabel? hlabel)).trans
        (suffix_of_arrow harrow)

theorem readChain_suffix (s : List Char) : (readChain s).2 <:+ s := by
  unfold readChain
  split
  · rename_i sources rest hgroup
    exact (readLinks_suffix sources rest).trans (suffix_of_readGroup? hgroup)
  · exact List.suffix_rfl

/-! ## Texts without an angle bracket -/

theorem readArrow?_of_no_angle {s : List Char} (h : '>' ∉ s) : readArrow? s = none := by
  by_contra hne
  obtain ⟨⟨arrow, label, rest⟩, harrow⟩ := Option.ne_none_iff_exists'.mp hne
  exact h ((suffix_of_readArrow? harrow).subset List.mem_cons_self)

theorem readChain_of_no_angle {s : List Char} (h : '>' ∉ s) : (readChain s).1 = [] := by
  unfold readChain
  split
  · rename_i sources rest hgroup
    -- what is left after the first group has no angle bracket either
    have hrest : trimStart rest <:+ s := (trimStart_suffix rest).trans (suffix_of_readGroup? hgroup)
    rw [readLinks_stop (readArrow?_of_no_angle fun hmem => h (hrest.subset hmem))]
  · rfl

end DiagramReadability.Statement
