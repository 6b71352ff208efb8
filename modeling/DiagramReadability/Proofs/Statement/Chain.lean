import DiagramReadability.Proofs.Statement.Link
import DiagramReadability.Proofs.Statement.Starts

/-!
# Statements are read as they are written

The reader of a chain goes from group to group: what comes after a group, a link or the end of the
statement, never looks like a part of it.  The first node is the first name that the scan for starts
finds, so the chain that is read is the whole statement.
-/

namespace DiagramReadability.Statement

open DiagramReadability.Text
open DiagramReadability.Line (Nesting isOpener isCloser)

/-! ## What ends a group -/

variable {node : Written.Node} {group : Written.Group}

theorem EndsGroup.blanks {s : List Char} (h : EndsGroup group s) (blanks : Written.Blanks) :
    EndsGroup group (blanks.val ++ s) where
  ends_node := h.ends_node.blanks blanks
  no_member := by
    rw [trimStart_append_blanks blanks.property]
    exact h.no_member

theorem endsGroup_nil : EndsGroup group [] where
  ends_node := endsNode_nil
  no_member := by decide

theorem EndsNode.endsGroup {c : Char} {s : List Char} (h : EndsNode group.last (c :: s))
    (hblank : isBlank c = false) (hamp : c ≠ '&') : EndsGroup group (c :: s) where
  ends_node := h
  no_member := by
    have hstart : startsBlank (c :: s) = false := hblank
    rw [trimStart_of_not_blank hstart, List.head?_cons, Ne, Option.some.injEq]
    exact hamp

/-- An arrow that opens with a hyphen goes on with no word character, so it is no part of an id. -/
theorem endsGroup_hyphen {c : Char} (h : isWord c = false) (s : List Char) :
    EndsGroup group ('-' :: c :: s) := by
  have hends : EndsNode group.last ('-' :: c :: s) := by
    refine ⟨?_, skipShape_of_ne (by decide) (by decide) _, fun _ => skipClass_of_ne (by decide) _⟩
    have hhyphen : isWord '-' = false := by decide
    rw [continuesId, List.head?_cons, Option.any_some, h, hhyphen]
    rfl
  exact hends.endsGroup (by decide) (by decide)

theorem endsGroup_spelling (spelling : Written.Spelling) (s : List Char) :
    EndsGroup group (spelling.text ++ s) := by
  cases spelling with
  | solid extra => exact endsGroup_hyphen (by decide : isWord '-' = false) _
  | dotted => exact endsGroup_hyphen (by decide : isWord '.' = false) _
  | thick extra => exact (endsNode_of_separates (by decide) _).endsGroup (by decide) (by decide)
  | solidBoth => exact (endsNode_of_separates (by decide) _).endsGroup (by decide) (by decide)
  | dottedBoth => exact (endsNode_of_separates (by decide) _).endsGroup (by decide) (by decide)
  | thickBoth => exact (endsNode_of_separates (by decide) _).endsGroup (by decide) (by decide)

theorem endsGroup_link (link : Written.Link) (s : List Char) :
    EndsGroup group (link.text ++ s) := by
  cases link with
  | plain spelling => exact endsGroup_spelling spelling s
  | piped spelling gap label =>
      rw [Written.Link.text, List.append_assoc]
      exact endsGroup_spelling spelling _
  | inline opening before label after closing =>
      rw [Written.Link.text, List.append_assoc]
      cases opening with
      | solid => exact endsGroup_hyphen (by decide : isWord '-' = false) _
      | thick => exact (endsNode_of_separates (by decide) _).endsGroup (by decide) (by decide)
      | dotted => exact endsGroup_hyphen (by decide : isWord '.' = false) _

theorem startsBlank_spelling (spelling : Written.Spelling) (s : List Char) :
    startsBlank (spelling.text ++ s) = false := by
  have hhyphen : isBlank '-' = false := by decide
  have hequals : isBlank '=' = false := by decide
  have hless : isBlank '<' = false := by decide
  cases spelling with
  | solid extra => exact hhyphen
  | dotted => exact hhyphen
  | thick extra => exact hequals
  | solidBoth => exact hless
  | dottedBoth => exact hless
  | thickBoth => exact hless

theorem startsBlank_link (link : Written.Link) (s : List Char) :
    startsBlank (link.text ++ s) = false := by
  have hhyphen : isBlank '-' = false := by decide
  have hequals : isBlank '=' = false := by decide
  cases link with
  | plain spelling => exact startsBlank_spelling spelling s
  | piped spelling gap label =>
      rw [Written.Link.text, List.append_assoc]
      exact startsBlank_spelling spelling _
  | inline opening before label after closing =>
      rw [Written.Link.text, List.append_assoc]
      cases opening with
      | solid => exact hhyphen
      | thick => exact hequals
      | dotted => exact hhyphen

/-- A colon ends a node unless it opens a class shorthand and the node has none yet. -/
theorem endsNode_colon {label : List Char}
    (h : node.cls = none → ∀ c rest, label = ':' :: ':' :: c :: rest → isWord c = false) :
    EndsNode node (':' :: label) := by
  refine ⟨continuesId_of_ne (by decide) (by decide) _, skipShape_of_ne (by decide) (by decide) _,
    fun hcls => ?_⟩
  have hnone : (after? [':', ':', ':'] (':' :: label)).bind readId? = none := by
    rw [Option.bind_eq_none_iff]
    intro t ht
    have heq : ':' :: label = [':', ':', ':'] ++ t := eq_append_of_after? ht
    cases t with
    | nil => rfl
    | cons c rest =>
        have hc := h hcls c rest (List.cons.inj heq).2
        rw [readId?, List.head?_cons, Option.any_some, hc]
        rfl
  rw [skipClass, hnone]

theorem endsGroup_ending {ending : Written.Ending} (h : ending.IsApart group.last) :
    EndsGroup group ending.text := by
  cases ending with
  | blank blanks =>
      have h : EndsGroup group (blanks.val ++ []) := endsGroup_nil.blanks blanks
      rwa [List.append_nil] at h
  | colon blanks label =>
      have hstart : startsBlank (':' :: label) = false := (by decide : isBlank ':' = false)
      refine ⟨?_, ?_⟩
      · rw [Written.Ending.text]
        cases heq : blanks.val with
        | nil => exact endsNode_colon (h heq)
        | cons c rest =>
            have hblank : isBlank c = true :=
              blanks.property c (by rw [heq]; exact List.mem_cons_self)
            exact endsNode_of_separates (separates_of_isBlank hblank) _
      · rw [Written.Ending.text, trimStart_append_blanks blanks.property,
          trimStart_of_not_blank hstart, List.head?_cons]
        decide

/-- A group before a hop is ended by its link, and the last one by what comes after the hops. -/
theorem endsGroup_hops {hops : List Written.Hop} {rest : List Char}
    (h : EndsGroup (Written.lastGroup group hops) rest) :
    EndsGroup group (hops.flatMap Written.Hop.text ++ rest) := by
  cases hops with
  | nil => exact h
  | cons hop hops =>
      rw [List.flatMap_cons, Written.Hop.text, List.append_assoc, List.append_assoc,
        List.append_assoc]
      exact (endsGroup_link hop.link _).blanks hop.before

/-! ## Chains -/

/-- One arrow with its label and the group after it, or where the reader stops short of it. -/
theorem readLinks_eq (sources : List Node) (s : List Char) :
    readLinks sources s =
      match readArrow? (trimStart s) with
      | none => ([], trimStart s)
      | some (arrow, own, afterArrow) =>
          match readLabel? own (trimStart afterArrow) with
          | none => ([], trimStart afterArrow)
          | some (label, afterLabel) =>
              match readGroup? afterLabel with
              | none => ([], afterLabel)
              | some (targets, afterGroup) =>
                  (linksBetween sources targets label arrow ++ (readLinks targets afterGroup).1,
                    (readLinks targets afterGroup).2) := by
  rw [readLinks]
  split
  · rename_i harrow
    simp only [harrow]
  · rename_i arrow own afterArrow harrow
    simp only [harrow]
    split
    · rename_i hlabel
      simp only [hlabel]
    · rename_i label afterLabel hlabel
      simp only [hlabel]
      split
      · rename_i hgroup
        simp only [hgroup]
      · rename_i targets afterGroup hgroup
        simp only [hgroup]

theorem readLinks_step {sources targets : List Node} {s t u v : List Char} {arrow : Arrow}
    {own label : Option (List Char)} (harrow : readArrow? (trimStart s) = some (arrow, own, t))
    (hlabel : readLabel? own (trimStart t) = some (label, u))
    (hgroup : readGroup? u = some (targets, v)) :
    readLinks sources s =
      (linksBetween sources targets label arrow ++ (readLinks targets v).1,
        (readLinks targets v).2) := by
  rw [readLinks_eq, harrow]
  dsimp only
  rw [hlabel]
  dsimp only
  rw [hgroup]

theorem readLinks_stop {sources : List Node} {s : List Char}
    (h : readArrow? (trimStart s) = none) : readLinks sources s = ([], trimStart s) := by
  rw [readLinks_eq, h]

theorem trimStart_ending (ending : Written.Ending) :
    readArrow? (trimStart ending.text) = none ∧
      colonLabel? (trimStart ending.text) = ending.label := by
  cases ending with
  | blank blanks =>
      have hnil : trimStart blanks.val = [] := List.dropWhile_eq_nil_iff.mpr blanks.property
      rw [Written.Ending.text, hnil]
      exact ⟨rfl, rfl⟩
  | colon blanks label =>
      have hcolon : isBlank ':' = false := by decide
      have hstart : trimStart (':' :: label) = ':' :: label := trimStart_of_not_blank hcolon
      rw [Written.Ending.text, trimStart_append_blanks blanks.property, hstart]
      refine ⟨rfl, ?_⟩
      rw [colonLabel?, trim, hstart, trimEnd_cons_of_not_blank hcolon]
      show nonempty? (trim (trimEnd label)) = nonempty? (trim label)
      rw [trim_trimEnd]

/-- The links that the hops after a group stand for. -/
def linksAlong : Written.Group → List Written.Hop → List Link
  | _, [] => []
  | sources, hop :: hops =>
      linksBetween (sources.nodes.map Written.Node.read) (hop.group.nodes.map Written.Node.read)
        hop.link.label hop.link.arrow ++ linksAlong hop.group hops

/-- Nothing in front of the text can be read as a part of the chain before it, whose last group is
given. -/
structure EndsChain (group : Written.Group) (s : List Char) : Prop where
  ends_group : EndsGroup group s
  no_arrow : readArrow? (trimStart s) = none

theorem endsChain_nil : EndsChain group [] where
  ends_group := endsGroup_nil
  no_arrow := rfl

theorem endsChain_ending {ending : Written.Ending} (h : ending.IsApart group.last) :
    EndsChain group ending.text where
  ends_group := endsGroup_ending h
  no_arrow := (trimStart_ending ending).1

theorem lastGroup_cons (sources : Written.Group) (hop : Written.Hop) (hops : List Written.Hop) :
    Written.lastGroup sources (hop :: hops) = Written.lastGroup hop.group hops := by
  rw [Written.lastGroup, List.map_cons, List.getLastD_cons, Written.lastGroup]

/-- The hops of a statement are read back one by one, up to what ends the chain. -/
theorem readLinks_text (sources : Written.Group) (hops : List Written.Hop) {rest : List Char}
    (h : EndsChain (Written.lastGroup sources hops) rest) :
    readLinks (sources.nodes.map Written.Node.read) (hops.flatMap Written.Hop.text ++ rest) =
      (linksAlong sources hops, trimStart rest) := by
  induction hops generalizing sources with
  | nil => exact readLinks_stop h.no_arrow
  | cons hop hops ih =>
      have htext : (hop :: hops).flatMap Written.Hop.text ++ rest = hop.before.val ++
          (hop.link.text ++ (hop.after.val ++ (hop.group.text ++
            (hops.flatMap Written.Hop.text ++ rest)))) := by
        simp [Written.Hop.text]
      have hstart : trimStart ((hop :: hops).flatMap Written.Hop.text ++ rest) =
          hop.link.text ++ (hop.after.val ++ (hop.group.text ++
            (hops.flatMap Written.Hop.text ++ rest))) := by
        rw [htext, trimStart_append_blanks hop.before.property,
          trimStart_of_not_blank (startsBlank_link hop.link _)]
      rcases exists_readArrow?_text hop.link hop.after (startsBlank_group hop.group _)
        (head?_group_ne_pipe hop.group _) with ⟨own, afterArrow, harrow, hlabel⟩
      rw [← hstart] at harrow
      rw [lastGroup_cons] at h
      rw [readLinks_step harrow hlabel (readGroup?_text (endsGroup_hops h.ends_group)), ih _ h]
      rfl

theorem readChain_text (sources : Written.Group) (hops : List Written.Hop) {rest : List Char}
    (h : EndsChain (Written.lastGroup sources hops) rest) :
    readChain (sources.text ++ (hops.flatMap Written.Hop.text ++ rest)) =
      (linksAlong sources hops, trimStart rest) := by
  rw [readChain, readGroup?_text (endsGroup_hops h.ends_group)]
  exact readLinks_text sources hops h

theorem linksAlong_ne_nil (sources : Written.Group) (hop : Written.Hop)
    (hops : List Written.Hop) : linksAlong sources (hop :: hops) ≠ [] := by
  intro h
  rw [linksAlong, List.append_eq_nil_iff] at h
  exact absurd h.1 (List.cons_ne_nil _ _)

theorem sourceId_read (node : Written.Node) : node.read.sourceId = node.sourceId := by
  rcases node with ⟨_ | _, _⟩
  · rfl
  · rfl

theorem targetId_read (node : Written.Node) : node.read.targetId = node.targetId := by
  rcases node with ⟨_ | _, _⟩
  · rfl
  · rfl

/-- The links of a statement have the edges that the statement stands for. -/
theorem edges_linksAlong (colon : Option (List Char)) (sources : Written.Group)
    (hops : List Written.Hop) :
    (linksAlong sources hops).flatMap (Link.edges colon) =
      Written.edgesAlong colon sources hops := by
  induction hops generalizing sources with
  | nil => rfl
  | cons hop hops ih =>
      rw [linksAlong, Written.edgesAlong, List.flatMap_append, ih, linksBetween,
        List.flatMap_assoc, List.flatMap_map]
      congr 1
      apply List.flatMap_congr
      intro s _
      rw [List.map_map, List.flatMap_map]
      apply List.flatMap_congr
      intro t _
      show Link.edges colon ⟨s.read, t.read, hop.link.label, hop.link.arrow⟩ =
        hop.link.edges colon s t
      rw [Link.edges, Written.Link.edges, sourceId_read, targetId_read]

/-! ## Statements -/

/-- A text that opens with a chain has the edges of that chain, with the label that a colon behind
it gives. -/
theorem edgesOf_append (lead : Written.Blanks) (sources : Written.Group) (hop : Written.Hop)
    (hops : List Written.Hop) {rest : List Char}
    (h : EndsChain (Written.lastGroup hop.group hops) rest) :
    edgesOf (lead.val ++ (sources.text ++ ((hop :: hops).flatMap Written.Hop.text ++ rest))) =
      Written.edgesAlong (colonLabel? (trimStart rest)) sources (hop :: hops) := by
  rw [← lastGroup_cons sources] at h
  have hchain := readChain_text sources (hop :: hops) h
  have hne := linksAlong_ne_nil sources hop hops
  rcases exists_nodeStarts_eq lead sources ((hop :: hops).flatMap Written.Hop.text ++ rest)
    with ⟨later, hstarts⟩
  -- the whole text is the first start, and its chain has a link
  have hfirst : firstChain? (lead.val ++ (sources.text ++
      ((hop :: hops).flatMap Written.Hop.text ++ rest))) =
        some (linksAlong sources (hop :: hops), trimStart rest) := by
    rw [firstChain?, hstarts, List.findSome?_cons, hchain]
    simp [hne]
  rw [edgesOf, hfirst]
  exact edges_linksAlong (colonLabel? (trimStart rest)) sources (hop :: hops)

theorem edgesOf_text (chain : Written.Chain) : edgesOf chain.text = chain.edges := by
  rw [Written.Chain.text, edgesOf_append chain.lead chain.sources chain.hop chain.hops
    (endsChain_ending chain.apart), (trimStart_ending chain.ending).2]
  rfl

/-- Every statement of the grammar is read back: the reader returns exactly the edges that the
statement stands for, in the order of its links. -/
theorem statementEdges_written (chain : Written.Chain) :
    statementEdges (String.ofList chain.text) = chain.edges := by
  rw [statementEdges, String.toList_ofList, edgesOf_text]

example : statementEdges "a-b[\"x --> y]\"] -- no --> [*] & B:::c : late" =
    [⟨"a-b", "__END__", some "no", .solid⟩, ⟨"a-b", "B", some "no", .solid⟩] := by
  decide +kernel

end DiagramReadability.Statement
