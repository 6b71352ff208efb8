import DiagramReadability.Proofs.Statement.Rest

/-!
# Where nodes and labels come from

Whatever the text, well formed or not, the readers invent nothing: an id and a label are parts of
the text, and a marker is one in it.  Every link that is read draws its edges on its own, a link
that points both ways two opposite ones next to each other.
-/

namespace DiagramReadability.Statement

open DiagramReadability.Text

/-! ## Nodes -/

/-- What is split off a text are word characters, and then words behind hyphens. -/
theorem exists_splitId_eq (s : List Char) :
    ∃ (word : List Char) (more : List Written.Word),
      (splitId s).1 = word ++ more.flatMap (fun word => '-' :: word.val) ∧
        (∀ c ∈ word, isWord c = true) ∧ ((s.head?).any isWord = true → word ≠ []) := by
  induction s with
  | nil => exact ⟨[], [], rfl, by simp, by simp⟩
  | cons c s ih =>
      obtain ⟨word, more, heq, hword, hne⟩ := ih
      rw [splitId, List.head?_cons, Option.any_some]
      cases hc : isWord c with
      | true =>
          have hgo : continuesId (c :: s) = true := by rw [continuesId, hc, Bool.true_or]
          refine ⟨c :: word, more, ?_, List.forall_mem_cons.mpr ⟨hc, hword⟩, by simp⟩
          rw [if_pos hgo, heq]
          rfl
      | false =>
          rw [continuesId, hc, Bool.false_or]
          split
          · rename_i hhyphen
            rw [Bool.and_eq_true, decide_eq_true_iff] at hhyphen
            obtain ⟨rfl, hhead⟩ := hhyphen
            -- the word behind the hyphen is the first one of the rest
            refine ⟨[], ⟨word, hne hhead, hword⟩ :: more, ?_, by simp, by simp⟩
            rw [heq]
            rfl
          · exact ⟨[], [], rfl, by simp, by simp⟩

theorem exists_id_of_readId? {s id rest : List Char} (h : readId? s = some (id, rest)) :
    (∃ written : Written.Id, written.text = id) ∧ id <+: s := by
  rw [readId?] at h
  split at h
  · rename_i hhead
    obtain ⟨word, more, heq, hword, hne⟩ := exists_splitId_eq s
    have hsplit : splitId s = (id, rest) := Option.some.inj h
    have happend := append_splitId s
    rw [hsplit] at heq happend
    exact ⟨⟨⟨⟨word, hne hhead, hword⟩, more⟩, heq.symm⟩, ⟨rest, happend⟩⟩
  · contradiction

/-- The node stands in the text, and if it is named, then by an id. -/
def Node.IsIn (s : List Char) : Node → Prop
  | .marker => markerText <:+: s
  | .named id => id <:+: s ∧ ∃ written : Written.Id, written.text = id

theorem Node.IsIn.mono {s t : List Char} {node : Node} (h : node.IsIn s) (hst : s <:+: t) :
    node.IsIn t := by
  cases node with
  | marker => exact List.IsInfix.trans h hst
  | named id => exact ⟨h.1.trans hst, h.2⟩

theorem isIn_of_readNode? {s rest : List Char} {node : Node}
    (h : readNode? s = some (node, rest)) : node.IsIn s := by
  unfold readNode? at h
  split at h
  · rename_i t ht
    obtain ⟨rfl, -⟩ := Prod.mk.inj (Option.some.inj h)
    have hmarker : markerText <+: s := ⟨t, (eq_append_of_after? ht).symm⟩
    exact hmarker.isInfix
  · obtain ⟨⟨id, t⟩, ht, hr⟩ := Option.map_eq_some_iff.mp h
    obtain ⟨rfl, -⟩ := Prod.mk.inj hr
    obtain ⟨hid, hfront⟩ := exists_id_of_readId? ht
    exact ⟨hfront.isInfix, hid⟩

theorem isIn_of_mem_readMembers {s : List Char} :
    ∀ node ∈ (readMembers s).1, node.IsIn s := by
  fun_induction readMembers s with
  | case1 s rest node after hnode nodes last hrec =>
      rename_i hamp _ ih
      rw [hrec] at ih
      have hrest : trimStart rest <:+ s := by
        have hstart := trimStart_suffix s
        rw [hamp] at hstart
        exact (trimStart_suffix rest).trans ((List.suffix_cons _ rest).trans hstart)
      rw [List.forall_mem_cons]
      refine ⟨(isIn_of_readNode? hnode).mono hrest.isInfix, fun member hmember => ?_⟩
      exact (ih member hmember).mono ((suffix_of_readNode? hnode).trans hrest).isInfix
  | case2 => simp
  | case3 => simp
  | case4 => simp

theorem isIn_of_readGroup? {s rest : List Char} {group : List Node}
    (h : readGroup? s = some (group, rest)) : ∀ node ∈ group, node.IsIn s := by
  obtain ⟨⟨node, t⟩, ht, hr⟩ := Option.map_eq_some_iff.mp h
  obtain ⟨rfl, -⟩ := Prod.mk.inj hr
  rw [List.forall_mem_cons]
  exact ⟨isIn_of_readNode? ht, fun member hmember =>
    (isIn_of_mem_readMembers member hmember).mono (suffix_of_readNode? ht).isInfix⟩

/-! ## Labels -/

/-- The label is a part of the text without the blanks around it. -/
structure IsLabelIn (s label : List Char) : Prop where
  ne_nil : label ≠ []
  trimmed : trim label = label
  inside : label <:+: s

theorem IsLabelIn.mono {s t label : List Char} (h : IsLabelIn s label) (hst : s <:+: t) :
    IsLabelIn t label :=
  ⟨h.ne_nil, h.trimmed, h.inside.trans hst⟩

theorem isLabelIn_of_trim {s t label : List Char} (ht : t <:+: s)
    (h : nonempty? (trim t) = some label) : IsLabelIn s label := by
  obtain ⟨rfl, hne⟩ := eq_of_nonempty? h
  exact ⟨hne, trim_trim t, (trim_isInfix t).trans ht⟩

/-- A part of the text without a pipe gives the label. -/
def IsLabelText (s label : List Char) : Prop :=
  ∃ text, text <:+: s ∧ '|' ∉ text ∧ nonempty? (trim text) = some label

theorem IsLabelText.mono {s t label : List Char} (h : IsLabelText s label) (hst : s <:+: t) :
    IsLabelText t label := by
  obtain ⟨text, hinside, hpipe, hlabel⟩ := h
  exact ⟨text, hinside.trans hst, hpipe, hlabel⟩

theorem IsLabelText.isLabelIn {s label : List Char} (h : IsLabelText s label) :
    IsLabelIn s label := by
  obtain ⟨text, hinside, -, hlabel⟩ := h
  exact isLabelIn_of_trim hinside hlabel

theorem IsLabelText.no_pipe {s label : List Char} (h : IsLabelText s label) : '|' ∉ label := by
  obtain ⟨text, -, hpipe, hlabel⟩ := h
  obtain ⟨rfl, -⟩ := eq_of_nonempty? hlabel
  exact fun hmem => hpipe (trim_subset text hmem)

theorem prefix_of_readInlineText? {s text rest : List Char}
    (h : readInlineText? s = some (text, rest)) : text <+: s ∧ '|' ∉ text := by
  induction s generalizing text rest with
  | nil => contradiction
  | cons c s ih =>
      rw [readInlineText?] at h
      split at h
      · contradiction
      · rename_i hc
        rw [Bool.or_eq_true, decide_eq_true_iff, decide_eq_true_iff, not_or] at hc
        have hpipe : '|' ≠ c := Ne.symm hc.1
        split at h
        · obtain ⟨rfl, -⟩ := Prod.mk.inj (Option.some.inj h)
          exact ⟨⟨s, rfl⟩, List.not_mem_cons_of_ne_of_not_mem hpipe List.not_mem_nil⟩
        · obtain ⟨⟨t, r⟩, ht, hr⟩ := Option.map_eq_some_iff.mp h
          obtain ⟨rfl, -⟩ := Prod.mk.inj hr
          obtain ⟨hfront, htext⟩ := ih ht
          exact ⟨(List.prefix_cons_inj c).mpr hfront,
            List.not_mem_cons_of_ne_of_not_mem hpipe htext⟩

theorem isLabelText_of_readArrow? {s rest label : List Char} {arrow : Arrow}
    (h : readArrow? s = some (arrow, some label, rest)) : IsLabelText s label := by
  unfold readArrow? at h
  split at h
  · simp at h
  · obtain ⟨⟨half, kind⟩, -, h⟩ := List.exists_of_findSome?_eq_some h
    obtain ⟨⟨own, t⟩, ht, hr⟩ := Option.map_eq_some_iff.mp h
    obtain ⟨u, hu, ht⟩ := Option.bind_eq_some_iff.mp ht
    obtain ⟨-, hown, -⟩ : kind = arrow ∧ own = some label ∧ t = rest := by simpa using hr
    unfold readInlineTail? at ht
    split at ht
    · split at ht
      · rename_i text after htext
        rw [Option.some.injEq, Prod.mk.injEq] at ht
        obtain ⟨hfront, hpipe⟩ := prefix_of_readInlineText? htext
        have hinside : text <:+: s :=
          hfront.isInfix.trans ((trimStart_suffix u).trans (suffix_of_after? hu)).isInfix
        exact ⟨text, hinside, hpipe, ht.1.trans hown⟩
      · split at ht
        · obtain ⟨after, -, hr⟩ := Option.map_eq_some_iff.mp ht
          have hnone := (Prod.mk.inj hr).1.trans hown
          contradiction
        · contradiction
    · contradiction

/-- The label of a link stands inside its arrow or between the pipes after it. -/
theorem isLabelText_of_readLabel? {s afterArrow afterLabel : List Char} {arrow : Arrow}
    {own label : Option (List Char)}
    (harrow : readArrow? (trimStart s) = some (arrow, own, afterArrow))
    (hlabel : readLabel? own (trimStart afterArrow) = some (label, afterLabel)) :
    ∀ text ∈ label, IsLabelText s text := by
  intro text htext
  obtain ⟨hown, -⟩ | ⟨inner, after, heq, hinner, -⟩ := eq_of_readLabel? hlabel
  · rw [← hown, Option.mem_def.mp htext] at harrow
    exact (isLabelText_of_readArrow? harrow).mono (trimStart_suffix s).isInfix
  · refine ⟨inner.val, ?_, inner.property, hinner.symm.trans htext⟩
    have hinside : inner.val <:+: trimStart afterArrow := ⟨['|'], '|' :: after, by rw [heq]; simp⟩
    exact hinside.trans (suffix_of_arrow harrow).isInfix

/-- A colon label is what stands behind the colon. -/
theorem isLabelIn_of_colonLabel? {s label : List Char} (h : colonLabel? s = some label) :
    IsLabelIn s label := by
  unfold colonLabel? at h
  split at h
  · rename_i c text heq
    split at h
    · have htext : text <:+: trim s := by
        rw [heq]
        exact (List.suffix_cons c text).isInfix
      exact isLabelIn_of_trim (htext.trans (trim_isInfix s)) h
    · contradiction
  · contradiction

/-! ## Links -/

/-- The two nodes of the link and its label, if it has one, stand in the text. -/
structure Link.IsIn (s : List Char) (link : Link) : Prop where
  source : link.source.IsIn s
  target : link.target.IsIn s
  label : ∀ label ∈ link.label, IsLabelText s label

theorem Link.IsIn.mono {s t : List Char} {link : Link} (h : link.IsIn s) (hst : s <:+: t) :
    link.IsIn t :=
  ⟨h.source.mono hst, h.target.mono hst, fun text htext => (h.label text htext).mono hst⟩

theorem isIn_of_mem_linksBetween {s : List Char} {sources targets : List Node}
    {label : Option (List Char)} {arrow : Arrow} (hsources : ∀ node ∈ sources, node.IsIn s)
    (htargets : ∀ node ∈ targets, node.IsIn s) (hlabel : ∀ text ∈ label, IsLabelText s text) :
    ∀ link ∈ linksBetween sources targets label arrow, link.IsIn s := by
  intro link hlink
  obtain ⟨source, hsource, hlink⟩ := List.mem_flatMap.mp hlink
  obtain ⟨target, htarget, rfl⟩ := List.mem_map.mp hlink
  exact ⟨hsources source hsource, htargets target htarget, hlabel⟩

theorem isIn_of_mem_readLinks {t : List Char} {sources : List Node} {s : List Char}
    (hsources : ∀ node ∈ sources, node.IsIn t) (hst : s <:+ t) :
    ∀ link ∈ (readLinks sources s).1, link.IsIn t := by
  fun_induction readLinks sources s with
  | case1 => simp
  | case2 => simp
  | case3 => simp
  | case4 sources s arrow own afterArrow harrow label afterLabel hlabel targets afterGroup hgroup
      _ links rest hrec ih =>
      rw [hrec] at ih
      have hafter : afterLabel <:+ t :=
        ((suffix_of_readLabel? hlabel).trans (suffix_of_arrow harrow)).trans hst
      have htargets : ∀ node ∈ targets, node.IsIn t := fun node hnode =>
        (isIn_of_readGroup? hgroup node hnode).mono hafter.isInfix
      have htexts : ∀ text ∈ label, IsLabelText t text := fun text htext =>
        (isLabelText_of_readLabel? harrow hlabel text htext).mono hst.isInfix
      intro link hlink
      rcases List.mem_append.mp hlink with hbetween | hlater
      · exact isIn_of_mem_linksBetween hsources htargets htexts link hbetween
      · exact ih htargets ((suffix_of_readGroup? hgroup).trans hafter) link hlater

theorem isIn_of_mem_readChain {s : List Char} : ∀ link ∈ (readChain s).1, link.IsIn s := by
  unfold readChain
  split
  · rename_i sources rest hgroup
    exact isIn_of_mem_readLinks (isIn_of_readGroup? hgroup) (suffix_of_readGroup? hgroup)
  · simp

/-- The links of a statement, in their order: those of the first chain that has any. -/
def linksOf (s : List Char) : List Link :=
  match firstChain? s with
  | some (links, _) => links
  | none => []

theorem exists_readChain_of_firstChain? {s rest : List Char} {links : List Link}
    (h : firstChain? s = some (links, rest)) :
    ∃ start, start <:+ s ∧ readChain start = (links, rest) := by
  obtain ⟨start, hstart, hchain⟩ := List.exists_of_findSome?_eq_some h
  obtain ⟨before, rfl, -, -⟩ := isStartIn_of_mem hstart
  refine ⟨start, List.suffix_append before start, ?_⟩
  dsimp only at hchain
  split at hchain
  · contradiction
  · exact Option.some.inj hchain

theorem isIn_of_mem_linksOf {s : List Char} : ∀ link ∈ linksOf s, link.IsIn s := by
  unfold linksOf
  split
  · rename_i links rest hfirst
    obtain ⟨start, hstart, hchain⟩ := exists_readChain_of_firstChain? hfirst
    intro link hlink
    have hin : link.IsIn start := isIn_of_mem_readChain link (by rwa [hchain])
    exact hin.mono hstart.isInfix
  · simp

/-- The edges of a statement are those of its links, with the label that a colon gives. -/
theorem exists_edgesOf_eq (s : List Char) :
    ∃ rest, rest <:+ s ∧ edgesOf s = (linksOf s).flatMap (Link.edges (colonLabel? rest)) := by
  unfold edgesOf linksOf
  cases hfirst : firstChain? s with
  | none => exact ⟨[], List.nil_suffix, rfl⟩
  | some pair =>
      obtain ⟨links, rest⟩ := pair
      obtain ⟨start, hstart, hchain⟩ := exists_readChain_of_firstChain? hfirst
      have hrest := readChain_suffix start
      rw [hchain] at hrest
      exact ⟨rest, hrest.trans hstart, rfl⟩

/-! ## Edges -/

/-- Edges as they are drawn link by link: a link that points both ways gives two opposite edges next
to each other and with the same label, any other link gives one edge. -/
inductive DrawnBy : List Link → List Edge → Prop where
  | nil : DrawnBy [] []
  | once {link : Link} {links : List Link} {edges : List Edge} (label : Option String)
      (harrow : link.arrow ≠ .bidirectional) (later : DrawnBy links edges) :
      DrawnBy (link :: links)
        (⟨link.source.sourceId, link.target.targetId, label, link.arrow⟩ :: edges)
  | both {link : Link} {links : List Link} {edges : List Edge} (label : Option String)
      (harrow : link.arrow = .bidirectional) (later : DrawnBy links edges) :
      DrawnBy (link :: links)
        (⟨link.source.sourceId, link.target.targetId, label, .bidirectional⟩ ::
          ⟨link.target.targetId, link.source.sourceId, label, .bidirectional⟩ :: edges)

theorem drawnBy_flatMap (colon : Option (List Char)) (links : List Link) :
    DrawnBy links (links.flatMap (Link.edges colon)) := by
  induction links with
  | nil => exact .nil
  | cons link links ih =>
      rw [List.flatMap_cons, Link.edges]
      split
      · rename_i harrow
        rw [harrow]
        exact .both _ harrow ih
      · rename_i harrow
        exact .once _ harrow ih

/-- The id is one that stands in the text, or that of an anonymous marker which does. -/
def IsIdIn (s : List Char) (id : String) : Prop :=
  (markerText <:+: s ∧ (id = startNode ∨ id = endNode)) ∨
    ∃ written : Written.Id, id = String.ofList written.text ∧ written.text <:+: s

theorem Node.IsIn.isIdIn_sourceId {s : List Char} {node : Node} (h : node.IsIn s) :
    IsIdIn s node.sourceId := by
  cases node with
  | marker => exact .inl ⟨h, .inl rfl⟩
  | named id =>
      obtain ⟨hinside, written, rfl⟩ := h
      exact .inr ⟨written, rfl, hinside⟩

theorem Node.IsIn.isIdIn_targetId {s : List Char} {node : Node} (h : node.IsIn s) :
    IsIdIn s node.targetId := by
  cases node with
  | marker => exact .inl ⟨h, .inr rfl⟩
  | named id =>
      obtain ⟨hinside, written, rfl⟩ := h
      exact .inr ⟨written, rfl, hinside⟩

/-- The ids and the label of the edge stand in the text. -/
structure IsEdgeIn (s : List Char) (edge : Edge) : Prop where
  source : IsIdIn s edge.source
  target : IsIdIn s edge.target
  label : ∀ label ∈ edge.label, IsLabelIn s label.toList

theorem isEdgeIn_of_mem_edges {s : List Char} {link : Link} {colon : Option (List Char)}
    {edge : Edge} (hlink : link.IsIn s) (hcolon : ∀ label ∈ colon, IsLabelIn s label)
    (h : edge ∈ link.edges colon) : IsEdgeIn s edge := by
  have hlabel : ∀ label ∈ edge.label, IsLabelIn s label.toList := by
    intro label hlabel
    rw [label_of_mem_edges h] at hlabel
    obtain ⟨text, htext, rfl⟩ := Option.map_eq_some_iff.mp hlabel
    rw [String.toList_ofList]
    rcases Option.or_eq_some_iff.mp htext with hown | ⟨-, hbehind⟩
    · exact (hlink.label text hown).isLabelIn
    · exact hcolon text hbehind
  unfold Link.edges at h
  dsimp only at h
  split at h
  · rw [List.mem_pair] at h
    rcases h with rfl | rfl
    · exact ⟨hlink.source.isIdIn_sourceId, hlink.target.isIdIn_targetId, hlabel⟩
    · exact ⟨hlink.target.isIdIn_targetId, hlink.source.isIdIn_sourceId, hlabel⟩
  · rw [List.mem_singleton] at h
    subst h
    exact ⟨hlink.source.isIdIn_sourceId, hlink.target.isIdIn_targetId, hlabel⟩

/-- Of any text the reader makes edges only between ids that stand in it, with labels that stand in
it, and draws them link by link. -/
theorem statementEdges_sound (text : String) :
    (∀ edge ∈ statementEdges text, IsEdgeIn text.toList edge) ∧
      DrawnBy (linksOf text.toList) (statementEdges text) := by
  obtain ⟨rest, hrest, hedges⟩ := exists_edgesOf_eq text.toList
  rw [statementEdges, hedges]
  refine ⟨fun edge hedge => ?_, drawnBy_flatMap (colonLabel? rest) (linksOf text.toList)⟩
  obtain ⟨link, hlink, hedge⟩ := List.mem_flatMap.mp hedge
  refine isEdgeIn_of_mem_edges (isIn_of_mem_linksOf link hlink) (fun label hlabel => ?_) hedge
  exact (isLabelIn_of_colonLabel? hlabel).mono hrest.isInfix

end DiagramReadability.Statement
