import DiagramReadability.Proofs.Statement.Written
import DiagramReadability.Proofs.Text.Trim

/-!
# Nodes are read as they are written

A reader takes a written node off the front of a text as long as what follows cannot be read as part
of the node.
-/

namespace DiagramReadability.Statement

open DiagramReadability.Text
open DiagramReadability.Line (isOpener isCloser)

/-! ## Ids -/

theorem exists_word_cons (w : Written.Word) :
    ∃ c rest, w.val = c :: rest ∧ isWord c = true := by
  rcases List.exists_cons_of_ne_nil w.property.1 with ⟨c, rest, heq⟩
  exact ⟨c, rest, heq, w.property.2 c (by rw [heq]; exact List.mem_cons_self)⟩

theorem exists_id_cons (id : Written.Id) :
    ∃ c rest, id.text = c :: rest ∧ isWord c = true := by
  rcases exists_word_cons id.first with ⟨c, rest, heq, hc⟩
  rw [Written.Id.text, heq]
  exact ⟨c, _, List.cons_append, hc⟩

theorem id_text_ne_nil (id : Written.Id) : id.text ≠ [] := by
  obtain ⟨c, rest, heq, -⟩ := exists_id_cons id
  rw [heq]
  exact List.cons_ne_nil c rest

theorem splitId_of_not_continues {s : List Char} (h : continuesId s = false) :
    splitId s = ([], s) := by
  cases s with
  | nil => rfl
  | cons c rest =>
      rw [splitId, h]
      rfl

theorem splitId_append_word {w : List Char} (hw : ∀ c ∈ w, isWord c = true) (s : List Char) :
    splitId (w ++ s) = (w ++ (splitId s).1, (splitId s).2) := by
  induction w with
  | nil => rfl
  | cons c w ih =>
      rw [List.forall_mem_cons] at hw
      have hgo : continuesId (c :: (w ++ s)) = true := by
        rw [continuesId, hw.1]
        rfl
      rw [List.cons_append, splitId, if_pos hgo, ih hw.2]
      rfl

theorem splitId_append_hyphen (w : Written.Word) (s : List Char) :
    splitId ('-' :: (w.val ++ s)) = ('-' :: (w.val ++ (splitId s).1), (splitId s).2) := by
  have hgo : continuesId ('-' :: (w.val ++ s)) = true := by
    rcases exists_word_cons w with ⟨c, rest, heq, hc⟩
    rw [heq, continuesId]
    simp [hc]
  rw [splitId, if_pos hgo, splitId_append_word w.property.2]

theorem readId?_text (id : Written.Id) {rest : List Char} (h : continuesId rest = false) :
    readId? (id.text ++ rest) = some (id.text, rest) := by
  have hmore : ∀ more : List Written.Word,
      splitId (more.flatMap (fun word => '-' :: word.val) ++ rest) =
        (more.flatMap fun word => '-' :: word.val, rest) := by
    intro more
    induction more with
    | nil => exact splitId_of_not_continues h
    | cons word more ih =>
        rw [List.flatMap_cons, List.append_assoc, List.cons_append, splitId_append_hyphen, ih]
        rfl
  have hsplit : splitId (id.text ++ rest) = (id.text, rest) := by
    rw [Written.Id.text, List.append_assoc, splitId_append_word id.first.property.2, hmore]
  rcases exists_id_cons id with ⟨c, tail, heq, hc⟩
  have hhead : (id.text ++ rest).head? = some c := by
    rw [heq]
    rfl
  rw [readId?, hhead, Option.any_some, if_pos hc, hsplit]

/-! ## Shapes and classes -/

/-- While the count stays above zero, the reader of brackets goes on; it stops where the count is
zero first. -/
theorem skipBrackets_append {block : List Char} {depth : Nat} {quoted : Bool} (hdepth : 0 < depth)
    (hcloses : (block.foldl Written.bracketStep ((depth : Int), quoted)).1 = 0)
    (hbefore : ∀ p, p <+: block → p ≠ block →
      (p.foldl Written.bracketStep ((depth : Int), quoted)).1 ≠ 0) (rest : List Char) :
    skipBrackets depth quoted (block ++ rest) = rest := by
  induction block generalizing depth quoted with
  | nil =>
      rw [List.foldl_nil] at hcloses
      omega
  | cons c block ih =>
      -- what holds of the whole block holds of its tail, from the state after one character
      have hstep : ∀ p, p <+: block → p ≠ block → (p.foldl Written.bracketStep
          (Written.bracketStep ((depth : Int), quoted) c)).1 ≠ 0 := by
        intro p hp hne
        have hcons : c :: p <+: c :: block := (List.prefix_cons_inj c).mpr hp
        have := hbefore (c :: p) hcons (by simpa using hne)
        rwa [List.foldl_cons] at this
      rw [List.foldl_cons] at hcloses
      rw [List.cons_append, skipBrackets]
      by_cases hquote : c = '"'
      · rw [if_pos hquote]
        rw [Written.bracketStep, if_pos hquote] at hcloses hstep
        exact ih hdepth hcloses hstep
      · rw [if_neg hquote]
        rw [Written.bracketStep, if_neg hquote] at hcloses hstep
        by_cases hquoted : quoted = true
        · rw [if_pos hquoted]
          rw [if_pos hquoted] at hcloses hstep
          exact ih hdepth hcloses hstep
        · rw [if_neg hquoted]
          rw [if_neg hquoted] at hcloses hstep
          by_cases hopener : isOpener c = true
          · rw [if_pos hopener]
            rw [if_pos hopener] at hcloses hstep
            exact ih (Nat.succ_pos depth) hcloses hstep
          · rw [if_neg hopener]
            rw [if_neg hopener] at hcloses hstep
            by_cases hcloser : isCloser c = true
            · rw [if_pos hcloser]
              rw [if_pos hcloser] at hcloses hstep
              by_cases hlast : depth ≤ 1
              · rw [if_pos hlast]
                -- the count is zero here, so this is the end of the block
                have hzero : ((depth : Int) - 1) = 0 := by omega
                by_contra hrest
                apply hstep [] (List.nil_prefix) ?_ hzero
                rintro rfl
                exact hrest rfl
              · rw [if_neg hlast]
                have hcast : ((depth : Int) - 1) = ((depth - 1 : Nat) : Int) := by omega
                rw [hcast] at hcloses hstep
                exact ih (by omega) hcloses hstep
            · rw [if_neg hcloser]
              rw [if_neg hcloser] at hcloses hstep
              exact ih hdepth hcloses hstep

theorem skipShape_text (shape : Written.Shape) (rest : List Char) :
    skipShape (shape.text ++ rest) = rest := by
  cases shape with
  | asymmetric s h =>
      have hskip : ∀ c ∈ s, (decide (c ≠ ']')) = true := by
        intro c hc
        rw [decide_eq_true_iff]
        rintro rfl
        exact h hc
      rw [Written.Shape.text, List.cons_append, skipShape, if_pos rfl, List.append_assoc,
        List.dropWhile_append_of_pos hskip]
      rfl
  | bracketed s h =>
      rcases h.opens with ⟨c, block, rfl, hopener⟩
      have hangle : c ≠ '>' := by
        rintro rfl
        exact absurd hopener (by decide)
      have hquote : c ≠ '"' := by
        rintro rfl
        exact absurd hopener (by decide)
      have hfirst : Written.bracketStep (0, false) c = (((1 : Nat) : Int), false) := by
        rw [Written.bracketStep, if_neg hquote, if_neg Bool.false_ne_true, if_pos hopener]
        rfl
      rw [Written.Shape.text, List.cons_append, skipShape, if_neg hangle, if_pos hopener]
      apply skipBrackets_append Nat.one_pos
      · have hcloses := h.closes
        rwa [Written.bracketCount, List.foldl_cons, hfirst] at hcloses
      · intro p hp hne
        have hcons : c :: p <+: c :: block := (List.prefix_cons_inj c).mpr hp
        have hcount := h.not_before (c :: p) hcons (List.cons_ne_nil c p) (by simpa using hne)
        rwa [Written.bracketCount, List.foldl_cons, hfirst] at hcount

theorem skipClass_text (id : Written.Id) {rest : List Char} (h : continuesId rest = false) :
    skipClass (Written.classText (some id) ++ rest) = rest := by
  have hafter : after? [':', ':', ':'] (Written.classText (some id) ++ rest) =
      some (id.text ++ rest) := after?_append [':', ':', ':'] (id.text ++ rest)
  rw [skipClass, hafter, Option.bind_some, readId?_text id h]

/-! ## Nodes -/

/-- The node that the reader returns for a written one. -/
def Written.Node.read (node : Written.Node) : Statement.Node :=
  match node.name with
  | .marker => .marker
  | .named id _ => .named id.text

/-- Nothing in front of the text can be read as part of the node before it.  A node has one class at
most, so after its class the text may look like another. -/
structure EndsNode (node : Written.Node) (s : List Char) : Prop where
  id_ends : continuesId s = false
  shapeless : skipShape s = s
  classless : node.cls = none → skipClass s = s

variable {node : Written.Node}

theorem skipClass_of_ne {c : Char} (h : c ≠ ':') (s : List Char) : skipClass (c :: s) = c :: s := by
  rw [skipClass, after?_cons_of_ne (Ne.symm h)]
  rfl

theorem skipShape_of_ne {c : Char} (hangle : c ≠ '>') (hopener : isOpener c = false)
    (s : List Char) : skipShape (c :: s) = c :: s := by
  rw [skipShape, if_neg hangle, hopener]
  rfl

theorem continuesId_of_ne {c : Char} (hword : isWord c = false) (hhyphen : c ≠ '-')
    (s : List Char) : continuesId (c :: s) = false := by
  rw [continuesId, hword, decide_eq_false hhyphen]
  rfl

theorem isOpener_of_isBlank {c : Char} (h : isBlank c = true) : isOpener c = false := by
  rw [isOpener, decide_eq_false (ne_of_isBlank h (by decide)),
    decide_eq_false (ne_of_isBlank h (by decide)), decide_eq_false (ne_of_isBlank h (by decide))]
  rfl

theorem isCloser_of_isBlank {c : Char} (h : isBlank c = true) : isCloser c = false := by
  rw [isCloser, decide_eq_false (ne_of_isBlank h (by decide)),
    decide_eq_false (ne_of_isBlank h (by decide)), decide_eq_false (ne_of_isBlank h (by decide))]
  rfl

/-- Whether a character can be read as part of no node before it, whatever comes after it. -/
def separates (c : Char) : Bool :=
  !isWord c && c ≠ '-' && c ≠ '>' && !isOpener c && c ≠ ':'

theorem endsNode_of_separates {c : Char} (h : separates c = true) (s : List Char) :
    EndsNode node (c :: s) := by
  rw [separates, Bool.and_eq_true, Bool.and_eq_true, Bool.and_eq_true, Bool.and_eq_true,
    Bool.not_eq_true', Bool.not_eq_true', decide_eq_true_iff, decide_eq_true_iff,
    decide_eq_true_iff] at h
  rcases h with ⟨⟨⟨⟨hword, hhyphen⟩, hangle⟩, hopener⟩, hcolon⟩
  exact ⟨continuesId_of_ne hword hhyphen s, skipShape_of_ne hangle hopener s,
    fun _ => skipClass_of_ne hcolon s⟩

theorem endsNode_nil : EndsNode node [] where
  id_ends := rfl
  shapeless := rfl
  classless _ := rfl

theorem separates_of_isBlank {c : Char} (h : isBlank c = true) : separates c = true := by
  have hhyphen : c ≠ '-' := ne_of_isBlank h (by decide)
  have hangle : c ≠ '>' := ne_of_isBlank h (by decide)
  have hcolon : c ≠ ':' := ne_of_isBlank h (by decide)
  rw [separates, isWord_of_isBlank h, isOpener_of_isBlank h, decide_eq_true hhyphen,
    decide_eq_true hangle, decide_eq_true hcolon]
  rfl

theorem EndsNode.blanks {s : List Char} (h : EndsNode node s) (blanks : Written.Blanks) :
    EndsNode node (blanks.val ++ s) := by
  cases heq : blanks.val with
  | nil => exact h
  | cons c rest =>
      have hblank : isBlank c = true := blanks.property c (by rw [heq]; exact List.mem_cons_self)
      exact endsNode_of_separates (separates_of_isBlank hblank) (rest ++ s)

theorem continuesId_shape (shape : Written.Shape) (s : List Char) :
    continuesId (shape.text ++ s) = false := by
  cases shape with
  | asymmetric text h => exact continuesId_of_ne (by decide) (by decide) _
  | bracketed text h =>
      rcases h.opens with ⟨c, rest, rfl, hopener⟩
      rw [isOpener, Bool.or_eq_true, Bool.or_eq_true, decide_eq_true_iff, decide_eq_true_iff,
        decide_eq_true_iff] at hopener
      rcases hopener with (rfl | rfl) | rfl
      · exact continuesId_of_ne (by decide) (by decide) _
      · exact continuesId_of_ne (by decide) (by decide) _
      · exact continuesId_of_ne (by decide) (by decide) _

theorem skipClass_classText {rest : List Char} (h : EndsNode node rest) :
    skipClass (Written.classText node.cls ++ rest) = rest := by
  cases hcls : node.cls with
  | none => exact h.classless hcls
  | some id => exact skipClass_text id h.id_ends

/-- The text after an id and its shape, a class shorthand or the end of the node, goes on with
neither. -/
theorem classText_ends {rest : List Char} (h : EndsNode node rest) :
    continuesId (Written.classText node.cls ++ rest) = false ∧
      skipShape (Written.classText node.cls ++ rest) = Written.classText node.cls ++ rest := by
  cases node.cls with
  | none => exact ⟨h.id_ends, h.shapeless⟩
  | some id =>
      exact ⟨continuesId_of_ne (by decide) (by decide) _,
        skipShape_of_ne (by decide) (by decide) _⟩

theorem after?_markerText_of_isWord {c : Char} (h : isWord c = true) (s : List Char) :
    after? markerText (c :: s) = none :=
  after?_cons_of_ne (ne_of_isWord h (by decide)).symm _ _

theorem readNode?_marker (s : List Char) :
    readNode? (markerText ++ s) = some (.marker, skipClass s) := by
  rw [readNode?, after?_append]

theorem readNode?_named {s id rest : List Char} (hmarker : after? markerText s = none)
    (hid : readId? s = some (id, rest)) :
    readNode? s = some (.named id, skipClass (skipShape rest)) := by
  rw [readNode?, hmarker, hid]
  rfl

/-- A written node is read back whole. -/
theorem readNode?_text {rest : List Char} (h : EndsNode node rest) :
    readNode? (node.text ++ rest) = some (node.read, rest) := by
  have hclass := skipClass_classText h
  have hends := classText_ends h
  rcases node with ⟨name, cls⟩
  rw [Written.Node.text, List.append_assoc]
  cases name with
  | marker =>
      show readNode? (markerText ++ (Written.classText cls ++ rest)) = some (.marker, rest)
      rw [readNode?_marker, hclass]
  | named id shape =>
      show readNode? (id.text ++ Written.shapeText shape ++ (Written.classText cls ++ rest)) =
        some (.named id.text, rest)
      -- the id ends at its shape, and without one where the rest of the node ends it
      have hshape :
          continuesId (Written.shapeText shape ++ (Written.classText cls ++ rest)) = false ∧
          skipShape (Written.shapeText shape ++ (Written.classText cls ++ rest)) =
            Written.classText cls ++ rest := by
        cases shape with
        | none => exact hends
        | some shape => exact ⟨continuesId_shape shape _, skipShape_text shape _⟩
      rcases exists_id_cons id with ⟨c, tail, heq, hc⟩
      have hmarker : after? markerText (id.text ++ (Written.shapeText shape ++
          (Written.classText cls ++ rest))) = none := by
        rw [heq]
        exact after?_markerText_of_isWord hc _
      rw [List.append_assoc, readNode?_named hmarker (readId?_text id hshape.1), hshape.2, hclass]

/-! ## Groups -/

/-- The first character of a node is neither blank nor a pipe, and opens no comment. -/
theorem exists_node_cons (node : Written.Node) :
    ∃ c rest, node.text = c :: rest ∧ isBlank c = false ∧ c ≠ '|' ∧ c ≠ '%' := by
  rcases node with ⟨name, cls⟩
  cases name with
  | marker => exact ⟨'[', _, rfl, by decide, by decide, by decide⟩
  | named id shape =>
      rcases exists_id_cons id with ⟨c, tail, heq, hc⟩
      have htext : Written.Node.text ⟨.named id shape, cls⟩ =
          c :: (tail ++ Written.shapeText shape ++ Written.classText cls) := by
        rw [Written.Node.text, Written.Name.text, heq]
        rfl
      exact ⟨c, _, htext, not_isBlank_of_isWord hc, ne_of_isWord hc (by decide),
        ne_of_isWord hc (by decide)⟩

/-- A line whose first character that is not blank is no percent sign is no comment. -/
theorem kind_ne_comment_of_trimStart {s rest : List Char} {c : Char} (hs : trimStart s = c :: rest)
    (hblank : isBlank c = false) (hpercent : c ≠ '%') : Line.kind s ≠ .comment := by
  intro hkind
  have hcomment := Line.isComment_of_kind hkind
  rw [trim, hs, trimEnd_cons_of_not_blank hblank, Line.isComment,
    show "%%".toList = ['%', '%'] by decide, after?_cons_of_ne (Ne.symm hpercent)] at hcomment
  contradiction

theorem startsBlank_node (node : Written.Node) (s : List Char) :
    startsBlank (node.text ++ s) = false := by
  rcases exists_node_cons node with ⟨c, rest, heq, hblank, -⟩
  rw [heq]
  exact hblank

theorem readMembers_ampersand {s rest after : List Char} {node : Node}
    (hamp : trimStart s = '&' :: rest)
    (hnode : readNode? (trimStart rest) = some (node, after)) :
    readMembers s = (node :: (readMembers after).1, (readMembers after).2) := by
  rw [readMembers]
  split
  · rename_i c tail heq
    rw [hamp, List.cons.injEq] at heq
    rcases heq with ⟨rfl, rfl⟩
    rw [if_pos rfl]
    split
    · rename_i node' after' heq
      rw [hnode, Option.some.injEq, Prod.mk.injEq] at heq
      rcases heq with ⟨rfl, rfl⟩
      rfl
    · rename_i heq
      rw [hnode] at heq
      contradiction
  · rename_i heq
    rw [hamp] at heq
    contradiction

theorem readMembers_stop {s : List Char} (h : (trimStart s).head? ≠ some '&') :
    readMembers s = ([], s) := by
  rw [readMembers]
  split
  · rename_i c tail heq
    rw [heq, List.head?_cons, Ne, Option.some.injEq] at h
    rw [if_neg h]
  · rfl

/-- Nothing in front of the text can be read as part of the group before it. -/
structure EndsGroup (group : Written.Group) (s : List Char) : Prop where
  ends_node : EndsNode group.last s
  no_member : (trimStart s).head? ≠ some '&'

/-- The nodes of a group, the last of them apart, are ended by the ampersand of the next. -/
theorem EndsGroup.members {members : List Written.Member} {rest : List Char}
    (h : EndsGroup ⟨node, members⟩ rest) :
    EndsNode node (members.flatMap Written.Member.text ++ rest) := by
  cases members with
  | nil => exact h.ends_node
  | cons m members =>
      rw [List.flatMap_cons, Written.Member.text, List.append_assoc, List.append_assoc]
      exact (endsNode_of_separates (by decide) _).blanks m.before

theorem EndsGroup.tail {m : Written.Member} {members : List Written.Member} {rest : List Char}
    (h : EndsGroup ⟨node, m :: members⟩ rest) : EndsGroup ⟨m.node, members⟩ rest where
  ends_node := by
    have hlast := h.ends_node
    rwa [Written.Group.last, List.map_cons, List.getLastD_cons] at hlast
  no_member := h.no_member

theorem readMembers_text {members : List Written.Member} {rest : List Char}
    (h : EndsGroup ⟨node, members⟩ rest) :
    readMembers (members.flatMap Written.Member.text ++ rest) =
      (members.map fun m => m.node.read, rest) := by
  induction members generalizing node with
  | nil => exact readMembers_stop h.no_member
  | cons m members ih =>
      have htext : (m :: members).flatMap Written.Member.text ++ rest = m.before.val ++
          '&' :: (m.after.val ++ (m.node.text ++
            (members.flatMap Written.Member.text ++ rest))) := by
        simp [Written.Member.text]
      -- the reader skips the blanks on both sides of the ampersand
      have hamp : trimStart ((m :: members).flatMap Written.Member.text ++ rest) =
          '&' :: (m.after.val ++ (m.node.text ++
            (members.flatMap Written.Member.text ++ rest))) := by
        have hblank : isBlank '&' = false := by decide
        rw [htext, trimStart_append_blanks m.before.property]
        exact trimStart_of_not_blank hblank
      have hnode := readNode?_text h.tail.members
      rw [← trimStart_of_not_blank (startsBlank_node m.node _),
        ← trimStart_append_blanks m.after.property] at hnode
      rw [readMembers_ampersand hamp hnode, ih h.tail]
      rfl

theorem startsBlank_group (group : Written.Group) (s : List Char) :
    startsBlank (group.text ++ s) = false := by
  rw [Written.Group.text, List.append_assoc]
  exact startsBlank_node group.first _

theorem head?_group_ne_pipe (group : Written.Group) (s : List Char) :
    (group.text ++ s).head? ≠ some '|' := by
  rcases exists_node_cons group.first with ⟨c, rest, heq, -, hpipe, -⟩
  rw [Written.Group.text, heq, List.append_assoc, List.cons_append, List.head?_cons, Ne,
    Option.some.injEq]
  exact hpipe

theorem readGroup?_of_readNode? {s rest : List Char} {node : Node}
    (h : readNode? s = some (node, rest)) :
    readGroup? s = some (node :: (readMembers rest).1, (readMembers rest).2) := by
  rw [readGroup?, h]
  rfl

/-- A written group is read back whole. -/
theorem readGroup?_text {group : Written.Group} {rest : List Char} (h : EndsGroup group rest) :
    readGroup? (group.text ++ rest) = some (group.nodes.map Written.Node.read, rest) := by
  have hnode := readNode?_text h.members
  rw [Written.Group.text, List.append_assoc, readGroup?_of_readNode? hnode,
    readMembers_text h, Written.Group.nodes, List.map_cons, List.map_map]
  rfl

end DiagramReadability.Statement
