import DiagramReadability.Proofs.Statement.Node

/-!
# Where chains may start

The scan for starts goes over a text from name to name and keeps those outside quotes, pipes and
brackets.  The first name of a statement is that of its first node.  A bare node at the front of a
text hides nothing from the scan, which goes on after it as at the beginning.
-/

namespace DiagramReadability.Statement

open DiagramReadability.Text
open DiagramReadability.Line (Nesting isOpener isCloser)

namespace Written

/-- A node without shape and class: the anonymous marker, or an id. -/
inductive BareNode where
  | marker
  | named (id : Id)

def BareNode.text : BareNode → List Char
  | .marker => markerText
  | .named id => id.text

def BareNode.node : BareNode → Node
  | .marker => ⟨.marker, none⟩
  | .named id => ⟨.named id none, none⟩

theorem BareNode.text_node (node : BareNode) : node.node.text = node.text := by
  cases node with
  | marker => rfl
  | named id =>
      show (id.text ++ []) ++ [] = id.text
      rw [List.append_nil, List.append_nil]

/-- The id of one character. -/
def Id.single (c : Char) (h : isWord c = true) : Id :=
  ⟨⟨[c], by simp, List.forall_mem_singleton.mpr h⟩, []⟩

theorem Id.forall_mem_text {P : Char → Prop} (id : Id) (hword : ∀ c, isWord c = true → P c)
    (hhyphen : P '-') : ∀ c ∈ id.text, P c := by
  intro c hc
  rcases List.mem_append.mp hc with hc | hc
  · exact hword c (id.first.property.2 c hc)
  · obtain ⟨word, -, hc⟩ := List.mem_flatMap.mp hc
    rcases List.mem_cons.mp hc with rfl | hc
    · exact hhyphen
    · exact hword c (word.property.2 c hc)

end Written

/-! ## Nesting -/

/-- Whether a character opens and closes nothing. -/
def isPlain (c : Char) : Bool :=
  c ≠ '"' && c ≠ '|' && !isOpener c && !isCloser c

theorem step_of_isPlain {c : Char} (h : isPlain c = true) (n : Nesting) : n.step c = n := by
  rw [isPlain, Bool.and_eq_true, Bool.and_eq_true, Bool.and_eq_true, Bool.not_eq_true',
    Bool.not_eq_true', decide_eq_true_iff, decide_eq_true_iff] at h
  obtain ⟨⟨⟨hquote, hpipe⟩, hopener⟩, hcloser⟩ := h
  rw [Nesting.step, if_neg hquote, if_neg hpipe, hopener, hcloser]
  cases n.quoted <;> rfl

theorem run_of_isPlain {s : List Char} (h : ∀ c ∈ s, isPlain c = true) (n : Nesting) :
    n.run s = n := by
  induction s with
  | nil => rfl
  | cons c s ih =>
      rw [List.forall_mem_cons] at h
      show (n.step c).run s = n
      rw [step_of_isPlain h.1, ih h.2]

theorem isPlain_of_isWord {c : Char} (h : isWord c = true) : isPlain c = true := by
  have hne : ∀ d, isWord d = false → c ≠ d := fun d hd => ne_of_isWord h hd
  rw [isPlain, isOpener, isCloser, decide_eq_true (hne '"' (by decide)),
    decide_eq_true (hne '|' (by decide)), decide_eq_false (hne '[' (by decide)),
    decide_eq_false (hne '(' (by decide)), decide_eq_false (hne '\x7b' (by decide)),
    decide_eq_false (hne ']' (by decide)), decide_eq_false (hne ')' (by decide)),
    decide_eq_false (hne '\x7d' (by decide))]
  rfl

theorem isWord_of_isOpener {c : Char} (h : isOpener c = true) : isWord c = false := by
  by_contra hword
  rw [Bool.not_eq_false] at hword
  have hplain := isPlain_of_isWord hword
  rw [isPlain, h, Bool.not_true, Bool.and_false, Bool.false_and] at hplain
  contradiction

theorem isPlain_of_isBlank {c : Char} (h : isBlank c = true) : isPlain c = true := by
  rw [isPlain, isOpener_of_isBlank h, isCloser_of_isBlank h,
    decide_eq_true (ne_of_isBlank h (by decide : isBlank '"' = false)),
    decide_eq_true (ne_of_isBlank h (by decide : isBlank '|' = false))]
  rfl

/-- Outside, a bare node leaves the state as it is: the brackets of a marker match. -/
theorem run_bareNode (node : Written.BareNode) {n : Nesting} (h : n.isOutside = true) :
    n.run node.text = n := by
  cases node with
  | named id =>
      exact run_of_isPlain (id.forall_mem_text (fun _ => isPlain_of_isWord) (by decide)) n
  | marker =>
      obtain ⟨depth, quoted, piped⟩ := n
      simp only [Nesting.isOutside, Bool.and_eq_true, Bool.not_eq_true', decide_eq_true_iff] at h
      obtain ⟨⟨rfl, rfl⟩, rfl⟩ := h
      rfl

/-! ## Starts -/

theorem nodeNameLength_of_isBlank {c : Char} (h : isBlank c = true) (s : List Char) :
    nodeNameLength (c :: s) = 0 := by
  have hbracket : '[' ≠ c := (ne_of_isBlank h (by decide)).symm
  have hid : readId? (c :: s) = none := by
    rw [readId?, List.head?_cons, Option.any_some, isWord_of_isBlank h]
    rfl
  rw [nodeNameLength, markerText, after?_cons_of_ne hbracket, hid]

/-- A name that the scan over a text comes to outside quotes, pipes and brackets. -/
def IsStartIn (n : Nesting) (s start : List Char) : Prop :=
  ∃ before, s = before ++ start ∧ (n.run before).isOutside = true ∧ nodeNameLength start ≠ 0

theorem IsStartIn.cons {n : Nesting} {c : Char} {rest start : List Char}
    (h : IsStartIn (n.step c) rest start) : IsStartIn n (c :: rest) start := by
  obtain ⟨before, rfl, hout, hname⟩ := h
  exact ⟨c :: before, rfl, hout, hname⟩

theorem isStartIn_of_mem {n : Nesting} {skip : Nat} {s start : List Char}
    (h : start ∈ nodeStartsFrom n skip s) : IsStartIn n s start := by
  fun_induction nodeStartsFrom n skip s with
  | case1 => simp at h
  | case2 n c rest skip ih => exact (ih h).cons
  | case3 n c rest hname ih => exact (ih h).cons
  | case4 n c rest length hname later hout ih =>
      rcases List.mem_cons.mp h with rfl | hlater
      · exact ⟨[], rfl, hout, by rw [hname]; exact Nat.succ_ne_zero length⟩
      · exact (ih hlater).cons
  | case5 n c rest length hname later hout ih => exact (ih h).cons

theorem nodeStartsFrom_nameless {n : Nesting} {c : Char} {rest : List Char}
    (h : nodeNameLength (c :: rest) = 0) :
    nodeStartsFrom n 0 (c :: rest) = nodeStartsFrom (n.step c) 0 rest := by
  rw [nodeStartsFrom]
  exact h

theorem nodeStartsFrom_name {n : Nesting} (hout : n.isOutside = true) {c : Char}
    {rest : List Char} {length : Nat} (h : nodeNameLength (c :: rest) = length + 1) :
    nodeStartsFrom n 0 (c :: rest) = (c :: rest) :: nodeStartsFrom (n.step c) length rest := by
  rw [nodeStartsFrom.eq_4 n c rest length h, if_pos hout]

theorem nodeStartsFrom_blanks {blanks : List Char} (hblanks : ∀ c ∈ blanks, isBlank c = true)
    (n : Nesting) (s : List Char) :
    nodeStartsFrom n 0 (blanks ++ s) = nodeStartsFrom n 0 s := by
  induction blanks with
  | nil => rfl
  | cons c blanks ih =>
      rw [List.forall_mem_cons] at hblanks
      rw [List.cons_append, nodeStartsFrom_nameless (nodeNameLength_of_isBlank hblanks.1 _),
        step_of_isPlain (isPlain_of_isBlank hblanks.1), ih hblanks.2]

theorem exists_nodeNameLength (node : Written.Node) (s : List Char) :
    ∃ n, nodeNameLength (node.text ++ s) = n + 1 := by
  rcases node with ⟨name, cls⟩
  rw [Written.Node.text, List.append_assoc]
  cases name with
  | marker =>
      refine ⟨2, ?_⟩
      show nodeNameLength (markerText ++ (Written.classText cls ++ s)) = 3
      rw [nodeNameLength, after?_append]
  | named id shape =>
      rcases exists_id_cons id with ⟨c, tail, heq, hc⟩
      have htext : Written.Name.text (.named id shape) ++ (Written.classText cls ++ s) =
          c :: (tail ++ Written.shapeText shape ++ (Written.classText cls ++ s)) := by
        rw [Written.Name.text, heq]
        rfl
      have hgo : ∀ t, continuesId (c :: t) = true := by
        intro t
        rw [continuesId, hc]
        rfl
      rw [htext, nodeNameLength, after?_markerText_of_isWord hc, readId?, List.head?_cons,
        Option.any_some, if_pos hc, splitId, if_pos (hgo _)]
      exact ⟨_, List.length_cons⟩

/-- The first name in a statement is that of its first node. -/
theorem exists_nodeStarts_eq (lead : Written.Blanks) (group : Written.Group) (s : List Char) :
    ∃ later, nodeStarts (lead.val ++ (group.text ++ s)) = (group.text ++ s) :: later := by
  rw [Written.Group.text, List.append_assoc, nodeStarts, nodeStartsFrom_blanks lead.property]
  rcases exists_nodeNameLength group.first (group.more.flatMap Written.Member.text ++ s)
    with ⟨n, hn⟩
  rcases exists_node_cons group.first with ⟨c, rest, heq, -⟩
  rw [heq, List.cons_append] at hn ⊢
  exact ⟨_, nodeStartsFrom_name rfl hn⟩

/-! ## Bare nodes -/

theorem nodeStartsFrom_skip (n : Nesting) (name s : List Char) :
    nodeStartsFrom n name.length (name ++ s) = nodeStartsFrom (n.run name) 0 s := by
  induction name generalizing n with
  | nil => rfl
  | cons c name ih => exact ih (n.step c)

theorem nodeNameLength_bareNode (node : Written.BareNode) {s : List Char}
    (h : continuesId s = false) : nodeNameLength (node.text ++ s) = node.text.length := by
  cases node with
  | marker =>
      show nodeNameLength (markerText ++ s) = 3
      rw [nodeNameLength, after?_append]
  | named id =>
      show nodeNameLength (id.text ++ s) = id.text.length
      have hmarker : after? markerText (id.text ++ s) = none := by
        obtain ⟨c, tail, heq, hc⟩ := exists_id_cons id
        rw [heq]
        exact after?_markerText_of_isWord hc _
      rw [nodeNameLength, hmarker, readId?_text id h]

/-- A bare node at the front of a text is a start, and the scan goes on behind it. -/
theorem nodeStarts_bareNode (node : Written.BareNode) {s : List Char} (h : continuesId s = false) :
    nodeStarts (node.text ++ s) = (node.text ++ s) :: nodeStarts s := by
  have hlength := nodeNameLength_bareNode node h
  have hrun := run_bareNode node (rfl : Nesting.start.isOutside = true)
  obtain ⟨c, tail, heq⟩ : ∃ c tail, node.text = c :: tail := by
    cases node with
    | marker => exact ⟨'[', _, rfl⟩
    | named id =>
        obtain ⟨c, tail, heq, -⟩ := exists_id_cons id
        exact ⟨c, tail, heq⟩
  rw [heq] at hlength hrun ⊢
  rw [List.cons_append] at hlength ⊢
  rw [nodeStarts, nodeStartsFrom_name rfl hlength, nodeStartsFrom_skip]
  exact congrArg (_ :: nodeStartsFrom · 0 s) hrun

/-! ## Edges -/

theorem label_of_mem_edges {link : Link} {colon : Option (List Char)} {edge : Edge}
    (h : edge ∈ link.edges colon) : edge.label = (link.label.or colon).map String.ofList := by
  unfold Link.edges at h
  dsimp only at h
  split at h
  · rw [List.mem_pair] at h
    rcases h with rfl | rfl <;> rfl
  · rw [List.mem_singleton] at h
    rw [h]

theorem edgesOf_of_no_chain {s : List Char} (h : ∀ start ∈ nodeStarts s, (readChain start).1 = []) :
    edgesOf s = [] := by
  have hnone : firstChain? s = none := by
    apply List.findSome?_eq_none_iff.mpr
    intro start hstart
    show (if (readChain start).1.isEmpty then none else some _) = none
    rw [h start hstart]
    rfl
  rw [edgesOf, hnone]

/-- A bare node at the front is passed over when its own chain has no link. -/
theorem edgesOf_passed_over (node : Written.BareNode) {s : List Char} (h : continuesId s = false)
    (hchain : (readChain (node.text ++ s)).1 = []) : edgesOf (node.text ++ s) = edgesOf s := by
  have hfirst : firstChain? (node.text ++ s) = firstChain? s := by
    rw [firstChain?, nodeStarts_bareNode node h, List.findSome?_cons]
    simp only [hchain, List.isEmpty_nil, if_true]
    rfl
  rw [edgesOf, edgesOf, hfirst]

end DiagramReadability.Statement
