import DiagramReadability.Proofs.Label.Statistics

/-!
# Written labels

Nodes with a label, apart from any reader: the shape of a node is written around the text of its
label.  The brackets that the search sees are not always the whole shape.  What is left of the shape
inside of them is taken off the label, and what is left behind them begins no definition.
-/

namespace DiagramReadability

open DiagramReadability.Text
open DiagramReadability.Line (isOpener isCloser)
open DiagramReadability.Statement (continuesId continuesId_of_ne)

namespace Label

namespace Written

/-! ## Nodes with labels -/

/-- A text that can be written into any shape as it is. -/
structure PlainText where
  text : List Char
  ne_nil : text ≠ []
  trimmed : trim text = text
  plain : ∀ c ∈ text, isOpener c = false ∧ isCloser c = false ∧ c ≠ '"' ∧ isLineBreak c = false
  no_slash_first : text.head? ≠ some '/' ∧ text.head? ≠ some '\\'
  no_slash_last : text.getLast? ≠ some '/' ∧ text.getLast? ≠ some '\\'

inductive Shape where
  | rectangle
  | quoted
  | cylinder
  | subroutine
  | leanRight
  | leanLeft
  | rhombus
  | hexagon
  | circle
  | doubleCircle
deriving Repr, DecidableEq

def Shape.opening : Shape → List Char
  | .rectangle => ['[']
  | .quoted => ['[', '"']
  | .cylinder => ['[', '(']
  | .subroutine => ['[', '[']
  | .leanRight => ['[', '/']
  | .leanLeft => ['[', '\\']
  | .rhombus => ['\x7b']
  | .hexagon => ['\x7b', '\x7b']
  | .circle => ['(', '(']
  | .doubleCircle => ['(', '(', '(']

def Shape.closing : Shape → List Char
  | .rectangle => [']']
  | .quoted => ['"', ']']
  | .cylinder => [')', ']']
  | .subroutine => [']', ']']
  | .leanRight => ['/', ']']
  | .leanLeft => ['\\', ']']
  | .rhombus => ['\x7d']
  | .hexagon => ['\x7d', '\x7d']
  | .circle => [')', ')']
  | .doubleCircle => [')', ')', ')']

structure Node where
  id : Statement.Written.Id
  shape : Shape
  label : PlainText

def Node.text (node : Node) : List Char :=
  node.id.text ++ (node.shape.opening ++ (node.label.text ++ node.shape.closing))

def linkText : List Char :=
  [' ', '-', '-', '>', ' ']

/-- The nodes in a row, with a link from each to the next one. -/
def chainText (nodes : List Node) : List Char :=
  joinWith linkText (nodes.map Node.text)

def Node.pair (node : Node) : String × String :=
  (String.ofList node.id.text, String.ofList node.label.text)

/-! ## Shapes as the search sees them -/

/-- The brackets that the search takes a shape for. -/
def Shape.bracket : Shape → Bracket
  | .rectangle | .quoted | .cylinder | .subroutine | .leanRight | .leanLeft => .square
  | .rhombus | .hexagon => .curly
  | .circle | .doubleCircle => .round

/-- What of a shape stands in those brackets, in front of the text. -/
def Shape.lead : Shape → List Char
  | .rectangle | .rhombus | .circle => []
  | .quoted => ['"']
  | .cylinder | .doubleCircle => ['(']
  | .subroutine => ['[']
  | .leanRight => ['/']
  | .leanLeft => ['\\']
  | .hexagon => ['\x7b']

/-- What of a shape stands in those brackets, behind the text. -/
def Shape.tail : Shape → List Char
  | .quoted => ['"']
  | .cylinder => [')']
  | .leanRight => ['/']
  | .leanLeft => ['\\']
  | .rectangle | .subroutine | .rhombus | .hexagon | .circle | .doubleCircle => []

/-- What of a shape is left behind those brackets. -/
def Shape.rest : Shape → List Char
  | .subroutine => [']']
  | .hexagon => ['\x7d']
  | .doubleCircle => [')']
  | .rectangle | .quoted | .cylinder | .leanRight | .leanLeft | .rhombus | .circle => []

theorem Shape.opening_eq (shape : Shape) : shape.opening = shape.bracket.opening ++ shape.lead := by
  cases shape <;> rfl

theorem Shape.closing_eq (shape : Shape) :
    shape.closing = shape.tail ++ (shape.bracket.closing ++ shape.rest) := by
  cases shape <;> rfl

theorem Shape.not_isWord (shape : Shape) :
    (∀ c ∈ shape.opening, isWord c = false) ∧ ∀ c ∈ shape.closing, isWord c = false := by
  rw [← List.forall_mem_append]
  cases shape <;> exact forall_mem_of_all (by decide)

theorem Shape.closing_eq_cons (shape : Shape) : ∃ c rest, shape.closing = c :: rest ∧
    isWord c = false ∧ c ≠ '-' ∧ isOpener c = false := by
  cases shape <;> exact ⟨_, _, rfl, by decide⟩

theorem Shape.stop_not_mem (shape : Shape) :
    shape.bracket.stop ∉ shape.lead ∧ shape.bracket.stop ∉ shape.tail := by
  cases shape <;> decide

/-! ## Labels without their shapes -/

theorem PlainText.exists_cons (label : PlainText) : ∃ c rest, label.text = c :: rest ∧
    isBlank c = false ∧ opensInner c = false ∧ c ≠ '"' := by
  obtain ⟨c, rest, heq⟩ := List.exists_cons_of_ne_nil label.ne_nil
  obtain ⟨hopener, -, hquote, -⟩ := label.plain c (by simp [heq])
  have hslash := label.no_slash_first
  have hblank := startsBlank_of_trimStart_eq (trimStart_of_trim_eq label.trimmed)
  rw [heq] at hslash hblank
  refine ⟨c, rest, heq, hblank, ?_, hquote⟩
  simpa [opensInner, hopener] using hslash

theorem PlainText.exists_concat (label : PlainText) : ∃ before c, label.text = before ++ [c] ∧
    isBlank c = false ∧ closesInner c = false := by
  obtain ⟨before, c, heq⟩ := List.eq_nil_or_concat' label.text |>.resolve_left label.ne_nil
  obtain ⟨-, hcloser, -, -⟩ := label.plain c (by simp [heq])
  have hslash := label.no_slash_last
  rw [heq, List.getLast?_concat] at hslash
  refine ⟨before, c, heq, ?_, ?_⟩
  · -- a blank at the end would have been trimmed
    by_contra hblank
    rw [Bool.not_eq_false] at hblank
    have htrim := trimEnd_of_trim_eq label.trimmed
    have hlast : trimEnd (before ++ [c]) = trimEnd before :=
      List.rdropWhile_concat_pos isBlank before c hblank
    have hlength := length_trimEnd_le before
    rw [heq, hlast] at htrim
    rw [htrim, List.length_append] at hlength
    simp at hlength
  · simpa [closesInner, hcloser] using hslash

theorem dropInnerShape_of_head {s : List Char} (h : ∀ c ∈ s.head?, opensInner c = false) :
    dropInnerShape s = s := by
  have hdrop : s.dropWhile opensInner = s := by
    cases s with
    | nil => rfl
    | cons c s => exact List.dropWhile_cons_of_neg (by rw [h c rfl]; decide)
  rw [dropInnerShape, hdrop]
  exact if_neg (Nat.lt_irrefl _)

theorem dropInnerShape_inner {c : Char} (hc : opensInner c = true) (label : PlainText)
    {tail : List Char} (htail : ∀ d ∈ tail, closesInner d = true) :
    dropInnerShape (c :: (label.text ++ tail)) = label.text := by
  have hstart : (c :: (label.text ++ tail)).dropWhile opensInner = label.text ++ tail := by
    obtain ⟨d, rest, heq, -, hd, -⟩ := label.exists_cons
    rw [List.dropWhile_cons_of_pos hc, heq, List.cons_append,
      List.dropWhile_cons_of_neg (by rw [hd]; decide)]
  have hend : dropEndWhile closesInner (label.text ++ tail) = label.text := by
    obtain ⟨before, d, heq, -, hd⟩ := label.exists_concat
    rw [dropEndWhile, List.reverse_append,
      List.dropWhile_append_of_pos (fun d hd => htail d (List.mem_reverse.mp hd)), heq,
      List.reverse_concat, List.dropWhile_cons_of_neg (by rw [hd]; decide), ← List.reverse_concat,
      List.reverse_reverse]
  -- one character at least is gone from the front, so the end is searched too
  rw [dropInnerShape, hstart, List.length_cons, if_pos (Nat.lt_succ_self _), hend]

theorem unquote_of_head {s : List Char} (h : ∀ c ∈ s.head?, c ≠ '"') : unquote s = s := by
  match s with
  | [] | [_] => rfl
  | first :: second :: rest =>
    rw [unquote, if_neg]
    simp [h first rfl]

theorem unquote_quoted (s : List Char) : unquote ('"' :: (s ++ ['"'])) = s := by
  cases s with
  | nil => rfl
  | cons c s =>
    rw [List.cons_append, unquote, if_pos]
    · rw [← List.cons_append, List.dropLast_concat]
    · rw [← List.cons_append, List.getLast?_concat]
      rfl

theorem PlainText.unquote_text (label : PlainText) : unquote label.text = label.text := by
  obtain ⟨c, rest, heq, -, -, hquote⟩ := label.exists_cons
  rw [heq]
  exact unquote_of_head (forall_mem_head?_cons (p := fun c => c ≠ '"') hquote rest)

theorem trim_inner {c : Char} (hc : isBlank c = false) (label : PlainText) {tail : List Char}
    (htail : ∀ d ∈ tail, isBlank d = false) :
    trim (c :: (label.text ++ tail)) = c :: (label.text ++ tail) := by
  have hstart : startsBlank (c :: (label.text ++ tail)) = false := hc
  have hend : trimEnd (label.text ++ tail) = label.text ++ tail := by
    rcases List.eq_nil_or_concat' tail with rfl | ⟨before, d, rfl⟩
    · rw [List.append_nil, trimEnd_of_trim_eq label.trimmed]
    · rw [← List.append_assoc, trimEnd_concat (htail d (by simp))]
  rw [trim, trimStart_of_not_blank hstart, trimEnd_cons_of_not_blank hc, hend]

theorem clean_plain (label : PlainText) : clean label.text = label.text := by
  obtain ⟨c, rest, heq, -, hinner, -⟩ := label.exists_cons
  have hshape : dropInnerShape label.text = label.text := by
    rw [heq]
    exact dropInnerShape_of_head (forall_mem_head?_cons hinner rest)
  rw [clean, label.trimmed, hshape, label.trimmed, label.unquote_text, label.trimmed]

theorem clean_quoted (label : PlainText) : clean ('"' :: (label.text ++ ['"'])) = label.text := by
  have htrim : trim ('"' :: (label.text ++ ['"'])) = '"' :: (label.text ++ ['"']) :=
    trim_inner (by decide) label (List.forall_mem_singleton.mpr (by decide))
  have hshape := dropInnerShape_of_head (s := '"' :: (label.text ++ ['"']))
    (forall_mem_head?_cons (by decide) _)
  rw [clean, htrim, hshape, htrim, unquote_quoted, label.trimmed]

theorem clean_inner (c : Char) (tail : List Char) (hc : opensInner c = true ∧ isBlank c = false)
    (htail : ∀ d ∈ tail, closesInner d = true ∧ isBlank d = false) (label : PlainText) :
    clean (c :: (label.text ++ tail)) = label.text := by
  rw [clean, trim_inner hc.2 label fun d hd => (htail d hd).2,
    dropInnerShape_inner hc.1 label fun d hd => (htail d hd).1, label.trimmed, label.unquote_text,
    label.trimmed]

/-- The text of a label is taken out of its shape. -/
theorem clean_shape (shape : Shape) (label : PlainText) :
    clean (shape.lead ++ (label.text ++ shape.tail)) = label.text := by
  have hbare : clean (label.text ++ []) = label.text := by
    rw [List.append_nil, clean_plain]
  cases shape with
  | rectangle => exact hbare
  | rhombus => exact hbare
  | circle => exact hbare
  | quoted => exact clean_quoted label
  | cylinder => exact clean_inner '(' [')'] (by decide) (forall_mem_of_all (by decide)) label
  | leanRight => exact clean_inner '/' ['/'] (by decide) (forall_mem_of_all (by decide)) label
  | leanLeft => exact clean_inner '\\' ['\\'] (by decide) (forall_mem_of_all (by decide)) label
  | subroutine => exact clean_inner '[' [] (by decide) (forall_mem_of_all (by decide)) label
  | hexagon => exact clean_inner '\x7b' [] (by decide) (forall_mem_of_all (by decide)) label
  | doubleCircle => exact clean_inner '(' [] (by decide) (forall_mem_of_all (by decide)) label

/-! ## The definitions of a row of nodes -/

/-- The definition that the search finds for a node at a place of the text. -/
def Node.definition (offset : Nat) (node : Node) : Definition :=
  ⟨offset, node.id.text, node.shape.lead ++ (node.label.text ++ node.shape.tail)⟩

theorem Node.wellFormed (node : Node) (offset : Nat) :
    (node.definition offset).WellFormed node.shape.bracket where
  exists_id := ⟨node.id, rfl⟩
  raw_ne_nil := by simp [Node.definition, node.label.ne_nil]
  no_stop := by
    -- what ends the label is a closing bracket, and the text holds none
    have hlabel : node.shape.bracket.stop ∉ node.label.text := by
      intro hstop
      have hcloser := (node.label.plain _ hstop).2.1
      rw [Bracket.isCloser_stop] at hcloser
      contradiction
    simp [Node.definition, node.shape.stop_not_mem, hlabel]

theorem Node.text_eq (node : Node) (offset : Nat) :
    node.text = (node.definition offset).text node.shape.bracket ++ node.shape.rest := by
  rw [Node.text, Shape.opening_eq, Shape.closing_eq]
  simp only [Definition.text, Node.definition, List.append_assoc]

/-- The search with the brackets of a node finds its definition. -/
theorem definitionsFrom_node (node : Node) (offset : Nat) (t : List Char) :
    definitionsFrom node.shape.bracket offset 0 (node.text ++ t) =
      node.definition offset ::
        definitionsFrom node.shape.bracket (offset + node.text.length) 0 t := by
  have hlength : offset + node.text.length =
      (node.definition offset).endOffset node.shape.bracket + node.shape.rest.length := by
    rw [node.text_eq offset, List.length_append, ← Nat.add_assoc]
    rfl
  have hrest : ∀ c ∈ node.shape.rest, isWord c = false := by
    intro c hc
    apply node.shape.not_isWord.2
    simp [Shape.closing_eq, hc]
  have hfound := definitionsFrom_text (node.wellFormed offset) (node.shape.rest ++ t)
  rw [definitionsFrom_append_of_not_word _ _ hrest] at hfound
  rw [hlength, node.text_eq offset, List.append_assoc]
  exact hfound

theorem definitionsFrom_node_of_ne {b : Bracket} {node : Node} (h : b ≠ node.shape.bracket)
    (offset : Nat) (t : List Char) :
    definitionsFrom b offset 0 (node.text ++ t) =
      definitionsFrom b (offset + node.text.length) 0 t := by
  obtain ⟨c, rest, hclosing, hword, hhyphen, hopener⟩ := node.shape.closing_eq_cons
  have hid : continuesId (node.shape.opening ++
      (node.label.text ++ (node.shape.closing ++ t))) = false := by
    rw [Shape.opening_eq, List.append_assoc]
    exact continuesId_opening _ _
  have hopen : after? b.opening (node.shape.opening ++
      (node.label.text ++ (node.shape.closing ++ t))) = none := by
    rw [Shape.opening_eq, List.append_assoc]
    exact after?_opening_of_ne h _
  have hlabel : continuesId (node.shape.closing ++ t) = false := by
    rw [hclosing]
    exact continuesId_of_ne hword hhyphen _
  have hclose : after? b.opening (node.shape.closing ++ t) = none := by
    rw [hclosing]
    exact after?_opening_eq_none b (forall_mem_head?_cons hopener _)
  -- over the id, the opening brackets, the text and the closing brackets, one after the other
  rw [Node.text, List.append_assoc, List.append_assoc, List.append_assoc,
    definitionsFrom_append b _ (isOpener_of_mem_id node.id) hid hopen,
    definitionsFrom_append_of_not_word b _ node.shape.not_isWord.1,
    definitionsFrom_append b _ (fun c hc => (node.label.plain c hc).1) hlabel hclose,
    definitionsFrom_append_of_not_word b _ node.shape.not_isWord.2]
  simp only [List.length_append, Nat.add_assoc]

/-- The definitions of the nodes of a row that begins at the place `offset`. -/
def definitionsAt (offset : Nat) : List Node → List Definition
  | [] => []
  | node :: nodes =>
      node.definition offset ::
        definitionsAt (offset + node.text.length + linkText.length) nodes

theorem chainText_cons_cons (node next : Node) (nodes : List Node) :
    chainText (node :: next :: nodes) =
      node.text ++ (linkText ++ chainText (next :: nodes)) := by
  rw [chainText, List.map_cons, joinWith.eq_3 _ _ _ (by simp), List.append_assoc]
  rfl

theorem mem_definitionsFrom_node {d : Definition} {b : Bracket} {node : Node} {offset : Nat}
    {t : List Char} :
    d ∈ definitionsFrom b offset 0 (node.text ++ t) ↔
      (b = node.shape.bracket ∧ d = node.definition offset) ∨
        d ∈ definitionsFrom b (offset + node.text.length) 0 t := by
  by_cases h : b = node.shape.bracket
  · rw [h, definitionsFrom_node, List.mem_cons]
    simp
  · rw [definitionsFrom_node_of_ne h]
    simp [h]

/-- The searches find the definitions of the nodes and nothing else. -/
theorem mem_definitionsAt {d : Definition} (offset : Nat) (nodes : List Node) :
    d ∈ definitionsAt offset nodes ↔ ∃ b, d ∈ definitionsFrom b offset 0 (chainText nodes) := by
  induction nodes generalizing offset with
  | nil => simp [definitionsAt, chainText, joinWith, definitionsFrom]
  | cons node nodes ih =>
    rw [definitionsAt, List.mem_cons]
    cases nodes with
    | nil =>
      have hnone : ∀ b, d ∉ definitionsFrom b (offset + node.text.length) 0 [] := by
        simp [definitionsFrom]
      have htext : chainText [node] = node.text ++ [] := (List.append_nil _).symm
      simp only [htext, mem_definitionsFrom_node, definitionsAt, hnone, List.not_mem_nil, or_false,
        exists_eq_left]
    | cons next nodes =>
      have hlink : ∀ c ∈ linkText, isWord c = false := forall_mem_of_all (by decide)
      simp only [chainText_cons_cons, mem_definitionsFrom_node,
        definitionsFrom_append_of_not_word _ _ hlink, ih, exists_or, exists_eq_left]

theorem le_offset_of_mem_definitionsAt {d : Definition} {offset : Nat} {nodes : List Node}
    (hd : d ∈ definitionsAt offset nodes) : offset ≤ d.offset := by
  induction nodes generalizing offset with
  | nil => contradiction
  | cons node nodes ih =>
    rcases List.mem_cons.mp hd with rfl | hd
    · exact Nat.le_refl offset
    · have hle := ih hd
      omega

theorem ascending_definitionsAt (offset : Nat) (nodes : List Node) :
    Ascending (definitionsAt offset nodes) := by
  induction nodes generalizing offset with
  | nil => exact List.Pairwise.nil
  | cons node nodes ih =>
    refine List.pairwise_cons.mpr ⟨fun d hd => ?_, ih _⟩
    have hle := le_offset_of_mem_definitionsAt hd
    have hlink : 0 < linkText.length := by decide
    show offset < d.offset
    omega

theorem definitions_chainText (nodes : List Node) :
    definitions (chainText nodes) = definitionsAt 0 nodes :=
  (isSearch_iff.mp ⟨ascending_definitionsAt 0 nodes,
    _, isScan_definitionsFrom_zero (chainText nodes), fun _ => mem_definitionsAt 0 nodes⟩).symm

/-- The definitions of a row have the ids and the texts of its nodes, in the order of the row. -/
theorem map_definitionsAt {α : Type} (f : List Char → List Char → α) (offset : Nat)
    (nodes : List Node) : (definitionsAt offset nodes).map (fun d => f d.id (clean d.raw)) =
      nodes.map fun node => f node.id.text node.label.text := by
  induction nodes generalizing offset with
  | nil => rfl
  | cons node nodes ih =>
    rw [definitionsAt, List.map_cons, List.map_cons, ih, Node.definition, clean_shape]

theorem firstDefinitions_definitionsAt {nodes : List Node}
    (hids : (nodes.map fun node => node.id.text).Nodup) (offset : Nat) :
    firstDefinitions (definitionsAt offset nodes) = definitionsAt offset nodes := by
  apply firstDefinitions_eq_self
  · rwa [← map_definitionsAt (fun id _ => id) offset] at hids
  · intro d hd
    have hmem := List.mem_map_of_mem (f := fun d => clean d.raw) hd
    rw [map_definitionsAt (fun _ label => label)] at hmem
    obtain ⟨node, -, hlabel⟩ := List.mem_map.mp hmem
    rw [← hlabel]
    exact node.label.ne_nil

/-! ## The text that is searched -/

theorem Node.not_isLineBreak_of_mem_text (node : Node) :
    ∀ c ∈ node.text, isLineBreak c = false := by
  have hshape : ∀ c ∈ node.shape.opening ++ node.shape.closing, isLineBreak c = false := by
    cases node.shape <;> exact forall_mem_of_all (by decide)
  simp only [Node.text, List.mem_append]
  rintro c (hid | hopening | hlabel | hclosing)
  · exact node.id.forall_mem_text (fun _ => not_isLineBreak_of_isWord) (by decide) c hid
  · exact hshape c (List.mem_append_left _ hopening)
  · exact (node.label.plain c hlabel).2.2.2
  · exact hshape c (List.mem_append_right _ hclosing)

theorem not_isLineBreak_of_mem_chainText (nodes : List Node) :
    ∀ c ∈ chainText nodes, isLineBreak c = false := by
  induction nodes with
  | nil => exact fun c hc => absurd hc List.not_mem_nil
  | cons node nodes ih =>
    cases nodes with
    | nil => exact node.not_isLineBreak_of_mem_text
    | cons next nodes =>
      have hlink : ∀ c ∈ linkText, isLineBreak c = false := forall_mem_of_all (by decide)
      rw [chainText_cons_cons]
      intro c hc
      rcases List.mem_append.mp hc with hc | hc
      · exact node.not_isLineBreak_of_mem_text c hc
      · exact (List.mem_append.mp hc).elim (hlink c) (ih c)

theorem bodyOf_chainText {nodes : List Node} (h : nodes ≠ []) :
    bodyOf (chainText nodes) = chainText nodes := by
  obtain ⟨node, nodes, rfl⟩ := List.exists_cons_of_ne_nil h
  obtain ⟨rest, hrest⟩ : ∃ rest, chainText (node :: nodes) = node.id.text ++ rest := by
    cases nodes with
    | nil => exact ⟨_, rfl⟩
    | cons next nodes => exact ⟨_, by rw [chainText_cons_cons, Node.text, List.append_assoc]⟩
  have hbreaks := not_isLineBreak_of_mem_chainText (node :: nodes)
  rw [hrest] at hbreaks ⊢
  exact bodyOf_id_append node.id fun c hc => hbreaks c (List.mem_append_right _ hc)

end Written

end Label

/-- From a row of nodes with different ids the labels are read as they were written, and the
greatest length is that of the widest of their texts. -/
theorem labelStats?_chainText (nodes : List Label.Written.Node) (hne : nodes ≠ [])
    (hids : (nodes.map fun node => node.id.text).Nodup) :
    ∃ stats, labelStats? (String.ofList (Label.Written.chainText nodes)) = some stats ∧
      stats.labels = nodes.map Label.Written.Node.pair ∧
      ∃ greatest : Nat, stats.maxLength = greatest ∧
        IsGreatest {n | ∃ node ∈ nodes, Label.effectiveLength node.label.text = n} greatest := by
  have hfirst : Label.firstDefinitions (Label.definitions (Label.bodyOf
      (String.ofList (Label.Written.chainText nodes)).toList)) =
        Label.Written.definitionsAt 0 nodes := by
    rw [String.toList_ofList, Label.Written.bodyOf_chainText hne,
      Label.Written.definitions_chainText, Label.Written.firstDefinitions_definitionsAt hids]
  have hsome : labelStats? (String.ofList (Label.Written.chainText nodes)) ≠ none := by
    rw [Ne, labelStats?_eq_none_iff, hfirst]
    intro hnil
    have hmap := Label.Written.map_definitionsAt (fun id _ => id) 0 nodes
    rw [hnil] at hmap
    exact hne (List.map_eq_nil_iff.mp hmap.symm)
  obtain ⟨stats, hstats⟩ := Option.ne_none_iff_exists'.mp hsome
  obtain ⟨hlabels, hlengths, -, hmax⟩ := eq_of_labelStats? hstats
  have hpairs : stats.labels = nodes.map Label.Written.Node.pair := by
    rw [hlabels, hfirst]
    exact Label.Written.map_definitionsAt
      (fun id label => (String.ofList id, String.ofList label)) 0 nodes
  have hset : {n | n ∈ stats.lengths} =
      {n | ∃ node ∈ nodes, Label.effectiveLength node.label.text = n} := by
    ext n
    simp [LabelStats.lengths, hpairs, Label.Written.Node.pair]
  refine ⟨stats, hstats, hpairs, _, hmax, ?_⟩
  rw [← hset]
  exact Label.isGreatest_foldl_max hlengths

/-- Three nodes whose texts hold a break tag, an arrow and a pipe. -/
def Label.Written.threeNodes : List Label.Written.Node :=
  [⟨{ Statement.Written.Id.single 'a' (by decide) with
        more := [⟨['1'], by simp, List.forall_mem_singleton.mpr (by decide)⟩] }, .subroutine,
      ⟨"one<br/>x".toList, by decide, by decide, forall_mem_of_all (by decide), by decide,
        by decide⟩⟩,
    ⟨.single 'b' (by decide), .doubleCircle,
      ⟨"t --> u".toList, by decide, by decide, forall_mem_of_all (by decide), by decide,
        by decide⟩⟩,
    ⟨.single 'c' (by decide), .quoted,
      ⟨"v | w".toList, by decide, by decide, forall_mem_of_all (by decide), by decide,
        by decide⟩⟩]

theorem labelStats?_chainText_three :
    String.ofList (Label.Written.chainText Label.Written.threeNodes) =
        "a-1[[one<br/>x]] --> b(((t --> u))) --> c[\"v | w\"]" ∧
      ∃ stats, labelStats? (String.ofList (Label.Written.chainText Label.Written.threeNodes)) =
          some stats ∧
        stats.labels = [("a-1", "one<br/>x"), ("b", "t --> u"), ("c", "v | w")] ∧
        stats.maxLength = 7 := by
  obtain ⟨stats, hstats, hlabels, greatest, hmax, hgreatest⟩ :=
    labelStats?_chainText Label.Written.threeNodes (by decide) (by decide)
  have hwidest : greatest = 7 := by
    obtain ⟨⟨node, hnode, rfl⟩, hle⟩ := hgreatest
    have hall : ∀ node ∈ Label.Written.threeNodes, Label.effectiveLength node.label.text ≤ 7 := by
      decide
    have hsome : ∃ node ∈ Label.Written.threeNodes, Label.effectiveLength node.label.text = 7 := by
      decide
    exact Nat.le_antisymm (hall node hnode) (hle hsome)
  refine ⟨by decide, stats, hstats, ?_, by rw [hmax, hwidest]; rfl⟩
  rw [hlabels]
  rfl

end DiagramReadability
