import DiagramReadability.Proofs.Statement.Rest

/-!
# Text inside shapes

A node with its shape is read whole and no arrow comes after it.  What the shape holds can then give
edges only through the scan for later starts.  That scan counts brackets, so it finds none before a
bracketed shape ends.  It does not know asymmetric shapes: their text is read like a statement.
-/

namespace DiagramReadability.Statement

open DiagramReadability.Text
open DiagramReadability.Line (Nesting isOpener isCloser)

/-! ## The chain of the node itself -/

/-- A shape opens with a bracket or an angle bracket. -/
theorem exists_shape_cons (shape : Written.Shape) :
    ∃ c rest, shape.text = c :: rest ∧ c ∈ ['[', '(', '\x7b', '>'] := by
  cases shape with
  | asymmetric s h => exact ⟨'>', s ++ [']'], rfl, by decide⟩
  | bracketed s h =>
      obtain ⟨c, rest, rfl, hopener⟩ := h.opens
      refine ⟨c, rest, rfl, ?_⟩
      rw [isOpener, Bool.or_eq_true, Bool.or_eq_true, decide_eq_true_iff, decide_eq_true_iff,
        decide_eq_true_iff] at hopener
      rcases hopener with (rfl | rfl) | rfl <;> decide

/-- No arrow begins like a shape, and nothing of a shape can be read as part of a marker before
it. -/
theorem readChain_marker_shape (shape : Written.Shape) :
    (readChain (markerText ++ shape.text)).1 = [] := by
  obtain ⟨c, rest, heq, hc⟩ := exists_shape_cons shape
  have hends : c ≠ ':' ∧ isBlank c = false ∧ c ≠ '&' ∧ c ≠ '<' ∧ c ≠ '-' ∧ c ≠ '=' := by
    rw [List.mem_cons, List.mem_cons, List.mem_cons, List.mem_singleton] at hc
    rcases hc with rfl | rfl | rfl | rfl <;> decide
  obtain ⟨hcolon, hblank, hamp, hless, hhyphen, hequals⟩ := hends
  have hstart : trimStart (c :: rest) = c :: rest := trimStart_of_not_blank hblank
  have harrow : readArrow? (c :: rest) = none := by
    have hplain : readPlainArrow? (c :: rest) = none := by
      simp [readPlainArrow?, fixedArrows, afterShaft?, after?, hless.symm, hhyphen, hequals,
        hhyphen.symm]
    have hinline : readInlineArrow? (c :: rest) = none := by
      simp [readInlineArrow?, openHalves, after?, hhyphen.symm, hequals.symm]
    rw [readArrow?, hplain, hinline]
  have hgroup : readGroup? (markerText ++ (c :: rest)) = some ([.marker], c :: rest) := by
    have hnode := readNode?_marker (c :: rest)
    rw [skipClass_of_ne hcolon] at hnode
    have hmembers : readMembers (c :: rest) = ([], c :: rest) := by
      apply readMembers_stop
      rw [hstart, List.head?_cons, Ne, Option.some.injEq]
      exact hamp
    rw [readGroup?_of_readNode? hnode, hmembers]
  rw [heq, readChain, hgroup]
  show (readLinks [.marker] (c :: rest)).1 = []
  rw [readLinks_stop (by rw [hstart]; exact harrow)]

theorem readChain_shape (node : Written.BareNode) (shape : Written.Shape) :
    (readChain (node.text ++ shape.text)).1 = [] := by
  cases node with
  | marker => exact readChain_marker_shape shape
  | named id =>
      -- a node with its shape is a group on its own, and nothing is left for an arrow
      have hchain := readChain_text ⟨⟨.named id (some shape), none⟩, []⟩ [] endsChain_nil
      have htext : Written.Group.text ⟨⟨.named id (some shape), none⟩, []⟩ ++
          (([] : List Written.Hop).flatMap Written.Hop.text ++ []) = id.text ++ shape.text := by
        simp [Written.Group.text, Written.Node.text, Written.Name.text, Written.shapeText,
          Written.classText]
      rw [htext] at hchain
      exact congrArg Prod.fst hchain

/-! ## Starts inside bracketed shapes -/

/-- Where something is open, or opened, the scan for starts counts brackets like a shape does. -/
theorem step_eq_bracketStep {n : Nesting} {c : Char} (h : 0 < n.depth ∨ isOpener c = true) :
    (((n.step c).depth : Int), (n.step c).quoted) =
      Written.bracketStep ((n.depth : Int), n.quoted) c := by
  obtain ⟨depth, quoted, piped⟩ := n
  rw [Nesting.step, Written.bracketStep]
  by_cases hquote : c = '"'
  · rw [if_pos hquote, if_pos hquote]
  · rw [if_neg hquote, if_neg hquote]
    cases quoted with
    | true => rfl
    | false =>
        rw [if_neg Bool.false_ne_true, if_neg Bool.false_ne_true]
        -- a pipe counts for the scan alone and is no bracket
        by_cases hpipe : c = '|'
        · rw [if_pos hpipe, hpipe]
          rfl
        · rw [if_neg hpipe]
          by_cases hopener : isOpener c = true
          · rw [if_pos hopener, if_pos hopener]
            rfl
          · rw [if_neg hopener, if_neg hopener]
            by_cases hcloser : isCloser c = true
            · rw [if_pos hcloser, if_pos hcloser]
              have hdepth : 0 < depth := h.resolve_right hopener
              have hcast : ((depth - 1 : Nat) : Int) = (depth : Int) - 1 := by omega
              exact congrArg (·, false) hcast
            · rw [if_neg hcloser, if_neg hcloser]

/-- A text at whose characters the count is never zero closes nothing that was open before it. -/
theorem depth_run_pos {s : List Char} {n : Nesting} (hdepth : 0 < n.depth)
    (hcount : ∀ p, p <+: s → (p.foldl Written.bracketStep ((n.depth : Int), n.quoted)).1 ≠ 0) :
    0 < (n.run s).depth := by
  induction s generalizing n with
  | nil => exact hdepth
  | cons c s ih =>
      have hstep := step_eq_bracketStep (c := c) (.inl hdepth)
      have hone := hcount [c] ⟨s, rfl⟩
      rw [List.foldl_cons, List.foldl_nil, ← hstep] at hone
      apply ih (n := n.step c)
      · exact Nat.pos_of_ne_zero (Int.natCast_ne_zero.mp hone)
      · intro p hp
        have hcons := hcount (c :: p) ((List.prefix_cons_inj c).mpr hp)
        rwa [List.foldl_cons, ← hstep] at hcons

/-- The scan is inside from the first character of a bracketed shape to its last. -/
theorem not_isOutside_of_bracketed {s before after : List Char} (h : Written.IsBracketed s)
    (heq : s = before ++ after) (hbefore : before ≠ []) (hafter : after ≠ []) :
    (Nesting.start.run before).isOutside = false := by
  obtain ⟨c, block, hs, hopener⟩ := h.opens
  obtain ⟨d, inner, rfl⟩ := List.exists_cons_of_ne_nil hbefore
  rw [hs, List.cons_append, List.cons.injEq] at heq
  obtain ⟨rfl, rfl⟩ := heq
  have hstep : (((Nesting.start.step c).depth : Int), (Nesting.start.step c).quoted) =
      Written.bracketStep (0, false) c := step_eq_bracketStep (.inr hopener)
  have hdepth : 0 < (Nesting.start.run (c :: inner)).depth := by
    apply depth_run_pos (n := Nesting.start.step c)
    · have hone := h.not_before [c] ⟨inner ++ after, by rw [hs]; rfl⟩ (List.cons_ne_nil c [])
        (by rw [hs]; simp [hafter])
      rw [Written.bracketCount, List.foldl_cons, List.foldl_nil, ← hstep] at hone
      exact Nat.pos_of_ne_zero (Int.natCast_ne_zero.mp hone)
    · intro p hp
      obtain ⟨rest, rfl⟩ := hp
      have hcount := h.not_before (c :: p) ⟨rest ++ after, by rw [hs]; simp⟩
        (List.cons_ne_nil c p) (by rw [hs]; simp [hafter])
      rwa [Written.bracketCount, List.foldl_cons, ← hstep] at hcount
  rw [Nesting.isOutside, decide_eq_false (Nat.ne_of_gt hdepth)]
  rfl

/-- A bracketed shape is a start itself when it reads like a marker, and holds no other one. -/
theorem eq_markerText_of_mem_nodeStarts {s start : List Char} (h : Written.IsBracketed s)
    (hstart : start ∈ nodeStarts s) : start = markerText := by
  obtain ⟨before, heq, hout, hname⟩ := isStartIn_of_mem hstart
  have hne : start ≠ [] := by
    rintro rfl
    exact hname rfl
  by_cases hbefore : before = []
  · rw [hbefore, List.nil_append] at heq
    rw [← heq] at hname ⊢
    obtain ⟨c, rest, hs, hopener⟩ := h.opens
    -- a name that begins with a bracket is a marker, and with that the brackets are closed
    cases hmarker : after? markerText s with
    | none =>
        rw [nodeNameLength, hmarker, hs, readId?, List.head?_cons, Option.any_some,
          isWord_of_isOpener hopener] at hname
        exact absurd rfl hname
    | some after =>
        have hsplit := eq_append_of_after? hmarker
        by_contra hlong
        exact h.not_before markerText ⟨after, hsplit.symm⟩ (by decide) (Ne.symm hlong) (by decide)
  · rw [not_isOutside_of_bracketed h heq hbefore hne] at hout
    contradiction

/-! ## Statements of a node alone -/

/-- A node with its shape and nothing else has no edge when the shape is bracketed, whatever it
holds.  Of an asymmetric shape the text and its closing bracket are read as a statement. -/
theorem shapeText_edges (node : Written.BareNode) (shape : Written.Shape) :
    statementEdges (String.ofList (node.text ++ shape.text)) =
      match shape with
      | .bracketed _ _ => []
      | .asymmetric s _ => statementEdges (String.ofList (s ++ [']'])) := by
  have hends := continuesId_shape shape []
  rw [List.append_nil] at hends
  rw [statementEdges, String.toList_ofList, edgesOf_passed_over node hends
    (readChain_shape node shape)]
  cases shape with
  | bracketed s h =>
      apply edgesOf_of_no_chain
      intro start hstart
      rw [eq_markerText_of_mem_nodeStarts h hstart]
      exact readChain_of_no_angle (by decide)
  | asymmetric s h =>
      -- the angle bracket is no name and hides nothing from the scan for starts
      have hstarts : nodeStarts ('>' :: (s ++ [']'])) = nodeStarts (s ++ [']']) :=
        nodeStartsFrom_nameless rfl
      show edgesOf ('>' :: (s ++ [']'])) = edgesOf (String.ofList (s ++ [']'])).toList
      rw [String.toList_ofList, edgesOf, edgesOf, firstChain?, firstChain?, hstarts]

/-- The text of an asymmetric shape makes an edge. -/
theorem asymmetric_text_makes_edge :
    ∃ (id : Written.Id) (shape : Written.Shape),
      String.ofList (id.text ++ shape.text) = "A>b --> c]" ∧
        statementEdges "A>b --> c]" = [⟨"b", "c", none, .solid⟩] := by
  let node : Written.Id := ⟨⟨['A'], by simp, List.forall_mem_singleton.mpr (by decide)⟩, []⟩
  let shape : Written.Shape := .asymmetric "b --> c".toList (by decide)
  refine ⟨node, shape, by decide, ?_⟩
  decide +kernel

end DiagramReadability.Statement
