import DiagramReadability.Proofs.Text.Lines
import DiagramReadability.Proofs.Text.Trim
import DiagramReadability.Source.Diagram

/-!
# Documents are read as they are written

A Markdown document is written as prose lines and fenced diagrams in any order, at the end possibly
a diagram whose closing fence is missing.  What is read from it are the closed diagrams, with their
bodies as they stand and the lines of their opening fences.
-/

namespace DiagramReadability.Fence

open DiagramReadability.Text

/-! ## Written documents -/

/-- A line without a break in it. -/
abbrev SingleLine := {s : List Char // ∀ c ∈ s, isLineBreak c = false}

/-- A line that is not the opening fence of a diagram. -/
structure Prose where
  line : SingleLine
  trimmed : ∀ n, 3 ≤ n → trim line.val ≠ List.replicate n mark ++ language

/-- The opening fence of a diagram, and lines below it that are too short a fence to close it or no
fence at all. -/
structure Unclosed where
  opener : SingleLine
  marks : Nat
  three_le : 3 ≤ marks
  opener_trimmed : trim opener.val = List.replicate marks mark ++ language
  body : List SingleLine
  body_trimmed : ∀ line ∈ body, ∀ n, marks ≤ n → trim line.val ≠ List.replicate n mark

/-- A diagram with a closing fence, which is at least as long as the opening one. -/
structure Closed extends Unclosed where
  closer : SingleLine
  closingMarks : Nat
  marks_le : marks ≤ closingMarks
  closer_trimmed : trim closer.val = List.replicate closingMarks mark

/-- A piece of a document. -/
inductive Segment where
  | prose (p : Prose)
  | closed (b : Closed)

/-- Pieces one below the other, and possibly a diagram that is never closed. -/
structure Document where
  segments : List Segment
  last : Option Unclosed

def Unclosed.lines (b : Unclosed) : List (List Char) :=
  b.opener.val :: b.body.map Subtype.val

def Segment.lines : Segment → List (List Char)
  | .prose p => [p.line.val]
  | .closed b => b.toUnclosed.lines ++ [b.closer.val]

def Document.lines (doc : Document) : List (List Char) :=
  doc.segments.flatMap Segment.lines ++ doc.last.elim [] Unclosed.lines

def Document.text (doc : Document) : String :=
  String.ofList (unlines doc.lines)

/-- The diagram of a block whose opening fence is the line `number`. -/
def Unclosed.diagram (b : Unclosed) (filePath : String) (number : Nat) : Diagram :=
  ⟨String.ofList (unlines (b.body.map Subtype.val)), filePath, number⟩

/-- The diagrams of pieces, the first of which begins on the line `number`. -/
def diagramsOf (filePath : String) (number : Nat) : List Segment → List Diagram
  | [] => []
  | .prose p :: rest => diagramsOf filePath (number + (Segment.prose p).lines.length) rest
  | .closed b :: rest =>
      b.diagram filePath number ::
        diagramsOf filePath (number + (Segment.closed b).lines.length) rest

/-! ## Single lines -/

theorem language_eq : language = 'm' :: "ermaid".toList := by
  decide

theorem opening?_eq_some_iff {line : List Char} {n : Nat} :
    opening? line = some n ↔ 3 ≤ n ∧ trim line = List.replicate n mark ++ language := by
  have hmarks : ∀ s : List Char,
      s.takeWhile (· = mark) = List.replicate (s.takeWhile (· = mark)).length mark := by
    intro s
    apply List.eq_replicate_of_mem
    intro c hc
    simpa using List.mem_takeWhile_imp hc
  unfold opening?
  dsimp only
  constructor
  · intro h
    split at h
    · rename_i hfence
      rw [Bool.and_eq_true, decide_eq_true_eq, decide_eq_true_eq] at hfence
      rw [← Option.some.inj h, ← hmarks, ← hfence.2, List.takeWhile_append_dropWhile]
      exact ⟨hfence.1, rfl⟩
    · contradiction
  · rintro ⟨hthree, htrim⟩
    have hne : 'm' ≠ mark := by decide
    rw [htrim, language_eq, takeWhile_replicate_append hne, dropWhile_replicate_append hne,
      List.length_replicate, ← language_eq]
    simp [hthree]

theorem opening?_eq_none_iff {line : List Char} :
    opening? line = none ↔ ∀ n, 3 ≤ n → trim line ≠ List.replicate n mark ++ language := by
  rw [Option.eq_none_iff_forall_ne_some]
  exact forall_congr' fun n => (not_congr opening?_eq_some_iff).trans not_and

theorem closing?_eq_some_iff {line : List Char} {n : Nat} :
    closing? line = some n ↔ 3 ≤ n ∧ trim line = List.replicate n mark := by
  unfold closing?
  dsimp only
  constructor
  · intro h
    split at h
    · rename_i hfence
      rw [Bool.and_eq_true, decide_eq_true_eq, List.all_eq_true] at hfence
      rw [← Option.some.inj h]
      refine ⟨hfence.1, List.eq_replicate_of_mem fun c hc => ?_⟩
      simpa using hfence.2 c hc
    · contradiction
  · rintro ⟨hthree, htrim⟩
    rw [htrim]
    simp [hthree]

/-- A line closes a block if it is a fence of at least as many marks. -/
theorem closes_iff {line : List Char} {marks : Nat} (hthree : 3 ≤ marks) :
    (closing? line).any (marks ≤ ·) = true ↔
      ∃ n, marks ≤ n ∧ trim line = List.replicate n mark := by
  rw [Option.any_eq_true]
  constructor
  · rintro ⟨n, hclose, hle⟩
    exact ⟨n, of_decide_eq_true hle, (closing?_eq_some_iff.mp hclose).2⟩
  · rintro ⟨n, hle, htrim⟩
    exact ⟨n, closing?_eq_some_iff.mpr ⟨by omega, htrim⟩, decide_eq_true hle⟩

theorem closes_eq_false_iff {line : List Char} {marks : Nat} (hthree : 3 ≤ marks) :
    (closing? line).any (marks ≤ ·) = false ↔
      ∀ n, marks ≤ n → trim line ≠ List.replicate n mark := by
  rw [← Bool.not_eq_true, closes_iff hthree]
  simp only [not_exists, not_and, ne_eq]

/-! ## Reading piece by piece -/

variable {filePath : String} {number : Nat}

theorem diagramsFrom_prose (p : Prose) (rest : List (List Char)) :
    diagramsFrom filePath number none ((Segment.prose p).lines ++ rest) =
      diagramsFrom filePath (number + (Segment.prose p).lines.length) none rest := by
  show diagramsFrom filePath number none (p.line.val :: rest) = _
  rw [diagramsFrom, opening?_eq_none_iff.mpr p.trimmed]
  rfl

theorem diagramsFrom_opener (b : Unclosed) (rest : List (List Char)) :
    diagramsFrom filePath number none (b.opener.val :: rest) =
      diagramsFrom filePath (number + 1) (some ⟨b.marks, number, []⟩) rest := by
  rw [diagramsFrom, opening?_eq_some_iff.mpr ⟨b.three_le, b.opener_trimmed⟩]
  rfl

variable {marks start : Nat} {kept : List (List Char)}

/-- Inside a block, every line that does not close it is kept.  The invariant links the lines that
have been kept, the last one first, to the part of the body that has been read. -/
theorem diagramsFrom_body (hthree : 3 ≤ marks) {body : List (List Char)}
    (hbody : ∀ line ∈ body, ∀ n, marks ≤ n → trim line ≠ List.replicate n mark)
    (rest : List (List Char)) :
    diagramsFrom filePath number (some ⟨marks, start, kept⟩) (body ++ rest) =
      diagramsFrom filePath (number + body.length) (some ⟨marks, start, body.reverse ++ kept⟩)
        rest := by
  induction body generalizing number kept with
  | nil => rfl
  | cons line body ih =>
    rw [List.forall_mem_cons] at hbody
    have hopen := (closes_eq_false_iff hthree).mpr hbody.1
    rw [List.cons_append, diagramsFrom, hopen, if_neg Bool.false_ne_true]
    dsimp only
    rw [ih hbody.2, List.length_cons, List.reverse_cons, List.append_assoc, List.singleton_append,
      Nat.add_assoc, Nat.add_comm 1 body.length]

theorem diagramsFrom_closer {closer : List Char} {n : Nat} (hthree : 3 ≤ marks) (hle : marks ≤ n)
    (htrim : trim closer = List.replicate n mark) (rest : List (List Char)) :
    diagramsFrom filePath number (some ⟨marks, start, kept⟩) (closer :: rest) =
      (Block.mk marks start kept).diagram filePath ::
        diagramsFrom filePath (number + 1) none rest := by
  rw [diagramsFrom, if_pos ((closes_iff hthree).mpr ⟨n, hle, htrim⟩)]

theorem diagramsFrom_unclosed (b : Unclosed) (rest : List (List Char)) :
    diagramsFrom filePath number none (b.lines ++ rest) =
      diagramsFrom filePath (number + b.lines.length)
        (some ⟨b.marks, number, (b.body.map Subtype.val).reverse⟩) rest := by
  have hbody : ∀ line ∈ b.body.map Subtype.val, ∀ n, b.marks ≤ n →
      trim line ≠ List.replicate n mark := by
    rw [List.forall_mem_map]
    exact b.body_trimmed
  unfold Unclosed.lines
  rw [List.cons_append, diagramsFrom_opener, diagramsFrom_body b.three_le hbody, List.append_nil,
    List.length_cons, Nat.add_right_comm, Nat.add_assoc]

theorem diagramsFrom_closed (b : Closed) (rest : List (List Char)) :
    diagramsFrom filePath number none ((Segment.closed b).lines ++ rest) =
      b.diagram filePath number ::
        diagramsFrom filePath (number + (Segment.closed b).lines.length) none rest := by
  unfold Segment.lines
  rw [List.append_assoc, diagramsFrom_unclosed, List.singleton_append,
    diagramsFrom_closer b.three_le b.marks_le b.closer_trimmed, List.length_append,
    List.length_singleton, ← Nat.add_assoc]
  unfold Block.diagram Unclosed.diagram
  rw [List.reverse_reverse]

theorem diagramsFrom_segments (segments : List Segment) (rest : List (List Char)) :
    diagramsFrom filePath number none (segments.flatMap Segment.lines ++ rest) =
      diagramsOf filePath number segments ++
        diagramsFrom filePath (number + (segments.flatMap Segment.lines).length) none rest := by
  induction segments generalizing number with
  | nil => rfl
  | cons s segments ih =>
    rw [List.flatMap_cons, List.append_assoc, List.length_append, ← Nat.add_assoc]
    cases s with
    | prose p => rw [diagramsFrom_prose, ih, diagramsOf]
    | closed b => rw [diagramsFrom_closed, ih, diagramsOf, List.cons_append]

/-- Lines at the end that leave a block open hold no diagram. -/
theorem diagramsFrom_last (last : Option Unclosed) :
    diagramsFrom filePath number none (last.elim [] Unclosed.lines) = [] := by
  cases last with
  | none => rfl
  | some b =>
    show diagramsFrom filePath number none b.lines = []
    rw [← b.lines.append_nil, diagramsFrom_unclosed]
    rfl

/-- An empty line at the end neither opens nor closes a block. -/
theorem diagramsFrom_empty_line (block : Option Block) (ls : List (List Char)) :
    diagramsFrom filePath number block (ls ++ [[]]) = diagramsFrom filePath number block ls := by
  have hopening : opening? [] = none := by decide
  have hclosing : closing? [] = none := by decide
  fun_induction diagramsFrom filePath number block ls with
  | case1 number block =>
    cases block with
    | none => rw [List.nil_append, diagramsFrom, hopening]; rfl
    | some block => rw [List.nil_append, diagramsFrom, hclosing]; rfl
  | case2 number line rest ih => rw [List.cons_append, diagramsFrom, ih]
  | case3 number block line rest hcloses ih =>
    rw [List.cons_append, diagramsFrom, if_pos hcloses, ih]
  | case4 number block line rest hopen ih =>
    rw [List.cons_append, diagramsFrom, if_neg hopen, ih]

theorem isSingleLine_lines (doc : Document) :
    ∀ line ∈ doc.lines, ∀ c ∈ line, isLineBreak c = false := by
  have hunclosed : ∀ b : Unclosed, ∀ line ∈ b.lines, ∀ c ∈ line, isLineBreak c = false := by
    intro b
    unfold Unclosed.lines
    rw [List.forall_mem_cons, List.forall_mem_map]
    exact ⟨b.opener.property, fun line _ => line.property⟩
  unfold Document.lines
  rw [List.forall_mem_append]
  constructor
  · rw [List.forall_mem_flatMap]
    intro s hs
    cases s with
    | prose p =>
      unfold Segment.lines
      rw [List.forall_mem_singleton]
      exact p.line.property
    | closed b =>
      unfold Segment.lines
      rw [List.forall_mem_append, List.forall_mem_singleton]
      exact ⟨hunclosed b.toUnclosed, b.closer.property⟩
  · cases doc.last with
    | none => exact List.forall_mem_nil _
    | some b => exact hunclosed b

/-- The lines of a document put together can lose an empty one at the end, which changes nothing. -/
theorem fencedDiagrams_text (doc : Document) (filePath : String) :
    fencedDiagrams doc.text filePath = diagramsFrom filePath 1 none doc.lines := by
  unfold fencedDiagrams Document.text
  rw [String.toList_ofList, lines_unlines (isSingleLine_lines doc)]
  split
  · rename_i hlast
    conv_rhs => rw [← List.dropLast_append_getLast? [] hlast]
    rw [diagramsFrom_empty_line]
  · rfl

/-! ## Whole documents -/

theorem diagramsOf_append (before after : List Segment) :
    diagramsOf filePath number (before ++ after) =
      diagramsOf filePath number before ++
        diagramsOf filePath (number + (before.flatMap Segment.lines).length) after := by
  induction before generalizing number with
  | nil => rfl
  | cons s before ih =>
    rw [List.flatMap_cons, List.length_append, ← Nat.add_assoc]
    cases s with
    | prose p => rw [List.cons_append, diagramsOf, ih, diagramsOf]
    | closed b => rw [List.cons_append, diagramsOf, ih, diagramsOf, List.cons_append]

/-- The diagrams in a written document are its closed blocks in their order, each with its body as
it stands and the number of the line that holds its opening fence, counted from one.  Prose and a
block that is never closed add nothing. -/
theorem fencedDiagrams_written (doc : Document) (filePath : String) :
    fencedDiagrams doc.text filePath = diagramsOf filePath 1 doc.segments ∧
      ∀ before b after, doc.segments = before ++ .closed b :: after →
        ∃ index, doc.lines[index]? = some b.opener.val ∧
          fencedDiagrams doc.text filePath =
            diagramsOf filePath 1 before ++ b.diagram filePath (index + 1) ::
              diagramsOf filePath (index + 1 + (Segment.closed b).lines.length) after := by
  have hall : fencedDiagrams doc.text filePath = diagramsOf filePath 1 doc.segments := by
    rw [fencedDiagrams_text]
    unfold Document.lines
    rw [diagramsFrom_segments, diagramsFrom_last, List.append_nil]
  refine ⟨hall, fun before b after hsplit => ⟨(before.flatMap Segment.lines).length, ?_, ?_⟩⟩
  · unfold Document.lines
    rw [hsplit, List.flatMap_append, List.append_assoc, List.getElem?_append_right (Nat.le_refl _),
      Nat.sub_self]
    rfl
  · rw [hall, hsplit, diagramsOf_append, diagramsOf, Nat.add_comm 1]

/-- A fence of four marks goes around shorter ones, and the last block is never closed. -/
def nestedFences : Document where
  segments := [
    .prose {
      line := ⟨"Steps:".toList, forall_mem_of_all (by decide)⟩
      trimmed := opening?_eq_none_iff.mp (by decide) },
    .closed {
      opener := ⟨"````mermaid".toList, forall_mem_of_all (by decide)⟩
      marks := 4
      three_le := by decide
      opener_trimmed := by decide
      body := [
        ⟨"```mermaid".toList, forall_mem_of_all (by decide)⟩,
        ⟨"A --> B".toList, forall_mem_of_all (by decide)⟩,
        ⟨"  ```".toList, forall_mem_of_all (by decide)⟩]
      body_trimmed := by
        simp only [List.forall_mem_cons, ← closes_eq_false_iff (show 3 ≤ 4 by decide)]
        decide
      closer := ⟨"`````".toList, forall_mem_of_all (by decide)⟩
      closingMarks := 5
      marks_le := by decide
      closer_trimmed := by decide }]
  last := some {
    opener := ⟨"```mermaid".toList, forall_mem_of_all (by decide)⟩
    marks := 3
    three_le := by decide
    opener_trimmed := by decide
    body := [⟨"C --> D".toList, forall_mem_of_all (by decide)⟩]
    body_trimmed := by
      rw [List.forall_mem_singleton, ← closes_eq_false_iff (show 3 ≤ 3 by decide)]
      decide }

theorem fencedDiagrams_written_nestedFences :
    nestedFences.text =
        "Steps:\n````mermaid\n```mermaid\nA --> B\n  ```\n`````\n```mermaid\nC --> D" ∧
      fencedDiagrams nestedFences.text "steps.md" =
        [⟨"```mermaid\nA --> B\n  ```", "steps.md", 2⟩] := by
  refine ⟨by decide, ?_⟩
  rw [(fencedDiagrams_written nestedFences "steps.md").1]
  decide

end DiagramReadability.Fence
