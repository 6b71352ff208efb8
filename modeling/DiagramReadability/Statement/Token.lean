import DiagramReadability.Edge
import DiagramReadability.Line.Nesting
import DiagramReadability.Text.WordChar

/-!
# Tokens of a connection statement

Nodes and arrows, each read off the front of a text.  A reader returns what it found together with
the rest of the text, and the lemmas say that the rest is shorter.
-/

namespace DiagramReadability.Statement

open DiagramReadability.Text
open DiagramReadability.Line (isOpener isCloser)

/-! ## Nodes -/

/-- A node as a statement names it: the anonymous marker `[*]` or an id. -/
inductive Node where
  | marker
  | named (id : List Char)
deriving Repr, DecidableEq

def markerText : List Char := ['[', '*', ']']

/-- Whether an id goes on with the text: a word character, or a hyphen before one. -/
def continuesId : List Char → Bool
  | c :: rest => isWord c || (c = '-' && (rest.head?).any isWord)
  | [] => false

def splitId : List Char → List Char × List Char
  | [] => ([], [])
  | c :: rest =>
      if continuesId (c :: rest) then (c :: (splitId rest).1, (splitId rest).2) else ([], c :: rest)

/-- Reads an id: words joined by single hyphens, as many as there are. -/
def readId? (s : List Char) : Option (List Char × List Char) :=
  if (s.head?).any isWord then some (splitId s) else none

/-- The rest of a text after the bracket that brings the count of open brackets back to zero, or
nothing when that never happens.  Brackets between double quotes do not count. -/
def skipBrackets (depth : Nat) (quoted : Bool) : List Char → List Char
  | [] => []
  | c :: rest =>
      if c = '"' then skipBrackets depth (!quoted) rest
      else if quoted then skipBrackets depth quoted rest
      else if isOpener c then skipBrackets (depth + 1) quoted rest
      else if isCloser c then
        if depth ≤ 1 then rest else skipBrackets (depth - 1) quoted rest
      else skipBrackets depth quoted rest

/-- The rest of a text after the shape it opens with, if any.  An asymmetric shape ends at the next
square bracket, all others where their brackets balance. -/
def skipShape : List Char → List Char
  | [] => []
  | c :: rest =>
      if c = '>' then (rest.dropWhile (· ≠ ']')).drop 1
      else if isOpener c then skipBrackets 1 false rest
      else c :: rest

def skipClass (s : List Char) : List Char :=
  match (after? [':', ':', ':'] s).bind readId? with
  | some (_, rest) => rest
  | none => s

/-- Reads a node with its shape and its class; a marker has no shape. -/
def readNode? (s : List Char) : Option (Node × List Char) :=
  match after? markerText s with
  | some rest => some (.marker, skipClass rest)
  | none => (readId? s).map fun (id, rest) => (.named id, skipClass (skipShape rest))

/-- The number of characters of the node name at the front of a text, zero when there is none. -/
def nodeNameLength (s : List Char) : Nat :=
  match after? markerText s with
  | some _ => 3
  | none =>
      match readId? s with
      | some (id, _) => id.length
      | none => 0

/-! ## Arrows -/

def afterShaft? (c : Char) (s : List Char) : Option (List Char) :=
  if 2 ≤ (s.takeWhile (· = c)).length then after? ['>'] (s.dropWhile (· = c)) else none

def fixedArrows : List (List Char × Arrow) := [
  ("<-.->".toList, .bidirectional), ("<==>".toList, .bidirectional),
  ("<-->".toList, .bidirectional), ("-.->".toList, .dotted)]

def readPlainArrow? (s : List Char) : Option (Arrow × List Char) :=
  (fixedArrows.findSome? fun (spelling, arrow) => (after? spelling s).map (arrow, ·)).or
    (((afterShaft? '=' s).map (Arrow.thick, ·)).or ((afterShaft? '-' s).map (Arrow.solid, ·)))

def openHalves : List (List Char × Arrow) := [
  (['-', '-'], .solid), (['=', '='], .thick), (['-', '.'], .dotted)]

def afterCloseHalf? (s : List Char) : Option (List Char) :=
  (afterShaft? '-' s).or ((afterShaft? '=' s).or (after? ['.', '-', '>'] s))

/-- Reads a text and the arrow half that ends it after blanks, the shortest such text.  A pipe or
an angle bracket cannot be part of it. -/
def readInlineText? : List Char → Option (List Char × List Char)
  | [] => none
  | c :: rest =>
      if c = '|' || c = '>' then none
      else
        match if startsBlank rest then afterCloseHalf? (trimStart rest) else none with
        | some after => some ([c], after)
        | none => (readInlineText? rest).map fun (text, after) => (c :: text, after)

/-- Reads the text and the second half of an arrow whose first half stands just before `s`.  Blanks
alone count as an empty text when there are three of them, one for each side and one between. -/
def readInlineTail? (s : List Char) : Option (Option (List Char) × List Char) :=
  if startsBlank s then
    match readInlineText? (trimStart s) with
    | some (text, after) => some (nonempty? (trim text), after)
    | none =>
        if 3 ≤ (s.takeWhile isBlank).length then
          (afterCloseHalf? (trimStart s)).map fun after => (none, after)
        else none
  else none

def readInlineArrow? (s : List Char) : Option (Arrow × Option (List Char) × List Char) :=
  openHalves.findSome? fun (half, arrow) =>
    ((after? half s).bind readInlineTail?).map fun (label, rest) => (arrow, label, rest)

def readArrow? (s : List Char) : Option (Arrow × Option (List Char) × List Char) :=
  match readPlainArrow? s with
  | some (arrow, rest) => some (arrow, none, rest)
  | none => readInlineArrow? s

/-! ## What is left after a token -/

theorem length_of_after? {lead s rest : List Char} (h : after? lead s = some rest) :
    s.length = lead.length + rest.length := by
  induction lead generalizing s with
  | nil => simp_all [after?]
  | cons l lead ih =>
      cases s with
      | nil => simp [after?] at h
      | cons c s =>
          by_cases hc : l = c
          · have := ih (s := s) (by simpa [after?, hc] using h)
            simp only [List.length_cons]
            omega
          · simp [after?, hc] at h

theorem length_dropWhile_le (p : Char → Bool) (s : List Char) :
    (s.dropWhile p).length ≤ s.length :=
  (List.dropWhile_sublist p).length_le

theorem length_trimStart_le (s : List Char) : (trimStart s).length ≤ s.length :=
  length_dropWhile_le isBlank s

theorem length_splitId (s : List Char) :
    (splitId s).1.length + (splitId s).2.length = s.length := by
  induction s with
  | nil => simp [splitId]
  | cons c rest ih =>
      by_cases h : continuesId (c :: rest) = true
      · simp only [splitId, h, if_true, List.length_cons]
        omega
      · simp [splitId, h]

theorem length_of_readId? {s id rest : List Char} (h : readId? s = some (id, rest)) :
    rest.length < s.length := by
  cases s with
  | nil => simp [readId?] at h
  | cons c s =>
      by_cases hc : isWord c = true
      · have hs : splitId (c :: s) = (id, rest) := by simpa [readId?, hc] using h
        have hid : (splitId (c :: s)).1 = c :: (splitId s).1 := by simp [splitId, continuesId, hc]
        have hlen := length_splitId (c :: s)
        rw [hid] at hlen
        rw [hs] at hlen
        simp only [List.length_cons] at hlen ⊢
        omega
      · simp [readId?, hc] at h

theorem length_skipBrackets_le (depth : Nat) (quoted : Bool) (s : List Char) :
    (skipBrackets depth quoted s).length ≤ s.length := by
  induction s generalizing depth quoted with
  | nil => simp [skipBrackets]
  | cons c rest ih =>
      simp only [skipBrackets, List.length_cons]
      split
      · exact Nat.le_succ_of_le (ih ..)
      · split
        · exact Nat.le_succ_of_le (ih ..)
        · split
          · exact Nat.le_succ_of_le (ih ..)
          · split
            · split
              · exact Nat.le_succ _
              · exact Nat.le_succ_of_le (ih ..)
            · exact Nat.le_succ_of_le (ih ..)

theorem length_skipShape_le (s : List Char) : (skipShape s).length ≤ s.length := by
  cases s with
  | nil => simp [skipShape]
  | cons c rest =>
      simp only [skipShape]
      split
      · have := length_dropWhile_le (· ≠ ']') rest
        simp only [List.length_drop, List.length_cons]
        omega
      · split
        · exact Nat.le_succ_of_le (length_skipBrackets_le ..)
        · exact Nat.le_refl _

theorem length_skipClass_le (s : List Char) : (skipClass s).length ≤ s.length := by
  unfold skipClass
  split
  · rename_i id rest h
    obtain ⟨t, ht, hr⟩ := Option.bind_eq_some_iff.1 h
    have h₁ := length_of_after? ht
    have h₂ := length_of_readId? hr
    omega
  · exact Nat.le_refl _

theorem length_of_readNode? {s rest : List Char} {node : Node}
    (h : readNode? s = some (node, rest)) : rest.length < s.length := by
  unfold readNode? at h
  split at h
  · rename_i t ht
    have h₁ := length_of_after? ht
    have h₂ := length_skipClass_le t
    simp only [Option.some.injEq, Prod.mk.injEq] at h
    obtain ⟨-, rfl⟩ := h
    have : markerText.length = 3 := rfl
    omega
  · obtain ⟨⟨id, t⟩, ht, hr⟩ := Option.map_eq_some_iff.1 h
    have h₁ := length_of_readId? ht
    have h₂ := length_skipShape_le t
    have h₃ := length_skipClass_le (skipShape t)
    simp only [Prod.mk.injEq] at hr
    obtain ⟨-, rfl⟩ := hr
    omega

theorem length_of_afterShaft? {c : Char} {s rest : List Char}
    (h : afterShaft? c s = some rest) : rest.length < s.length := by
  unfold afterShaft? at h
  split at h
  · have h₁ := length_of_after? h
    have h₂ := length_dropWhile_le (· = c) s
    simp only [List.length_cons, List.length_nil] at h₁
    omega
  · simp at h

theorem length_of_afterCloseHalf? {s rest : List Char}
    (h : afterCloseHalf? s = some rest) : rest.length < s.length := by
  unfold afterCloseHalf? at h
  rcases Option.or_eq_some_iff.1 h with h | ⟨-, h⟩
  · exact length_of_afterShaft? h
  · rcases Option.or_eq_some_iff.1 h with h | ⟨-, h⟩
    · exact length_of_afterShaft? h
    · have := length_of_after? h
      simp only [List.length_cons, List.length_nil] at this
      omega

theorem length_of_readPlainArrow? {s rest : List Char} {arrow : Arrow}
    (h : readPlainArrow? s = some (arrow, rest)) : rest.length < s.length := by
  unfold readPlainArrow? at h
  rcases Option.or_eq_some_iff.1 h with h | ⟨-, h⟩
  · obtain ⟨⟨spelling, kind⟩, hmem, h⟩ := List.exists_of_findSome?_eq_some h
    obtain ⟨t, ht, hr⟩ := Option.map_eq_some_iff.1 h
    have h₁ := length_of_after? ht
    have h₂ : 0 < spelling.length := by
      simp only [fixedArrows, List.mem_cons, List.not_mem_nil, or_false, Prod.mk.injEq] at hmem
      rcases hmem with ⟨rfl, -⟩ | ⟨rfl, -⟩ | ⟨rfl, -⟩ | ⟨rfl, -⟩ <;> decide
    simp only [Prod.mk.injEq] at hr
    obtain ⟨-, rfl⟩ := hr
    omega
  · rcases Option.or_eq_some_iff.1 h with h | ⟨-, h⟩ <;>
    · obtain ⟨t, ht, hr⟩ := Option.map_eq_some_iff.1 h
      simp only [Prod.mk.injEq] at hr
      obtain ⟨-, rfl⟩ := hr
      exact length_of_afterShaft? ht

theorem length_of_readInlineText? {s text rest : List Char}
    (h : readInlineText? s = some (text, rest)) : rest.length < s.length := by
  induction s generalizing text with
  | nil => simp [readInlineText?] at h
  | cons c s ih =>
      simp only [readInlineText?] at h
      split at h
      · simp at h
      · split at h
        · rename_i after hafter
          simp only [Option.some.injEq, Prod.mk.injEq] at h
          obtain ⟨-, rfl⟩ := h
          split at hafter
          · have h₁ := length_of_afterCloseHalf? hafter
            have h₂ := length_trimStart_le s
            simp only [List.length_cons]
            omega
          · simp at hafter
        · obtain ⟨⟨t, r⟩, ht, hr⟩ := Option.map_eq_some_iff.1 h
          simp only [Prod.mk.injEq] at hr
          obtain ⟨-, rfl⟩ := hr
          have := ih ht
          simp only [List.length_cons]
          omega

theorem length_of_readInlineTail? {s rest : List Char} {label : Option (List Char)}
    (h : readInlineTail? s = some (label, rest)) : rest.length < s.length := by
  unfold readInlineTail? at h
  split at h
  · split at h
    · rename_i text after hafter
      simp only [Option.some.injEq, Prod.mk.injEq] at h
      obtain ⟨-, rfl⟩ := h
      have h₁ := length_of_readInlineText? hafter
      have h₂ := length_trimStart_le s
      omega
    · split at h
      · obtain ⟨t, ht, hr⟩ := Option.map_eq_some_iff.1 h
        simp only [Prod.mk.injEq] at hr
        obtain ⟨-, rfl⟩ := hr
        have h₁ := length_of_afterCloseHalf? ht
        have h₂ := length_trimStart_le s
        omega
      · simp at h
  · simp at h

theorem length_of_readArrow? {s rest : List Char} {arrow : Arrow} {label : Option (List Char)}
    (h : readArrow? s = some (arrow, label, rest)) : rest.length < s.length := by
  unfold readArrow? at h
  split at h
  · rename_i kind t ht
    simp only [Option.some.injEq, Prod.mk.injEq] at h
    obtain ⟨-, -, rfl⟩ := h
    exact length_of_readPlainArrow? ht
  · obtain ⟨⟨half, kind⟩, -, h⟩ := List.exists_of_findSome?_eq_some h
    obtain ⟨⟨l, t⟩, ht, hr⟩ := Option.map_eq_some_iff.1 h
    obtain ⟨u, hu, ht⟩ := Option.bind_eq_some_iff.1 ht
    have h₁ := length_of_after? hu
    have h₂ := length_of_readInlineTail? ht
    simp only [Prod.mk.injEq] at hr
    obtain ⟨-, -, rfl⟩ := hr
    omega

end DiagramReadability.Statement
