import DiagramReadability.Statement.Token

/-!
# Chains of connections

A chain is a node group, then any number of arrows, each with a further group behind it.  A group is
one node or several joined by ampersands, and an arrow connects every node before it with every node
after it.
-/

namespace DiagramReadability.Statement

open DiagramReadability.Text

structure Link where
  source : Node
  target : Node
  label : Option (List Char)
  arrow : Arrow
deriving Repr, DecidableEq

def readMembers (s : List Char) : List Node × List Char :=
  match hamp : trimStart s with
  | c :: rest =>
      if c = '&' then
        match hnode : readNode? (trimStart rest) with
        | some (node, after) =>
            have : after.length < s.length := by
              have h₁ := length_of_readNode? hnode
              have h₂ := length_trimStart_le rest
              have h₃ := length_trimStart_le s
              rw [hamp] at h₃
              simp only [List.length_cons] at h₃
              omega
            let (nodes, last) := readMembers after
            (node :: nodes, last)
        | none => ([], s)
      else ([], s)
  | [] => ([], s)
termination_by s.length

def readGroup? (s : List Char) : Option (List Node × List Char) :=
  (readNode? s).map fun (node, rest) =>
    let (nodes, last) := readMembers rest
    (node :: nodes, last)

inductive PipeLabel where
  | missing
  | unclosed
  | closed (label : Option (List Char)) (rest : List Char)

def readPipeLabel (s : List Char) : PipeLabel :=
  match s with
  | c :: rest =>
      if c = '|' then
        match rest.dropWhile (· ≠ '|') with
        | _ :: after => .closed (nonempty? (trim (rest.takeWhile (· ≠ '|')))) (trimStart after)
        | [] => .unclosed
      else .missing
  | [] => .missing

/-- The links of one arrow between two groups, source by source. -/
def linksBetween (sources targets : List Node) (label : Option (List Char)) (arrow : Arrow) :
    List Link :=
  sources.flatMap fun source => targets.map fun target => ⟨source, target, label, arrow⟩

theorem length_readMembers_le (s : List Char) : (readMembers s).2.length ≤ s.length := by
  fun_induction readMembers s with
  | case1 => simp_all; omega
  | case2 => simp
  | case3 => simp
  | case4 => simp

theorem length_of_readGroup? {s rest : List Char} {group : List Node}
    (h : readGroup? s = some (group, rest)) : rest.length < s.length := by
  unfold readGroup? at h
  obtain ⟨⟨node, t⟩, ht, hr⟩ := Option.map_eq_some_iff.1 h
  have h₁ := length_of_readNode? ht
  have h₂ := length_readMembers_le t
  simp only [Prod.mk.injEq] at hr
  obtain ⟨-, rfl⟩ := hr
  omega

theorem length_of_readPipeLabel {s rest : List Char} {label : Option (List Char)}
    (h : readPipeLabel s = .closed label rest) : rest.length ≤ s.length := by
  unfold readPipeLabel at h
  split at h
  · rename_i c t
    split at h
    · split at h
      · rename_i d after hdrop
        simp only [PipeLabel.closed.injEq] at h
        obtain ⟨-, rfl⟩ := h
        have h₁ := length_dropWhile_le (· ≠ '|') t
        have h₂ := length_trimStart_le after
        simp only [hdrop, List.length_cons] at h₁ ⊢
        omega
      · simp at h
    · simp at h
  · simp at h

/-- The label of an arrow and the text in which its target group is looked for, unless a pipe stays
open.  A label between pipes replaces the text inside the arrow. -/
def readLabel? (own : Option (List Char)) (s : List Char) :
    Option (Option (List Char) × List Char) :=
  match readPipeLabel s with
  | .missing => some (own, s)
  | .unclosed => none
  | .closed label rest => some (label, rest)

theorem length_of_readLabel? {own label : Option (List Char)} {s rest : List Char}
    (h : readLabel? own s = some (label, rest)) : rest.length ≤ s.length := by
  unfold readLabel? at h
  split at h
  · simp only [Option.some.injEq, Prod.mk.injEq] at h
    obtain ⟨-, rfl⟩ := h
    exact Nat.le_refl _
  · simp at h
  · rename_i l t ht
    simp only [Option.some.injEq, Prod.mk.injEq] at h
    obtain ⟨-, rfl⟩ := h
    exact length_of_readPipeLabel ht

/-- Reads arrows and groups after the group `sources`, as far as they go. -/
def readLinks (sources : List Node) (s : List Char) : List Link × List Char :=
  match harrow : readArrow? (trimStart s) with
  | none => ([], trimStart s)
  | some (arrow, own, afterArrow) =>
      match hlabel : readLabel? own (trimStart afterArrow) with
      | none => ([], trimStart afterArrow)
      | some (label, afterLabel) =>
          match hgroup : readGroup? afterLabel with
          | none => ([], afterLabel)
          | some (targets, afterGroup) =>
              have : afterGroup.length < s.length := by
                have h₁ := length_of_readGroup? hgroup
                have h₂ := length_of_readLabel? hlabel
                have h₃ := length_trimStart_le afterArrow
                have h₄ := length_of_readArrow? harrow
                have h₅ := length_trimStart_le s
                omega
              let (links, rest) := readLinks targets afterGroup
              (linksBetween sources targets label arrow ++ links, rest)
termination_by s.length

def readChain (s : List Char) : List Link × List Char :=
  match readGroup? s with
  | some (sources, rest) => readLinks sources rest
  | none => ([], s)

end DiagramReadability.Statement
