import DiagramReadability.Label
import DiagramReadability.Proofs.Statement.Node

/-!
# Definitions behind a text

The search for definitions goes over a text in which none begins and finds those behind it as if
they stood alone.  A text without brackets is such a text, when no id goes on behind it.
-/

namespace DiagramReadability

open DiagramReadability.Text
open DiagramReadability.Line (isOpener)
open DiagramReadability.Statement (continuesId splitId readId?)

variable {s t : List Char}

/-- An id that ends before `t` leaves a part of the text in front of it. -/
theorem Statement.exists_splitId_append (ht : continuesId t = false) (s : List Char) :
    ∃ rest, (∀ c ∈ rest, c ∈ s) ∧ (splitId (s ++ t)).2 = rest ++ t := by
  induction s with
  | nil => exact ⟨[], by simp, by rw [List.nil_append, splitId_of_not_continues ht]⟩
  | cons c s ih =>
    rw [List.cons_append, splitId]
    split
    · obtain ⟨rest, hrest, heq⟩ := ih
      exact ⟨rest, fun d hd => List.mem_cons_of_mem c (hrest d hd), heq⟩
    · exact ⟨c :: s, fun d hd => hd, rfl⟩

namespace Label

theorem after?_opening_eq_none (b : Bracket) (hs : ∀ c ∈ s.head?, isOpener c = false) :
    after? b.opening s = none := by
  cases s with
  | nil => cases b <;> rfl
  | cons c s =>
    have hc := hs c rfl
    cases b <;> refine after?_cons_of_ne ?_ _ _ <;> rintro rfl <;> exact absurd hc (by decide)

/-- An id that ends before `t` defines nothing when `t` does not open with the bracket. -/
theorem readDefinition?_eq_none (b : Bracket) (hs : ∀ c ∈ s, isOpener c = false)
    (ht : continuesId t = false) (hopen : after? b.opening t = none) :
    readDefinition? b (s ++ t) = none := by
  unfold readDefinition? readId?
  split
  · obtain ⟨rest, hrest, heq⟩ := Statement.exists_splitId_append ht s
    have hnone : after? b.opening (rest ++ t) = none := by
      cases rest with
      | nil => exact hopen
      | cons c rest =>
        apply after?_opening_eq_none
        intro d hd
        exact hs d (hrest d (by rw [← Option.some.inj hd]; exact List.mem_cons_self))
    rw [Option.bind_some]
    dsimp only
    rw [heq, hnone, Option.bind_none]
  · rfl

theorem readDefinition?_of_not_word (b : Bracket) {c : Char} (hc : isWord c = false)
    (s : List Char) : readDefinition? b (c :: s) = none := by
  unfold readDefinition? readId?
  rw [List.head?_cons, Option.any_some, hc]
  rfl

/-- The search goes over a text in which no definition begins. -/
theorem definitionsFrom_append_of_none (b : Bracket) (offset : Nat)
    (hnone : ∀ u, u <:+ s → u ≠ [] → readDefinition? b (u ++ t) = none) :
    definitionsFrom b offset 0 (s ++ t) = definitionsFrom b (offset + s.length) 0 t := by
  induction s generalizing offset with
  | nil => rfl
  | cons c s ih =>
    have hhead := hnone (c :: s) List.suffix_rfl (List.cons_ne_nil c s)
    have htail : ∀ u, u <:+ s → u ≠ [] → readDefinition? b (u ++ t) = none := fun u hu =>
      hnone u (hu.trans (List.suffix_cons c s))
    rw [List.cons_append] at hhead ⊢
    rw [definitionsFrom, hhead]
    dsimp only
    rw [ih _ htail, List.length_cons, Nat.add_right_comm, Nat.add_assoc]

theorem definitionsFrom_append (b : Bracket) (offset : Nat) (hs : ∀ c ∈ s, isOpener c = false)
    (ht : continuesId t = false) (hopen : after? b.opening t = none) :
    definitionsFrom b offset 0 (s ++ t) = definitionsFrom b (offset + s.length) 0 t :=
  definitionsFrom_append_of_none b offset fun _ hu _ =>
    readDefinition?_eq_none b (fun c hc => hs c (hu.subset hc)) ht hopen

theorem definitionsFrom_append_of_not_word (b : Bracket) (offset : Nat)
    (hs : ∀ c ∈ s, isWord c = false) (t : List Char) :
    definitionsFrom b offset 0 (s ++ t) = definitionsFrom b (offset + s.length) 0 t := by
  apply definitionsFrom_append_of_none
  intro u hu hne
  obtain ⟨c, u, rfl⟩ := List.exists_cons_of_ne_nil hne
  exact readDefinition?_of_not_word b (hs c (hu.subset List.mem_cons_self)) (u ++ t)

/-- The characters of a definition that are still to come are left out. -/
theorem definitionsFrom_skip (b : Bracket) (offset : Nat) (s t : List Char) :
    definitionsFrom b offset s.length (s ++ t) = definitionsFrom b (offset + s.length) 0 t := by
  induction s generalizing offset with
  | nil => rfl
  | cons c s ih =>
    rw [List.cons_append, List.length_cons, definitionsFrom, ih, Nat.add_right_comm, Nat.add_assoc]

/-- Two texts without brackets, of the same length, define the same in front of the same text. -/
theorem definitions_append_congr {s' : List Char} (hs : ∀ c ∈ s, isOpener c = false)
    (hs' : ∀ c ∈ s', isOpener c = false) (hlength : s.length = s'.length)
    (ht : continuesId t = false) (hopen : ∀ c ∈ t.head?, isOpener c = false) :
    definitions (s ++ t) = definitions (s' ++ t) := by
  have hnone : ∀ b, after? (Bracket.opening b) t = none := fun b => after?_opening_eq_none b hopen
  unfold definitions
  simp only [definitionsFrom_append _ 0 hs ht (hnone _),
    definitionsFrom_append _ 0 hs' ht (hnone _), hlength]

end Label

theorem labelStats?_of_no_definitions {content : String}
    (h : ∀ b, Label.definitionsFrom b 0 0 (Label.bodyOf content.toList) = []) :
    labelStats? content = none := by
  unfold labelStats? Label.definitions
  simp only [List.flatMap_cons, List.flatMap_nil, h, List.append_nil, List.mergeSort_nil]
  rfl

end DiagramReadability
