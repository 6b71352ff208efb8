import DiagramReadability.Proofs.Label.Definitions
import DiagramReadability.Proofs.Statement.Origin
import DiagramReadability.Proofs.Text.Lines
import Mathlib.Data.List.Nodup

/-!
# The search for definitions

What it means that a definition stands in a text, said without the search.  The search goes over the
text once for each form of brackets.  It takes every definition that does not begin inside one taken
before, so what is found is determined by the text alone.
-/

namespace DiagramReadability.Label

open DiagramReadability.Text
open DiagramReadability.Line (isOpener isCloser)
open DiagramReadability.Statement

variable {b c : Bracket} {d e : Definition} {found other : List Definition}
variable {s t body : List Char} {start : Nat}

/-! ## Brackets -/

theorem Bracket.exists_opening_cons (b : Bracket) :
    ∃ c rest, b.opening = c :: rest ∧ isOpener c = true := by
  cases b <;> exact ⟨_, _, rfl, by decide⟩

theorem Bracket.closing_eq_cons (b : Bracket) : b.closing = b.stop :: b.closing.tail := by
  cases b <;> rfl

theorem Bracket.isOpener_of_mem_opening (b : Bracket) : ∀ c ∈ b.opening, isOpener c = true := by
  cases b <;> exact forall_mem_of_all (by decide)

theorem Bracket.isCloser_of_mem_closing (b : Bracket) : ∀ c ∈ b.closing, isCloser c = true := by
  cases b <;> exact forall_mem_of_all (by decide)

theorem Bracket.isCloser_stop (b : Bracket) : isCloser b.stop = true := by
  cases b <;> decide

theorem Bracket.eq_of_opening_append (h : b.opening ++ s = c.opening ++ t) : b = c := by
  revert h
  cases b <;> cases c <;> simp [Bracket.opening]

theorem after?_opening_of_ne (h : b ≠ c) (s : List Char) :
    after? b.opening (c.opening ++ s) = none := by
  by_contra hsome
  obtain ⟨rest, hrest⟩ := Option.ne_none_iff_exists'.mp hsome
  exact h (Bracket.eq_of_opening_append (eq_append_of_after? hrest).symm)

theorem exists_append_of_head {p : Char → Bool} {u v : List Char} (hs : ∀ x ∈ s, p x = true)
    (ht : ∀ x ∈ t.head?, p x = false) (h : s ++ u = v ++ t) : ∃ w, v = s ++ w ∧ u = w ++ t := by
  rcases List.append_eq_append_iff.mp h with hafter | ⟨w, hw, rfl⟩
  · exact hafter
  · -- otherwise `t` would begin with a character of `s`
    cases w with
    | nil => exact ⟨[], by simpa using hw.symm, rfl⟩
    | cons x w =>
      have hx := hs x (by simp [hw])
      rw [ht x rfl] at hx
      contradiction

theorem head?_opening_append (b : Bracket) (s : List Char) :
    ∀ x ∈ (b.opening ++ s).head?, isOpener x = true := by
  cases b <;> exact forall_mem_head?_cons (by decide) _

theorem head?_closing_append (b : Bracket) (s : List Char) :
    ∀ x ∈ (b.closing ++ s).head?, isCloser x = true := by
  cases b <;> exact forall_mem_head?_cons (by decide) _

/-- A text is cut in one way where its first bracket opens. -/
theorem eq_of_append_opening {u v : List Char} (hs : ∀ x ∈ s, isOpener x = false)
    (ht : ∀ x ∈ t, isOpener x = false) (h : s ++ (b.opening ++ u) = t ++ (c.opening ++ v)) :
    s = t ∧ b = c ∧ u = v := by
  obtain ⟨w, rfl, hw⟩ := exists_append_of_head (p := fun x => !isOpener x)
    (by simpa using hs) (by simpa using head?_opening_append c v) h
  have hnil : w = [] := by
    cases w with
    | nil => rfl
    | cons x w =>
      have hx := head?_opening_append b u x (by rw [hw]; rfl)
      rw [ht x (by simp)] at hx
      contradiction
  subst hnil
  rw [List.append_nil, List.nil_append] at *
  obtain rfl := Bracket.eq_of_opening_append hw
  exact ⟨rfl, rfl, List.append_cancel_left hw⟩

theorem isOpener_of_mem_id (id : Written.Id) : ∀ c ∈ id.text, isOpener c = false := by
  refine id.forall_mem_text (fun c hc => ?_) (by decide)
  by_contra hopener
  rw [Bool.not_eq_false] at hopener
  rw [isWord_of_isOpener hopener] at hc
  contradiction

theorem continuesId_opening (b : Bracket) (s : List Char) :
    continuesId (b.opening ++ s) = false := by
  obtain ⟨c, rest, heq, hc⟩ := b.exists_opening_cons
  have hhyphen : c ≠ '-' := by
    rintro rfl
    exact absurd hc (by decide)
  rw [heq]
  exact continuesId_of_ne (isWord_of_isOpener hc) hhyphen _

/-! ## Definitions in a text -/

/-- A definition with brackets of the form `b`, written out. -/
def Definition.text (b : Bracket) (d : Definition) : List Char :=
  d.id ++ (b.opening ++ (d.raw ++ b.closing))

/-- The place just behind the closing bracket of a definition. -/
def Definition.endOffset (b : Bracket) (d : Definition) : Nat :=
  d.offset + (d.text b).length

/-- The definition can be written with brackets of the form `b`: it has an id, and a label that is
not empty and does not hold the character that ends it. -/
structure Definition.WellFormed (b : Bracket) (d : Definition) : Prop where
  exists_id : ∃ id : Written.Id, id.text = d.id
  raw_ne_nil : d.raw ≠ []
  no_stop : b.stop ∉ d.raw

theorem Definition.WellFormed.text_ne_nil (h : d.WellFormed b) : d.text b ≠ [] := by
  intro hnil
  rw [Definition.text, List.append_eq_nil_iff, List.append_eq_nil_iff,
    List.append_eq_nil_iff] at hnil
  exact h.raw_ne_nil hnil.2.2.1

theorem Definition.WellFormed.offset_lt_endOffset (h : d.WellFormed b) :
    d.offset < d.endOffset b :=
  Nat.lt_add_of_pos_right (List.length_pos_iff.mpr h.text_ne_nil)

/-- The definition stands in the text at its place. -/
structure Definition.IsIn (body : List Char) (b : Bracket) (d : Definition) : Prop
    extends d.WellFormed b where
  placed : d.text b <+: body.drop d.offset

/-- A definition is read off the front of a text exactly where one stands. -/
theorem readDefinition?_eq_some_iff {id raw rest : List Char} (offset : Nat) :
    readDefinition? b s = some (id, raw, rest) ↔
      (⟨offset, id, raw⟩ : Definition).WellFormed b ∧
        s = (⟨offset, id, raw⟩ : Definition).text b ++ rest := by
  simp only [Definition.text, List.append_assoc]
  constructor
  · intro h
    obtain ⟨⟨id', behind⟩, hid, h⟩ := Option.bind_eq_some_iff.mp h
    obtain ⟨inside, hinside, h⟩ := Option.bind_eq_some_iff.mp h
    dsimp only at hinside h
    split at h
    · contradiction
    · rename_i hraw
      obtain ⟨rest', hrest, h⟩ := Option.map_eq_some_iff.mp h
      simp only [Prod.mk.injEq] at h
      obtain ⟨rfl, rfl, rfl⟩ := h
      refine ⟨⟨(exists_id_of_readId? hid).1, by rwa [List.isEmpty_iff] at hraw, ?_⟩, ?_⟩
      · intro hstop
        simpa using List.mem_takeWhile_imp hstop
      · rw [eq_append_of_readId? hid, eq_append_of_after? hinside, ← eq_append_of_after? hrest,
          List.takeWhile_append_dropWhile]
  · rintro ⟨⟨⟨id, rfl⟩, hraw, hstop⟩, rfl⟩
    -- the label goes up to the first character that ends one, which is that of the closing bracket
    have hbefore : ∀ c ∈ raw, decide (c ≠ b.stop) = true := by
      intro c hc
      rw [decide_eq_true_iff]
      rintro rfl
      exact hstop hc
    have hend : ¬ (fun c => decide (c ≠ b.stop)) b.stop = true := by simp
    have htake : (raw ++ (b.closing ++ rest)).takeWhile (· ≠ b.stop) = raw := by
      rw [b.closing_eq_cons, List.takeWhile_append_of_pos hbefore, List.cons_append,
        List.takeWhile_cons_of_neg (p := fun c => decide (c ≠ b.stop)) hend, List.append_nil]
    have hdrop : (raw ++ (b.closing ++ rest)).dropWhile (· ≠ b.stop) = b.closing ++ rest := by
      rw [List.dropWhile_append_of_pos hbefore, b.closing_eq_cons, List.cons_append,
        List.dropWhile_cons_of_neg (p := fun c => decide (c ≠ b.stop)) hend]
    rw [readDefinition?, readId?_text id (continuesId_opening b _), Option.bind_some]
    dsimp only
    rw [after?_append, Option.bind_some, htake, hdrop, after?_append,
      if_neg (by rwa [List.isEmpty_iff])]
    rfl

theorem Definition.IsIn.exists_readDefinition? (h : d.IsIn body b) :
    ∃ rest, body.drop d.offset = d.text b ++ rest ∧
      readDefinition? b (body.drop d.offset) = some (d.id, d.raw, rest) := by
  obtain ⟨rest, hrest⟩ := h.placed
  exact ⟨rest, hrest.symm, (readDefinition?_eq_some_iff d.offset).mpr ⟨h.toWellFormed, hrest.symm⟩⟩

theorem isIn_of_readDefinition? {offset : Nat} {id raw rest : List Char}
    (h : readDefinition? b (body.drop offset) = some (id, raw, rest)) :
    (⟨offset, id, raw⟩ : Definition).IsIn body b ∧
      body.drop offset = (⟨offset, id, raw⟩ : Definition).text b ++ rest := by
  obtain ⟨hd, htext⟩ := (readDefinition?_eq_some_iff offset).mp h
  exact ⟨⟨hd, ⟨rest, htext.symm⟩⟩, htext⟩

/-- At one place of a text stands one definition at most, in one form. -/
theorem Definition.IsIn.eq_of_offset_eq (hd : d.IsIn body b) (he : e.IsIn body c)
    (h : d.offset = e.offset) : b = c ∧ d = e := by
  obtain ⟨rest, hrest, hread⟩ := hd.exists_readDefinition?
  obtain ⟨rest', hrest', hread'⟩ := he.exists_readDefinition?
  obtain ⟨id, hid⟩ := hd.exists_id
  obtain ⟨id', hid'⟩ := he.exists_id
  have hboth : id.text ++ (b.opening ++ (d.raw ++ (b.closing ++ rest))) =
      id'.text ++ (c.opening ++ (e.raw ++ (c.closing ++ rest'))) := by
    rw [h, hrest'] at hrest
    rw [hid, hid']
    simpa only [Definition.text, List.append_assoc] using hrest.symm
  obtain ⟨-, rfl, -⟩ := eq_of_append_opening (isOpener_of_mem_id id) (isOpener_of_mem_id id') hboth
  rw [h, hread'] at hread
  obtain ⟨hids, hraws⟩ := Prod.mk.inj (Option.some.inj hread)
  refine ⟨rfl, ?_⟩
  obtain ⟨offset, id, raw⟩ := d
  obtain ⟨offset', id', raw'⟩ := e
  obtain rfl : offset = offset' := h
  obtain rfl : id' = id := hids
  obtain rfl : raw' = raw := (Prod.mk.inj hraws).1
  rfl

/-! ## One form of brackets -/

/-- The definitions that a search with brackets of the form `b` finds in a text from the place
`start` on: they follow each other without overlap, and a definition there is passed over only if it
begins inside one that is found. -/
structure IsScan (body : List Char) (b : Bracket) (start : Nat) (found : List Definition) :
    Prop where
  isIn : ∀ d ∈ found, d.IsIn body b ∧ start ≤ d.offset
  apart : found.Pairwise fun d e => d.endOffset b ≤ e.offset
  leftmost : ∀ d : Definition, d.IsIn body b → start ≤ d.offset →
    d ∈ found ∨ ∃ e ∈ found, e.offset < d.offset ∧ d.offset < e.endOffset b

theorem IsScan.ascending (h : IsScan body b start found) :
    found.Pairwise fun d e => d.offset < e.offset :=
  h.apart.imp_of_mem fun hd _ hle => Nat.lt_of_lt_of_le (h.isIn _ hd).1.offset_lt_endOffset hle

theorem IsScan.endOffset_le (h : IsScan body b start found) (hd : d ∈ found) (he : e ∈ found)
    (hlt : d.offset < e.offset) : d.endOffset b ≤ e.offset := by
  obtain ⟨i, hi, rfl⟩ := List.getElem_of_mem hd
  obtain ⟨j, hj, rfl⟩ := List.getElem_of_mem he
  rcases Nat.lt_trichotomy i j with hij | rfl | hji
  · exact List.pairwise_iff_getElem.mp h.apart i j hi hj hij
  · omega
  · have hbefore := List.pairwise_iff_getElem.mp h.ascending j i hj hi hji
    omega

/-- What a scan finds is determined by the text: whatever one scan finds, another one finds too. -/
theorem IsScan.mem_of_mem (h : IsScan body b start found) (h' : IsScan body b start other) :
    d ∈ found → d ∈ other := by
  induction hoffset : d.offset using Nat.strongRecOn generalizing d found other with
  | ind offset ih =>
    intro hd
    rcases h'.leftmost d (h.isIn d hd).1 (h.isIn d hd).2 with hmem | ⟨e, he, hlt, hover⟩
    · exact hmem
    · -- what passes `d` over begins earlier, so both scans find it
      have hle := h.endOffset_le (ih e.offset (by omega) h' h rfl he) hd hlt
      omega

theorem isScan_nil (h : body.drop start = []) : IsScan body b start [] where
  isIn := by simp
  apart := List.Pairwise.nil
  leftmost := by
    intro d hd hle
    obtain ⟨rest, hrest, -⟩ := hd.exists_readDefinition?
    have hlt := hd.offset_lt_endOffset
    have hnil : body.drop d.offset = [] := by
      rw [List.drop_eq_nil_iff] at h ⊢
      omega
    rw [hnil, List.nil_eq, List.append_eq_nil_iff] at hrest
    rw [Definition.endOffset, hrest.1] at hlt
    exact absurd hlt (Nat.lt_irrefl _)

theorem IsScan.pass (h : IsScan body b (start + 1) found)
    (hnone : ∀ d : Definition, d.IsIn body b → d.offset ≠ start) : IsScan body b start found where
  isIn := fun d hd => ⟨(h.isIn d hd).1, Nat.le_of_succ_le (h.isIn d hd).2⟩
  apart := h.apart
  leftmost := fun d hd hle => h.leftmost d hd (Nat.lt_of_le_of_ne hle (Ne.symm (hnone d hd)))

theorem IsScan.cons (h : IsScan body b (d.endOffset b) found) (hd : d.IsIn body b) :
    IsScan body b d.offset (d :: found) where
  isIn := by
    rw [List.forall_mem_cons]
    refine ⟨⟨hd, Nat.le_refl _⟩, fun e he => ⟨(h.isIn e he).1, ?_⟩⟩
    exact Nat.le_trans (Nat.le_of_lt hd.offset_lt_endOffset) (h.isIn e he).2
  apart := List.pairwise_cons.mpr ⟨fun e he => (h.isIn e he).2, h.apart⟩
  leftmost := by
    intro e he hle
    -- it is `d` itself, begins in `d`, or comes behind it
    rcases Nat.eq_or_lt_of_le hle with heq | hlt
    · rw [(hd.eq_of_offset_eq he heq).2]
      exact .inl List.mem_cons_self
    · by_cases hover : e.offset < d.endOffset b
      · exact .inr ⟨d, List.mem_cons_self, hlt, hover⟩
      · rcases h.leftmost e he (Nat.le_of_not_lt hover) with hmem | ⟨first, hmem, hfirst⟩
        · exact .inl (List.mem_cons_of_mem d hmem)
        · exact .inr ⟨first, List.mem_cons_of_mem d hmem, hfirst⟩

/-- The search from the place `offset` on, with `skip` characters left out, is a scan. -/
theorem isScan_definitionsFrom (b : Bracket) {offset : Nat} (skip : Nat)
    (hs : body.drop offset = s) :
    IsScan body b (offset + skip) (definitionsFrom b offset skip s) := by
  induction s generalizing offset skip with
  | nil =>
    apply isScan_nil
    rw [List.drop_eq_nil_iff] at hs ⊢
    omega
  | cons c s ih =>
    have htail : body.drop (offset + 1) = s := by
      rw [← List.drop_drop, hs]
      rfl
    cases skip with
    | succ skip =>
      rw [definitionsFrom, show offset + (skip + 1) = offset + 1 + skip by omega]
      exact ih skip htail
    | zero =>
      rw [definitionsFrom]
      cases hread : readDefinition? b (c :: s) with
      | some found =>
        obtain ⟨id, raw, rest⟩ := found
        rw [← hs] at hread
        obtain ⟨hd, htext⟩ := isIn_of_readDefinition? hread
        have hlength := congrArg List.length htext
        have hlt := hd.offset_lt_endOffset
        rw [hs, List.length_cons, List.length_append] at hlength
        rw [Definition.endOffset] at hlt
        -- the skip ends where the definition ends
        have hnext : offset + 1 + (s.length - rest.length) =
            (⟨offset, id, raw⟩ : Definition).endOffset b := by
          rw [Definition.endOffset]
          dsimp only at hlt ⊢
          omega
        have hscan := ih (s.length - rest.length) htail
        rw [hnext] at hscan
        exact hscan.cons hd
      | none =>
        apply (ih 0 htail).pass
        intro d hd hoffset
        obtain ⟨rest, -, hsome⟩ := hd.exists_readDefinition?
        rw [hoffset, hs, hread] at hsome
        contradiction

/-- A definition at the front of a text is found, and the search goes on behind it. -/
theorem definitionsFrom_text (h : d.WellFormed b) (t : List Char) :
    definitionsFrom b d.offset 0 (d.text b ++ t) = d :: definitionsFrom b (d.endOffset b) 0 t := by
  have hread : readDefinition? b (d.text b ++ t) = some (d.id, d.raw, t) :=
    (readDefinition?_eq_some_iff d.offset).mpr ⟨h, rfl⟩
  obtain ⟨c, s, htext⟩ := List.exists_cons_of_ne_nil h.text_ne_nil
  have hskip : (s ++ t).length - t.length = s.length := by
    rw [List.length_append, Nat.add_sub_cancel]
  rw [htext, List.cons_append] at hread
  rw [Definition.endOffset, htext, List.cons_append, definitionsFrom, hread]
  dsimp only
  rw [hskip, definitionsFrom_skip, List.length_cons, Nat.add_right_comm, Nat.add_assoc]

/-! ## All forms of brackets -/

/-- Definitions in the order of their places in the text. -/
def Ascending (found : List Definition) : Prop :=
  found.Pairwise fun d e => d.offset < e.offset

instance (found : List Definition) : Decidable (Ascending found) :=
  inferInstanceAs (Decidable (List.Pairwise _ found))

/-- The definitions that the searches with all forms of brackets find in a text, in the order of the
text. -/
structure IsSearch (body : List Char) (found : List Definition) : Prop where
  ascending : Ascending found
  exists_scans : ∃ scan : Bracket → List Definition,
    (∀ b, IsScan body b 0 (scan b)) ∧ ∀ d, d ∈ found ↔ ∃ b, d ∈ scan b

theorem IsSearch.exists_isIn (h : IsSearch body found) (hd : d ∈ found) : ∃ b, d.IsIn body b := by
  obtain ⟨scan, hscan, hmem⟩ := h.exists_scans
  obtain ⟨b, hb⟩ := (hmem d).mp hd
  exact ⟨b, ((hscan b).isIn d hb).1⟩

theorem Ascending.nodup (h : Ascending found) : found.Nodup :=
  h.imp fun hlt heq => absurd (congrArg Definition.offset heq) (Nat.ne_of_lt hlt)

theorem Ascending.eq_of_offset_eq (h : Ascending found) (hd : d ∈ found) (he : e ∈ found)
    (heq : d.offset = e.offset) : d = e := by
  obtain ⟨i, hi, rfl⟩ := List.getElem_of_mem hd
  obtain ⟨j, hj, rfl⟩ := List.getElem_of_mem he
  have hplaces := List.pairwise_iff_getElem.mp h
  rcases Nat.lt_trichotomy i j with hij | rfl | hji
  · exact absurd heq (Nat.ne_of_lt (hplaces i j hi hj hij))
  · rfl
  · exact absurd heq (Nat.ne_of_gt (hplaces j i hj hi hji))

theorem Ascending.eq_of_perm (h : Ascending found) (h' : Ascending other)
    (hperm : found.Perm other) : found = other :=
  hperm.eq_of_pairwise (fun _ _ _ _ hlt hgt => absurd hgt (Nat.lt_asymm hlt)) h h'

theorem ascending_mergeSort (hnodup : found.Nodup)
    (hplaces : ∀ d ∈ found, ∀ e ∈ found, d.offset = e.offset → d = e) :
    Ascending (found.mergeSort fun d e => d.offset ≤ e.offset) := by
  have hperm := List.mergeSort_perm found fun d e => d.offset ≤ e.offset
  have hsorted : (found.mergeSort fun d e => d.offset ≤ e.offset).Pairwise
      fun d e => decide (d.offset ≤ e.offset) = true :=
    List.pairwise_mergeSort (by simp only [decide_eq_true_iff]; omega)
      (by simp only [Bool.or_eq_true, decide_eq_true_iff]; omega) found
  -- the order is strict, as two definitions at one place would be one definition twice
  apply (hsorted.and (hperm.nodup_iff.mpr hnodup)).imp_of_mem
  rintro d e hd he ⟨hle, hne⟩
  rw [decide_eq_true_iff] at hle
  refine Nat.lt_of_le_of_ne hle fun heq => hne ?_
  exact hplaces d (hperm.mem_iff.mp hd) e (hperm.mem_iff.mp he) heq

/-- The definitions of all forms, put in the order of the text, are those of the text. -/
theorem definitions_eq_of_perm (h : Ascending found)
    (hperm : ([Bracket.square, .curly, .round].flatMap fun b => definitionsFrom b 0 0 body).Perm
      found) : definitions body = found := by
  have hsorted : Ascending (definitions body) := by
    apply ascending_mergeSort (hperm.nodup_iff.mpr h.nodup)
    intro d hd e he
    exact h.eq_of_offset_eq (hperm.mem_iff.mp hd) (hperm.mem_iff.mp he)
  exact hsorted.eq_of_perm h ((List.mergeSort_perm _ _).trans hperm)

theorem mem_definitions : d ∈ definitions body ↔ ∃ b, d ∈ definitionsFrom b 0 0 body := by
  rw [definitions, (List.mergeSort_perm _ _).mem_iff, List.mem_flatMap]
  refine exists_congr fun b => and_iff_right ?_
  cases b <;> decide

theorem isScan_definitionsFrom_zero (body : List Char) (b : Bracket) :
    IsScan body b 0 (definitionsFrom b 0 0 body) :=
  isScan_definitionsFrom b 0 List.drop_zero

theorem ascending_definitions (body : List Char) : Ascending (definitions body) := by
  have hisIn : ∀ b, ∀ d ∈ definitionsFrom b 0 0 body, d.IsIn body b := fun b d hd =>
    ((isScan_definitionsFrom_zero body b).isIn d hd).1
  apply ascending_mergeSort
  · rw [List.nodup_flatMap]
    refine ⟨fun b _ => Ascending.nodup (isScan_definitionsFrom_zero body b).ascending, ?_⟩
    -- one definition has one form of brackets only
    have hforms : [Bracket.square, .curly, .round].Nodup := by decide
    apply hforms.imp
    intro b c hne d hb hc
    exact hne ((hisIn b d hb).eq_of_offset_eq (hisIn c d hc) rfl).1
  · intro d hd e he heq
    obtain ⟨b, -, hb⟩ := List.mem_flatMap.mp hd
    obtain ⟨c, -, hc⟩ := List.mem_flatMap.mp he
    exact ((hisIn b d hb).eq_of_offset_eq (hisIn c e hc) heq).2

theorem isSearch_definitions (body : List Char) : IsSearch body (definitions body) where
  ascending := ascending_definitions body
  exists_scans := ⟨fun b => definitionsFrom b 0 0 body, isScan_definitionsFrom_zero body,
    fun _ => mem_definitions⟩

/-- There is one search of a text. -/
theorem isSearch_iff : IsSearch body found ↔ found = definitions body := by
  constructor
  · intro h
    obtain ⟨scan, hscan, hmem⟩ := h.exists_scans
    have hdefinitions := ascending_definitions body
    apply h.ascending.eq_of_perm hdefinitions
    rw [List.perm_ext_iff_of_nodup h.ascending.nodup hdefinitions.nodup]
    intro d
    rw [hmem, mem_definitions]
    have hzero := isScan_definitionsFrom_zero body
    exact exists_congr fun b => ⟨(hscan b).mem_of_mem (hzero b), (hzero b).mem_of_mem (hscan b)⟩
  · rintro rfl
    exact isSearch_definitions body

/-! ## The text that is searched -/

theorem isWord_of_isLineBreak {c : Char} (h : isLineBreak c = true) : isWord c = false := by
  have hcodes : ∀ n ∈ lineBreakRanges.codes, wordRanges.holds n = false := by decide +kernel
  exact hcodes c.toNat (CharRanges.mem_codes h)

theorem not_isLineBreak_of_isWord {c : Char} (h : isWord c = true) : isLineBreak c = false := by
  by_contra hbreak
  rw [Bool.not_eq_false] at hbreak
  rw [isWord_of_isLineBreak hbreak] at h
  contradiction

/-- A text on one line that begins with an id is no comment and is searched as it is. -/
theorem bodyOf_id_append (id : Written.Id) (hs : ∀ c ∈ s, isLineBreak c = false) :
    bodyOf (id.text ++ s) = id.text ++ s := by
  obtain ⟨c, rest, heq, hword⟩ := exists_id_cons id
  have hbreaks : ∀ c ∈ id.text ++ s, isLineBreak c = false := by
    intro c hc
    rcases List.mem_append.mp hc with hc | hc
    · exact id.forall_mem_text (fun _ => not_isLineBreak_of_isWord) (by decide) c hc
    · exact hs c hc
  have hblank : isBlank c = false := not_isBlank_of_isWord hword
  have hstart : trimStart (id.text ++ s) = c :: (rest ++ s) := by
    rw [heq, List.cons_append]
    exact trimStart_of_not_blank hblank
  have hkind : Line.kind (id.text ++ s) ≠ .comment :=
    kind_ne_comment_of_trimStart hstart hblank (ne_of_isWord hword (by decide))
  have hne : id.text ++ s ≠ [] := List.append_ne_nil_of_left_ne_nil (id_text_ne_nil id) s
  rw [bodyOf, lines_of_no_break hbreaks hne, List.map_singleton, if_neg hkind]
  rfl

end DiagramReadability.Label
