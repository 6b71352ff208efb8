import DiagramReadability.Source.FileSystem
import Mathlib

/-!
# Trees of files

In a tree every file and directory stands in a directory.  There a path that is put together from a
directory and the names below it leads where these names say (`IsTree.foldlM_step?`,
`locate?_below`).
-/

namespace DiagramReadability

namespace FileSystem

/-- The entries are a tree: each has a location of its own and stands in a directory, and no name on
the way to it reads like a step upward. -/
structure IsTree (fs : FileSystem) : Prop where
  nodup : (fs.entries.map Prod.fst).Nodup
  parent : ∀ e ∈ fs.entries, fs.isDirectoryAt e.1.dropLast = true
  named : ∀ e ∈ fs.entries, ".." ∉ e.1

variable {fs : FileSystem} {location names : List String}

theorem isDirectoryAt_iff :
    fs.isDirectoryAt location = true ↔ fs.at? location = some .directory := by
  unfold isDirectoryAt
  cases fs.at? location with
  | none => simp
  | some entry => cases entry <;> simp

theorem isSome_at?_iff (hne : location ≠ []) :
    (fs.at? location).isSome ↔ location ∈ fs.entries.map Prod.fst := by
  rw [at?, if_neg (by rwa [List.isEmpty_iff]), List.lookup_isSome_iff, List.mem_map]
  simp only [beq_iff_eq, @eq_comm _ location]

/-- Whatever stands below a location stands below a directory. -/
theorem IsTree.at?_eq_directory (htree : fs.IsTree) (hne : names ≠ [])
    (h : (fs.at? (location ++ names)).isSome) : fs.at? location = some .directory := by
  induction names using List.reverseRecOn with
  | nil => exact absurd rfl hne
  | append_singleton names last ih =>
    have hlast : location ++ (names ++ [last]) ≠ [] := by simp
    rw [isSome_at?_iff hlast, List.mem_map] at h
    obtain ⟨e, he, heq⟩ := h
    have hparent := isDirectoryAt_iff.mp (htree.parent e he)
    rw [heq, ← List.append_assoc, List.dropLast_concat] at hparent
    by_cases hnames : names = []
    · rwa [hnames, List.append_nil] at hparent
    · exact ih hnames (by rw [hparent]; rfl)

theorem IsTree.ne_up (htree : fs.IsTree) {name : String} (hmem : name ∈ names)
    (h : (fs.at? (location ++ names)).isSome) : name ≠ ".." := by
  have hne : location ++ names ≠ [] := by
    rw [Ne, List.append_eq_nil_iff, not_and_or]
    exact .inr (List.ne_nil_of_mem hmem)
  rw [isSome_at?_iff hne, List.mem_map] at h
  obtain ⟨e, he, heq⟩ := h
  have hup := htree.named e he
  rw [heq] at hup
  rintro rfl
  exact hup (List.mem_append_right _ hmem)

/-- The names that lead from a directory to something below it do so step by step. -/
theorem IsTree.foldlM_step? (htree : fs.IsTree) (h : (fs.at? (location ++ names)).isSome) :
    names.foldlM fs.step? location = some (location ++ names) := by
  induction names generalizing location with
  | nil => rw [List.append_nil]; rfl
  | cons name rest ih =>
    have hdir := htree.at?_eq_directory (List.cons_ne_nil name rest) h
    have hup := htree.ne_up List.mem_cons_self h
    rw [← List.singleton_append, ← List.append_assoc] at h
    have hfound : (fs.at? (location ++ [name])).isSome := by
      by_cases hrest : rest = []
      · rwa [hrest, List.append_nil] at h
      · rw [htree.at?_eq_directory hrest h]
        rfl
    obtain ⟨entry, hentry⟩ := Option.isSome_iff_exists.mp hfound
    have hstep : fs.step? location name = some (location ++ [name]) := by
      rw [step?, isDirectoryAt_iff.mpr hdir, if_neg (by decide), if_neg hup, hentry]
      rfl
    rw [List.foldlM_cons, hstep, ← List.singleton_append (l := rest), ← List.append_assoc]
    exact ih h

theorem locate?_below (fs : FileSystem) (p : Path) (names : List String) :
    fs.locate? (p.below names) =
      (fs.locate? p).bind fun location => names.foldlM fs.step? location :=
  List.foldlM_append

theorem isPrefixOf_and_length_lt_iff {other : List String} :
    (if location.isPrefixOf other && location.length < other.length then
        some (other.drop location.length) else none) = some names ↔
      names ≠ [] ∧ other = location ++ names := by
  constructor
  · intro h
    split at h
    · rename_i hbelow
      rw [Bool.and_eq_true, List.isPrefixOf_iff_prefix, decide_eq_true_eq] at hbelow
      obtain ⟨⟨rest, rfl⟩, hlen⟩ := hbelow
      rw [List.drop_left, Option.some.injEq] at h
      rw [List.length_append] at hlen
      subst h
      exact ⟨List.ne_nil_of_length_pos (by omega), rfl⟩
    · contradiction
  · rintro ⟨hne, rfl⟩
    have hlen := List.length_pos_of_ne_nil hne
    have hbelow : location.isPrefixOf (location ++ names) = true :=
      List.isPrefixOf_iff_prefix.mpr (List.prefix_append _ _)
    rw [hbelow, List.length_append, if_pos (by simpa using hlen), List.drop_left]

theorem namesBelow_eq (fs : FileSystem) (location : List String) :
    fs.namesBelow location = (fs.entries.map Prod.fst).filterMap fun other =>
      if location.isPrefixOf other && location.length < other.length then
        some (other.drop location.length)
      else none := by
  rw [List.filterMap_map]
  rfl

theorem mem_namesBelow :
    names ∈ fs.namesBelow location ↔ names ≠ [] ∧ (fs.at? (location ++ names)).isSome := by
  rw [namesBelow_eq, List.mem_filterMap]
  simp only [isPrefixOf_and_length_lt_iff]
  constructor
  · rintro ⟨other, hother, hne, rfl⟩
    exact ⟨hne, (isSome_at?_iff (by simp [hne])).mpr hother⟩
  · rintro ⟨hne, h⟩
    exact ⟨_, (isSome_at?_iff (by simp [hne])).mp h, hne, rfl⟩

theorem IsTree.nodup_namesBelow (htree : fs.IsTree) (location : List String) :
    (fs.namesBelow location).Nodup := by
  rw [namesBelow_eq]
  apply List.Nodup.filterMap _ htree.nodup
  intro first second names hfirst hsecond
  rw [Option.mem_def, isPrefixOf_and_length_lt_iff] at hfirst hsecond
  rw [hfirst.2, hsecond.2]

end FileSystem

end DiagramReadability
