import DiagramReadability.Proofs.Source.Tree
import DiagramReadability.Source.Collect
import Mathlib

/-!
# Every file once

The arguments of a run overlap: a file may be listed, lie below a listed directory and be spelled in
many ways.  Of all paths that the arguments stand for, in their order, those are kept to whose
location none before leads.  Main statement: in a tree of files nothing is lost or taken twice in
this way (`collect_each_once`).
-/

namespace DiagramReadability

/-! ## The order of paths -/

namespace Path

theorem namesLe_iff {a b : List String} : namesLe a b = true ↔ a < b ∨ a = b := by
  induction a generalizing b with
  | nil =>
    cases b with
    | nil => simp [namesLe]
    | cons name rest => simp [namesLe]
  | cons name rest ih =>
    cases b with
    | nil => simp [namesLe]
    | cons other rest' =>
      rw [namesLe, List.cons_lt_cons_iff, List.cons.injEq]
      by_cases h : name = other
      · rw [if_pos h, ih]
        simp [h]
      · rw [if_neg h]
        simp [h]

theorem namesLe_trans (a b c : List String) (hab : namesLe a b = true) (hbc : namesLe b c = true) :
    namesLe a c = true := by
  rw [namesLe_iff, ← le_iff_lt_or_eq] at *
  exact hab.trans hbc

theorem namesLe_total (a b : List String) : (namesLe a b || namesLe b a) = true := by
  rw [Bool.or_eq_true, namesLe_iff, namesLe_iff, ← le_iff_lt_or_eq, ← le_iff_lt_or_eq]
  exact le_total a b

end Path

/-! ## What the arguments stand for -/

namespace Source

/-- A listed path stands for itself if a file is there, and if a directory is there for everything
below it whose name is wanted, under the path that leads there through the directory. -/
inductive StandsFor (fs : FileSystem) (p : Path) : Path → List String → Prop where
  | file {location : List String} {content : ByteArray} :
      fs.locate? p = some location → fs.at? location = some (.file content) →
      StandsFor fs p p location
  | below {directory names : List String} {name : String} :
      fs.locate? p = some directory → fs.at? directory = some .directory →
      (fs.at? (directory ++ (names ++ [name]))).isSome →
      ".mmd".toList <:+ name.toList ∨ ".md".toList <:+ name.toList →
      StandsFor fs p (p.below (names ++ [name])) (directory ++ (names ++ [name]))

variable {fs : FileSystem}

theorem isWanted_iff {name : String} :
    isWanted name = true ↔ ".mmd".toList <:+ name.toList ∨ ".md".toList <:+ name.toList := by
  have hends : ∀ ending : String, name.endsWith ending = true ↔ ending.toList <:+ name.toList := by
    intro ending
    rw [String.endsWith_eq_endsWith_toSlice, String.Slice.endsWith_string_iff, String.copy_toSlice]
  rw [isWanted, Bool.or_eq_true, hends, hends]

/-- A path that is stood for leads to where it says. -/
theorem StandsFor.locate?_eq (htree : fs.IsTree) {p q : Path} {location : List String}
    (h : StandsFor fs p q location) : fs.locate? q = some location := by
  cases h with
  | file hlocate _ => exact hlocate
  | below hlocate _ hfound _ =>
    rw [FileSystem.locate?_below, hlocate]
    exact htree.foldlM_step? hfound

theorem mem_wantedBelow {p q : Path} {directory : List String} :
    q ∈ wantedBelow fs p directory ↔ ∃ names name, q = p.below (names ++ [name]) ∧
      (fs.at? (directory ++ (names ++ [name]))).isSome ∧ isWanted name = true := by
  rw [wantedBelow, List.mem_map]
  simp only [List.mem_mergeSort, List.mem_filter, FileSystem.mem_namesBelow]
  constructor
  · rintro ⟨all, ⟨⟨hne, hfound⟩, hwanted⟩, rfl⟩
    obtain ⟨names, name, rfl⟩ := (List.eq_nil_or_concat' all).resolve_left hne
    rw [List.getLast?_concat, Option.any_some] at hwanted
    exact ⟨names, name, rfl, hfound, hwanted⟩
  · rintro ⟨names, name, rfl, hfound, hwanted⟩
    refine ⟨names ++ [name], ⟨⟨by simp, hfound⟩, ?_⟩, rfl⟩
    rw [List.getLast?_concat, Option.any_some]
    exact hwanted

/-- What a directory stands for comes in the order of the paths. -/
theorem pairwise_wantedBelow (htree : fs.IsTree) (p : Path) (directory : List String) :
    (wantedBelow fs p directory).Pairwise fun q r => q.names < r.names := by
  rw [wantedBelow, List.pairwise_map]
  have hsorted := List.pairwise_mergeSort Path.namesLe_trans Path.namesLe_total
    ((fs.namesBelow directory).filter fun names => (names.getLast?).any isWanted)
  have hnodup := ((htree.nodup_namesBelow directory).filter
    fun names => (names.getLast?).any isWanted)
  rw [← (List.mergeSort_perm _ Path.namesLe).nodup_iff] at hnodup
  refine (hsorted.and hnodup).imp fun ⟨hle, hne⟩ => ?_
  exact List.append_left_lt ((Path.namesLe_iff.mp hle).resolve_right hne)

theorem mem_expand?_of_standsFor {p q : Path} {location : List String}
    (h : StandsFor fs p q location) : q ∈ (expand? fs p).getD [] := by
  cases h with
  | file hlocate hfile =>
    rw [expand?, hlocate, Option.bind_some, hfile]
    exact List.mem_singleton_self _
  | below hlocate hdirectory hfound hwanted =>
    rw [expand?, hlocate, Option.bind_some, hdirectory]
    exact mem_wantedBelow.mpr ⟨_, _, rfl, hfound, isWanted_iff.mpr hwanted⟩

theorem exists_standsFor_of_mem {p q : Path} (h : q ∈ (expand? fs p).getD []) :
    ∃ location, StandsFor fs p q location := by
  rw [expand?] at h
  cases hlocate : fs.locate? p with
  | none => simp [hlocate] at h
  | some location =>
    rw [hlocate, Option.bind_some] at h
    cases hentry : fs.at? location with
    | none => simp [hentry] at h
    | some entry =>
      rw [hentry, Option.map_some, Option.getD_some] at h
      cases entry with
      | file content =>
        obtain rfl := List.mem_singleton.mp h
        exact ⟨location, .file hlocate hentry⟩
      | directory =>
        obtain ⟨names, name, rfl, hfound, hwanted⟩ := mem_wantedBelow.mp h
        exact ⟨_, .below hlocate hentry hfound (isWanted_iff.mp hwanted)⟩

theorem pairwise_expand? (htree : fs.IsTree) (p : Path) :
    ((expand? fs p).getD []).Pairwise fun q r => q.names < r.names := by
  rw [expand?]
  cases fs.locate? p with
  | none => exact List.Pairwise.nil
  | some location =>
    rw [Option.bind_some]
    cases fs.at? location with
    | none => exact List.Pairwise.nil
    | some entry =>
      cases entry with
      | file content => exact List.pairwise_singleton _ _
      | directory => exact pairwise_wantedBelow htree p location

/-! ## First occurrences -/

/-- Of a list that is read from left to right, the entries before which none has the same key. -/
inductive Firsts {α β : Type} (key : α → β) : List α → List α → Prop where
  | nil : Firsts key [] []
  | new {all kept : List α} {a : α} : Firsts key all kept → (∀ b ∈ all, key b ≠ key a) →
      Firsts key (all ++ [a]) (kept ++ [a])
  | again {all kept : List α} {a b : α} : Firsts key all kept → b ∈ all → key b = key a →
      Firsts key (all ++ [a]) kept

namespace Firsts

variable {α β : Type} {key : α → β} {all kept : List α}

theorem subset (h : Firsts key all kept) : kept ⊆ all := by
  induction h with
  | nil => exact List.Subset.refl _
  | new _ _ ih => exact List.append_subset.mpr ⟨List.subset_append_of_subset_left _ ih,
      List.subset_append_right _ _⟩
  | again _ _ _ ih => exact List.subset_append_of_subset_left _ ih

theorem nodup (h : Firsts key all kept) : (kept.map key).Nodup := by
  induction h with
  | nil => exact List.nodup_nil
  | @new all kept a hfirsts hnew ih =>
    rw [List.map_append, List.map_singleton, ← List.concat_eq_append]
    apply ih.concat
    intro hmem
    obtain ⟨b, hb, heq⟩ := List.mem_map.mp hmem
    exact hnew b (hfirsts.subset hb) heq
  | again _ _ _ ih => exact ih

theorem exists_key_eq (h : Firsts key all kept) {a : α} (ha : a ∈ all) :
    ∃ b ∈ kept, key b = key a := by
  induction h generalizing a with
  | nil => exact absurd ha List.not_mem_nil
  | new _ _ ih =>
    rcases List.mem_append.mp ha with ha | ha
    · obtain ⟨b, hb, hkey⟩ := ih ha
      exact ⟨b, List.mem_append_left _ hb, hkey⟩
    · exact ⟨a, List.mem_append_right _ ha, rfl⟩
  | again _ hagain heq ih =>
    rcases List.mem_append.mp ha with ha | ha
    · exact ih ha
    · obtain ⟨b, hb, hkey⟩ := ih hagain
      obtain rfl := List.mem_singleton.mp ha
      exact ⟨b, hb, hkey.trans heq⟩

end Firsts

/-- Only the members of the list of seen locations matter, not their order. -/
theorem distinct_congr {seen seen' : List (Option (List String))} (paths : List Path)
    (h : ∀ location, location ∈ seen ↔ location ∈ seen') :
    distinct fs seen paths = distinct fs seen' paths := by
  induction paths generalizing seen seen' with
  | nil => rfl
  | cons p rest ih =>
    have hcontains : seen.contains (fs.locate? p) = seen'.contains (fs.locate? p) := by
      rw [Bool.eq_iff_iff, List.contains_iff_mem, List.contains_iff_mem, h]
    rw [distinct, distinct, hcontains, ih h]
    have hstep :
        distinct fs (fs.locate? p :: seen) rest = distinct fs (fs.locate? p :: seen') rest :=
      ih fun location => by rw [List.mem_cons, List.mem_cons, h]
    rw [hstep]

theorem distinct_append (seen : List (Option (List String))) (paths more : List Path) :
    distinct fs seen (paths ++ more) =
      distinct fs seen paths ++ distinct fs (paths.map fs.locate? ++ seen) more := by
  induction paths generalizing seen with
  | nil => rfl
  | cons p rest ih =>
    rw [List.cons_append, distinct, distinct, List.map_cons]
    by_cases hseen : seen.contains (fs.locate? p) = true
    · rw [if_pos hseen, if_pos hseen, ih]
      congr 1
      apply distinct_congr
      intro location
      rw [List.contains_iff_mem] at hseen
      rw [List.cons_append, List.mem_cons, List.mem_append]
      constructor
      · exact .inr
      · rintro (rfl | h)
        · exact .inr hseen
        · exact h
    · rw [if_neg hseen, if_neg hseen, ih, List.cons_append]
      congr 2
      apply distinct_congr
      intro location
      simp only [List.cons_append, List.mem_append, List.mem_cons]
      tauto

theorem distinct_eq_nil {seen : List (Option (List String))} {paths : List Path}
    (h : ∀ p ∈ paths, fs.locate? p ∈ seen) : distinct fs seen paths = [] := by
  induction paths with
  | nil => rfl
  | cons p rest ih =>
    rw [distinct, if_pos (List.contains_iff_mem.mpr (h p List.mem_cons_self))]
    exact ih fun q hq => h q (List.mem_cons_of_mem _ hq)

theorem firsts_distinct (fs : FileSystem) (paths : List Path) :
    Firsts fs.locate? paths (distinct fs [] paths) := by
  induction paths using List.reverseRecOn with
  | nil => exact .nil
  | append_singleton paths p ih =>
    rw [distinct_append, List.append_nil, distinct]
    by_cases hseen : fs.locate? p ∈ paths.map fs.locate?
    · rw [if_pos (List.contains_iff_mem.mpr hseen), distinct, List.append_nil]
      obtain ⟨q, hq, heq⟩ := List.mem_map.mp hseen
      exact .again ih hq heq
    · rw [if_neg (mt List.contains_iff_mem.mp hseen), distinct]
      exact .new ih fun q hq heq => hseen (List.mem_map.mpr ⟨q, hq, heq⟩)

/-! ## All together -/

/-- The paths that some arguments stand for, one argument after the other. -/
def occurrences (fs : FileSystem) (args : List String) : List Path :=
  (args.map Path.ofString).flatMap fun p => (expand? fs p).getD []

theorem collect_eq (fs : FileSystem) (args : List String) :
    collect fs args = distinct fs [] (occurrences fs args) :=
  rfl

theorem occurrences_append (fs : FileSystem) (args more : List String) :
    occurrences fs (args ++ more) = occurrences fs args ++ occurrences fs more := by
  rw [occurrences, List.map_append, List.flatMap_append]
  rfl

theorem mem_occurrences_iff {args : List String} {q : Path} :
    q ∈ occurrences fs args ↔
      ∃ arg ∈ args, ∃ location, StandsFor fs (Path.ofString arg) q location := by
  simp only [occurrences, List.flatMap_map, List.mem_flatMap]
  constructor
  · rintro ⟨arg, harg, hq⟩
    exact ⟨arg, harg, exists_standsFor_of_mem hq⟩
  · rintro ⟨arg, harg, _, h⟩
    exact ⟨arg, harg, mem_expand?_of_standsFor h⟩

theorem exists_standsFor_of_mem_collect {args : List String} {q : Path}
    (h : q ∈ collect fs args) :
    ∃ arg ∈ args, ∃ location, StandsFor fs (Path.ofString arg) q location :=
  mem_occurrences_iff.mp ((firsts_distinct fs (occurrences fs args)).subset h)

/-- What is collected from some arguments. -/
structure CollectsOnce (fs : FileSystem) (args : List String) (collected : List Path) : Prop where
  /-- Every collected path leads somewhere, and no two lead to the same place. -/
  leads : ∀ q ∈ collected, ∃ location, fs.locate? q = some location
  nodup : (collected.map fs.locate?).Nodup
  /-- A path to a location is collected exactly if an argument stands for one. -/
  mem_iff : ∀ location, (∃ q ∈ collected, fs.locate? q = some location) ↔
    ∃ arg ∈ args, ∃ q, StandsFor fs (Path.ofString arg) q location
  /-- The arguments stand for paths, each argument in their order, and of all these the collected
  ones are the first to lead where they do. -/
  firsts : ∃ lists : List (List Path),
    List.Forall₂ (fun arg list => (list.Pairwise fun q r => q.names < r.names) ∧
      ∀ q, q ∈ list ↔ ∃ location, StandsFor fs (Path.ofString arg) q location) args lists ∧
    Firsts fs.locate? lists.flatten collected

theorem collectsOnce (htree : fs.IsTree) (args : List String) :
    CollectsOnce fs args (collect fs args) where
  leads q hq := by
    obtain ⟨arg, -, location, h⟩ := exists_standsFor_of_mem_collect hq
    exact ⟨location, h.locate?_eq htree⟩
  nodup := (firsts_distinct fs (occurrences fs args)).nodup
  mem_iff location := by
    constructor
    · rintro ⟨q, hq, hlocate⟩
      obtain ⟨arg, harg, location', h⟩ := exists_standsFor_of_mem_collect hq
      obtain rfl := Option.some.inj (hlocate.symm.trans (h.locate?_eq htree))
      exact ⟨arg, harg, q, h⟩
    · rintro ⟨arg, harg, q, h⟩
      have hq : q ∈ occurrences fs args := mem_occurrences_iff.mpr ⟨arg, harg, location, h⟩
      obtain ⟨r, hr, heq⟩ := (firsts_distinct fs _).exists_key_eq hq
      exact ⟨r, hr, heq.trans (h.locate?_eq htree)⟩
  firsts := by
    refine ⟨args.map fun arg => (expand? fs (Path.ofString arg)).getD [], ?_, ?_⟩
    · rw [List.forall₂_map_right_iff, List.forall₂_same]
      exact fun arg _ => ⟨pairwise_expand? htree _,
        fun q => ⟨exists_standsFor_of_mem, fun ⟨_, h⟩ => mem_expand?_of_standsFor h⟩⟩
    · rw [← List.flatMap_def, collect_eq, occurrences, List.flatMap_map]
      exact firsts_distinct fs _

/-- In a tree of files every file that the arguments stand for is collected once, in the spelling
and at the place of its first occurrence.  More arguments only add at the end, and arguments that
are repeated add nothing. -/
theorem collect_each_once (fs : FileSystem) (htree : fs.IsTree) (args : List String) :
    CollectsOnce fs args (collect fs args) ∧
      (∀ more, collect fs args <+: collect fs (args ++ more)) ∧
      collect fs (args ++ args) = collect fs args := by
  refine ⟨collectsOnce htree args, fun more => ?_, ?_⟩
  · rw [collect_eq, collect_eq, occurrences_append, distinct_append]
    exact List.prefix_append _ _
  · have hnone :
        distinct fs ((occurrences fs args).map fs.locate? ++ []) (occurrences fs args) = [] :=
      distinct_eq_nil fun q hq => List.mem_append_left _ (List.mem_map_of_mem hq)
    rw [collect_eq, collect_eq, occurrences_append, distinct_append, hnone, List.append_nil]

/-- A directory with a diagram of its own and another one below it, beside a plain text. -/
def smallTree : FileSystem where
  workingDirectory := ["home"]
  entries := [(["home"], .directory), (["home", "docs"], .directory),
    (["home", "docs", "sub"], .directory), (["home", "docs", "sub", "b.mmd"], .file .empty),
    (["home", "docs", "sub", "c.txt"], .file .empty), (["home", "docs", "a.md"], .file .empty)]

theorem collect_each_once_smallTree :
    smallTree.IsTree ∧
      CollectsOnce smallTree ["docs/sub/../a.md", "./docs", "docs//sub/c.txt", "docs/sub"]
        [⟨"", ["docs", "sub", "..", "a.md"]⟩, ⟨"", ["docs", "sub", "b.mmd"]⟩,
          ⟨"", ["docs", "sub", "c.txt"]⟩] := by
  have htree : smallTree.IsTree := ⟨by decide, by decide, by decide⟩
  have hcollect : collect smallTree ["docs/sub/../a.md", "./docs", "docs//sub/c.txt", "docs/sub"] =
      [⟨"", ["docs", "sub", "..", "a.md"]⟩, ⟨"", ["docs", "sub", "b.mmd"]⟩,
        ⟨"", ["docs", "sub", "c.txt"]⟩] := by
    cbv
  have h := (collect_each_once smallTree htree
    ["docs/sub/../a.md", "./docs", "docs//sub/c.txt", "docs/sub"]).1
  rw [hcollect] at h
  exact ⟨htree, h⟩

end Source

end DiagramReadability
