import DiagramReadability.Proofs.Config.Override
import Mathlib

/-!
# The order of settings

The last setting that touches a field decides what the field holds.  Main statement: this fixes
what a run of settings comes to, the width and the height never meet, and two settings in a row may
change places unless one of them is for a greatest size and the other for a step below it
(`foldl_override_overlays`).
-/

namespace DiagramReadability

namespace Field

/-- The greatest width and the steps below it. -/
def ofWidth : List Field := [maxWidth, widthInfo, widthWarning]

/-- The greatest height and the steps below it. -/
def ofHeight : List Field := [maxHeight, heightInfo, heightWarning]

theorem not_mem_ofHeight_of_mem_ofWidth {field : Field} (h : field ∈ ofWidth) :
    field ∉ ofHeight := by
  revert h
  cases field <;> decide

theorem greatest?_ne_of_step {field greatest : Field} (h : field.greatest? = some greatest)
    (other : Field) : other.greatest? ≠ some field := by
  intro hother
  cases other <;> cases hother <;> cases h

end Field

namespace Setting

/-- A setting touches its own field and, if that is a greatest size, the steps below it. -/
def Touches (s : Setting) (field : Field) : Prop :=
  s.field = field ∨ field.greatest? = some s.field

instance (s : Setting) (field : Field) : Decidable (s.Touches field) :=
  inferInstanceAs (Decidable (_ ∨ _))

variable {settings : List Setting} {field greatest : Field}

theorem effect?_of_not_touches {s : Setting} (h : ¬ s.Touches field) : s.effect? field = none := by
  obtain ⟨changed, v⟩ := s
  rw [Touches, not_or] at h
  rw [effect?_of_ne h.1, Field.dropped?_of_ne h.2]

theorem effect?_of_greatest (h : field.greatest? = some greatest) (v : greatest.Value) :
    (Setting.mk greatest v).effect? field = field.derived? := by
  have hne : greatest ≠ field := by
    rintro rfl
    exact greatest.greatest?_ne_self h
  rw [effect?_of_ne hne, Field.dropped?, if_pos h]

/-- What touches one of some fields is for one of them, if their greatest sizes are among them. -/
theorem Touches.mem {s : Setting} {fields : List Field} (h : s.Touches field)
    (hclosed : ∀ f ∈ fields, ∀ g ∈ f.greatest?, g ∈ fields) (hfield : field ∈ fields) :
    s.field ∈ fields := by
  rcases h with rfl | h
  · exact hfield
  · exact hclosed field hfield s.field h

theorem Touches.mem_ofWidth {s : Setting} (h : s.Touches field) (hfield : field ∈ Field.ofWidth) :
    s.field ∈ Field.ofWidth :=
  h.mem (by decide) hfield

theorem Touches.mem_ofHeight {s : Setting} (h : s.Touches field)
    (hfield : field ∈ Field.ofHeight) : s.field ∈ Field.ofHeight :=
  h.mem (by decide) hfield

theorem lastEffect?_of_not_touches (h : ∀ s ∈ settings, ¬ s.Touches field) :
    lastEffect? settings field = none := by
  rw [lastEffect?, List.findSome?_eq_none_iff]
  intro s hs
  exact effect?_of_not_touches (h s (List.mem_reverse.mp hs))

theorem lastEffect?_of_last {earlier later : List Setting} (s : Setting)
    (h : ∀ t ∈ later, ¬ t.Touches field) :
    lastEffect? (earlier ++ s :: later) field =
      (s.effect? field).or (lastEffect? earlier field) := by
  rw [List.append_cons, lastEffect?_append, lastEffect?_append, lastEffect?_singleton,
    lastEffect?_of_not_touches h, Option.none_or]

theorem lastEffect?_pair (s t : Setting) :
    lastEffect? [s, t] field = (t.effect? field).or (s.effect? field) := by
  rw [← List.singleton_append, lastEffect?_append, lastEffect?_singleton, lastEffect?_singleton]

/-- No field is touched by both of two settings if neither touches the other's own field. -/
theorem not_touches_of_touches {s t : Setting} (hst : ¬ s.Touches t.field)
    (hts : ¬ t.Touches s.field) (hs : s.Touches field) : ¬ t.Touches field := by
  rintro (ht | ht)
  · exact hst (ht ▸ hs)
  -- What is left is a step of the greatest size that `t` sets, and a step has only one of these.
  · rcases hs with hs | hs
    · exact hts (.inr (hs ▸ ht))
    · exact hst (.inl (Option.some.inj (hs.symm.trans ht)))

theorem lastEffect?_swap {s t : Setting} (hst : ¬ s.Touches t.field) (hts : ¬ t.Touches s.field) :
    lastEffect? [s, t] field = lastEffect? [t, s] field := by
  rw [lastEffect?_pair, lastEffect?_pair]
  by_cases hs : s.Touches field
  · rw [effect?_of_not_touches (not_touches_of_touches hst hts hs), Option.or_none, Option.none_or]
  · rw [effect?_of_not_touches hs, Option.or_none, Option.none_or]

/-- Settings that do not touch a field may be left out. -/
theorem lastEffect?_filter {p : Setting → Bool} (h : ∀ s ∈ settings, s.Touches field → p s) :
    lastEffect? (settings.filter p) field = lastEffect? settings field := by
  induction settings using List.reverseRecOn with
  | nil => rfl
  | append_singleton settings s ih =>
    have hearlier := ih fun t ht => h t (List.mem_append_left [s] ht)
    rw [List.filter_append, lastEffect?_append, lastEffect?_append, hearlier]
    congr 1
    by_cases hs : p s
    · rw [List.filter_cons_of_pos hs, List.filter_nil]
    · have hnot : ¬ s.Touches field := fun ht => hs (h s (by simp) ht)
      rw [List.filter_cons_of_neg hs, List.filter_nil, lastEffect?_singleton,
        effect?_of_not_touches hnot]
      rfl

end Setting

namespace Config

open Setting (lastEffect?)

variable {c : Config} {settings : List Setting}

theorem presetName_foldl_override (c : Config) (settings : List Setting) :
    (settings.foldl override c).presetName =
      if settings = [] then c.presetName else "custom" := by
  induction settings using List.reverseRecOn with
  | nil => rfl
  | append_singleton settings s ih =>
    rw [List.foldl_append, if_neg (by simp)]
    rfl

/-- Two runs of as many settings come to the same if every field is left the same by both. -/
theorem foldl_override_congr {settings' : List Setting}
    (hlength : settings.length = settings'.length)
    (heffect : ∀ field, lastEffect? settings field = lastEffect? settings' field) :
    settings.foldl override c = settings'.foldl override c := by
  apply ext_get
  · intro field
    rw [get_foldl_override, get_foldl_override, heffect]
  · have hnil : settings = [] ↔ settings' = [] := by
      rw [← List.length_eq_zero_iff, ← List.length_eq_zero_iff, hlength]
    rw [presetName_foldl_override, presetName_foldl_override]
    simp only [hnil]

theorem get_foldl_override_filter {field : Field} {p : Setting → Bool}
    (h : ∀ s ∈ settings, s.Touches field → p s) :
    ((settings.filter p).foldl override c).get field = (settings.foldl override c).get field := by
  rw [get_foldl_override, get_foldl_override, Setting.lastEffect?_filter h]

theorem foldl_override_swap (before after : List Setting) {s t : Setting}
    (hst : ¬ s.Touches t.field) (hts : ¬ t.Touches s.field) :
    (before ++ s :: t :: after).foldl override c =
      (before ++ t :: s :: after).foldl override c := by
  apply foldl_override_congr
  · simp
  · intro field
    have hcons : ∀ a b : Setting, before ++ a :: b :: after = before ++ ([a, b] ++ after) :=
      fun _ _ => rfl
    rw [hcons, hcons]
    simp only [Setting.lastEffect?_append, Setting.lastEffect?_swap hst hts]

/-- A greatest size and a step below it may change places only if the step is to follow from the
greatest size anyway. -/
theorem override_step_comm_iff {field greatest : Field} (h : field.greatest? = some greatest)
    (v : greatest.Value) (w : field.Value) :
    [⟨greatest, v⟩, ⟨field, w⟩].foldl override c = [⟨field, w⟩, ⟨greatest, v⟩].foldl override c ↔
      some w = field.derived? := by
  obtain ⟨zero, hzero⟩ := Field.exists_derived h
  have hgreatest := Setting.effect?_of_greatest h v
  -- Only the step itself can tell the two orders apart.
  constructor
  · intro hsame
    have hget := congrArg (fun d => d.get field) hsame
    simp only [get_foldl_override, Setting.lastEffect?_pair, Setting.effect?_self, hgreatest,
      hzero] at hget
    rw [hzero]
    exact congrArg some hget
  · intro hw
    apply foldl_override_congr (by rfl)
    intro other
    rw [Setting.lastEffect?_pair, Setting.lastEffect?_pair]
    by_cases hother : field = other
    · subst hother
      rw [Setting.effect?_self, hgreatest, ← hw]
    · have hnot : ¬ (Setting.mk field w).Touches other := by
        rintro (hfield | hstep)
        · exact hother hfield
        · exact Field.greatest?_ne_of_step h other hstep
      rw [Setting.effect?_of_not_touches hnot, Option.or_none, Option.none_or]

/-- What a run of settings makes of a configuration, said by the last setting that touches a
field. -/
structure Overlays (c : Config) (settings : List Setting) (d : Config) : Prop where
  given : ∀ {field : Field} {v : field.Value} {earlier later : List Setting},
    settings = earlier ++ ⟨field, v⟩ :: later → (∀ s ∈ later, ¬ s.Touches field) → d.get field = v
  dropped : ∀ {field greatest : Field} {v : greatest.Value} {earlier later : List Setting},
    field.greatest? = some greatest → settings = earlier ++ ⟨greatest, v⟩ :: later →
    (∀ s ∈ later, ¬ s.Touches field) → some (d.get field) = field.derived?
  kept : ∀ {field : Field}, (∀ s ∈ settings, ¬ s.Touches field) → d.get field = c.get field

theorem overlays_foldl_override (c : Config) (settings : List Setting) :
    c.Overlays settings (settings.foldl override c) where
  given hsettings hlater := by
    rw [get_foldl_override, hsettings, Setting.lastEffect?_of_last _ hlater, Setting.effect?_self]
    rfl
  dropped {field greatest v _ _} hg hsettings hlater := by
    obtain ⟨zero, hzero⟩ := Field.exists_derived hg
    rw [get_foldl_override, hsettings, Setting.lastEffect?_of_last _ hlater,
      Setting.effect?_of_greatest hg, hzero]
    rfl
  kept h := by
    rw [get_foldl_override, Setting.lastEffect?_of_not_touches h]
    rfl

/-- The last setting that touches a field decides what it holds: the field's own value, or nothing
but what follows from the greatest size.  Without the settings of the width, a run leaves the same
height, and the other way round.  Two settings in a row for different fields may change places,
unless one is for a greatest size and the other for a step below it; these two may only if the step
is one that follows from the greatest size. -/
theorem foldl_override_overlays (c : Config) (settings : List Setting) :
    c.Overlays settings (settings.foldl override c) ∧
      (∀ field ∈ Field.ofHeight,
        ((settings.filter fun s => s.field ∉ Field.ofWidth).foldl override c).get field =
          (settings.foldl override c).get field) ∧
      (∀ field ∈ Field.ofWidth,
        ((settings.filter fun s => s.field ∉ Field.ofHeight).foldl override c).get field =
          (settings.foldl override c).get field) ∧
      (∀ before s t after, settings = before ++ s :: t :: after → s.field ≠ t.field →
        s.field.greatest? ≠ some t.field → t.field.greatest? ≠ some s.field →
        settings.foldl override c = (before ++ t :: s :: after).foldl override c) ∧
      ∀ (field greatest : Field) (v : greatest.Value) (w : field.Value),
        field.greatest? = some greatest →
        ([⟨greatest, v⟩, ⟨field, w⟩].foldl override c =
            [⟨field, w⟩, ⟨greatest, v⟩].foldl override c ↔
          some w = field.derived?) := by
  refine ⟨overlays_foldl_override c settings, ?_, ?_, ?_, ?_⟩
  · -- what touches a field of the height is for a field of the height, and no field is in both
    intro field hfield
    apply get_foldl_override_filter
    intro s _ hs
    rw [decide_eq_true_eq]
    exact fun hwidth => Field.not_mem_ofHeight_of_mem_ofWidth hwidth (hs.mem_ofHeight hfield)
  · intro field hfield
    apply get_foldl_override_filter
    intro s _ hs
    rw [decide_eq_true_eq]
    exact Field.not_mem_ofHeight_of_mem_ofWidth (hs.mem_ofWidth hfield)
  · rintro before s t after rfl hne hs ht
    apply foldl_override_swap
    · rintro (h | h)
      · exact hne h
      · exact ht h
    · rintro (h | h)
      · exact hne h.symm
      · exact hs h
  · intro field greatest v w h
    exact override_step_comm_iff h v w

end Config

end DiagramReadability
